import Asl3Api.Runs.Lifecycle
import Asl3Api.Runs.System

/-!
# Admission

`Platform.admit` from every state of the runtime, reachable or not.

* `Refusal`: the ways an admission is refused, each with the reason in the state;
* `Unadmitted`: the answers of an admission that creates nothing;
* `findIdempotent_cases`, `existing_cases`, `transaction_cases`: the two lookups of a key, and the
  transaction;
* `admit_cases`, `admitOperation_cases`: the cases of an admission;
* **`admission_all_or_nothing`**: an admission creates one operation, or returns a stored one, or
  raises, and in the last two cases nothing has changed.
-/

set_option autoImplicit false

namespace Asl3

open Py Ledger

variable {p p' : Platform} {t t' : Table} {node kind credential : String} {request : PyValue}
  {key : Option String} {env : Env}

/-- The row an admission inserts. -/
def newRow (node kind : String) (request : PyValue) (credential : String) (key : Option String)
    (op : Operation) : Row :=
  ⟨op.id, node, credential, key, canonical kind request, op⟩

/-- The stored operation of a key, admitted with the same kind and request. -/
def Stored (t : Table) (node kind : String) (request : PyValue) (credential : String)
    (key : Option String) (op : Operation) : Prop :=
  ∃ r ∈ t, r.node = node ∧ r.credential = credential ∧ r.idempotencyKey = key ∧ key ≠ none ∧
    r.canonical = canonical kind request ∧ r.document = op

/-- The key of the request has a row that was admitted with another kind or request. -/
def Conflicting (t : Table) (node kind : String) (request : PyValue) (credential : String)
    (key : Option String) : Prop :=
  ∃ r ∈ t, r.node = node ∧ r.credential = credential ∧ r.idempotencyKey = key ∧ key ≠ none ∧
    r.canonical ≠ canonical kind request

/-- Why `admit` raises. -/
inductive Refusal (p : Platform) (t : Table) (kind : String) (request : PyValue) (credential : String)
    (key : Option String) (env : Env) : Error → Prop
  | unavailable {e : ProblemError} (h : p.requireLedger = .error e) :
      Refusal p t kind request credential key env (.problem e)
  | unsupported {e : Error} (h : commandFor p.node kind request = .error e) :
      Refusal p t kind request credential key env e
  | conflict {e : ProblemError} (h : Conflicting t p.node kind request credential key)
      (hs : e.status = 409) (hc : e.code = "IDEMPOTENCY_CONFLICT") :
      Refusal p t kind request credential key env (.problem e)
  | busy {id : String} (h : p.busyOperationId = some id) :
      Refusal p t kind request credential key env (.problem ⟨409, "NODE_BUSY",
        "Another control operation owns the node control slot."⟩)
  | malformed (h : Kind.ofName? kind = none ∨ (∀ es, request ≠ .dict es) ∨ isNode p.node = false) :
      Refusal p t kind request credential key env validationError
  /-- A statement or the commit fails, or the row violates a constraint. -/
  | sqlite (h : env.readOk = false ∨ env.commitOk = false ∨ ∃ op : Operation, op.id = env.uuid ∧
      violates t (newRow p.node kind request credential key op) = true) :
      Refusal p t kind request credential key env sqliteError

theorem requireLedger_eq_ok {p : Platform} :
    p.requireLedger = .ok () ↔
      p.ledger = true ∧ p.owner = true ∧ p.closing = false ∧ p.healthy = true := by
  unfold Platform.requireLedger
  cases p.ledger <;> cases p.owner <;> cases p.closing <;> cases p.healthy <;> simp

theorem requireLedger_isOk {p : Platform} (h : p.requireLedger.isOk = true) :
    p.requireLedger = .ok () := by
  cases hr : p.requireLedger with
  | ok u => rfl
  | error e =>
    rw [hr] at h
    cases h

/-- The answers of an admission that creates nothing: the operation the key selects, or a refusal. -/
inductive Unadmitted (p : Platform) (t : Table) (kind : String) (request : PyValue)
    (credential : String) (key : Option String) (env : Env) : Except Error Operation → Prop
  | stored {k : String} {row : Row} (hk : key = some k)
      (hrow : keyRow t p.node credential k = some row) (hc : row.canonical = canonical kind request) :
      Unadmitted p t kind request credential key env (.ok row.document)
  | refused {e : Error} (h : Refusal p t kind request credential key env e) :
      Unadmitted p t kind request credential key env (.error e)

theorem Unadmitted.stored_or_refusal {r : Except Error Operation}
    (h : Unadmitted p t kind request credential key env r) :
    (∃ op, r = .ok op ∧ Stored t p.node kind request credential key op) ∨
      ∃ e, r = .error e ∧ Refusal p t kind request credential key env e := by
  cases h with
  | stored hk hrow hc =>
    obtain ⟨hmem, hn, hcr, hkey⟩ := mem_of_keyRow hrow
    subst hk
    exact Or.inl ⟨_, rfl, _, hmem, hn, hcr, hkey, Option.some_ne_none _, hc, rfl⟩
  | refused h => exact Or.inr ⟨_, rfl, h⟩

/-- Both lookups compare the row that the key selects with the request. -/
theorem compared_cases {k : String} {row : Row} {e : ProblemError}
    (hrow : keyRow t p.node credential k = some row) (hs : e.status = 409)
    (hc : e.code = "IDEMPOTENCY_CONFLICT") {r : Except Error (Option Operation)}
    (h : (if row.canonical ≠ canonical kind request then .error (.problem e)
      else .ok (some row.document)) = r) :
    (∃ op, r = .ok (some op) ∧ Unadmitted p t kind request credential (some k) env (.ok op)) ∨
      ∃ e, r = .error e ∧ Unadmitted p t kind request credential (some k) env (.error e) := by
  subst h
  by_cases hne : row.canonical ≠ canonical kind request
  · obtain ⟨hmem, hn, hcr, hkey⟩ := mem_of_keyRow hrow
    exact Or.inr ⟨_, if_pos hne, .refused
      (.conflict ⟨row, hmem, hn, hcr, hkey, Option.some_ne_none k, hne⟩ hs hc)⟩
  · exact Or.inl ⟨_, if_neg hne, .stored rfl hrow (not_not.mp hne)⟩

theorem findIdempotent_cases {r : Except Error (Option Operation)}
    (h : findIdempotent t p.node kind request credential key env.readOk = r) :
    r = .ok none ∨
      (∃ op, r = .ok (some op) ∧ Unadmitted p t kind request credential key env (.ok op)) ∨
      ∃ e, r = .error e ∧ Unadmitted p t kind request credential key env (.error e) := by
  unfold findIdempotent at h
  cases key with
  | none => exact Or.inl h.symm
  | some k =>
    by_cases hr : env.readOk = false
    · simp only [if_pos hr] at h
      exact Or.inr (Or.inr ⟨_, h.symm, .refused (.sqlite (.inl hr))⟩)
    simp only [if_neg hr] at h
    cases hk : keyRow t p.node credential k with
    | none =>
      simp only [hk] at h
      exact Or.inl h.symm
    | some row =>
      simp only [hk] at h
      exact Or.inr (compared_cases hk rfl rfl h)

variable (env) in
theorem existing_cases {r : Except Error (Option Operation)}
    (h : existing t p.node kind request credential key = r) :
    r = .ok none ∨
      (∃ op, r = .ok (some op) ∧ Unadmitted p t kind request credential key env (.ok op)) ∨
      ∃ e, r = .error e ∧ Unadmitted p t kind request credential key env (.error e) := by
  unfold existing at h
  cases key with
  | none => exact Or.inl h.symm
  | some k =>
    cases hk : keyRow t p.node credential k with
    | none =>
      simp only [hk] at h
      exact Or.inl h.symm
    | some row =>
      simp only [hk] at h
      exact Or.inr (compared_cases hk rfl rfl h)

/-- The constructor `Operation(...)` refuses an unknown kind, a request that is no dict and a node
that is not canonical. -/
theorem newOperation_error {e : Error}
    (h : newOperation node kind request credential env = .error e) : e = validationError ∧
      (Kind.ofName? kind = none ∨ (∀ es, request ≠ .dict es) ∨ isNode node = false) := by
  unfold newOperation at h
  cases hk : Kind.ofName? kind with
  | none =>
    simp only [hk] at h
    cases h
    exact ⟨rfl, Or.inl rfl⟩
  | some k =>
    cases request with
    | dict es =>
      simp only [hk] at h
      split_ifs at h with hn
      cases h
      exact ⟨rfl, Or.inr (Or.inr (Bool.eq_false_of_not_eq_true hn))⟩
    | _ =>
      simp only [hk] at h
      cases h
      exact ⟨rfl, Or.inr (Or.inl nofun)⟩

/-- What the transaction of an admission does: it inserts one row, or it changes nothing and
answers from a stored row, or it changes nothing and raises. -/
theorem transaction_cases {r : Except Error (Operation × Bool)}
    (h : Ledger.admitOperation t p.node kind request credential key env = (r, t')) :
    (∃ op, r = .ok (op, true) ∧ newOperation p.node kind request credential env = .ok op ∧
      existing t p.node kind request credential key = .ok none ∧
      violates t (newRow p.node kind request credential key op) = false ∧
      t' = t ++ [newRow p.node kind request credential key op]) ∨
    t' = t ∧
      ((∃ op, r = .ok (op, false) ∧ Unadmitted p t kind request credential key env (.ok op)) ∨
        ∃ e, r = .error e ∧ Unadmitted p t kind request credential key env (.error e)) := by
  unfold Ledger.admitOperation at h
  by_cases hc : env.commitOk = false
  · rw [if_pos hc] at h
    cases h
    exact Or.inr ⟨rfl, Or.inr ⟨_, rfl, .refused (.sqlite (.inr (.inl hc)))⟩⟩
  rw [if_neg hc] at h
  rcases existing_cases (p := p) env (r := existing t p.node kind request credential key) rfl with
    hx | ⟨op, hx, hu⟩ | ⟨e, hx, hu⟩
  · simp only [hx] at h
    cases hn : newOperation p.node kind request credential env with
    | error e =>
      simp only [hn] at h
      cases h
      obtain ⟨rfl, hm⟩ := newOperation_error hn
      exact Or.inr ⟨rfl, Or.inr ⟨_, rfl, .refused (.malformed hm)⟩⟩
    | ok op =>
      simp only [hn] at h
      split_ifs at h with hv
      · cases h
        have hid := (newOperation_eq_ok hn).2.2.1
        exact Or.inr ⟨rfl, Or.inr ⟨_, rfl, .refused (.sqlite (.inr (.inr ⟨op, hid, hv⟩)))⟩⟩
      · cases h
        exact Or.inl ⟨op, rfl, rfl, hx, Bool.eq_false_of_not_eq_true hv, rfl⟩
  · simp only [hx] at h
    cases h
    exact Or.inr ⟨rfl, Or.inl ⟨op, rfl, hu⟩⟩
  · simp only [hx] at h
    cases h
    exact Or.inr ⟨rfl, Or.inr ⟨e, rfl, hu⟩⟩

/-- **The cases of an admission**: a new operation, whose key had no row and which took the free
slot, or an answer that changes nothing. -/
theorem admit_cases {answer : Except Error Operation}
    (hadm : p.admitOperation t kind request credential key env = (answer, p', t')) :
    (∃ op, answer = .ok op ∧ p.requireLedger = .ok () ∧ p.busyOperationId = none ∧
        newOperation p.node kind request credential env = .ok op ∧
        existing t p.node kind request credential key = .ok none ∧
        violates t (newRow p.node kind request credential key op) = false ∧
        p' = { p with busyOperationId := some op.id,
                      tasks := p.tasks ++ [Platform.newWorker op.id] } ∧
        t' = t ++ [newRow p.node kind request credential key op]) ∨
      p' = p ∧ t' = t ∧ Unadmitted p t kind request credential key env answer := by
  unfold Platform.admitOperation at hadm
  cases hreq : p.requireLedger with
  | error e =>
    simp only [hreq] at hadm
    cases hadm
    exact Or.inr ⟨rfl, rfl, .refused (.unavailable hreq)⟩
  | ok u =>
    have hh := (requireLedger_eq_ok.mp hreq).2.2.2
    simp only [hreq] at hadm
    cases hcmd : commandFor p.node kind request with
    | error e =>
      simp only [hcmd] at hadm
      cases hadm
      exact Or.inr ⟨rfl, rfl, .refused (.unsupported hcmd)⟩
    | ok command =>
      simp only [hcmd] at hadm
      rw [if_neg (by simp [hh])] at hadm
      rcases findIdempotent_cases (p := p)
          (r := findIdempotent t p.node kind request credential key env.readOk) rfl with
        hf | ⟨op, hf, hu⟩ | ⟨e, hf, hu⟩
      · simp only [hf] at hadm
        cases hb : p.busyOperationId with
        | some id =>
          simp only [hb, Option.isSome_some, if_true] at hadm
          cases hadm
          exact Or.inr ⟨rfl, rfl, .refused (.busy hb)⟩
        | none =>
          -- the slot that a failed admission gives back was free before
          have hback : ({ p with busyOperationId := none } : Platform) = p := by
            rw [← hb]
          rw [hb, if_neg (by simp)] at hadm
          rcases htr : Ledger.admitOperation t p.node kind request credential key env with ⟨r, t₁⟩
          rw [htr] at hadm
          rcases transaction_cases htr with
            ⟨op, rfl, hnew, hx, hv, rfl⟩ | ⟨rfl, ⟨op, rfl, hu⟩ | ⟨e, rfl, hu⟩⟩
          · cases hadm
            exact Or.inl ⟨op, rfl, rfl, rfl, hnew, hx, hv, rfl, rfl⟩
          · cases hadm
            exact Or.inr ⟨hback, rfl, hu⟩
          · cases hadm
            exact Or.inr ⟨hback, rfl, hu⟩
      · simp only [hf] at hadm
        cases hadm
        exact Or.inr ⟨rfl, rfl, hu⟩
      · simp only [hf] at hadm
        cases hadm
        exact Or.inr ⟨rfl, rfl, hu⟩

/-- The cases of an admission, as a client sees them. -/
theorem admitOperation_cases {answer : Except Error Operation}
    (hadm : p.admitOperation t kind request credential key env = (answer, p', t')) :
    (∃ op, answer = .ok op ∧ op.id = env.uuid ∧ op.Admitted ∧ kind = op.kind.name ∧
        request = .dict op.request ∧ p.busyOperationId = none ∧
        t' = t ++ [newRow p.node kind request credential key op] ∧
        p' = { p with busyOperationId := some op.id,
                      tasks := p.tasks ++ [Platform.newWorker op.id] }) ∨
      p' = p ∧ t' = t ∧
        ((∃ op, answer = .ok op ∧ Stored t p.node kind request credential key op) ∨
          ∃ e, answer = .error e ∧ Refusal p t kind request credential key env e) := by
  rcases admit_cases hadm with ⟨op, rfl, -, hb, hnew, -, -, rfl, rfl⟩ | ⟨rfl, rfl, hu⟩
  · obtain ⟨hk, hd, hid, -, -, hq, hp, ht, -⟩ := newOperation_eq_ok hnew
    refine Or.inl ⟨op, rfl, hid, ?_, hk, hd, hb, rfl, rfl⟩
    unfold Operation.Admitted Operation.stage
    rw [hq, hp, ht]
  · exact Or.inr ⟨rfl, rfl, hu.stored_or_refusal⟩

/-- **Admission is all or nothing.** From every state, `admit` returns a new queued operation, with
its one row inserted, the free slot taken in its name and one worker created; or it returns the
operation its key has already; or it raises for one of the reasons of `Refusal`. In the last two
cases the runtime and the rows are those before the call. -/
theorem admission_all_or_nothing (p : Platform) (t : Table) (kind : String) (request : PyValue)
    (credential : String) (key : Option String) (env : Env) :
    ∃ answer p' t', p.admitOperation t kind request credential key env = (answer, p', t') ∧
      ((∃ op, answer = .ok op ∧ op.id = env.uuid ∧ op.Admitted ∧ kind = op.kind.name ∧
          request = .dict op.request ∧ p.busyOperationId = none ∧
          t' = t ++ [newRow p.node kind request credential key op] ∧
          p' = { p with busyOperationId := some op.id,
                        tasks := p.tasks ++ [Platform.newWorker op.id] }) ∨
        p' = p ∧ t' = t ∧
          ((∃ op, answer = .ok op ∧ Stored t p.node kind request credential key op) ∨
            ∃ e, answer = .error e ∧ Refusal p t kind request credential key env e)) := by
  rcases hadm : p.admitOperation t kind request credential key env with ⟨answer, p', t'⟩
  exact ⟨answer, p', t', rfl, admitOperation_cases hadm⟩

/-- The announcement that is admitted while the node is idle. -/
def idleAdmission : Except Error Operation × Platform × Table :=
  (Platform.fresh sampleConfig).admitOperation [] "announce" (.dict [("kind", .str "identify")])
    "operator" none { uuid := "a1" }

/-- On an idle node an announcement is admitted, and the next one, before its worker has run, is
refused and leaves the slot with the first. -/
theorem admission_all_or_nothing_busy : ∃ op p t e, idleAdmission = (.ok op, p, t) ∧
    t = [newRow "546051" "announce" (.dict [("kind", .str "identify")]) "operator" none op] ∧
    p.busyOperationId = some "a1" ∧ p.tasks = [Platform.newWorker "a1"] ∧
    p.admitOperation t "announce" (.dict [("kind", .str "status")]) "operator" none { uuid := "a2" } =
      (.error e, p, t) ∧
    Refusal p t "announce" (.dict [("kind", .str "status")]) "operator" none { uuid := "a2" } e := by
  obtain ⟨answer, p, t, hadm, h⟩ := admission_all_or_nothing (Platform.fresh sampleConfig) []
    "announce" (.dict [("kind", .str "identify")]) "operator" none { uuid := "a1" }
  have hone : t.length = 1 := by
    have : idleAdmission.2.2.length = 1 := by decide +kernel
    rwa [idleAdmission, hadm] at this
  rcases h with ⟨op, rfl, hid, -, -, -, -, ht, hp⟩ | ⟨-, rfl, -⟩
  · obtain ⟨answer', p', t', hadm', h'⟩ := admission_all_or_nothing p t "announce"
      (.dict [("kind", .str "status")]) "operator" none { uuid := "a2" }
    have hb : p.busyOperationId = some "a1" := by rw [hp, hid]
    rcases h' with ⟨-, -, -, -, -, -, hfree, -⟩ | ⟨rfl, rfl, ⟨op', rfl, hs⟩ | ⟨e, rfl, hr⟩⟩
    · rw [hb] at hfree
      cases hfree
    · -- a request without a key selects no stored operation
      obtain ⟨-, -, -, -, -, hk, -⟩ := hs
      exact absurd rfl hk
    · exact ⟨op, p', t', e, hadm, ht, hb, by rw [hp, hid]; rfl, hadm', hr⟩
  · cases hone

end Asl3
