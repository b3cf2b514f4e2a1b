import Asl3Api.Vnext.Api
import Asl3Api.Vnext.Table

/-!
# One ledger file for several nodes

Every statement of the ledger names its node, so a ledger works on the rows of its own node, and
as if there were no others.

* `restrict`: the rows of a node;
* `Confined`: a table has the rows of every other node, and at most one new id for this one;
* `get_restrict`, …, `list_restrict`: the reads;
* `Local`: a call gives the same result on the rows of its node, and is confined to them, with
  `update_local`, …, `admitOperation_local` for the writes, and `save_local`, `barrier_local`,
  `admit_local`, **`execute_local`** for the runtime.
-/

set_option autoImplicit false

namespace Asl3

open Py Ledger

/-- The rows of a node. -/
def restrict (node : String) (t : Table) : Table := t.filter fun r => r.node = node

/-- Only rows of the node differ, and their ids are the old ones, or the new one. -/
structure Confined (node : String) (new : Option String) (t t' : Table) : Prop where
  others : ∀ m ≠ node, restrict m t' = restrict m t
  ids : ∀ r' ∈ t', r'.node = node → (∃ r ∈ t, r.node = node ∧ r.id = r'.id) ∨ new = some r'.id

variable {node : String} {new : Option String} {t t' : Table}

theorem Confined.refl : Confined node new t t :=
  ⟨fun _ _ => rfl, fun r hr hn => Or.inl ⟨r, hr, hn, rfl⟩⟩

theorem mem_restrict {r : Row} : r ∈ restrict node t ↔ r ∈ t ∧ r.node = node := by
  unfold restrict
  rw [List.mem_filter, decide_eq_true_eq]

/-! ## Reads -/

/-- A search for a row of the node. -/
theorem find?_restrict (q : Row → Bool) (hq : ∀ r, q r = true → r.node = node) :
    (restrict node t).find? q = t.find? q := by
  unfold restrict
  rw [List.find?_filter]
  congr 1
  funext r
  by_cases h : q r = true
  · simp [h, hq r h]
  · simp [h]

theorem get_restrict (id : String) : Ledger.get (restrict node t) node id = Ledger.get t node id := by
  unfold Ledger.get
  rw [find?_restrict]
  intro r h
  simp only [Bool.and_eq_true, decide_eq_true_eq] at h
  exact h.2

theorem keyRow_restrict (credential key : String) :
    keyRow (restrict node t) node credential key = keyRow t node credential key := by
  unfold keyRow
  rw [find?_restrict]
  intro r h
  simp only [Bool.and_eq_true, decide_eq_true_eq] at h
  exact h.1.1

theorem findIdempotent_restrict (kind : String) (request : PyValue) (credential : String)
    (key : Option String) (readOk : Bool) :
    findIdempotent (restrict node t) node kind request credential key readOk =
      findIdempotent t node kind request credential key readOk := by
  unfold findIdempotent
  simp only [keyRow_restrict]

theorem existing_restrict (kind : String) (request : PyValue) (credential : String)
    (key : Option String) :
    existing (restrict node t) node kind request credential key =
      existing t node kind request credential key := by
  unfold existing
  simp only [keyRow_restrict]

theorem documents_restrict : documents (restrict node t) node = documents t node := by
  unfold documents restrict
  rw [List.filter_filter]
  simp

theorem list_restrict (limit offset : Nat) :
    list (restrict node t) node limit offset = list t node limit offset := by
  unfold list
  rw [documents_restrict]

/-! ## Writes -/

/-- The call gives the same result on the rows of its node, and is confined to them. -/
def Local (node : String) (new : Option String) (t : Table) {α : Type} (f : Table → α × Table) :
    Prop :=
  ∃ a t', f t = (a, t') ∧ f (restrict node t) = (a, restrict node t') ∧ Confined node new t t'

theorem setDocument_restrict (id : String) (op : Operation) :
    setDocument (restrict node t) node id op = restrict node (setDocument t node id op) := by
  unfold setDocument restrict
  rw [List.filter_map]
  congr 1
  refine List.filter_congr fun r _ => ?_
  simp only [Function.comp_apply]
  split_ifs <;> rfl

theorem confined_setDocument (id : String) (op : Operation) :
    Confined node new t (setDocument t node id op) := by
  refine ⟨fun m hm => ?_, fun r' hr' hn => ?_⟩
  · unfold setDocument restrict
    rw [List.filter_map]
    have hf : ((fun r : Row => decide (r.node = m)) ∘
        fun r => if r.id = id && r.node = node then { r with document := op } else r) =
          fun r => decide (r.node = m) := by
      funext r
      simp only [Function.comp_apply]
      split_ifs <;> rfl
    rw [hf]
    refine (List.map_congr_left fun r hr => ?_).trans (List.map_id _)
    have hrm := (List.mem_filter.mp hr).2
    rw [decide_eq_true_eq] at hrm
    rw [if_neg (by simp [hrm, hm])]
    rfl
  · obtain ⟨r, hr, rfl⟩ := mem_setDocument.mp hr'
    refine Or.inl ⟨r, hr, ?_, ?_⟩
    · rw [← hn]
      split_ifs <;> rfl
    · split_ifs <;> rfl

theorem update_local (id : String) (c : Changes) (env : Env) :
    Local node new t fun t => update t node id c env := by
  unfold Local update
  by_cases hc : env.commitOk = false
  · simp only [if_pos hc]
    exact ⟨_, t, rfl, rfl, .refl⟩
  · simp only [if_neg hc, get_restrict]
    cases hd : Ledger.get t node id with
    | none => exact ⟨_, t, rfl, rfl, .refl⟩
    | some op =>
      simp only [setDocument_restrict]
      exact ⟨_, _, rfl, rfl, confined_setDocument id _⟩

theorem startDispatch_local (id : String) (env : Env) :
    Local node new t fun t => startDispatch t node id env := by
  unfold Local startDispatch
  by_cases hr : env.readOk = false
  · simp only [if_pos hr]
    exact ⟨_, t, rfl, rfl, .refl⟩
  · simp only [if_neg hr, get_restrict]
    cases hd : Ledger.get t node id with
    | none => exact ⟨_, t, rfl, rfl, .refl⟩
    | some op =>
      by_cases hq : op.terminal = false ∧ op.dispatchStatus = .queued
      · simp only [if_pos hq]
        exact update_local id _ env
      · simp only [if_neg hq]
        exact ⟨_, t, rfl, rfl, .refl⟩

theorem recoverRow_local (op : Operation) (env : Env) :
    Local node new t fun t => recoverRow t node op env := by
  unfold Local recoverRow
  by_cases ht : op.terminal = true
  · simp only [if_pos ht]
    exact ⟨_, t, rfl, rfl, .refl⟩
  · simp only [if_neg ht]
    obtain ⟨r, t', h, h', hf⟩ : Local node new t fun t => update t node op.id (recoveryChange op) env :=
      update_local op.id _ env
    dsimp only at h h'
    rw [h, h']
    cases r with
    | error e => exact ⟨_, t', rfl, rfl, hf⟩
    | ok x => exact ⟨_, t', rfl, rfl, hf⟩

/-- No row of another node has the id. -/
def FreshId (node : String) (t : Table) (id : String) : Prop :=
  ∀ r ∈ t, r.node ≠ node → r.id ≠ id

/-- A row with a fresh id violates a constraint only because of the rows of its node. -/
theorem violates_restrict {row : Row} (hn : row.node = node) (hf : FreshId node t row.id) :
    violates (restrict node t) row = violates t row := by
  unfold violates restrict
  rw [List.any_filter, Bool.eq_iff_iff, List.any_eq_true, List.any_eq_true]
  refine exists_congr fun r => and_congr_right fun hr => ?_
  by_cases h : r.node = node
  · simp [h, hn]
  · simp [h, hn, hf r hr h]

theorem restrict_append {m : String} (row : Row) :
    restrict m (t ++ [row]) = restrict m t ++ if row.node = m then [row] else [] := by
  unfold restrict
  rw [List.filter_append, List.filter_singleton]
  by_cases h : row.node = m <;> simp [h]

theorem admitOperation_local {kind : String} {request : PyValue} {credential : String}
    {key : Option String} {env : Env} (hf : FreshId node t env.uuid) :
    Local node (some env.uuid) t fun t =>
      Ledger.admitOperation t node kind request credential key env := by
  unfold Local Ledger.admitOperation
  by_cases hc : env.commitOk = false
  · simp only [if_pos hc]
    exact ⟨_, t, rfl, rfl, .refl⟩
  simp only [if_neg hc, existing_restrict]
  cases hx : existing t node kind request credential key with
  | error e => exact ⟨_, t, rfl, rfl, .refl⟩
  | ok found =>
    cases found with
    | some op => exact ⟨_, t, rfl, rfl, .refl⟩
    | none =>
      cases hn : newOperation node kind request credential env with
      | error e => exact ⟨_, t, rfl, rfl, .refl⟩
      | ok op =>
        obtain ⟨-, -, hid, -⟩ := newOperation_eq_ok hn
        have hvio : violates (restrict node t) ⟨op.id, node, credential, key, canonical kind request,
            op⟩ = violates t ⟨op.id, node, credential, key, canonical kind request, op⟩ :=
          violates_restrict rfl (by rw [hid]; exact hf)
        simp only [hvio]
        split_ifs with hv
        · exact ⟨_, t, rfl, rfl, .refl⟩
        · refine ⟨_, _, rfl, ?_, fun m hm => ?_, fun r hr hrn => ?_⟩
          · rw [restrict_append, if_pos rfl]
          · rw [restrict_append, if_neg (fun h => hm h.symm), List.append_nil]
          · rcases List.mem_append.mp hr with hr | hr
            · exact Or.inl ⟨r, hr, hrn, rfl⟩
            · rw [List.mem_singleton.mp hr]
              exact Or.inr (congrArg some hid.symm)

/-! ## The runtime -/

/-- The same for a call of the runtime, which keeps its configuration. -/
def LocalCall (p : Platform) (new : Option String) (t : Table) {α : Type}
    (f : Table → α × Platform × Table) : Prop :=
  ∃ a p' t', f t = (a, p', t') ∧ f (restrict p.node t) = (a, p', restrict p.node t') ∧
    Confined p.node new t t' ∧ p'.config = p.config

/-- The same for a stretch of a worker. -/
def LocalStretch (p : Platform) (new : Option String) (t : Table)
    (f : Table → Platform × Table × Next) : Prop :=
  ∃ p' t' n, f t = (p', t', n) ∧ f (restrict p.node t) = (p', restrict p.node t', n) ∧
    Confined p.node new t t' ∧ p'.config = p.config

section

variable {p : Platform} {w : Worker}

theorem save_local (id : String) (c : Changes) (env : Env) :
    LocalCall p new t fun t => p.save t id c env := by
  unfold LocalCall Platform.save
  by_cases hl : p.ledger = true
  · simp only [if_pos hl]
    obtain ⟨r, t', h, h', hf⟩ : Local p.node new t fun t => update t p.node id c env :=
      update_local id c env
    dsimp only at h h'
    rw [h, h']
    cases r with
    | ok op => exact ⟨_, p, t', rfl, rfl, hf, rfl⟩
    | error e =>
      by_cases he : e = sqliteError
      · simp only [if_pos he]
        exact ⟨_, _, t', rfl, rfl, hf, rfl⟩
      · simp only [if_neg he]
        exact ⟨_, p, t', rfl, rfl, hf, rfl⟩
  · simp only [if_neg hl]
    exact ⟨_, p, t, rfl, rfl, .refl, rfl⟩

theorem getOperation_restrict (id : String) (env : Env) :
    p.getOperation (restrict p.node t) id env = p.getOperation t id env := by
  unfold Platform.getOperation
  rw [get_restrict]

theorem barrier_local (id : String) (env : Env) :
    Local p.node new t fun t => p.barrier t id env := by
  unfold Local Platform.barrier
  cases hr : p.requireLedger with
  | error e => exact ⟨_, t, rfl, rfl, .refl⟩
  | ok u =>
    obtain ⟨r, t', h, h', hf⟩ : Local p.node new t fun t => startDispatch t p.node id env :=
      startDispatch_local id env
    dsimp only at h h' ⊢
    rw [h, h']
    cases r with
    | error e => exact ⟨_, t', rfl, rfl, hf⟩
    | ok op => exact ⟨_, t', rfl, rfl, hf⟩

theorem admit_local {kind : String} {request : PyValue} {credential : String} {key : Option String}
    {env : Env} (hf : FreshId p.node t env.uuid) :
    LocalCall p (some env.uuid) t fun t => p.admitOperation t kind request credential key env := by
  unfold LocalCall Platform.admitOperation
  cases hr : p.requireLedger with
  | error e => exact ⟨_, p, t, rfl, rfl, .refl, rfl⟩
  | ok u =>
    cases hc : commandFor p.node kind request with
    | error e => exact ⟨_, p, t, rfl, rfl, .refl, rfl⟩
    | ok command =>
      dsimp only
      by_cases hh : p.healthy = false
      · simp only [if_pos hh]
        exact ⟨_, p, t, rfl, rfl, .refl, rfl⟩
      simp only [if_neg hh, findIdempotent_restrict]
      cases hi : findIdempotent t p.node kind request credential key env.readOk with
      | error e => exact ⟨_, p, t, rfl, rfl, .refl, rfl⟩
      | ok found =>
        cases found with
        | some op => exact ⟨_, p, t, rfl, rfl, .refl, rfl⟩
        | none =>
          by_cases hb : p.busyOperationId.isSome = true
          · simp only [if_pos hb]
            exact ⟨_, p, t, rfl, rfl, .refl, rfl⟩
          simp only [if_neg hb]
          obtain ⟨r, t', h, h', hcf⟩ : Local p.node (some env.uuid) t fun t =>
            Ledger.admitOperation t p.node kind request credential key env := admitOperation_local hf
          dsimp only at h h'
          rw [h, h']
          rcases r with e | ⟨op, _ | _⟩
          · exact ⟨_, _, t', rfl, rfl, hcf, rfl⟩
          · exact ⟨_, _, t', rfl, rfl, hcf, rfl⟩
          · exact ⟨_, _, t', rfl, rfl, hcf, rfl⟩

/-! ## Stretches of a worker -/

/-- A stretch that leaves the table alone. -/
theorem local_const (n : Next) : LocalStretch p new t fun t => (p, t, n) :=
  ⟨p, t, n, rfl, rfl, .refl, rfl⟩

theorem saveAndReturn_local (id : String) (c : Changes) (env : Env) :
    LocalStretch p new t fun t => Execute.saveAndReturn p t w id c env := by
  unfold LocalStretch Execute.saveAndReturn Execute.raises
  obtain ⟨r, p', t', h, h', hf, hc⟩ : LocalCall p new t fun t => p.save t id c env :=
    save_local id c env
  dsimp only at h h' ⊢
  rw [h, h']
  cases r with
  | error e => exact ⟨p', t', _, rfl, rfl, hf, hc⟩
  | ok op => exact ⟨p', t', _, rfl, rfl, hf, hc⟩

theorem enter_local (env : Env) : LocalStretch p new t fun t => Execute.enter p t w env := by
  unfold Execute.enter
  by_cases hc : p.closing ∨ p.healthy = false
  · simp only [if_pos hc]
    exact saveAndReturn_local _ _ env
  unfold LocalStretch
  simp only [if_neg hc, getOperation_restrict]
  cases hg : p.getOperation t w.id env with
  | error e => exact local_const _
  | ok found =>
    cases found with
    | none => exact local_const _
    | some op =>
      by_cases hq : op.terminal ∨ op.dispatchStatus ≠ .queued
      · simp only [if_pos hq]
        exact local_const _
      · simp only [if_neg hq]
        exact local_const _

theorem observed_local (op : Operation) (before : NodeState) (env : Env) :
    LocalStretch p new t fun t => Execute.observed p t w op before env := by
  unfold Execute.observed
  cases (if op.kind ≠ .announce then effectStatus op before else .ok .notApplicable) with
  | error e => exact local_const _
  | ok current =>
    by_cases hs : op.kind ≠ .announce ∧ current = .observedSatisfied
    · simp only [if_pos hs]
      exact saveAndReturn_local _ _ env
    simp only [if_neg hs]
    cases TrafficPolicy.enforce p.config op.kind.name before with
    | error e =>
      cases e with
      | problem pe => exact saveAndReturn_local _ _ env
      | _ => exact local_const _
    | ok u =>
      cases commandFor p.node op.kind.name (.dict op.request) with
      | error e => exact local_const _
      | ok command => exact local_const _

theorem control_local (op : Operation) (command : String) (attempted : Bool) (actionId : String)
    (env : Env) :
    LocalStretch p new t fun t => Execute.control p t w op command attempted actionId env := by
  unfold Execute.control Execute.goesOn
  cases AMISession.beginControl attempted (Dispatch.controlFields command) actionId with
  | error e => exact local_const _
  | ok payload =>
    unfold LocalStretch
    obtain ⟨r, t', h, h', hf⟩ : Local p.node new t fun t => p.barrier t w.id env :=
      barrier_local w.id env
    dsimp only at h h' ⊢
    rw [h, h']
    cases r with
    | error e => exact ⟨p, t', _, rfl, rfl, hf, rfl⟩
    | ok u => exact ⟨p, t', _, rfl, rfl, hf, rfl⟩

theorem replied_local (op : Operation) (response : Message) (env : Env) :
    LocalStretch p new t fun t => Execute.replied p t w op response env := by
  unfold Execute.replied
  by_cases hs : w.started = false
  · simp only [if_pos hs]
    exact local_const _
  simp only [if_neg hs]
  cases commandRejected response with
  | error e => exact local_const _
  | ok b =>
    cases b with
    | true => exact saveAndReturn_local _ _ env
    | false =>
      dsimp only
      by_cases hr : response.lookup "response" ≠ some (.one "Success")
      · simp only [if_pos hr]
        exact local_const _
      simp only [if_neg hr]
      unfold LocalStretch Execute.goesOn Execute.raises
      obtain ⟨r, p', t', h, h', hf, hc⟩ : LocalCall p new t fun t =>
        p.save t w.id { dispatchStatus := some .acknowledged } env := save_local w.id _ env
      dsimp only at h h' ⊢
      rw [h, h']
      rcases r with e | _ | op'
      · exact ⟨p', t', _, rfl, rfl, hf, hc⟩
      · exact ⟨p', t', _, rfl, rfl, hf, hc⟩
      · by_cases hk : op.kind = .announce
        · simp only [if_pos hk]
          exact ⟨p', t', _, rfl, rfl, hf, hc⟩
        · simp only [if_neg hk]
          exact ⟨p', t', _, rfl, rfl, hf, hc⟩

theorem verified_local (op : Operation) (deadline : Rat) (lastState : NodeState) (env : Env) :
    LocalStretch p new t fun t => Execute.verified p t w op deadline lastState env := by
  unfold Execute.verified
  cases effectStatus op lastState with
  | error e => exact local_const _
  | ok lastEffect =>
    dsimp only
    by_cases hs : lastEffect = .observedSatisfied
    · simp only [if_pos hs]
      exact saveAndReturn_local _ _ env
    simp only [if_neg hs]
    by_cases hd : deadline ≤ env.time
    · simp only [if_pos hd]
      exact saveAndReturn_local _ _ env
    · simp only [if_neg hd]
      exact local_const _

theorem handled_local (e : Raised) (env : Env) :
    LocalStretch p new t fun t => Execute.handled p t w e env := by
  unfold LocalStretch Execute.handled
  obtain ⟨r, p', t', h, h', hf, hc⟩ : LocalCall p new t fun t =>
    p.save t w.id (Execute.handlerChange w.started e) env := save_local w.id _ env
  dsimp only at h h' ⊢
  rw [h, h']
  exact ⟨p', t', _, rfl, rfl, hf, hc⟩

/-- A stretch that is not enabled on the whole table is not enabled on the rows of the node, and
one that is enabled is local. -/
def LocalStep (p : Platform) (new : Option String) (t : Table)
    (f : Table → Option (Platform × Table × Next)) : Prop :=
  (f t = none ∧ f (restrict p.node t) = none) ∨
    ∃ g : Table → Platform × Table × Next, f = (fun t => some (g t)) ∧ LocalStretch p new t g

theorem thrown_local (e : Raised) : LocalStep p new t fun t => Execute.thrown p t w e := by
  unfold LocalStep Execute.thrown
  cases w.pc with
  | observing op => exact Or.inr ⟨_, rfl, local_const _⟩
  | verifying op deadline => exact Or.inr ⟨_, rfl, local_const _⟩
  | sleeping op deadline => exact Or.inr ⟨_, rfl, local_const _⟩
  | dispatching op command d =>
    dsimp only
    rcases d.throw e with _ | d' | e'
    · exact Or.inl ⟨rfl, rfl⟩
    · exact Or.inr ⟨_, rfl, local_const _⟩
    · exact Or.inr ⟨_, rfl, local_const _⟩
  | _ => exact Or.inl ⟨rfl, rfl⟩

/-- **A stretch of a worker is local to its node.** -/
theorem execute_local (i : Input) : LocalStep p new t fun t => Execute.step p t w i := by
  cases i with
  | cancel =>
    unfold Execute.step
    by_cases hc : w.cancelling = false
    · simp only [if_pos hc]
      exact Or.inl ⟨rfl, rfl⟩
    simp only [if_neg hc]
    cases w.pc with
    | created => exact Or.inr ⟨_, rfl, local_const _⟩
    | _ => exact thrown_local .cancelled
  | error e => exact thrown_local (.error e)
  | run env =>
    unfold Execute.step
    cases w.pc with
    | created =>
      dsimp only
      by_cases hc : w.cancelling = true
      · simp only [if_pos hc]
        exact Or.inl ⟨rfl, rfl⟩
      · simp only [if_neg hc]
        exact Or.inr ⟨_, rfl, enter_local env⟩
    | dispatching op command d =>
      cases d with
      | closing outcome =>
        cases outcome with
        | error e => exact Or.inr ⟨_, rfl, local_const _⟩
        | ok response => exact Or.inr ⟨_, rfl, replied_local op response env⟩
      | _ => exact Or.inl ⟨rfl, rfl⟩
    | acknowledged op => exact Or.inr ⟨_, rfl, saveAndReturn_local _ _ env⟩
    | sleeping op deadline => exact Or.inr ⟨_, rfl, local_const _⟩
    | handler e => exact Or.inr ⟨_, rfl, handled_local e env⟩
    | _ => exact Or.inl ⟨rfl, rfl⟩
  | snapshot o env =>
    unfold Execute.step
    cases w.pc with
    | observing op =>
      dsimp only
      cases Observer.snapshot p.node o env.now env.uuid with
      | error e => exact Or.inr ⟨_, rfl, local_const _⟩
      | ok before => exact Or.inr ⟨_, rfl, observed_local op before env⟩
    | verifying op deadline =>
      dsimp only
      cases Observer.snapshot p.node o env.now env.uuid with
      | error e => exact Or.inr ⟨_, rfl, local_const _⟩
      | ok lastState => exact Or.inr ⟨_, rfl, verified_local op deadline lastState env⟩
    | _ => exact Or.inl ⟨rfl, rfl⟩
  | receive r =>
    unfold Execute.step
    cases w.pc with
    | dispatching op command d =>
      dsimp only
      cases d.receive p.config r with
      | none => exact Or.inl ⟨rfl, rfl⟩
      | some d' => exact Or.inr ⟨_, rfl, local_const _⟩
    | _ => exact Or.inl ⟨rfl, rfl⟩
  | action actionId env =>
    unfold Execute.step
    cases w.pc with
    | dispatching op command d =>
      cases d with
      | ready attempted => exact Or.inr ⟨_, rfl, control_local op command attempted actionId env⟩
      | _ => exact Or.inl ⟨rfl, rfl⟩
    | _ => exact Or.inl ⟨rfl, rfl⟩
  | write =>
    unfold Execute.step
    cases w.pc with
    | dispatching op command d =>
      cases d with
      | committed actionId payload => exact Or.inr ⟨_, rfl, local_const _⟩
      | _ => exact Or.inl ⟨rfl, rfl⟩
    | _ => exact Or.inl ⟨rfl, rfl⟩

end

end Asl3
