import Asl3Api.Runs.Invariant

/-!
# Idempotency keys over whole runs

* `canonical_strDict`: two requests have one canonical text exactly when they are equal;
* `Running.retry`: what `admit` answers for a key that has a row;
* `Running.answers`: what an answer of `admit` says of the table;
* **`idempotent_admission`**: one operation for each key of a credential, in every run.
-/

set_option autoImplicit false

namespace Asl3

open Py Ledger

/-! ## The canonical text -/

theorem canonical_toList (kind : String) (request : PyValue) :
    (canonical kind request).toList =
      "\x7b\"kind\":".toList ++ (quote kind ++ (",\"request\":".toList ++ (dumps request ++ ['}']))) := by
  have hs : sortKeys [("kind", quote kind), ("request", dumps request)] =
      [("kind", quote kind), ("request", dumps request)] := by
    have hle : "kind" ≤ "request" := by decide
    simp [sortKeys, hle]
  have hk : quote "kind" = "\"kind\"".toList := by decide
  have hr : quote "request" = "\"request\"".toList := by decide
  unfold canonical
  rw [String.toList_ofList, dumps, dumpsEntries, dumpsEntries, dumpsEntries, dumps, hs]
  simp [join, member, hk, hr]

/-- **The canonical text decides equality** of kinds and of dicts of strings, whatever the order of
their keys. -/
theorem canonical_strDict {kind kind' : String} {d d' : StrDict} :
    canonical kind (.dict d.toEntries) = canonical kind' (.dict d'.toEntries) ↔
      kind = kind' ∧ d.Equal d' := by
  rw [← String.toList_inj, canonical_toList, canonical_toList]
  constructor
  · intro h
    obtain ⟨rfl, h'⟩ := quote_append_inj (List.append_cancel_left h)
    exact ⟨rfl, (dumps_strDict_inj.mp (List.append_cancel_left h')).1⟩
  · rintro ⟨rfl, h⟩
    rw [dumps_strDict_inj.mpr ⟨h, rfl⟩]

/-! ## The answers of `admit` -/

/-- The answer to another request under a key that has an operation. -/
def keyConflict : Error :=
  .problem ⟨409, "IDEMPOTENCY_CONFLICT",
    "This Idempotency-Key already identifies a different request."⟩

variable {node : String} {t t' : Table} {p p' : Platform}

/-- **A key that has a row** is answered from that row, whatever its status and whoever has the
slot. -/
theorem Running.retry (h : Running node t p) (hw : WF node t) {r : Row} (hr : r ∈ t) {key : String}
    (hk : r.idempotencyKey = some key) {kind command : String} {request : PyValue}
    (hl : p.requireLedger = .ok ()) (hc : commandFor node kind request = .ok command) (env : Env) :
    p.admitOperation t kind request r.credential (some key) env =
      (if env.readOk = false then .error sqliteError
        else if canonical kind request = r.canonical then .ok r.document
        else .error keyConflict, p, t) := by
  have hh := (requireLedger_eq_ok.mp hl).2.2.2
  have hrow := hw.keyRow_eq hr hk
  unfold Platform.admitOperation
  rw [h.number, hl]
  simp only [hc]
  rw [if_neg (by simp [hh])]
  unfold findIdempotent
  by_cases he : env.readOk = false
  · simp only [if_pos he]
  simp only [if_neg he, hrow]
  by_cases hq : canonical kind request = r.canonical
  · simp [hq]
  · have hne : r.canonical ≠ canonical kind request := fun e => hq e.symm
    simp only [if_neg hq, if_pos hne]
    simp [keyConflict]

/-- **An answer of `admit`** is of the caller's credential; a conflict needs a row of its own key;
and without a key an accepted admission is a new operation. -/
theorem Running.answers (h : Running node t p) (hw : WF node t) {kind credential : String}
    {request : PyValue} {key : Option String} {env : Env} {answer : Except Error Operation}
    (ha : p.admitOperation t kind request credential key env = (answer, p', t')) :
    (∀ op, answer = .ok op → op.node = node ∧ op.credential = credential) ∧
      (∀ e, answer = .error (.problem e) → e.code = "IDEMPOTENCY_CONFLICT" →
        ∃ r ∈ t, r.credential = credential ∧ r.idempotencyKey = key ∧ key ≠ none) ∧
      (key = none → ∀ op, answer = .ok op →
        (∀ r ∈ t, r.id ≠ op.id) ∧ t' = t ++ [newRow node kind request credential none op]) := by
  rcases requested_cases h ha with ⟨rfl, rfl, hans⟩ | ⟨op, rfl, -, -, hnew, -, hv, -, rfl⟩
  · refine ⟨?_, ?_, ?_⟩
    · rintro op rfl
      obtain ⟨k, row, -, hrow, rfl⟩ := hans
      obtain ⟨hmem, -, hc, -⟩ := mem_of_keyRow hrow
      exact ⟨(hw.agrees row hmem).documentNode, (hw.agrees row hmem).credential.trans hc⟩
    · rintro e rfl he
      obtain ⟨k, row, rfl, hrow⟩ := hans he
      obtain ⟨hmem, -, hc, hk⟩ := mem_of_keyRow hrow
      exact ⟨row, hmem, hc, hk, Option.some_ne_none k⟩
    · rintro rfl op rfl
      obtain ⟨k, row, hk, -⟩ := hans
      cases hk
  · obtain ⟨-, -, -, hn, hc, -⟩ := newOperation_eq_ok hnew
    refine ⟨?_, nofun, ?_⟩
    · intro o ho
      cases ho
      exact ⟨hn, hc⟩
    · rintro rfl o ho
      cases ho
      exact ⟨(not_violates hv).1, rfl⟩

/-! ## Whole runs -/

/-- **Idempotency.** In every run a key of a credential has one row, which keeps its kind and its
request. A later admission with that key is answered with its operation when it is the same
request, and refused when it is another one, and neither changes anything. -/
theorem idempotent_admission {ls : List Label} {s : Sys} (h : Reaches node ls s) :
    (∀ r ∈ s.table, ∀ r' ∈ s.table, r.credential = r'.credential →
      r.idempotencyKey = r'.idempotencyKey → r.idempotencyKey ≠ none → r = r') ∧
    (∀ r ∈ s.table, ∀ ls' s', Lts.exec (Sys.step node) s ls' = some s' →
      ∃ r' ∈ s'.table, r'.id = r.id ∧ r'.credential = r.credential ∧
        r'.idempotencyKey = r.idempotencyKey ∧ r'.document.id = r.id ∧
        SameIdentity r.document r'.document ∧
        ∀ p key kind command request env, s'.life = .up p → r.idempotencyKey = some key →
          p.requireLedger = .ok () → commandFor node kind request = .ok command →
          p.admitOperation s'.table kind request r.credential (some key) env =
              (if env.readOk = false then .error sqliteError
                else if canonical kind request =
                  canonical r.document.kind.name (.dict r.document.request)
                then .ok r'.document else .error keyConflict, p, s'.table) ∧
            (p.quiet = true →
              s'.step node (.request kind request r.credential (some key) env) = some s') ∧
            s'.output (.request kind request r.credential (some key) env) = []) ∧
    (∀ p kind request credential key env answer p' t', s.life = .up p →
      p.admitOperation s.table kind request credential key env = (answer, p', t') →
      (∀ op, answer = .ok op → op.node = node ∧ op.credential = credential) ∧
      (∀ e, answer = .error (.problem e) → e.code = "IDEMPOTENCY_CONFLICT" →
        ∃ r ∈ s.table, r.credential = credential ∧ r.idempotencyKey = key ∧ key ≠ none) ∧
      (key = none → ∀ op, answer = .ok op → (∀ r ∈ s.table, r.id ≠ op.id) ∧
        t' = s.table ++ [newRow node kind request credential none op])) ∧
    ∀ kind kind' (d d' : StrDict),
      canonical kind (.dict d.toEntries) = canonical kind' (.dict d'.toEntries) ↔
        kind = kind' ∧ d.Equal d' := by
  have hi := reaches_inv h
  refine ⟨hi.sound.wf.keys, ?_, ?_, fun _ _ _ _ => canonical_strDict⟩
  · intro r hr ls' s' hrun
    have hi' := exec_inv hi hrun
    obtain ⟨r', hr', hrow, hs, -⟩ := exec_grows hi hrun r hr
    have hid : r'.id = r.id := by rw [hrow]
    have hc : r'.credential = r.credential := by rw [hrow]
    have hk : r'.idempotencyKey = r.idempotencyKey := by rw [hrow]
    have ha := hi'.sound.wf.agrees r' hr'
    refine ⟨r', hr', hid, hc, hk, ha.documentId.trans hid, hs, ?_⟩
    intro p key kind command request env hp hkey hl hcmd
    have hlife := hi'.life
    rw [hp] at hlife
    have hanswer := hlife.retry hi'.sound.wf hr' (hk.trans hkey) hl hcmd env
    rw [hc, ha.canonical, hs.kind, hs.request] at hanswer
    refine ⟨hanswer, fun hq => ?_, rfl⟩
    obtain ⟨t, life⟩ := s'
    cases hp
    simp only [Sys.step, hq, if_true, hanswer]
  · intro p kind request credential key env answer p' t' hp ha
    have hlife := hi.life
    rw [hp] at hlife
    exact hlife.answers hi.sound.wf ha

/-- After its end, the announcement answers a retry of its request and refuses another one. -/
theorem idempotent_admission_announced :
    ∃ s p op, Reaches "546051" announceRun s ∧ s.life = .up p ∧ op.id = "a1" ∧
      p.admitOperation s.table "announce" (.dict [("kind", .str "identify")]) "operator"
        (some "first") {} = (.ok op, p, s.table) ∧
      p.admitOperation s.table "announce" (.dict [("kind", .str "status")]) "operator"
        (some "first") {} = (.error keyConflict, p, s.table) := by
  have hsame : canonical "announce" (.dict [("kind", .str "identify")]) =
      "\x7b\"kind\":\"announce\",\"request\":\x7b\"kind\":\"identify\"\x7d\x7d" := by decide +kernel
  have hother : canonical "announce" (.dict [("kind", .str "status")]) ≠
      "\x7b\"kind\":\"announce\",\"request\":\x7b\"kind\":\"identify\"\x7d\x7d" := by decide +kernel
  obtain ⟨s, hs, hf⟩ := exists_reaches "546051" announceRun (fun s =>
      (s.table.any fun r => r.id = "a1" && r.credential = "operator" &&
        r.idempotencyKey = some "first" && canonical r.document.kind.name (.dict r.document.request) =
          "\x7b\"kind\":\"announce\",\"request\":\x7b\"kind\":\"identify\"\x7d\x7d",
        s.upWith fun p => p.ledger && p.owner && !p.closing && p.healthy)) (true, true)
    (by decide +kernel)
  obtain ⟨htab, hup⟩ := Prod.mk.inj hf
  obtain ⟨r, hr, hrow⟩ := List.any_eq_true.mp htab
  simp only [Bool.and_eq_true, decide_eq_true_eq] at hrow
  obtain ⟨⟨⟨hid, hc⟩, hk⟩, hcan⟩ := hrow
  obtain ⟨-, hretry, -, -⟩ := idempotent_admission hs
  obtain ⟨r', hr', -, -, -, hid', -, hanswer⟩ := hretry r hr [] s rfl
  obtain ⟨p, hp, hup⟩ := Sys.exists_up hup
  simp only [Bool.and_eq_true, Bool.not_eq_true'] at hup
  have hledger : p.requireLedger = .ok () :=
    requireLedger_eq_ok.mpr ⟨hup.1.1.1, hup.1.1.2, hup.1.2, hup.2⟩
  have first := (hanswer p "first" "announce" _ _ {} hp hk hledger
    (show commandFor "546051" "announce" (.dict [("kind", .str "identify")]) = .ok _ from rfl)).1
  have second := (hanswer p "first" "announce" _ _ {} hp hk hledger
    (show commandFor "546051" "announce" (.dict [("kind", .str "status")]) = .ok _ from rfl)).1
  rw [hc, hcan, hsame] at first
  rw [hc, hcan, if_neg (by decide), if_neg hother] at second
  exact ⟨s, p, r'.document, hs, hp, hid'.trans hid, first, second⟩

end Asl3
