import Mathlib.Logic.Relation
import Asl3Api.Vnext.Service
import Asl3Api.Vnext.Table

/-!
# The life of a document

What the ledger is for, apart from the code that writes it.

* `Moves`: the steps a document takes from its admission to its result;
* `Consistent`: the results a client can read, with the evidence they rest on;
* `TableStep`: what one step may do to a table, `Sound`: what holds of a table, and
  **`Sound.step`**: the one keeps the other;
* `Grows`: how tables are related along a run.
-/

set_option autoImplicit false

namespace Asl3

open Py Ledger

/-! ## Steps of a document -/

/-- The dispatch status, the effect status and whether the document is terminal. -/
def Operation.stage (op : Operation) : DispatchStatus × EffectStatus × Bool :=
  (op.dispatchStatus, op.effectStatus, op.terminal)

/-- A document as admission writes it. -/
def Operation.Admitted (op : Operation) : Prop := op.stage = (.queued, .pending, false)

/-- The dispatch statuses a terminal document has, after the one before it. -/
inductive Finishes : DispatchStatus → DispatchStatus → Prop
  | notDispatched : Finishes .queued .notDispatched
  | rejected : Finishes .dispatchStarted .rejected
  | acknowledged : Finishes .acknowledged .acknowledged
  | unknownStarted : Finishes .dispatchStarted .outcomeUnknown
  | unknownAcknowledged : Finishes .acknowledged .outcomeUnknown

/-- One step of a document. -/
inductive Moves (a b : Operation) : Prop
  | cross (ha : a.stage = (.queued, .pending, false))
      (hb : b.stage = (.dispatchStarted, .pending, false))
  | acknowledge (ha : a.stage = (.dispatchStarted, .pending, false))
      (hb : b.stage = (.acknowledged, .pending, false))
  | finish (ha : a.effectStatus = .pending ∧ a.terminal = false) (hb : b.terminal = true)
      (hs : Finishes a.dispatchStatus b.dispatchStatus)

theorem Moves.terminal {a b : Operation} (h : Moves a b) : a.terminal = false := by
  cases h with
  | cross ha hb => exact congrArg (fun s => s.2.2) ha
  | acknowledge ha hb => exact congrArg (fun s => s.2.2) ha
  | finish ha hb hs => exact ha.2

/-- A document on which no step is left. -/
theorem eq_of_terminal {a b : Operation} (h : Relation.ReflTransGen Moves a b)
    (ht : a.terminal = true) : b = a := by
  rcases Relation.ReflTransGen.cases_head h with h | ⟨c, hc, -⟩
  · exact h.symm
  · rw [hc.terminal] at ht
    cases ht

/-! ## Results -/

/-- The combinations of statuses a document can have. -/
def stages : List (DispatchStatus × EffectStatus × Bool) :=
  [(.queued, .pending, false), (.dispatchStarted, .pending, false), (.acknowledged, .pending, false),
    (.acknowledged, .observedSatisfied, true), (.acknowledged, .observedPartial, true),
    (.acknowledged, .observedUnsatisfied, true), (.acknowledged, .unknown, true),
    (.rejected, .notAttempted, true), (.notDispatched, .notAttempted, true),
    (.notDispatched, .observedSatisfied, true), (.outcomeUnknown, .unknown, true)]

/-- A document whose statuses fit together and whose observed effect rests on its evidence. -/
structure Consistent (op : Operation) : Prop where
  stage : op.stage ∈ stages
  announce : op.kind = .announce → op.effectStatus.observed = false
  evidence : op.effectStatus.observed = true → ∃ state, op.evidence = some state ∧
    state.complete = true ∧ effectStatus op state = .ok op.effectStatus

/-- A document that is not terminal is pending, in one of the three open statuses. -/
theorem Consistent.open_stage {op : Operation} (h : Consistent op) (ht : op.terminal = false) :
    op.effectStatus = .pending ∧ (op.dispatchStatus = .queued ∨
      op.dispatchStatus = .dispatchStarted ∨ op.dispatchStatus = .acknowledged) := by
  have hs := h.stage
  unfold Operation.stage at hs
  rw [ht] at hs
  generalize op.dispatchStatus = d at hs ⊢
  generalize op.effectStatus = e at hs ⊢
  revert hs
  cases d <;> cases e <;> decide

/-- A terminal document has a last dispatch status. -/
theorem Consistent.closed_stage {op : Operation} (h : Consistent op) (ht : op.terminal = true) :
    op.dispatchStatus ≠ .queued ∧ op.dispatchStatus ≠ .dispatchStarted := by
  have hs := h.stage
  unfold Operation.stage at hs
  rw [ht] at hs
  generalize op.dispatchStatus = d at hs ⊢
  generalize op.effectStatus = e at hs
  revert hs
  cases d <;> cases e <;> decide

/-- A document without an observed effect is consistent when its statuses are. -/
theorem consistent_of_stage {op : Operation} {d : DispatchStatus} {e : EffectStatus} {b : Bool}
    (h : op.stage = (d, e, b)) (hs : (d, e, b) ∈ stages) (ho : e.observed = false) :
    Consistent op := by
  have he : op.effectStatus = e := congrArg (fun s => s.2.1) h
  refine ⟨by rw [h]; exact hs, fun _ => by rw [he]; exact ho, fun h' => ?_⟩
  rw [he, ho] at h'
  cases h'

theorem Operation.Admitted.consistent {op : Operation} (h : op.Admitted) : Consistent op :=
  consistent_of_stage h (by decide) rfl

/-- The effect of a snapshot depends on what admission fixes only. -/
theorem effectStatus_congr {a b : Operation} (h : SameIdentity a b) (state : NodeState) :
    effectStatus b state = effectStatus a state := by
  have ht : isTarget b = isTarget a := by
    funext link
    unfold isTarget
    rw [h.request]
  unfold effectStatus requestsMonitor
  rw [h.kind, h.request, ht]

/-- An effect other than `UNKNOWN` needs a complete snapshot. -/
theorem complete_of_effectStatus {op : Operation} {state : NodeState} {e : EffectStatus}
    (h : effectStatus op state = .ok e) (he : e ≠ .unknown) : state.complete = true := by
  by_contra hc
  rw [Bool.not_eq_true] at hc
  unfold effectStatus at h
  rw [if_pos hc] at h
  exact he (Except.ok.inj h).symm

/-- The effects `effect_status` can report of a link operation. -/
theorem effectStatus_cases {op : Operation} {state : NodeState} {e : EffectStatus}
    (h : effectStatus op state = .ok e) (hk : op.kind ≠ .announce) :
    e = .observedSatisfied ∨ e = .observedPartial ∨ e = .observedUnsatisfied ∨ e = .unknown := by
  unfold effectStatus at h
  by_cases hc : state.complete = false
  · rw [if_pos hc] at h
    exact Or.inr (Or.inr (Or.inr (Except.ok.inj h).symm))
  rw [if_neg hc] at h
  cases hkind : op.kind with
  | announce => exact absurd hkind hk
  | unlinkNode =>
    simp only [hkind, Except.ok.injEq] at h
    split_ifs at h <;> simp [← h]
  | unlinkAll =>
    simp only [hkind, Except.ok.injEq] at h
    split_ifs at h <;> simp [← h]
  | linkNode =>
    simp only [hkind] at h
    cases hl : (state.directLinks.getD []).find? (isTarget op) with
    | none =>
      simp only [hl, Except.ok.injEq] at h
      simp [← h]
    | some link =>
      simp only [hl] at h
      cases hm : requestsMonitor op with
      | error x => simp [hm] at h
      | ok monitor =>
        simp only [hm, Except.ok.injEq] at h
        split_ifs at h <;> simp [← h]

/-! ## Steps of a table -/

/-- What a step may do to the table: nothing, one step of one document, or one admission when
every other document is terminal. -/
inductive TableStep (node : String) (t : Table) : Table → Prop
  | same : TableStep node t t
  | update {id : String} {doc doc' : Operation} (hd : get t node id = some doc)
      (hs : SameIdentity doc doc') (hm : Moves doc doc') (hc : Consistent doc') :
      TableStep node t (setDocument t node id doc')
  | insert {row : Row} (hv : violates t row = false) (ha : Row.Agrees node row)
      (hq : row.document.Admitted) (ht : ∀ r ∈ t, r.document.terminal = true) :
      TableStep node t (t ++ [row])

/-- A well-formed table with consistent documents, at most one of which is not terminal. -/
structure Sound (node : String) (t : Table) : Prop where
  wf : WF node t
  consistent : ∀ r ∈ t, Consistent r.document
  single : ∀ r ∈ t, ∀ r' ∈ t, r.document.terminal = false → r'.document.terminal = false → r = r'

variable {node : String} {t t' : Table}

theorem Sound.nil : Sound node [] := ⟨WF.nil, by simp, by simp⟩

/-- **A step of a sound table leads to a sound table.** -/
theorem Sound.step (h : Sound node t) (hs : TableStep node t t') : Sound node t' := by
  cases hs with
  | same => exact h
  | @update id doc doc' hd hi hm hc =>
    obtain ⟨r₀, hr₀, hid₀, -, hdoc₀⟩ := row_of_get hd
    refine ⟨h.wf.setDocument hd hi, ?_, ?_⟩
    · intro r' hr'
      rcases h.wf.setDocument_cases hr' with ⟨hr, -⟩ | ⟨r, -, -, rfl⟩
      · exact h.consistent _ hr
      · exact hc
    · -- an open document was open before, whether it is the one that moved or another
      have back : ∀ r' ∈ setDocument t node id doc', r'.document.terminal = false →
          ∃ r ∈ t, r'.id = r.id ∧ r.document.terminal = false := by
        intro r' hr' ht
        rcases h.wf.setDocument_cases hr' with ⟨hr, -⟩ | ⟨r, hr, hid, rfl⟩
        · exact ⟨_, hr, rfl, ht⟩
        · have e : r = r₀ := h.wf.eq_of_id hr hr₀ (hid.trans hid₀.symm)
          exact ⟨r, hr, rfl, by rw [e, hdoc₀]; exact hm.terminal⟩
      intro a ha b hb hta htb
      obtain ⟨r, hr, hra, htr⟩ := back a ha hta
      obtain ⟨q, hq, hqb, htq⟩ := back b hb htb
      have e := h.single r hr q hq htr htq
      have hwf := h.wf.setDocument hd hi
      exact hwf.eq_of_id ha hb (by rw [hra, hqb, e])
  | @insert row hv ha hq ht =>
    refine ⟨h.wf.append hv ha, ?_, ?_⟩
    · intro r hr
      rcases List.mem_append.mp hr with hr | hr
      · exact h.consistent r hr
      · rw [List.mem_singleton.mp hr]
        exact hq.consistent
    · have last : ∀ r ∈ t ++ [row], r.document.terminal = false → r = row := by
        intro r hr hrt
        rcases List.mem_append.mp hr with hr | hr
        · rw [ht r hr] at hrt
          cases hrt
        · exact List.mem_singleton.mp hr
      intro a ha' b hb hta htb
      rw [last a ha' hta, last b hb htb]

/-! ## Tables along a run -/

/-- What becomes of the rows of a table: the columns stay, and documents take steps. -/
def Grows (t t' : Table) : Prop :=
  ∀ r ∈ t, ∃ r' ∈ t', r' = { r with document := r'.document } ∧
    SameIdentity r.document r'.document ∧ Relation.ReflTransGen Moves r.document r'.document

theorem Grows.refl (t : Table) : Grows t t := fun r hr =>
  ⟨r, hr, rfl, .refl _, .refl⟩

theorem Grows.trans {t₁ t₂ t₃ : Table} (h : Grows t₁ t₂) (h' : Grows t₂ t₃) : Grows t₁ t₃ := by
  intro r hr
  obtain ⟨r₂, hr₂, e₂, hs₂, hm₂⟩ := h r hr
  obtain ⟨r₃, hr₃, e₃, hs₃, hm₃⟩ := h' r₂ hr₂
  refine ⟨r₃, hr₃, ?_, hs₂.trans hs₃, hm₂.trans hm₃⟩
  rw [e₃, e₂]

theorem TableStep.grows (h : Sound node t) (hs : TableStep node t t') : Grows t t' := by
  cases hs with
  | same => exact .refl t
  | @update id doc doc' hd hi hm hc =>
    obtain ⟨r₀, hr₀, hid₀, -, hdoc₀⟩ := row_of_get hd
    intro r hr
    refine ⟨_, mem_setDocument.mpr ⟨r, hr, rfl⟩, ?_⟩
    by_cases hp : (r.id = id && r.node = node) = true
    · rw [if_pos hp]
      simp only [Bool.and_eq_true, decide_eq_true_eq] at hp
      have e : r = r₀ := h.wf.eq_of_id hr hr₀ (hp.1.trans hid₀.symm)
      have e' : r.document = doc := by rw [e, hdoc₀]
      rw [e']
      exact ⟨rfl, hi, .single hm⟩
    · rw [if_neg hp]
      exact ⟨rfl, .refl _, .refl⟩
  | insert hv ha hq ht =>
    intro r hr
    exact ⟨r, List.mem_append_left _ hr, rfl, .refl _, .refl⟩

/-- The documents of a grown table. -/
theorem Grows.get (h : Grows t t') (ht' : WF node t') {id : String} {doc : Operation}
    (hd : Ledger.get t node id = some doc) : ∃ doc', Ledger.get t' node id = some doc' ∧
      SameIdentity doc doc' ∧ Relation.ReflTransGen Moves doc doc' := by
  obtain ⟨r, hr, rfl, -, rfl⟩ := row_of_get hd
  obtain ⟨r', hr', e, hs, hm⟩ := h r hr
  have hid : r'.id = r.id := by rw [e]
  exact ⟨r'.document, by rw [← hid]; exact ht'.get_row hr', hs, hm⟩

/-- The document of an id after a step: the same, one step further, or a new admission. -/
theorem TableStep.get_cases (hs : TableStep node t t') (id : String) :
    Ledger.get t' node id = Ledger.get t node id ∨
      (∃ doc doc', Ledger.get t node id = some doc ∧ Ledger.get t' node id = some doc' ∧
        Moves doc doc') ∨
      ∃ doc', Ledger.get t node id = none ∧ Ledger.get t' node id = some doc' ∧ doc'.Admitted := by
  cases hs with
  | same => exact Or.inl rfl
  | @update x doc doc' hd hi hm hc =>
    rw [get_setDocument hd]
    split_ifs with hx
    · exact Or.inr (Or.inl ⟨doc, doc', by rw [hx]; exact hd, rfl, hm⟩)
    · exact Or.inl rfl
  | @insert row hv ha hq ht =>
    rw [get_insert hv ha.node]
    split_ifs with hx
    · exact Or.inr (Or.inr ⟨row.document, by rw [hx]; exact get_of_not_violates hv, rfl, hq⟩)
    · exact Or.inl rfl

end Asl3
