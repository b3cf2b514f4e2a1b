import Asl3Api.Vnext.Reading
import Asl3Api.Vnext.Service

/-!
# Verdicts from raw evidence

* `Targets`, `Requests`: the request of an operation, and what it is about;
* `effect_unlinkNode`, `effect_unlinkAll`, `effect_linkNode`: the verdict on a consistent reading,
  by the names, states and modes in it;
* **`effect_verdict`**: the verdict on what the parser makes of a pair of replies, by the raw text.
-/

set_option autoImplicit false

namespace Asl3

open Py

/-- The request of the operation is about a canonical node. -/
structure Targets (op : Operation) (target : String) : Prop where
  node : op.request.lookup "node" = some (.str target)
  canonical : isNode target = true

/-- The ALINKS letter of a link in this mode. -/
def Mode.letter : Mode → Char
  | .transceive => 'T'
  | .monitor => 'R'

/-- The request of the operation has this mode. -/
def Requests (op : Operation) (mode : Mode) : Prop :=
  op.request.lookup "mode" = some (.str mode.text)

/-- ALINKS lists the target in the requested mode, and its row says that it is established. -/
def Linked (xstat : Reply) (target : String) (mode : Mode) : Prop :=
  ConnState xstat target .established ∧ ∃ key, Lists xstat target mode.letter key

theorem asciiNumericLink_iff {name : String} : asciiNumericLink name = true ↔ Numeric name := by
  unfold asciiNumericLink
  constructor
  · intro h
    split at h
    · cases h
    · rename_i c cs hc
      rw [Bool.and_eq_true, decide_eq_true_eq, List.all_eq_true] at h
      refine ⟨?_, by rw [hc]; exact h.2, ?_⟩
      · rintro rfl
        cases hc
      · rw [hc]
        exact fun h0 => h.1 (Option.some.inj h0)
  · rintro ⟨hne, hd, hl⟩
    split
    · rename_i hnil
      exact absurd (String.toList_eq_nil_iff.mp hnil) hne
    · rename_i c cs hc
      rw [hc] at hd hl
      rw [Bool.and_eq_true, decide_eq_true_eq, List.all_eq_true]
      exact ⟨fun h0 => hl (congrArg some h0), hd⟩

namespace Evidence

variable {xstat sawstat : Reply} {node : String} (E : Evidence xstat sawstat node)
  {op : Operation} {target : String} {mode : Mode} (epoch now : String)

omit E in
/-- The link of a row is the target's when the row has its name. -/
theorem isTarget_linkOf (ht : Targets op target) {alinks : List (String × Alink)}
    {keyed : List (String × Bool)} {c : String × ConnectionStatus} :
    isTarget op (linkOf alinks keyed c) = true ↔ c.1 = target := by
  unfold isTarget linkOf
  rw [ht.node]
  by_cases hc : isNode c.1 = true
  · simp only [hc, if_true, decide_eq_true_eq]
    exact eq_comm
  · simp only [hc]
    refine iff_of_false nofun ?_
    rintro rfl
    exact hc ht.canonical

/-- The verdict on a complete state that shows the evidence. -/
theorem effect_unlinkNode (hk : op.kind = .unlinkNode) (ht : Targets op target) :
    effectStatus op (E.snapshot epoch now) = .ok .observedSatisfied ∧ ¬ HasConn xstat target ∨
      effectStatus op (E.snapshot epoch now) = .ok .observedUnsatisfied ∧ HasConn xstat target := by
  have hall : (E.links.all fun link => !isTarget op link) = true ↔ ¬ HasConn xstat target := by
    rw [E.hasConn_iff, List.mem_map, links, List.all_map, List.all_eq_true]
    simp only [Function.comp_apply, Bool.not_eq_true', ← Bool.not_eq_true, isTarget_linkOf ht,
      not_exists, not_and]
  have he : effectStatus op (E.snapshot epoch now) =
      .ok (if E.links.all fun link => !isTarget op link then .observedSatisfied
        else .observedUnsatisfied) := by
    simp [effectStatus, hk, snapshot]
  by_cases h : HasConn xstat target
  · exact Or.inr ⟨by rw [he, if_neg (fun hc => hall.mp hc h)], h⟩
  · exact Or.inl ⟨by rw [he, if_pos (hall.mpr h)], h⟩

theorem effect_unlinkAll (hk : op.kind = .unlinkAll) :
    effectStatus op (E.snapshot epoch now) = .ok .observedSatisfied ∧
        (∀ name, HasConn xstat name → ¬ Numeric name) ∨
      effectStatus op (E.snapshot epoch now) = .ok .observedUnsatisfied ∧
        ∃ name, HasConn xstat name ∧ Numeric name := by
  have hall : (E.links.filter fun link => asciiNumericLink link.node).isEmpty = true ↔
      ∀ name, HasConn xstat name → ¬ Numeric name := by
    rw [List.isEmpty_iff, List.filter_eq_nil_iff, links, List.forall_mem_map]
    simp only [E.hasConn_iff, asciiNumericLink_iff, List.forall_mem_map, linkOf]
  have he : effectStatus op (E.snapshot epoch now) =
      .ok (if (E.links.filter fun link => asciiNumericLink link.node).isEmpty then
        .observedSatisfied else .observedUnsatisfied) := by
    simp only [effectStatus, hk, snapshot]
    rfl
  by_cases h : ∀ name, HasConn xstat name → ¬ Numeric name
  · exact Or.inl ⟨by rw [he, if_pos (hall.mpr h)], h⟩
  · refine Or.inr ⟨by rw [he, if_neg (fun hc => h (hall.mp hc))], ?_⟩
    push Not at h
    exact h

/-- The link of the target's row. -/
theorem find?_links (ht : Targets op target) {status : ConnectionStatus}
    (hc : (target, status) ∈ E.connections) :
    E.links.find? (isTarget op) = some (linkOf E.alinks E.keyed (target, status)) := by
  have hmem : linkOf E.alinks E.keyed (target, status) ∈ E.links := List.mem_map_of_mem hc
  cases hf : E.links.find? (isTarget op) with
  | none =>
    exact absurd ((isTarget_linkOf ht).mpr rfl) (List.find?_eq_none.mp hf _ hmem)
  | some link =>
    obtain ⟨⟨name, s⟩, hc', rfl⟩ := List.mem_map.mp (List.mem_of_find?_eq_some hf)
    obtain rfl : name = target := (isTarget_linkOf ht).mp (List.find?_some hf)
    rw [entry_unique E.conn_names hc' hc]

/-- The letter a mode stands for in ALINKS. -/
theorem linkMode?_letter (mode : Mode) :
    linkMode? mode.letter = some (if mode = .monitor then LinkMode.R else LinkMode.T) := by
  cases mode <;> rfl

theorem exists_keyed (keyed : Bool) : ∃ c, keyed? c = some keyed := by
  cases keyed
  · exact ⟨'U', rfl⟩
  · exact ⟨'K', rfl⟩

/-- The mode of a link is the requested one when ALINKS lists it so. -/
theorem mode_linkOf {status : ConnectionStatus} :
    (linkOf E.alinks E.keyed (target, status)).mode =
        (if mode = .monitor then LinkMode.R else LinkMode.T) ↔
      ∃ key, Lists xstat target mode.letter key := by
  simp only [E.lists_iff, linkMode?_letter, Option.some.injEq]
  constructor
  · intro h
    cases ha : E.alinks.lookup target with
    | none =>
      simp only [linkOf, ha] at h
      split_ifs at h <;> cases h
    | some a =>
      simp only [linkOf, ha] at h
      obtain ⟨key, hkey⟩ := exists_keyed a.keyed
      exact ⟨key, a, (lookup_eq_some_iff_mem E.alinks_names).mp ha, h.symm, hkey⟩
  · rintro ⟨key, a, ha, hm, -⟩
    simp only [linkOf, (lookup_eq_some_iff_mem E.alinks_names).mpr ha]
    exact hm.symm

theorem effect_linkNode (hk : op.kind = .linkNode) (ht : Targets op target)
    (hm : Requests op mode) :
    effectStatus op (E.snapshot epoch now) = .ok .observedSatisfied ∧ Linked xstat target mode ∨
      effectStatus op (E.snapshot epoch now) = .ok .observedUnsatisfied ∧
        ¬ HasConn xstat target ∨
      effectStatus op (E.snapshot epoch now) = .ok .observedPartial ∧ HasConn xstat target ∧
        ¬ Linked xstat target mode := by
  have hmonitor : requestsMonitor op = .ok (decide (mode = .monitor)) := by
    unfold requestsMonitor
    rw [hm]
    cases mode <;> rfl
  by_cases hconn : HasConn xstat target
  · obtain ⟨⟨name, status⟩, hc, rfl⟩ := List.mem_map.mp (E.hasConn_iff.mp hconn)
    have hlinked : Linked xstat name mode ↔
        (linkOf E.alinks E.keyed (name, status)).mode =
            (if mode = .monitor then LinkMode.R else LinkMode.T) ∧ status = .established := by
      rw [E.mode_linkOf, Linked, E.connState_iff, and_comm]
      refine and_congr_right fun _ => ⟨fun h => ?_, fun h => h ▸ hc⟩
      exact entry_unique E.conn_names hc h
    have he : effectStatus op (E.snapshot epoch now) =
        .ok (if (linkOf E.alinks E.keyed (name, status)).mode =
            (if mode = .monitor then LinkMode.R else LinkMode.T) ∧ status = .established then
          .observedSatisfied else .observedPartial) := by
      simp [effectStatus, hk, snapshot, E.find?_links ht hc, hmonitor, linkOf]
    by_cases h : Linked xstat name mode
    · exact Or.inl ⟨by rw [he, if_pos (hlinked.mp h)], h⟩
    · exact Or.inr (Or.inr ⟨by rw [he, if_neg (fun hc => h (hlinked.mpr hc))], hconn, h⟩)
  · refine Or.inr (Or.inl ⟨?_, hconn⟩)
    have hnone : E.links.find? (isTarget op) = none := by
      rw [List.find?_eq_none, links, List.forall_mem_map]
      intro c hc htarget
      rw [isTarget_linkOf ht] at htarget
      exact hconn (E.hasConn_iff.mpr (htarget ▸ List.mem_map_of_mem hc))
    simp [effectStatus, hk, snapshot, hnone]

end Evidence

/-! ## What the parser makes of the replies -/

/-- The verdicts on a state are the ones of the XStat reply. -/
structure Verdicts (xstat : Reply) (state : NodeState) : Prop where
  unlinkNode : ∀ op target, op.kind = .unlinkNode → Targets op target →
    (effectStatus op state = .ok .observedSatisfied ↔ ¬ HasConn xstat target) ∧
    (effectStatus op state = .ok .observedUnsatisfied ↔ HasConn xstat target)
  unlinkAll : ∀ op, op.kind = .unlinkAll →
    (effectStatus op state = .ok .observedSatisfied ↔
      ∀ name, HasConn xstat name → ¬ Numeric name) ∧
    (effectStatus op state = .ok .observedUnsatisfied ↔
      ∃ name, HasConn xstat name ∧ Numeric name)
  linkNode : ∀ op target mode, op.kind = .linkNode → Targets op target → Requests op mode →
    (effectStatus op state = .ok .observedSatisfied ↔ Linked xstat target mode) ∧
    (effectStatus op state = .ok .observedUnsatisfied ↔ ¬ HasConn xstat target) ∧
    (effectStatus op state = .ok .observedPartial ↔
      HasConn xstat target ∧ ¬ Linked xstat target mode)

theorem Linked.hasConn {xstat : Reply} {target : String} {mode : Mode}
    (h : Linked xstat target mode) : HasConn xstat target := by
  obtain ⟨⟨row, hm, hn, -⟩, -⟩ := h
  exact ⟨row, hm, hn⟩

theorem Evidence.verdicts {xstat sawstat : Reply} {node : String} (E : Evidence xstat sawstat node)
    (epoch now : String) : Verdicts xstat (E.snapshot epoch now) := by
  refine ⟨fun op target hk ht => ?_, fun op hk => ?_, fun op target mode hk ht hm => ?_⟩
  · rcases E.effect_unlinkNode epoch now hk ht with ⟨he, h⟩ | ⟨he, h⟩ <;> simp [he, h]
  · rcases E.effect_unlinkAll epoch now hk with ⟨he, h⟩ | ⟨he, h⟩
    · simpa [he] using h
    · simpa [he] using h
  · rcases E.effect_linkNode epoch now hk ht hm with ⟨he, h⟩ | ⟨he, h⟩ | ⟨he, hc, h⟩
    · simp [he, h, h.hasConn]
    · simp [he, h, mt Linked.hasConn h]
    · simp [he, hc, h]

/-- A complete state has a verdict. -/
theorem effect_unknown {op : Operation} {state : NodeState} :
    effectStatus op state = .ok .unknown ↔ state.complete = false := by
  constructor
  · intro h
    unfold effectStatus at h
    split_ifs at h with hc
    · exact hc
    · cases hk : op.kind with
      | unlinkNode =>
        simp only [hk] at h
        split_ifs at h <;> cases h
      | unlinkAll =>
        simp only [hk] at h
        split_ifs at h <;> cases h
      | linkNode =>
        simp only [hk] at h
        split at h
        · cases h
        · split at h
          · cases h
          · split_ifs at h <;> cases h
      | announce =>
        simp only [hk] at h
        cases h
  · intro h
    rw [effectStatus, if_pos h]

theorem complete_of_satisfied {op : Operation} {state : NodeState}
    (h : effectStatus op state = .ok .observedSatisfied) : state.complete = true := by
  by_contra hc
  rw [effect_unknown.mpr (Bool.eq_false_iff.mpr hc)] at h
  cases h

/-- **The verdicts of an operation on a pair of replies**: unknown exactly on an incomplete state,
and otherwise what the raw replies say. No target of a satisfied `unlink_all` is left, and a link
and its removal are never both satisfied. -/
theorem effect_verdict (xstat sawstat : Reply) (node epoch now : String) :
    ∃ state, parseSnapshot xstat sawstat node epoch now = .ok state ∧
      (∀ op, effectStatus op state = .ok .unknown ↔ state.complete = false) ∧
      (state.complete = true → Verdicts xstat state) ∧
      (∀ all op target, all.kind = .unlinkAll → op.kind = .unlinkNode → Targets op target →
        effectStatus all state = .ok .observedSatisfied →
        effectStatus op state = .ok .observedSatisfied) ∧
      ∀ link unlink target mode, link.kind = .linkNode → Targets link target →
        Requests link mode → unlink.kind = .unlinkNode → Targets unlink target →
        ¬ (effectStatus link state = .ok .observedSatisfied ∧
          effectStatus unlink state = .ok .observedSatisfied) := by
  obtain ⟨state, hs, hv⟩ : ∃ state, parseSnapshot xstat sawstat node epoch now = .ok state ∧
      (state.complete = true → Verdicts xstat state) := by
    rcases parseSnapshot_cases xstat sawstat node epoch now with ⟨E, h⟩ | ⟨-, reason, h⟩
    · exact ⟨_, h, fun _ => E.verdicts epoch now⟩
    · exact ⟨_, h, nofun⟩
  refine ⟨state, hs, fun op => effect_unknown, hv, ?_, ?_⟩
  · intro all op target hall hk ht h
    have hV := hv (complete_of_satisfied h)
    rw [(hV.unlinkNode op target hk ht).1]
    exact fun hc => ((hV.unlinkAll all hall).1.mp h) target hc (.of_isNode ht.canonical)
  · rintro link unlink target mode hl htl hm hu htu ⟨h, h'⟩
    have hV := hv (complete_of_satisfied h)
    exact (hV.unlinkNode unlink target hu htu).1.mp h'
      ((hV.linkNode link target mode hl htl hm).1.mp h).hasConn

end Asl3
