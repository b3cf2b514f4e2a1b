import Asl3Api.Runs.Invariant

/-!
# The documents a client can read

* **`documents_move_forward`**: a stored document takes the steps of `Moves` only, and a terminal
  one never changes;
* **`results_consistent`**: the statuses of a stored document fit together, and an observed effect
  rests on the stored evidence.
-/

set_option autoImplicit false

namespace Asl3

open Py Ledger

variable {node : String} {ls : List Label} {s : Sys}

/-- **Lifecycle.** Every step keeps each document, moves it one step forward, or admits a new one
as queued, pending and not terminal. No run changes a terminal document. -/
theorem documents_move_forward (h : Reaches node ls s) :
    (∀ l s' id, s.step node l = some s' →
      get s'.table node id = get s.table node id ∨
        (∃ doc doc', get s.table node id = some doc ∧ get s'.table node id = some doc' ∧
          Moves doc doc') ∨
        ∃ doc', get s.table node id = none ∧ get s'.table node id = some doc' ∧ doc'.Admitted) ∧
    ∀ ls' s' id doc, Lts.exec (Sys.step node) s ls' = some s' → get s.table node id = some doc →
      ∃ doc', get s'.table node id = some doc' ∧ SameIdentity doc doc' ∧
        Relation.ReflTransGen Moves doc doc' ∧ (doc.terminal = true → doc' = doc) := by
  have hi := reaches_inv h
  refine ⟨fun l s' id hs => ((hi.does hs).tableStep hi).get_cases id, ?_⟩
  intro ls' s' id doc hr hd
  obtain ⟨doc', hd', hs, hm⟩ := (exec_grows hi hr).get (exec_inv hi hr).sound.wf hd
  exact ⟨doc', hd', hs, hm, eq_of_terminal hm⟩

/-- The acknowledged announcement survives a restart unchanged. -/
theorem documents_move_forward_announced :
    ∃ s s' doc, Reaches "546051" announceRun s ∧
      Lts.exec (Sys.step "546051") s restartRun = some s' ∧
      get s.table "546051" "a1" = some doc ∧ doc.stage = (.acknowledged, .unknown, true) ∧
      get s'.table "546051" "a1" = some doc := by
  obtain ⟨s, s', hs, hr, hf, -⟩ := exists_reaches_append "546051" announceRun restartRun
    (fun s => (get s.table "546051" "a1").map Operation.stage) (fun _ => ())
    (some (.acknowledged, .unknown, true)) () (by decide +kernel) (by decide +kernel)
  obtain ⟨doc, hd, hst⟩ := Option.map_eq_some_iff.mp hf
  obtain ⟨doc', hd', -, -, hsame⟩ := (documents_move_forward hs).2 restartRun s' "a1" doc hr hd
  rw [hsame (congrArg (fun x => x.2.2) hst)] at hd'
  exact ⟨s, s', doc, hs, hr, hd, hst, hd'⟩

/-- **Result consistency.** -/
theorem results_consistent (h : Reaches node ls s) :
    ∀ r ∈ s.table, r.document.stage ∈ stages ∧
      (r.document.terminal = true ↔ r.document.effectStatus ≠ .pending) ∧
      r.document.effectStatus ≠ .notApplicable ∧
      (r.document.kind = .announce → r.document.effectStatus.observed = false) ∧
      (r.document.effectStatus.observed = true → ∃ state, r.document.evidence = some state ∧
        state.complete = true ∧ effectStatus r.document state = .ok r.document.effectStatus) := by
  intro r hr
  have hc := (reaches_inv h).sound.consistent r hr
  have hstage := hc.stage
  refine ⟨hstage, ?_, ?_, hc.announce, hc.evidence⟩
  · unfold Operation.stage at hstage
    generalize r.document.dispatchStatus = d at hstage
    generalize r.document.effectStatus = e at hstage ⊢
    generalize r.document.terminal = b at hstage ⊢
    revert hstage
    cases d <;> cases e <;> cases b <;> decide
  · intro he
    unfold Operation.stage at hstage
    rw [he] at hstage
    generalize r.document.dispatchStatus = d at hstage
    generalize r.document.terminal = b at hstage
    revert hstage
    cases d <;> cases b <;> decide

theorem results_consistent_announced :
    ∃ s, Reaches "546051" announceRun s ∧
      s.table.map (fun r => r.document.stage) = [(.acknowledged, .unknown, true)] ∧
      ∀ r ∈ s.table, r.document.stage ∈ stages ∧
        (r.document.terminal = true ↔ r.document.effectStatus ≠ .pending) ∧
        r.document.effectStatus ≠ .notApplicable ∧
        (r.document.kind = .announce → r.document.effectStatus.observed = false) ∧
        (r.document.effectStatus.observed = true → ∃ state, r.document.evidence = some state ∧
          state.complete = true ∧ effectStatus r.document state = .ok r.document.effectStatus) := by
  obtain ⟨s, hs, hf⟩ := exists_reaches "546051" announceRun
    (fun s => s.table.map fun r => r.document.stage) [(.acknowledged, .unknown, true)]
    (by decide +kernel)
  exact ⟨s, hs, hf, results_consistent hs⟩

end Asl3
