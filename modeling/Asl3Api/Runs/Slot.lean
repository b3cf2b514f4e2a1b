import Asl3Api.Runs.History

/-!
# The control slot

* `Crossing`: the time from the commit of a barrier to the end of the worker;
* **`single_flight`**: one operation at a time, and no slot that stays taken.
-/

set_option autoImplicit false

namespace Asl3

open Py Ledger

/-- The worker has committed its barrier and has not ended. -/
def Crossing (es : List Event) (id : String) : Prop :=
  ∃ a b, es = a ++ .crossed id :: b ∧ .ended id ∉ b ∧ .died ∉ b

variable {node : String} {es out : List Event} {id : String} {s : Sys}

/-- An interval that is open after some events was open before them, or begins with one of them. -/
theorem crossing_append (h : Crossing (es ++ out) id) :
    .crossed id ∈ out ∨ Crossing es id ∧ .ended id ∉ out ∧ .died ∉ out := by
  obtain ⟨a, b, e, he, hd⟩ := h
  rcases List.append_eq_append_iff.mp e with ⟨c, rfl, hc⟩ | ⟨c, rfl, hc⟩
  · rw [hc]
    exact Or.inl (by simp)
  · cases c with
    | nil =>
      rw [List.nil_append] at hc
      rw [← hc]
      exact Or.inl List.mem_cons_self
    | cons x c =>
      rw [List.cons_append, List.cons.injEq] at hc
      obtain ⟨rfl, rfl⟩ := hc
      rw [List.mem_append, not_or] at he hd
      exact Or.inr ⟨⟨a, c, rfl, he.1, hd.1⟩, he.2, hd.2⟩

/-- An open interval belongs to a worker that has not ended. -/
def Attended (es : List Event) (s : Sys) : Prop :=
  ∀ id, Crossing es id → ∃ p w, s.life = .up p ∧ w ∈ p.tasks ∧ w.id = id

/-- A process without a worker has no open interval. -/
theorem Attended.not_crossing (h : Attended es s) (hs : ∀ p, s.life = .up p → p.tasks = [])
    (id : String) : ¬ Crossing es id := by
  intro hx
  obtain ⟨p, w, hp, hw, -⟩ := h id hx
  rw [hs p hp] at hw
  cases hw

theorem Does.attended {s' : Sys} {l : Label} (hdo : Does node s l s' out) (hi : Inv node s)
    (h : Attended es s) : Attended (es ++ out) s' := by
  intro id hc
  have hnone : ∀ p, s.life = .up p → p.tasks = [] → ¬ Crossing es id := by
    intro p hp ht
    refine h.not_crossing (fun q hq => ?_) id
    rw [hp] at hq
    cases hq
    exact ht
  have hstart : ∀ cfg todo, s.life = .starting cfg todo → ¬ Crossing es id := by
    intro cfg todo hs
    refine h.not_crossing (fun q hq => ?_) id
    rw [hs] at hq
    cases hq
  cases hdo with
  | idle hq =>
    rw [List.append_nil] at hc
    exact h id hc
  | started hv hn hl =>
    rw [List.append_nil] at hc
    obtain ⟨q, w, hq, hw, -⟩ := h id hc
    have hrun := hi.life
    rw [hq] at hrun
    have hown := (hrun.opened (Or.inr (List.ne_nil_of_mem hw))).1
    have hlock : s.locked = q.owner := by
      unfold Sys.locked
      rw [hq]
    rw [hl, hown] at hlock
    cases hlock
  | recovered hs hd ht =>
    rw [List.append_nil] at hc
    exact absurd hc (hstart _ _ hs)
  | abandoned hs =>
    rw [List.append_nil] at hc
    exact absurd hc (hstart _ _ hs)
  | ready hs =>
    rw [List.append_nil] at hc
    exact absurd hc (hstart _ _ hs)
  | admitted hs hr ht hnew hx hv =>
    rw [List.append_nil] at hc
    exact absurd hc (hnone _ hs ht)
  | @worked p p' w doc i t' n hs ht hd hf hst =>
    rcases crossing_append hc with hm | ⟨hx, he, -⟩
    · obtain ⟨rfl, w', rfl, -⟩ := crossed_mem_output hm
      obtain ⟨rfl, hid, -, -⟩ := hst.goes
      exact ⟨_, w', rfl, mem_of_tasks (settle_goes ht w'), hid⟩
    · obtain ⟨q, v, hq, hv, rfl⟩ := h id hx
      rw [hs] at hq
      cases hq
      rw [ht, List.mem_singleton] at hv
      subst hv
      cases n with
      | goes w' =>
        obtain ⟨rfl, hid, -, -⟩ := hst.goes
        exact ⟨_, w', rfl, mem_of_tasks (settle_goes ht w'), hid⟩
      | ended => exact absurd (by simp [Execute.output, Execute.ending]) he
      | dropped => exact absurd (by simp [Execute.output, Execute.ending]) he
  | close hs hq =>
    rw [List.append_nil] at hc
    obtain ⟨q, w, hq', hw, hid⟩ := h id hc
    rw [hs] at hq'
    cases hq'
    exact ⟨_, _, rfl, List.mem_map_of_mem hw, hid⟩
  | closed hs hcl ht =>
    rw [List.append_nil] at hc
    exact absurd hc (hnone _ hs ht)
  | crashed =>
    rcases crossing_append hc with hm | ⟨-, -, hd⟩
    · simp at hm
    · exact absurd (List.mem_singleton_self _) hd

/-- **Single flight.** In a started runtime that is not closing at most one row is open, the slot
is free or holds the operation of the one worker, and a free slot of a healthy runtime means that
every row is terminal. The intervals from a barrier commit to the end of its worker never
overlap. -/
theorem single_flight {ls : List Label} (h : Reaches node ls s) :
    (∀ p, s.life = .up p → p.closing = false →
      (∀ r ∈ s.table, ∀ r' ∈ s.table, r.document.terminal = false →
        r'.document.terminal = false → r = r') ∧
      (p.busyOperationId = none ∧ p.tasks = [] ∨
        ∃ w, p.busyOperationId = some w.id ∧ p.tasks = [w]) ∧
      (p.busyOperationId = none → p.healthy = true → ∀ r ∈ s.table, r.document.terminal = true)) ∧
    ∀ i j, Crossing (history node ls) i → Crossing (history node ls) j → i = j := by
  have hi := reaches_inv h
  refine ⟨fun p hp hc => ?_, fun i j hci hcj => ?_⟩
  · have hrun := hi.life
    rw [hp] at hrun
    have hslot := hrun.slot hc
    have htasks : p.busyOperationId = none → p.tasks = [] := by
      intro hb
      rcases hrun.single with ht | ⟨w, ht⟩
      · exact ht
      · rw [hb, ht] at hslot
        cases hslot
    refine ⟨hi.sound.single, ?_, fun hb hh => hrun.terminal hc hh (htasks hb)⟩
    rcases hrun.single with ht | ⟨w, ht⟩
    · exact Or.inl ⟨by rw [hslot, ht]; rfl, ht⟩
    · exact Or.inr ⟨w, by rw [hslot, ht]; rfl, ht⟩
  · have hatt : Attended (history node ls) s := by
      refine reaches_induction Attended ?_ (fun _ _ _ _ _ hi hs hd => hd.attended hi hs) h
      rintro id ⟨a, b, e, -⟩
      simp at e
    obtain ⟨p, w, hp, hw, rfl⟩ := hatt i hci
    obtain ⟨q, v, hq, hv, rfl⟩ := hatt j hcj
    rw [hp] at hq
    cases hq
    have hrun := hi.life
    rw [hp] at hrun
    rcases hrun.single with ht | ⟨x, ht⟩
    · rw [ht] at hw
      cases hw
    · rw [ht, List.mem_singleton] at hw hv
      rw [hw, hv]

/-- After the barrier commit of the announcement its worker holds the slot. -/
theorem single_flight_written :
    ∃ s p w, Reaches "546051" writeRun s ∧ s.life = .up p ∧ p.closing = false ∧ p.tasks = [w] ∧
      p.busyOperationId = some w.id ∧
      (∀ r ∈ s.table, ∀ r' ∈ s.table, r.document.terminal = false →
        r'.document.terminal = false → r = r') ∧
      ∀ i j, Crossing (history "546051" writeRun) i → Crossing (history "546051" writeRun) j →
        i = j := by
  obtain ⟨s, hs, hf⟩ := exists_reaches "546051" writeRun
    (fun s => s.upWith fun p => !p.closing && !p.tasks.isEmpty) true (by decide +kernel)
  obtain ⟨p, hp, hc⟩ := Sys.exists_up hf
  simp only [Bool.and_eq_true, Bool.not_eq_true'] at hc
  obtain ⟨hslot, hcross⟩ := single_flight hs
  obtain ⟨hone, hb, -⟩ := hslot p hp hc.1
  rcases hb with ⟨-, ht⟩ | ⟨w, hb, ht⟩
  · rw [ht] at hc
    cases hc.2
  · exact ⟨s, p, w, hs, hp, hc.1, ht, hb, hone, hcross⟩

end Asl3
