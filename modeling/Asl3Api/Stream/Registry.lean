import Asl3Api.Stream.Messages

/-!
# The queues of the event streams

* `leaks`: the clients whose generator ended before its loop;
* `Registered`, `run_registered`: the queues in the listener, and what the calls of `audit_log` say;
* **`stream_registry`**: which queues stay.
-/

set_option autoImplicit false

namespace Asl3

open Py

namespace Streams

open AMIEventListener (Body makeEvent)

variable {ι : Type} [DecidableEq ι] {cfg : Config} {s s' : State ι} {ls : List (Label ι)}

/-! ## The queues that stay -/

/-- The generator of a client has not ended. -/
def Place.isOpen (p : Place) : Bool := !(p = .absent || p = .ended)

/-- The clients of a run whose generator ended before its loop. -/
def leaks (cfg : Config) (ls : List (Label ι)) : List ι :=
  Lts.trace (step cfg) leaked init ls

/-- The calls of `audit_log` for a command. -/
def entries (s : State ι) (command : String) : ℕ := s.audit.countP fun e => e.1 = command

/-- The queues in the listener are those of the open streams and of the leaked ones, and the calls of
`audit_log` have counted them. -/
structure Registered (cfg : Config) (ls : List (Label ι)) (s : State ι) : Prop where
  made : ∀ id, id ∈ s.queues.made ↔ s.place id ≠ .absent
  queues : ∀ id, id ∈ s.queues.queues ↔ (s.place id).isOpen = true ∨ id ∈ leaks cfg ls
  ended : ∀ id ∈ leaks cfg ls, s.place id = .ended
  nodup : (leaks cfg ls).Nodup
  balance : entries s "events/connect" = entries s "events/disconnect" + s.queues.queues.card
  last : ∀ e ∈ s.audit.getLast?, e.2 = clients s.queues

theorem Registered.init (cfg : Config) : Registered cfg [] (Streams.init : State ι) where
  made := fun _ => iff_of_false (Finset.notMem_empty _) (not_not.mpr rfl)
  queues := fun _ => iff_of_false (Finset.notMem_empty _) (by simp [leaks, Streams.init, Place.isOpen])
  ended := fun _ h => nomatch h
  nodup := List.nodup_nil
  balance := rfl
  last := fun _ h => nomatch h

theorem leaks_snoc (h : Lts.exec (step cfg) init ls = some s) (l : Label ι) :
    leaks cfg (ls ++ [l]) = leaks cfg ls ++ leaked s l :=
  Lts.trace_snoc h

section

variable {l : Label ι}

/-- A step of the generator of `x` that keeps its subscription. -/
theorem Registered.keep (hr : Lts.exec (step cfg) Streams.init ls = some s) (hi : Registered cfg ls s)
    {x : ι} {p : Place} (hplace : s'.place = Function.update s.place x p)
    (hmade : s'.queues.made = s.queues.made) (hqueues : s'.queues.queues = s.queues.queues)
    (haudit : s'.audit = s.audit) (hx : (s.place x).isOpen = true) (hp : p ≠ .absent)
    (hl : p = .ended ∧ leaked s l = [x] ∨ p ≠ .ended ∧ leaked s l = []) :
    Registered cfg (ls ++ [l]) s' := by
  have hxp : s'.place x = p := by rw [hplace, Function.update_self]
  have hother : ∀ id, id ≠ x → s'.place id = s.place id := fun id hne => by
    rw [hplace, Function.update_of_ne hne]
  have hxs : s.place x ≠ .absent ∧ s.place x ≠ .ended := by
    simpa [Place.isOpen] using hx
  have hnot : x ∉ leaks cfg ls := fun hm => hxs.2 (hi.ended x hm)
  have hmem : ∀ id, id ∈ leaks cfg (ls ++ [l]) ↔ id ∈ leaks cfg ls ∨ (p = .ended ∧ id = x) := by
    intro id
    rw [leaks_snoc hr, List.mem_append]
    rcases hl with ⟨hp, hl⟩ | ⟨hp, hl⟩ <;> simp [hl, hp]
  refine ⟨fun id => ?_, fun id => ?_, fun id hm => ?_, ?_, ?_, ?_⟩
  · rw [hmade, hi.made]
    by_cases hid : id = x
    · subst hid
      rw [hxp]
      exact iff_of_true hxs.1 hp
    · rw [hother id hid]
  · rw [hqueues, hi.queues, hmem]
    by_cases hid : id = x
    · subst hid
      rw [hxp]
      refine iff_of_true (Or.inl hx) ?_
      by_cases hend : p = .ended
      · exact Or.inr (Or.inr ⟨hend, rfl⟩)
      · exact Or.inl (by simp [Place.isOpen, hp, hend])
    · rw [hother id hid]
      simp [hid]
  · rcases (hmem id).mp hm with hm | ⟨hend, rfl⟩
    · by_cases hid : id = x
      · exact absurd (hid ▸ hm) hnot
      · rw [hother id hid]
        exact hi.ended id hm
    · rw [hxp, hend]
  · rw [leaks_snoc hr]
    rcases hl with ⟨-, hl⟩ | ⟨-, hl⟩
    · rw [hl]
      refine hi.nodup.append (List.nodup_singleton x) fun id hm hm' => ?_
      exact hnot (List.mem_singleton.mp hm' ▸ hm)
    · rw [hl, List.append_nil]
      exact hi.nodup
  · rw [entries, entries, haudit, hqueues]
    exact hi.balance
  · rw [haudit, clients, hqueues]
    exact hi.last

/-- A new client. -/
theorem Registered.connect (hr : Lts.exec (step cfg) Streams.init ls = some s)
    (hi : Registered cfg ls s) {x : ι} (hstep : step cfg s (.connect x) = some s') :
    Registered cfg (ls ++ [.connect x]) s' := by
  rw [step] at hstep
  split_ifs at hstep with hc
  obtain rfl := Option.some.inj hstep
  have hnew : x ∉ s.queues.made := (not_or.mp hc).2
  have habsent : s.place x = .absent := not_not.mp (mt (hi.made x).mpr hnew)
  have hqueue : x ∉ s.queues.queues := by
    rw [hi.queues, habsent]
    rintro (h | h)
    · cases h
    · rw [hi.ended x h] at habsent
      cases habsent
  have hsame : leaks cfg (ls ++ [.connect x]) = leaks cfg ls := by
    rw [leaks_snoc hr]
    exact List.append_nil _
  have hplace : ∀ id, id ≠ x → Function.update s.place x .made id = s.place id :=
    fun id hne => Function.update_of_ne hne _ _
  refine ⟨fun id => ?_, fun id => ?_, fun id hm => ?_, by rw [hsame]; exact hi.nodup, ?_, ?_⟩
  · change id ∈ insert x s.queues.made ↔ Function.update s.place x .made id ≠ .absent
    by_cases hid : id = x
    · subst hid
      rw [Function.update_self]
      exact iff_of_true (Finset.mem_insert_self _ _) (by rintro ⟨⟩)
    · rw [hplace id hid, Finset.mem_insert, or_iff_right hid]
      exact hi.made id
  · change id ∈ insert x s.queues.queues ↔ (Function.update s.place x .made id).isOpen = true ∨ _
    rw [hsame]
    by_cases hid : id = x
    · subst hid
      rw [Function.update_self]
      exact iff_of_true (Finset.mem_insert_self _ _) (Or.inl rfl)
    · rw [hplace id hid, Finset.mem_insert, or_iff_right hid]
      exact hi.queues id
  · rw [hsame] at hm
    have hid : id ≠ x := by
      rintro rfl
      rw [hi.ended id hm] at habsent
      cases habsent
    exact (hplace id hid).trans (hi.ended id hm)
  · have hcard : (insert x s.queues.queues).card = s.queues.queues.card + 1 :=
      Finset.card_insert_of_notMem hqueue
    have hb := hi.balance
    simp only [entries, Subscribers.subscribe, List.countP_append, List.countP_singleton, hcard] at hb ⊢
    simp only [decide_true, if_true, decide_eq_true_eq, String.reduceEq, if_false]
    omega
  · intro e he
    rw [List.getLast?_append, List.getLast?_singleton, Option.some_or] at he
    cases he
    rfl

/-- A client that ends in its loop. -/
theorem Registered.disconnect (hr : Lts.exec (step cfg) Streams.init ls = some s)
    (hi : Registered cfg ls s) {x : ι} (hplace : s'.place = Function.update s.place x .ended)
    (hqueues : s'.queues = Subscribers.unsubscribe s.queues x)
    (haudit : s'.audit = s.audit ++ [("events/disconnect", clients s'.queues)])
    (hx : (s.place x).isOpen = true) (hl : leaked s l = []) : Registered cfg (ls ++ [l]) s' := by
  have hxs : s.place x ≠ .absent ∧ s.place x ≠ .ended := by
    simpa [Place.isOpen] using hx
  have hnot : x ∉ leaks cfg ls := fun hm => hxs.2 (hi.ended x hm)
  have hin : x ∈ s.queues.queues := (hi.queues x).mpr (Or.inl hx)
  have hsame : leaks cfg (ls ++ [l]) = leaks cfg ls := by
    rw [leaks_snoc hr, hl, List.append_nil]
  have hxp : s'.place x = .ended := by rw [hplace, Function.update_self]
  have hother : ∀ id, id ≠ x → s'.place id = s.place id := fun id hne => by
    rw [hplace, Function.update_of_ne hne]
  refine ⟨fun id => ?_, fun id => ?_, fun id hm => ?_, by rw [hsame]; exact hi.nodup, ?_, ?_⟩
  · rw [hqueues]
    change id ∈ s.queues.made ↔ _
    rw [hi.made]
    by_cases hid : id = x
    · subst hid
      rw [hxp]
      exact iff_of_true hxs.1 nofun
    · rw [hother id hid]
  · rw [hqueues, hsame]
    change id ∈ s.queues.queues.erase x ↔ _
    by_cases hid : id = x
    · subst hid
      rw [hxp]
      exact iff_of_false (Finset.notMem_erase _ _) (fun h => h.elim nofun hnot)
    · rw [hother id hid, Finset.mem_erase, and_iff_right hid]
      exact hi.queues id
  · rw [hsame] at hm
    have hid : id ≠ x := by
      rintro rfl
      exact hnot hm
    rw [hother id hid]
    exact hi.ended id hm
  · have hcard : s'.queues.queues.card + 1 = s.queues.queues.card := by
      rw [hqueues]
      exact Finset.card_erase_add_one hin
    have hb := hi.balance
    simp only [entries, haudit, List.countP_append, List.countP_singleton] at hb ⊢
    simp only [decide_true, if_true, decide_eq_true_eq, String.reduceEq, if_false]
    omega
  · intro e he
    rw [haudit, List.getLast?_append, List.getLast?_singleton, Option.some_or] at he
    cases he
    rfl

end

/-- **The listener in a run.** -/
theorem run_registered (h : Lts.exec (step cfg) init ls = some s) : Registered cfg ls s := by
  refine Lts.exec_induction (fun ls s => Registered cfg ls s) (.init cfg) ?_ h
  intro ls s l s' hr hi hstep
  cases l with
  | connect x => exact hi.connect hr hstep
  | client x i =>
    obtain ⟨hmove, -⟩ := step_client hstep
    obtain ⟨p, actions, hg, hplace, hq⟩ := move_cases hmove
    obtain ⟨habsent, hnew, hended, -, -⟩ := generator_forward hg
    have hx : (s.place x).isOpen = true := by simp [Place.isOpen, habsent, hended]
    have hgoes : i ≠ .stop → leaked s (.client x i) = [] := fun hi => by
      cases i <;> first | rfl | exact absurd rfl hi
    rcases hq with ⟨hn, hq, haudit⟩ | ⟨rfl, hq, haudit⟩
    · refine hi.keep hr hplace (by rw [hq]) (by rw [hq]) haudit hx hnew ?_
      rcases generator_cases hg with ⟨-, hstop, hearly⟩ | ⟨-, -, hp, hne⟩ | ⟨rfl, -, -⟩
      · by_cases hi : i = .stop
        · refine Or.inl ⟨hstop.mpr hi, ?_⟩
          have he := hearly hi
          subst hi
          exact if_pos he
        · exact Or.inr ⟨fun hp => hi (hstop.mp hp), hgoes hi⟩
      · exact Or.inr ⟨hp, hgoes hne⟩
      · exact absurd (List.mem_singleton_self _) hn
    · rcases generator_cases hg with ⟨ha, -, -⟩ | ⟨_, ha, -, -⟩ | ⟨-, rfl, hearly⟩
      · cases ha
      · cases ha
      · refine hi.disconnect hr hplace hq haudit hx ?_
        cases i with
        | stop => exact if_neg (by rw [hearly]; exact Bool.false_ne_true)
        | _ => rfl
  | wake x =>
    obtain ⟨hp, hplace, hq, haudit⟩ := step_wake hstep
    exact hi.keep hr hplace (by rw [hq]; rfl) (by rw [hq]; rfl) haudit (by rw [hp]; rfl) nofun
      (Or.inr ⟨nofun, rfl⟩)
  | broadcast body now order =>
    obtain ⟨queues, hq, rfl⟩ := Option.map_eq_some_iff.mp hstep
    obtain ⟨-, -, rfl⟩ := Subscribers.step_broadcast.mp hq
    have hsame : leaks cfg (ls ++ [.broadcast body now order]) = leaks cfg ls := by
      rw [leaks_snoc hr]
      exact List.append_nil _
    refine ⟨hi.made, ?_, ?_, ?_, hi.balance, hi.last⟩
    · rw [hsame]
      exact hi.queues
    · rw [hsame]
      exact hi.ended
    · rw [hsame]
      exact hi.nodup

/-- **Which queues stay in the listener.** After any run they are the queues of the streams that are open
and of those that ended before their loop, and a queue of the second kind stays for ever. There is one
call of `audit_log` for each stream that came and for each queue that was taken out, so that their
difference is the number of queues; the last call has that number. -/
theorem stream_registry (cfg : Config) (ls : List (Label ι)) (s : State ι)
    (h : Lts.exec (step cfg) init ls = some s) :
    (∀ id, id ∈ s.queues.queues ↔ (s.place id).isOpen = true ∨ id ∈ leaks cfg ls) ∧
      (leaks cfg ls).Nodup ∧
      (∀ id ∈ leaks cfg ls, ∀ ls' s', Lts.exec (step cfg) s ls' = some s' →
        s'.place id = .ended ∧ id ∈ s'.queues.queues) ∧
      entries s "events/connect" = entries s "events/disconnect" + s.queues.queues.card ∧
      ∀ e ∈ s.audit.getLast?, e.2 = "clients=" ++ toString s.queues.queues.card := by
  have hi := run_registered h
  refine ⟨hi.queues, hi.nodup, fun id hid ls' s' h' => ?_, hi.balance, hi.last⟩
  have hi' := run_registered (Lts.exec_append.mpr ⟨s, h, h'⟩)
  have hid' : id ∈ leaks cfg (ls ++ ls') := by
    rw [leaks, Lts.trace_append h]
    exact List.mem_append_left _ hid
  exact ⟨hi'.ended id hid', (hi'.queues id).mpr (Or.inr hid')⟩

/-- The queue of a client that went away before it was served stays in the listener. -/
theorem stream_registry_two : ∃ s : State Bool,
    Lts.exec (step ⟨.dict []⟩) init twoClients = some s ∧
      (∀ id, id ∈ s.queues.queues ↔ (s.place id).isOpen = true ∨ id ∈ [false]) ∧
      entries s "events/connect" = entries s "events/disconnect" + s.queues.queues.card := by
  have hrun : (Lts.exec (step ⟨.dict []⟩) init twoClients).isSome = true := by decide +kernel
  have hleaks : leaks ⟨.dict []⟩ twoClients = [false] := by decide +kernel
  obtain ⟨s, hs⟩ := Option.isSome_iff_exists.mp hrun
  obtain ⟨hqueues, -, -, hbalance, -⟩ := stream_registry ⟨.dict []⟩ twoClients s hs
  rw [hleaks] at hqueues
  exact ⟨s, hs, hqueues, hbalance⟩

end Streams

end Asl3
