import Mathlib.Data.Finset.Basic
import Mathlib.Data.Finset.Dedup
import Asl3Api.Lib.Queue
import Asl3Api.Lib.Transition

/-!
# The queues of the subscribers (`ami_event_listener.py`, `event_stream`)

* `subscribe`, `unsubscribe`, `broadcast`, `receive`: the operations on the queues;
* `broadcast_eq`: `broadcast` succeeds, in whatever order the set is iterated;
* `step_queue`: what a step does to one queue;
* `run_account`: what became of the events that were broadcast to a subscriber;
* `run_seat`: a subscriber alone;
* **`subscriber_queues`**: the laws of the queues, over all runs.
-/

set_option autoImplicit false

namespace Asl3

namespace Subscribers

open Fifo Queue

variable {ι α : Type} [DecidableEq ι]

/-! ## The operations -/

/-- The queues that were made, and those that are in `_queues`. -/
structure State (ι α : Type) where
  made : Finset ι
  queues : Finset ι
  queue : ι → Queue α 200

/-- No queue was made. -/
def init : State ι α := ⟨∅, ∅, fun _ => .new⟩

/-- `subscribe`, which makes the queue `id`. -/
def subscribe (s : State ι α) (id : ι) : State ι α where
  made := insert id s.made
  queues := insert id s.queues
  queue := Function.update s.queue id .new

/-- `unsubscribe`. -/
def unsubscribe (s : State ι α) (id : ι) : State ι α := { s with queues := s.queues.erase id }

/-- The body of the loop of `broadcast`. -/
def deliver (queue : Queue α 200) (event : α) : Except Failure (Queue α 200) := do
  let queue ← if queue.full then Prod.snd <$> queue.getNowait else pure queue
  queue.putNowait event

/-- `broadcast`, which iterates the set in some order. -/
def broadcast (s : State ι α) (order : List ι) (event : α) : Except Failure (State ι α) :=
  order.foldlM (fun s id => do
    let queue ← deliver (s.queue id) event
    pure { s with queue := Function.update s.queue id queue }) s

/-- `wait_for(queue.get())` in `event_stream`: the oldest event, or a timeout. -/
def nextEvent (queue : Queue α 200) : Option α × Queue α 200 :=
  match queue.getNowait with
  | .ok (event, queue) => (some event, queue)
  | .error _ => (none, queue)

/-- A round of the loop of `event_stream`. -/
def receive (s : State ι α) (id : ι) : Option α × State ι α :=
  ((nextEvent (s.queue id)).1,
    { s with queue := Function.update s.queue id (nextEvent (s.queue id)).2 })

/-- One operation. None of them suspends between its first effect and its last. -/
inductive Label (ι α : Type) where
  | subscribe (id : ι)
  | unsubscribe (id : ι)
  | broadcast (event : α) (order : List ι)
  | receive (id : ι)

/-- A step. A subscription makes a new queue, and an iteration goes through the whole set once. -/
def step (s : State ι α) : Label ι α → Option (State ι α)
  | .subscribe id => if id ∈ s.made then none else some (subscribe s id)
  | .unsubscribe id => some (unsubscribe s id)
  | .broadcast event order =>
    if order.Nodup ∧ order.toFinset = s.queues then (broadcast s order event).toOption else none
  | .receive id => some (receive s id).2

/-- The events that are broadcast while `id` is subscribed. -/
def sent (id : ι) (s : State ι α) : Label ι α → List α
  | .broadcast event _ => if id ∈ s.queues then [event] else []
  | _ => []

/-- The events that `id` reads. -/
def received (id : ι) (s : State ι α) : Label ι α → List α
  | .receive id' => if id' = id then (receive s id).1.toList else []
  | _ => []

/-- The events that `broadcast` takes out of the queue of `id`. -/
def dropped (id : ι) (s : State ι α) : Label ι α → List α
  | .broadcast _ _ =>
    if id ∈ s.queues ∧ (s.queue id).full = true then (s.queue id).items.head?.toList else []
  | _ => []

/-! ## Broadcasts -/

theorem deliver_eq (q : Queue α 200) (event : α) : deliver q event = .ok (q.push event) := by
  cases hf : q.full with
  | false =>
    have hlt : q.items.length < 200 := by
      have hne : q.items.length ≠ 200 := fun h => by rw [full_iff.mpr h] at hf; cases hf
      exact lt_of_le_of_ne q.bounded hne
    obtain ⟨q', hq', hi⟩ := putNowait_eq hlt event
    rw [deliver, hf]
    refine hq'.trans (congrArg _ (Queue.ext ?_))
    rw [hi, push_of_lt hlt]
  | true =>
    have hlen := full_iff.mp hf
    obtain ⟨d, ds, hq⟩ := List.exists_cons_of_length_eq_add_one hlen
    obtain ⟨r, hr, hds⟩ := getNowait_eq hq
    have hlt : r.items.length < 200 := by
      rw [hq, List.length_cons] at hlen
      rw [hds]
      omega
    obtain ⟨q', hq', hi⟩ := putNowait_eq hlt event
    rw [deliver, hf, if_pos rfl, hr]
    refine hq'.trans (congrArg _ (Queue.ext ?_))
    rw [hi, push_of_full hq hlen, hds]

/-- `broadcast` puts the event into each of the queues, and does not fail. -/
theorem broadcast_eq {order : List ι} (hn : order.Nodup) (s : State ι α) (event : α) :
    broadcast s order event = .ok { s with
      queue := fun id => if id ∈ order then (s.queue id).push event else s.queue id } := by
  induction order generalizing s with
  | nil => simp only [broadcast, List.foldlM_nil, List.not_mem_nil, if_false]; rfl
  | cons id order ih =>
    obtain ⟨hid, hn⟩ := List.nodup_cons.mp hn
    rw [broadcast, List.foldlM_cons, deliver_eq]
    refine (ih hn _).trans (congrArg _ ?_)
    congr 1
    funext x
    dsimp only
    by_cases hx : x = id
    · subst hx
      rw [if_neg hid, Function.update_self, if_pos List.mem_cons_self]
    · rw [Function.update_of_ne hx]
      simp only [List.mem_cons, hx, false_or]

theorem step_broadcast {s s' : State ι α} {event : α} {order : List ι} :
    step s (.broadcast event order) = some s' ↔ order.Nodup ∧ order.toFinset = s.queues ∧
      s' = { s with queue := fun id => if id ∈ s.queues then (s.queue id).push event else s.queue id } := by
  rw [step]
  split_ifs with h
  · obtain ⟨hn, ho⟩ := h
    rw [broadcast_eq hn]
    simp only [← List.mem_toFinset, ho, Except.toOption, Option.some.injEq, hn, true_and]
    exact eq_comm
  · simp only [false_iff]
    rintro ⟨hn, ho, -⟩
    exact h ⟨hn, ho⟩

/-! ## One queue -/

/-- A queue that was not made has nothing in it, and nothing is put into it. -/
def Fresh (s : State ι α) : Prop := ∀ id ∉ s.made, s.queue id = .new ∧ id ∉ s.queues

theorem nextEvent_cases (q : Queue α 200) : nextEvent q = (none, q) ∨
    ∃ event q', q.items = event :: q'.items ∧ nextEvent q = (some event, q') := by
  rw [nextEvent]
  cases hq : q.items with
  | nil =>
    rw [getNowait_nil hq]
    exact .inl rfl
  | cons event rest =>
    obtain ⟨q', hg, hr⟩ := getNowait_eq hq
    rw [hg]
    exact .inr ⟨event, q', by rw [hr], rfl⟩

theorem step_fresh {s s' : State ι α} {l : Label ι α} (hs : Fresh s) (h : step s l = some s') :
    Fresh s' := by
  cases l with
  | subscribe id =>
    rw [step] at h
    split_ifs at h
    obtain rfl := Option.some.inj h
    intro x hx
    obtain ⟨hne, hx⟩ := not_or.mp (mt Finset.mem_insert.mpr hx)
    refine ⟨(Function.update_of_ne hne _ _).trans (hs x hx).1, fun hm => ?_⟩
    exact (Finset.mem_insert.mp hm).elim hne (hs x hx).2
  | unsubscribe id =>
    obtain rfl := Option.some.inj h
    exact fun x hx => ⟨(hs x hx).1, fun hm => (hs x hx).2 (Finset.mem_of_mem_erase hm)⟩
  | broadcast event order =>
    obtain ⟨-, -, rfl⟩ := step_broadcast.mp h
    exact fun x hx => ⟨(if_neg (hs x hx).2).trans (hs x hx).1, (hs x hx).2⟩
  | receive id =>
    obtain rfl := Option.some.inj h
    refine fun x hx => ⟨?_, (hs x hx).2⟩
    by_cases hid : x = id
    · subst hid
      refine (Function.update_self _ _ _).trans ?_
      rw [(hs x hx).1]
      rfl
    · exact (Function.update_of_ne hid _ _).trans (hs x hx).1

/-- What is pushed out of a queue: nothing, or the oldest event of a full one. -/
theorem push_cases (q : Queue α 200) (event : α) :
    (q.full = false ∧ (q.push event).items = q.items ++ [event]) ∨
    ∃ d ds, q.full = true ∧ q.items = d :: ds ∧ (q.push event).items = ds ++ [event] ∧
      (q.push event).items.length = 200 := by
  cases hf : q.full with
  | false =>
    have hlt : q.items.length < 200 :=
      lt_of_le_of_ne q.bounded fun h => Bool.false_ne_true (hf.symm.trans (full_iff.mpr h))
    exact .inl ⟨rfl, push_of_lt hlt event⟩
  | true =>
    have hlen := full_iff.mp hf
    obtain ⟨d, ds, hq⟩ := List.exists_cons_of_length_eq_add_one hlen
    have hp := push_of_full hq hlen event
    refine .inr ⟨d, ds, rfl, hq, hp, ?_⟩
    rw [hq, List.length_cons] at hlen
    rw [hp, List.length_append, List.length_singleton, hlen]

/-- **What a step does to one queue**: an event is put, after the oldest one was dropped when the queue
was full; the oldest event is read; or nothing. -/
theorem step_queue {s s' : State ι α} {l : Label ι α} (hs : Fresh s) (h : step s l = some s') (id : ι) :
    (∃ event, sent id s l = [event] ∧ received id s l = [] ∧ dropped id s l = [] ∧
      (s'.queue id).items = (s.queue id).items ++ [event]) ∨
    (∃ event order d ds, l = .broadcast event order ∧ sent id s l = [event] ∧ received id s l = [] ∧
      dropped id s l = [d] ∧ (s.queue id).items = d :: ds ∧ (s'.queue id).items = ds ++ [event] ∧
      (s'.queue id).items.length = 200) ∨
    (∃ event, sent id s l = [] ∧ received id s l = [event] ∧ dropped id s l = [] ∧
      (s.queue id).items = event :: (s'.queue id).items) ∨
    (sent id s l = [] ∧ received id s l = [] ∧ dropped id s l = [] ∧ s'.queue id = s.queue id) := by
  cases l with
  | subscribe x =>
    refine .inr (.inr (.inr ⟨rfl, rfl, rfl, ?_⟩))
    rw [step] at h
    split_ifs at h with hx
    obtain rfl := Option.some.inj h
    by_cases hid : id = x
    · subst hid
      exact (Function.update_self _ _ _).trans (hs id hx).1.symm
    · exact Function.update_of_ne hid _ _
  | unsubscribe x =>
    obtain rfl := Option.some.inj h
    exact .inr (.inr (.inr ⟨rfl, rfl, rfl, rfl⟩))
  | broadcast event order =>
    obtain ⟨-, -, rfl⟩ := step_broadcast.mp h
    by_cases hid : id ∈ s.queues
    · have hq' : (if id ∈ s.queues then (s.queue id).push event else s.queue id) =
          (s.queue id).push event := if_pos hid
      rcases push_cases (s.queue id) event with ⟨hf, hp⟩ | ⟨d, ds, hf, hq, hp, hl⟩
      · have hd : dropped id s (.broadcast event order) = [] :=
          if_neg fun h => Bool.false_ne_true (hf.symm.trans h.2)
        exact .inl ⟨event, if_pos hid, rfl, hd, (congrArg Queue.items hq').trans hp⟩
      · have hd : dropped id s (.broadcast event order) = [d] := by
          refine (if_pos ⟨hid, hf⟩).trans ?_
          rw [hq, List.head?_cons, Option.toList_some]
        exact .inr (.inl ⟨event, order, d, ds, rfl, if_pos hid, rfl, hd, hq,
          (congrArg Queue.items hq').trans hp, (congrArg (fun q => q.items.length) hq').trans hl⟩)
    · exact .inr (.inr (.inr ⟨if_neg hid, rfl, if_neg (fun h => hid h.1), if_neg hid⟩))
  | receive x =>
    obtain rfl := Option.some.inj h
    by_cases hx : x = id
    · subst hx
      have hr : received x s (.receive x) = (nextEvent (s.queue x)).1.toList := if_pos rfl
      have hq' : (receive s x).2.queue x = (nextEvent (s.queue x)).2 := Function.update_self _ _ _
      rw [hr, hq']
      rcases nextEvent_cases (s.queue x) with hn | ⟨event, queue, hq, hn⟩
      · rw [hn]
        exact .inr (.inr (.inr ⟨rfl, rfl, rfl, rfl⟩))
      · rw [hn]
        exact .inr (.inr (.inl ⟨event, rfl, rfl, rfl, hq⟩))
    · exact .inr (.inr (.inr ⟨rfl, if_neg hx, rfl, Function.update_of_ne (Ne.symm hx) _ _⟩))

/-! ## The events of a subscriber -/

/-- After a broadcast of the run, the events sent after the position `i` were 200, all of them queued
and unread. -/
def Overrun (id : ι) (ls : List (Label ι α)) (i : ℕ) : Prop :=
  ∃ pre event order post s, ls = pre ++ [.broadcast event order] ++ post ∧
    Lts.exec step init (pre ++ [.broadcast event order]) = some s ∧
    (s.queue id).items.length = 200 ∧
    (s.queue id).items =
      (Lts.trace step (sent id) init (pre ++ [.broadcast event order])).drop (i + 1)

theorem Overrun.append {id : ι} {ls : List (Label ι α)} {i : ℕ} (h : Overrun id ls i)
    (ls' : List (Label ι α)) : Overrun id (ls ++ ls') i := by
  obtain ⟨pre, event, order, post, s, rfl, h⟩ := h
  exact ⟨pre, event, order, post ++ ls', s, List.append_assoc _ _ _, h⟩

/-- **What became of the events** that were broadcast to a subscriber: it read some, some were dropped
when 200 newer ones were queued, and the others are queued. -/
theorem run_account {ls : List (Label ι α)} {s : State ι α} (h : Lts.exec step init ls = some s)
    (id : ι) : ∃ taken lost next,
      Account (Lts.trace step (sent id) init ls) (Lts.trace step (received id) init ls)
        (Lts.trace step (dropped id) init ls) (s.queue id).items taken lost next ∧
      ∀ i ∈ lost, Overrun id ls i := by
  refine (Lts.exec_induction (fun ls s => Fresh s ∧ ∃ taken lost next,
    Account (Lts.trace step (sent id) init ls) (Lts.trace step (received id) init ls)
      (Lts.trace step (dropped id) init ls) (s.queue id).items taken lost next ∧
    ∀ i ∈ lost, Overrun id ls i) ?_ ?_ h).2
  · exact ⟨fun _ _ => ⟨rfl, Finset.notMem_empty _⟩, [], [], 0, .nil, by simp⟩
  · rintro ls s l s' hr ⟨hs, taken, lost, next, hA, hlost⟩ hstep
    refine ⟨step_fresh hs hstep, ?_⟩
    have keep : ∀ i ∈ lost, Overrun id (ls ++ [l]) i := fun i hi => (hlost i hi).append [l]
    rw [Lts.trace_snoc hr, Lts.trace_snoc hr, Lts.trace_snoc hr]
    rcases step_queue hs hstep id with ⟨event, h1, h2, h3, hq⟩ |
      ⟨event, order, d, ds, rfl, h1, h2, h3, hq, hq', hlen⟩ | ⟨event, h1, h2, h3, hq⟩ | ⟨h1, h2, h3, hq⟩
    · rw [h1, h2, h3, hq, List.append_nil, List.append_nil]
      exact ⟨taken, lost, next, hA.put event, keep⟩
    · rw [hq] at hA
      have hA' := hA.drop.put event
      have ht : Lts.trace step (sent id) init (ls ++ [.broadcast event order]) =
          Lts.trace step (sent id) init ls ++ sent id s (.broadcast event order) := Lts.trace_snoc hr
      rw [h1, h2, h3, hq', List.append_nil]
      refine ⟨taken, lost ++ [next], next + 1, hA', fun i hi => ?_⟩
      rcases List.mem_append.mp hi with hi | hi
      · exact keep i hi
      · obtain rfl := List.mem_singleton.mp hi
        refine ⟨ls, event, order, [], s', (List.append_nil _).symm, Lts.exec_snoc.mpr ⟨s, hr, hstep⟩,
          hlen, ?_⟩
        rw [ht, h1, hq']
        exact hA'.queued
    · rw [hq] at hA
      rw [h1, h2, h3, List.append_nil, List.append_nil]
      exact ⟨taken ++ [next], lost, next + 1, hA.get, keep⟩
    · rw [h1, h2, h3, hq, List.append_nil, List.append_nil, List.append_nil]
      exact ⟨taken, lost, next, hA, keep⟩

/-! ## A subscriber alone -/

/-- What the operations are to one subscriber. -/
inductive Own (α : Type) where
  | subscribe
  | unsubscribe
  | broadcast (event : α)
  | receive

/-- What an operation is to the subscriber `id`: those of the others are nothing to it. -/
def own (id : ι) : Label ι α → Option (Own α)
  | .subscribe x => if x = id then some .subscribe else none
  | .unsubscribe x => if x = id then some .unsubscribe else none
  | .broadcast event _ => some (.broadcast event)
  | .receive x => if x = id then some .receive else none

/-- One subscriber: whether it is subscribed, and its queue. -/
structure Seat (α : Type) where
  subscribed : Bool
  queue : Queue α 200

/-- The subscriber `id` of a state. -/
def State.seat (s : State ι α) (id : ι) : Seat α := ⟨decide (id ∈ s.queues), s.queue id⟩

/-- A step of one subscriber. -/
def Seat.step (t : Seat α) : Own α → Option (Seat α)
  | .subscribe => some ⟨true, .new⟩
  | .unsubscribe => some ⟨false, t.queue⟩
  | .broadcast event => some ⟨t.subscribed, if t.subscribed then t.queue.push event else t.queue⟩
  | .receive => some ⟨t.subscribed, (nextEvent t.queue).2⟩

/-- What one subscriber reads. -/
def Seat.received (t : Seat α) : Own α → List α
  | .receive => (nextEvent t.queue).1.toList
  | _ => []

/-- An operation of another subscriber, and one of its own. -/
theorem own_cases {x id : ι} {o : Own α} :
    ((if x = id then some o else none) = none → id ≠ x) ∧
    ∀ o', (if x = id then some o else none) = some o' → x = id ∧ o = o' := by
  constructor
  · rintro h rfl
    rw [if_pos rfl] at h
    cases h
  · intro o' h
    split_ifs at h with hx
    exact ⟨hx, Option.some.inj h⟩

/-- The operations of the others change nothing for `id`. -/
theorem seat_skip (id : ι) (s : State ι α) (l : Label ι α) (s' : State ι α)
    (h : step s l = some s') (hl : own id l = none) : s'.seat id = s.seat id ∧ received id s l = [] := by
  cases l with
  | subscribe x =>
    have hx : id ≠ x := own_cases.1 hl
    rw [step] at h
    split_ifs at h
    obtain rfl := Option.some.inj h
    simp only [State.seat, subscribe, Finset.mem_insert, hx, false_or, received, and_true]
    rw [Function.update_of_ne hx]
  | unsubscribe x =>
    have hx : id ≠ x := own_cases.1 hl
    obtain rfl := Option.some.inj h
    simp only [State.seat, unsubscribe, Finset.mem_erase, ne_eq, hx, not_false_eq_true, true_and,
      received, and_self]
  | broadcast event order => cases hl
  | receive x =>
    have hx : id ≠ x := own_cases.1 hl
    obtain rfl := Option.some.inj h
    refine ⟨?_, if_neg (Ne.symm hx)⟩
    simp only [State.seat, receive]
    rw [Function.update_of_ne hx]
    rfl

/-- The others are a step of the subscriber alone. -/
theorem seat_move (id : ι) (s : State ι α) (l : Label ι α) (s' : State ι α) (o : Own α)
    (h : step s l = some s') (hl : own id l = some o) :
    (s.seat id).step o = some (s'.seat id) ∧ received id s l = (s.seat id).received o := by
  cases l with
  | subscribe x =>
    obtain ⟨rfl, rfl⟩ := own_cases.2 o hl
    rw [step] at h
    split_ifs at h
    obtain rfl := Option.some.inj h
    refine ⟨?_, rfl⟩
    simp only [Seat.step, State.seat, subscribe, Finset.mem_insert_self, decide_true]
    rw [Function.update_self]
  | unsubscribe x =>
    obtain ⟨rfl, rfl⟩ := own_cases.2 o hl
    obtain rfl := Option.some.inj h
    refine ⟨?_, rfl⟩
    simp only [Seat.step, State.seat, unsubscribe, Finset.notMem_erase, decide_false]
  | broadcast event order =>
    obtain rfl := Option.some.inj hl
    obtain ⟨-, -, rfl⟩ := step_broadcast.mp h
    refine ⟨?_, rfl⟩
    simp only [Seat.step, State.seat, decide_eq_true_eq]
  | receive x =>
    obtain ⟨rfl, rfl⟩ := own_cases.2 o hl
    obtain rfl := Option.some.inj h
    refine ⟨?_, if_pos rfl⟩
    simp only [Seat.step, State.seat, receive]
    rw [Function.update_self]
    rfl

/-- **A subscriber alone** reads and has queued what it does among the others. -/
theorem run_seat {ls : List (Label ι α)} {s : State ι α} (h : Lts.exec step init ls = some s) (id : ι) :
    Lts.exec Seat.step (init.seat id) (ls.filterMap (own id)) = some (s.seat id) ∧
      Lts.trace Seat.step Seat.received (init.seat id) (ls.filterMap (own id)) =
        Lts.trace step (received id) init ls :=
  Lts.exec_filterMap (fun s => s.seat id) (own id) (seat_skip id) (seat_move id) h

/-- **The queues of the subscribers**: after any run, `broadcast` succeeds and a queue has at most 200
events; what a subscriber read and what it has queued is a part, in order, of what was broadcast while it
was subscribed, the rest of which was dropped when 200 newer events were queued; and the operations of the
others do not matter to it. -/
theorem subscriber_queues (ls : List (Label ι α)) (s : State ι α)
    (h : Lts.exec step init ls = some s) :
    (∀ order event, order.Nodup → order.toFinset = s.queues → ∃ s', broadcast s order event = .ok s') ∧
    (∀ id, (s.queue id).items.length ≤ 200) ∧
    (∀ id, (Lts.trace step (received id) init ls ++ (s.queue id).items).Sublist
      (Lts.trace step (sent id) init ls)) ∧
    (∀ id, ∃ taken lost next,
      Account (Lts.trace step (sent id) init ls) (Lts.trace step (received id) init ls)
        (Lts.trace step (dropped id) init ls) (s.queue id).items taken lost next ∧
      ∀ i ∈ lost, Overrun id ls i) ∧
    ∀ id ls' s', Lts.exec step init ls' = some s' →
      ls'.filterMap (own id) = ls.filterMap (own id) →
      Lts.trace step (received id) init ls' = Lts.trace step (received id) init ls ∧
        s'.queue id = s.queue id := by
  refine ⟨fun order event hn _ => ⟨_, broadcast_eq hn s event⟩, fun id => (s.queue id).bounded,
    fun id => ?_, fun id => run_account h id, fun id ls' s' h' heq => ?_⟩
  · obtain ⟨taken, lost, next, hA, -⟩ := run_account h id
    exact hA.sublist
  · obtain ⟨hs, ht⟩ := run_seat h id
    obtain ⟨hs', ht'⟩ := run_seat h' id
    rw [heq] at hs' ht'
    have hseat : s'.seat id = s.seat id := Option.some.inj (hs'.symm.trans hs)
    exact ⟨ht'.symm.trans ht, congrArg Seat.queue hseat⟩

/-- A subscriber reads one of two events, next to another one that reads nothing. -/
theorem subscriber_queues_two : ∃ s : State Bool ℕ,
    Lts.exec step init [.subscribe true, .subscribe false, .broadcast 7 [true, false],
      .broadcast 8 [false, true], .receive true] = some s ∧
    ([7] ++ (s.queue true).items).Sublist [7, 8] := by
  refine ⟨_, rfl, ?_⟩
  exact (subscriber_queues [.subscribe true, .subscribe false, .broadcast 7 [true, false],
    .broadcast 8 [false, true], .receive true] _ rfl).2.2.1 true

end Subscribers

end Asl3
