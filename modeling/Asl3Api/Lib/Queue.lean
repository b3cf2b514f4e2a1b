import Mathlib.Data.List.Induction
import Mathlib.Data.List.Perm.Basic

/-!
# Bounded queues

A first-in first-out queue with a capacity. Putting into a full queue and getting from an empty one
fail at once, they do not wait.

* `Queue`: at most `maxsize` items, in order;
* `putNowait_eq`, `getNowait_eq`: the two operations;
* `push`: putting an item after dropping the oldest one of a full queue;
* `Account`: what became of the items of a stream that was put into a queue: taken, lost or queued;
* `Account.put`, `Account.drop`, `Account.get`: how the operations keep an account;
* `Account.sublist`, `Account.length_eq`, `Account.complete`: what was taken and what is queued is a part
  of the stream, and all of it when nothing was lost.
-/

set_option autoImplicit false

namespace Fifo

variable {α : Type*} {maxsize : ℕ}

/-- A queue of at most `maxsize` items, the oldest one first. -/
@[ext] structure Queue (α : Type*) (maxsize : ℕ) where
  items : List α
  bounded : items.length ≤ maxsize

/-- Why an operation fails. -/
inductive Failure where
  | empty
  | full
  deriving DecidableEq, Repr

namespace Queue

/-- The empty queue. -/
def new : Queue α maxsize := ⟨[], Nat.zero_le _⟩

/-- The queue has no room. -/
def full (q : Queue α maxsize) : Bool := decide (maxsize ≤ q.items.length)

theorem full_iff {q : Queue α maxsize} : q.full = true ↔ q.items.length = maxsize := by
  have h := q.bounded
  rw [full, decide_eq_true_iff]
  omega

/-- Put an item at the end. -/
def putNowait (q : Queue α maxsize) (x : α) : Except Failure (Queue α maxsize) :=
  if h : q.items.length < maxsize then
    .ok ⟨q.items ++ [x], by rw [List.length_append, List.length_singleton]; exact h⟩
  else .error .full

/-- Take the oldest item. -/
def getNowait (q : Queue α maxsize) : Except Failure (α × Queue α maxsize) :=
  match q with
  | ⟨[], _⟩ => .error .empty
  | ⟨x :: xs, h⟩ => .ok (x, ⟨xs, Nat.le_of_succ_le h⟩)

theorem getNowait_eq {q : Queue α maxsize} {x : α} {xs : List α} (h : q.items = x :: xs) :
    ∃ q', q.getNowait = .ok (x, q') ∧ q'.items = xs := by
  obtain ⟨items, hb⟩ := q
  obtain rfl : items = x :: xs := h
  exact ⟨_, rfl, rfl⟩

theorem getNowait_nil {q : Queue α maxsize} (h : q.items = []) : q.getNowait = .error .empty := by
  obtain ⟨items, hb⟩ := q
  obtain rfl : items = [] := h
  rfl

theorem putNowait_eq {q : Queue α maxsize} (h : q.items.length < maxsize) (x : α) :
    ∃ q', q.putNowait x = .ok q' ∧ q'.items = q.items ++ [x] := ⟨_, dif_pos h, rfl⟩

/-- The newest items of the queue and `x`, as many as fit. -/
def push (q : Queue α maxsize) (x : α) : Queue α maxsize where
  items := (q.items ++ [x]).drop (q.items.length + 1 - maxsize)
  bounded := by
    rw [List.length_drop, List.length_append, List.length_singleton]
    omega

theorem push_of_lt {q : Queue α maxsize} (h : q.items.length < maxsize) (x : α) :
    (q.push x).items = q.items ++ [x] := by
  have hl : q.items.length + 1 - maxsize = 0 := Nat.sub_eq_zero_of_le h
  simp only [push, hl, List.drop_zero]

theorem push_of_full {q : Queue α maxsize} {d : α} {ds : List α} (hq : q.items = d :: ds)
    (h : q.items.length = maxsize) (x : α) : (q.push x).items = ds ++ [x] := by
  have hl : q.items.length + 1 - maxsize = 1 := by omega
  simp only [push, hl]
  rw [hq, List.cons_append, List.drop_succ_cons, List.drop_zero]

end Queue

/-! ## What became of a stream -/

/-- The items of `sent` before the position `next` were taken or lost, those at the positions `taken` and
`lost`; the others are queued. -/
structure Account (sent got gone queued : List α) (taken lost : List ℕ) (next : ℕ) : Prop where
  increasing : taken.Pairwise (· < ·)
  split : (taken ++ lost).Perm (List.range next)
  got : got.map some = taken.map (sent[·]?)
  gone : gone.map some = lost.map (sent[·]?)
  queued : queued = sent.drop next
  next_le : next ≤ sent.length

/-- Items at increasing positions below `n` are a part of the first `n` items. -/
theorem sublist_take {sent got : List α} {taken : List ℕ} {n : ℕ} (h : taken.Pairwise (· < ·))
    (hn : ∀ i ∈ taken, i < n) (hg : got.map some = taken.map (sent[·]?)) :
    got.Sublist (sent.take n) := by
  induction taken using List.reverseRecOn generalizing got n with
  | nil =>
    rw [List.map_eq_nil_iff.mp hg]
    exact List.nil_sublist _
  | append_singleton taken i ih =>
    obtain ⟨ht, -, hlt⟩ := List.pairwise_append.mp h
    rw [List.map_append] at hg
    obtain ⟨got, last, rfl, hg', hl⟩ := List.map_eq_append_iff.mp hg
    obtain ⟨d, rfl, hd⟩ := List.map_eq_singleton_iff.mp hl
    have hd : sent[i]? = some d := hd.symm
    have hi : i < n := hn i (List.mem_append_right _ (List.mem_singleton_self i))
    have hpart : got.Sublist (sent.take i) :=
      ih ht (fun j hj => hlt j hj i (List.mem_singleton_self i)) hg'
    have hsucc : sent.take (i + 1) = sent.take i ++ [d] := by
      rw [List.take_add_one, hd, Option.toList_some]
    refine List.Sublist.trans ?_ (List.take_sublist_take_left hi)
    rw [hsucc]
    exact hpart.append (List.Sublist.refl _)

namespace Account

variable {sent got gone queued : List α} {taken lost : List ℕ} {next : ℕ}

theorem nil : Account ([] : List α) [] [] [] [] [] 0 where
  increasing := .nil
  split := .nil
  got := rfl
  gone := rfl
  queued := rfl
  next_le := Nat.le_refl _

theorem taken_lt (h : Account sent got gone queued taken lost next) : ∀ i ∈ taken, i < next :=
  fun _ hi => List.mem_range.mp (h.split.subset (List.mem_append_left _ hi))

theorem lost_lt (h : Account sent got gone queued taken lost next) : ∀ i ∈ lost, i < next :=
  fun _ hi => List.mem_range.mp (h.split.subset (List.mem_append_right _ hi))

/-- The oldest item of the queue is the one at `next`. -/
theorem head {d : α} {ds : List α} (h : Account sent got gone (d :: ds) taken lost next) :
    sent[next]? = some d ∧ ds = sent.drop (next + 1) ∧ next + 1 ≤ sent.length := by
  have hd : sent[next]? = some d := by rw [← List.head?_drop, ← h.queued, List.head?_cons]
  have ht : ds = sent.drop (next + 1) := by rw [← List.tail_drop, ← h.queued, List.tail_cons]
  exact ⟨hd, ht, (List.getElem?_eq_some_iff.mp hd).1⟩

/-- An item is put. -/
theorem put (h : Account sent got gone queued taken lost next) (x : α) :
    Account (sent ++ [x]) got gone (queued ++ [x]) taken lost next := by
  have keep : ∀ i < next, sent[i]? = (sent ++ [x])[i]? := fun i hi =>
    (List.getElem?_append_left (Nat.lt_of_lt_of_le hi h.next_le)).symm
  constructor
  case increasing => exact h.increasing
  case split => exact h.split
  case got =>
    rw [h.got]
    exact List.map_congr_left fun i hi => keep i (h.taken_lt i hi)
  case gone =>
    rw [h.gone]
    exact List.map_congr_left fun i hi => keep i (h.lost_lt i hi)
  case queued => rw [List.drop_append_of_le_length h.next_le, h.queued]
  case next_le =>
    rw [List.length_append]
    exact Nat.le_trans h.next_le (Nat.le_add_right _ _)

/-- The oldest item is lost. -/
theorem drop {d : α} {ds : List α} (h : Account sent got gone (d :: ds) taken lost next) :
    Account sent got (gone ++ [d]) ds taken (lost ++ [next]) (next + 1) := by
  obtain ⟨hd, ht, hle⟩ := h.head
  constructor
  case increasing => exact h.increasing
  case split =>
    rw [← List.append_assoc, List.range_succ]
    exact h.split.append_right _
  case got => exact h.got
  case gone => rw [List.map_append, List.map_append, h.gone, List.map_singleton, List.map_singleton, hd]
  case queued => exact ht
  case next_le => exact hle

/-- The oldest item is taken. -/
theorem get {d : α} {ds : List α} (h : Account sent got gone (d :: ds) taken lost next) :
    Account sent (got ++ [d]) gone ds (taken ++ [next]) lost (next + 1) := by
  obtain ⟨hd, ht, hle⟩ := h.head
  constructor
  case increasing =>
    refine List.pairwise_append.mpr ⟨h.increasing, List.pairwise_singleton _ _, fun i hi j hj => ?_⟩
    rw [List.mem_singleton.mp hj]
    exact h.taken_lt i hi
  case split =>
    rw [List.append_assoc, List.range_succ]
    refine (List.Perm.append_left _ List.perm_append_comm).trans ?_
    rw [← List.append_assoc]
    exact h.split.append_right _
  case got => rw [List.map_append, List.map_append, h.got, List.map_singleton, List.map_singleton, hd]
  case gone => exact h.gone
  case queued => exact ht
  case next_le => exact hle

/-- **Order.** What was taken, and then what is queued, is a part of the stream in its order. -/
theorem sublist (h : Account sent got gone queued taken lost next) :
    (got ++ queued).Sublist sent := by
  have hpart := sublist_take h.increasing h.taken_lt h.got
  have hall := hpart.append (List.Sublist.refl queued)
  rwa [h.queued, List.take_append_drop, ← h.queued] at hall

/-- **Conservation.** Every item was taken, is lost or is queued. -/
theorem length_eq (h : Account sent got gone queued taken lost next) :
    sent.length = got.length + gone.length + queued.length := by
  have hg := congrArg List.length h.got
  have hl := congrArg List.length h.gone
  have hs := h.split.length_eq
  have hle := h.next_le
  rw [List.length_map, List.length_map] at hg hl
  rw [List.length_append, List.length_range] at hs
  rw [h.queued, List.length_drop]
  omega

/-- When nothing was lost, what was taken and what is queued are the stream. -/
theorem complete (h : Account sent got [] queued taken lost next) : got ++ queued = sent := by
  refine h.sublist.eq_of_length ?_
  rw [List.length_append, h.length_eq, List.length_nil, Nat.add_zero]

end Account

end Fifo
