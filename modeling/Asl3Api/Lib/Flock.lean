import Mathlib.Logic.Function.Basic
import Mathlib.Tactic.Common

/-!
# Advisory file locks

What the kernel keeps for `open`, `flock(fd, LOCK_EX | LOCK_NB)`, `close` and `unlink`: a directory
entry names an inode, an open file description is for the inode that its entry named when it was
opened, and an inode has at most one description that holds its exclusive lock.

* `Kernel`, `Kernel.creat`, `Kernel.flock`, `Kernel.close`, `Kernel.unlink`: the state and the calls;
* `Kernel.Sound`: what every call keeps;
* **`Kernel.Holds.unique`**: one inode, one holder;
* `Kernel.creat_holds`, `Kernel.flock_granted`, `Kernel.flock_refused`, `Kernel.close_holds`: who holds
  a lock after each call.
-/

set_option autoImplicit false

namespace Flock

/-- The tables of the kernel. -/
structure Kernel (δ : Type*) where
  /-- The inode a directory entry names. -/
  inode : δ → Option ℕ
  /-- The inode an open file description is for. -/
  file : ℕ → Option ℕ
  /-- The description that holds the lock of an inode. -/
  holder : ℕ → Option ℕ
  /-- Numbers from here on are not in use. -/
  next : ℕ

namespace Kernel

section

variable {δ : Type*}

/-- No file and no description. -/
def init : Kernel δ := ⟨fun _ => none, fun _ => none, fun _ => none, 0⟩

/-- `flock` with `LOCK_EX | LOCK_NB`: whether the lock is granted, and the tables after the call. -/
def flock (k : Kernel δ) (fd : ℕ) : Bool × Kernel δ :=
  match k.file fd with
  | none => (false, k)
  | some i => match k.holder i with
    | none => (true, { k with holder := Function.update k.holder i (some fd) })
    | some other => (decide (other = fd), k)

/-- `close` of the only descriptor of a description; its lock is released. -/
def close (k : Kernel δ) (fd : ℕ) : Kernel δ :=
  { k with
    file := Function.update k.file fd none
    holder := fun i => if k.holder i = some fd then none else k.holder i }

/-- A description holds the lock of its inode. -/
def Holds (k : Kernel δ) (fd : ℕ) : Prop := ∃ i, k.file fd = some i ∧ k.holder i = some fd

/-- **What the calls keep.** The numbers in use are below `next`, entries name different inodes, and a
lock is held by a description of its inode. -/
structure Sound (k : Kernel δ) : Prop where
  named : ∀ e i, k.inode e = some i → i < k.next
  single : ∀ e e' i, k.inode e = some i → k.inode e' = some i → e = e'
  opened : ∀ fd i, k.file fd = some i → fd < k.next ∧ i < k.next
  held : ∀ i fd, k.holder i = some fd → k.file fd = some i

variable {k : Kernel δ} {fd n i : ℕ}

theorem sound_init : Sound (init : Kernel δ) := ⟨nofun, nofun, nofun, nofun⟩

/-- **One inode, one holder.** -/
theorem Holds.unique (h : k.Holds fd) (h' : k.Holds n) (hf : k.file fd = k.file n) : fd = n := by
  obtain ⟨i, hi, hh⟩ := h
  obtain ⟨i', hi', hh'⟩ := h'
  obtain rfl : i = i' := Option.some.inj (hi.symm.trans (hf.trans hi'))
  exact Option.some.inj (hh.symm.trans hh')

/-- A description of the inode holds its lock exactly when it is the holder. -/
theorem holds_iff (hi : k.file fd = some i) : k.Holds fd ↔ k.holder i = some fd := by
  refine ⟨fun ⟨j, hj, hh⟩ => ?_, fun hh => ⟨i, hi, hh⟩⟩
  obtain rfl : i = j := Option.some.inj (hi.symm.trans hj)
  exact hh

/-- A number from `next` on is no description. -/
theorem Sound.file_next (h : k.Sound) (hn : k.next ≤ n) : k.file n = none := by
  cases hf : k.file n with
  | none => rfl
  | some i =>
    have := (h.opened n i hf).1
    omega

/-! ## `flock` -/

/-- What `flock` can do. -/
theorem flock_cases (hi : k.file fd = some i) :
    (k.holder i = none ∧
      k.flock fd = (true, { k with holder := Function.update k.holder i (some fd) })) ∨
    (k.holder i = some fd ∧ k.flock fd = (true, k)) ∨
    ∃ other, k.holder i = some other ∧ other ≠ fd ∧ k.flock fd = (false, k) := by
  unfold flock
  rw [hi]
  cases hh : k.holder i with
  | none => exact .inl ⟨rfl, by simp only [hh]⟩
  | some other =>
    by_cases ho : other = fd
    · exact .inr (.inl ⟨congrArg some ho, by simp only [hh, ho, decide_true]⟩)
    · exact .inr (.inr ⟨other, rfl, ho, by simp only [hh, ho, decide_false]⟩)

@[simp] theorem flock_file : (k.flock fd).2.file = k.file := by
  unfold flock
  split
  · rfl
  · split <;> rfl

@[simp] theorem flock_inode : (k.flock fd).2.inode = k.inode := by
  unfold flock
  split
  · rfl
  · split <;> rfl

theorem Sound.flock (h : k.Sound) (hi : k.file fd = some i) : (k.flock fd).2.Sound := by
  rcases flock_cases hi with ⟨-, hf⟩ | ⟨-, hf⟩ | ⟨-, -, -, hf⟩
  · rw [hf]
    refine ⟨h.named, h.single, h.opened,
      fun j n (hn : Function.update k.holder i (some fd) j = some n) => ?_⟩
    by_cases hj : j = i
    · rw [hj, Function.update_self] at hn
      cases hn
      rw [hj]
      exact hi
    · rw [Function.update_of_ne hj] at hn
      exact h.held j n hn
  · rw [hf]
    exact h
  · rw [hf]
    exact h

/-- **A lock is refused** when another description holds the lock of the inode. -/
theorem Sound.flock_eq_false (h : k.Sound) (hi : k.file fd = some i) :
    (k.flock fd).1 = false ↔ ∃ other, k.file other = some i ∧ k.Holds other ∧ other ≠ fd := by
  have hholder : ∀ other, k.file other = some i → k.Holds other → k.holder i = some other :=
    fun other ho hh => (holds_iff ho).mp hh
  rcases flock_cases hi with ⟨hnone, hf⟩ | ⟨hself, hf⟩ | ⟨other, ho, hne, hf⟩
  · refine iff_of_false (by rw [hf]; exact Bool.noConfusion) ?_
    rintro ⟨other, ho, hh, -⟩
    rw [hholder other ho hh] at hnone
    cases hnone
  · refine iff_of_false (by rw [hf]; exact Bool.noConfusion) ?_
    rintro ⟨other, ho, hh, hne⟩
    rw [hholder other ho hh] at hself
    exact hne (Option.some.inj hself)
  · exact iff_of_true (by rw [hf]) ⟨other, h.held i other ho, ⟨i, h.held i other ho, ho⟩, hne⟩

/-- With the lock granted, the description holds it, and the others hold what they held. -/
theorem flock_granted (hi : k.file fd = some i) (h : (k.flock fd).1 = true) :
    (k.flock fd).2.Holds fd ∧ ∀ n, n ≠ fd → ((k.flock fd).2.Holds n ↔ k.Holds n) := by
  rcases flock_cases hi with ⟨hnone, hf⟩ | ⟨hself, hf⟩ | ⟨other, -, -, hf⟩
  · rw [hf]
    refine ⟨⟨i, hi, Function.update_self ..⟩, fun n hn => ?_⟩
    refine exists_congr fun j => and_congr_right fun _ => ?_
    change Function.update k.holder i (some fd) j = some n ↔ k.holder j = some n
    by_cases hj : j = i
    · rw [hj, Function.update_self, hnone]
      exact iff_of_false (fun h => hn (Option.some.inj h).symm) (Option.some_ne_none n).symm
    · rw [Function.update_of_ne hj]
  · rw [hf]
    exact ⟨⟨i, hi, hself⟩, fun _ _ => Iff.rfl⟩
  · rw [hf] at h
    cases h

/-- A lock that is refused changes nothing. -/
theorem flock_refused (h : (k.flock fd).1 = false) : (k.flock fd).2 = k := by
  cases hi : k.file fd with
  | none =>
    unfold flock
    rw [hi]
  | some i =>
    rcases flock_cases hi with ⟨-, hf⟩ | ⟨-, hf⟩ | ⟨-, -, -, hf⟩
    · rw [hf] at h
      cases h
    · rw [hf]
    · rw [hf]

/-! ## `close` -/

@[simp] theorem close_file_self : (k.close fd).file fd = none := Function.update_self ..

theorem close_file (hn : n ≠ fd) : (k.close fd).file n = k.file n := Function.update_of_ne hn ..


theorem close_holder : (k.close fd).holder i = some n ↔ k.holder i = some n ∧ n ≠ fd := by
  change (if k.holder i = some fd then none else k.holder i) = some n ↔ _
  split_ifs with h
  · rw [h]
    refine iff_of_false not_false fun hn => ?_
    exact hn.2 (Option.some.inj hn.1).symm
  · refine (and_iff_left_of_imp fun hn => ?_).symm
    rintro rfl
    exact h hn

/-- **A closed description holds nothing**, and the others hold what they held. -/
theorem close_holds : (k.close fd).Holds n ↔ k.Holds n ∧ n ≠ fd := by
  by_cases hn : n = fd
  · rw [hn]
    refine iff_of_false ?_ fun h => h.2 rfl
    rintro ⟨i, hi, -⟩
    rw [close_file_self] at hi
    cases hi
  · rw [Holds, close_file hn]
    refine ⟨?_, ?_⟩
    · rintro ⟨i, hi, hh⟩
      exact ⟨⟨i, hi, (close_holder.mp hh).1⟩, hn⟩
    · rintro ⟨⟨i, hi, hh⟩, -⟩
      exact ⟨i, hi, close_holder.mpr ⟨hh, hn⟩⟩

theorem Sound.close (h : k.Sound) : (k.close fd).Sound := by
  refine ⟨h.named, h.single, fun n i hi => ?_, fun i n hn => ?_⟩
  · by_cases hne : n = fd
    · rw [hne, close_file_self] at hi
      cases hi
    · rw [close_file hne] at hi
      exact h.opened n i hi
  · obtain ⟨hh, hne⟩ := close_holder.mp hn
    exact (close_file hne).trans (h.held i n hh)

end

section

variable {δ : Type*} [DecidableEq δ]

/-- `open` with `O_CREAT`: the new description, and the tables after the call. -/
def creat (k : Kernel δ) (e : δ) : ℕ × Kernel δ :=
  match k.inode e with
  | some i => (k.next, { k with file := Function.update k.file k.next (some i), next := k.next + 1 })
  | none => (k.next + 1,
      { k with
        inode := Function.update k.inode e (some k.next)
        file := Function.update k.file (k.next + 1) (some k.next)
        next := k.next + 2 })

/-- `unlink`. -/
def unlink (k : Kernel δ) (e : δ) : Kernel δ := { k with inode := Function.update k.inode e none }

variable {k : Kernel δ} {e : δ} {n : ℕ}

/-! ## `open` and `unlink` -/

/-- What `open` does: the new description was not in use, and is for the inode the entry names, which
is a new one if the entry named none. -/
theorem Sound.creat_cases (h : k.Sound) (e : δ) : ∃ fd i k', k.creat e = (fd, k') ∧
    k.file fd = none ∧ fd < k'.next ∧ i < k'.next ∧ k.next ≤ k'.next ∧
    k'.file = Function.update k.file fd (some i) ∧
    k'.inode = Function.update k.inode e (some i) ∧
    (k.inode e = some i ∨ k.inode e = none ∧ k.next ≤ i) ∧ k'.holder = k.holder := by
  unfold creat
  cases he : k.inode e with
  | some i =>
    refine ⟨_, i, _, rfl, h.file_next (Nat.le_refl _), Nat.lt_succ_self _,
      Nat.lt_succ_of_lt (h.named e i he), Nat.le_succ _, rfl, ?_, .inl rfl, rfl⟩
    exact (he ▸ Function.update_eq_self e k.inode).symm
  | none =>
    exact ⟨_, k.next, _, rfl, h.file_next (Nat.le_succ _), Nat.lt_succ_self _,
      Nat.lt_add_of_pos_right Nat.two_pos, Nat.le_add_right _ _, rfl, rfl,
      .inr ⟨rfl, Nat.le_refl _⟩, rfl⟩

theorem Sound.creat (h : k.Sound) : (k.creat e).2.Sound := by
  obtain ⟨fd, i, k', hc, hnew, hfd, hi, hle, hfile, hinode, hold, hholder⟩ := h.creat_cases e
  -- an inode that another entry names is not the one of `e`
  have hother : ∀ x, x ≠ e → k.inode x ≠ some i := by
    rintro x hx hxi
    rcases hold with he | ⟨-, hge⟩
    · exact hx (h.single x e i hxi he)
    · exact absurd (h.named x i hxi) (Nat.not_lt.mpr hge)
  rw [hc]
  refine ⟨fun x j hj => ?_, fun x y j hx hy => ?_, fun n j hj => ?_, fun j n hn => ?_⟩
  · change k'.inode x = some j at hj
    rw [hinode] at hj
    by_cases he : x = e
    · rw [he, Function.update_self] at hj
      exact Option.some.inj hj ▸ hi
    · rw [Function.update_of_ne he] at hj
      exact Nat.lt_of_lt_of_le (h.named x j hj) hle
  · change k'.inode x = some j at hx
    change k'.inode y = some j at hy
    rw [hinode] at hx hy
    by_cases hxe : x = e
    · by_cases hye : y = e
      · rw [hxe, hye]
      · rw [hxe, Function.update_self] at hx
        rw [Function.update_of_ne hye, ← hx] at hy
        exact absurd hy (hother y hye)
    · rw [Function.update_of_ne hxe] at hx
      by_cases hye : y = e
      · rw [hye, Function.update_self] at hy
        rw [← hy] at hx
        exact absurd hx (hother x hxe)
      · rw [Function.update_of_ne hye] at hy
        exact h.single x y j hx hy
  · change k'.file n = some j at hj
    rw [hfile] at hj
    by_cases hn : n = fd
    · rw [hn, Function.update_self] at hj
      exact ⟨hn ▸ hfd, Option.some.inj hj ▸ hi⟩
    · rw [Function.update_of_ne hn] at hj
      exact (h.opened n j hj).imp (Nat.lt_of_lt_of_le · hle) (Nat.lt_of_lt_of_le · hle)
  · change k'.holder j = some n at hn
    rw [hholder] at hn
    have hf := h.held j n hn
    have hne : n ≠ fd := by
      rintro rfl
      rw [hnew] at hf
      cases hf
    change k'.file n = some j
    rw [hfile, Function.update_of_ne hne]
    exact hf

/-- **A new description** holds nothing, and the others hold what they held. -/
theorem Sound.creat_holds (h : k.Sound) : (k.creat e).2.Holds n ↔ k.Holds n := by
  obtain ⟨fd, i, k', hc, hnew, -, -, -, hfile, -, -, hholder⟩ := h.creat_cases e
  rw [hc]
  change k'.Holds n ↔ k.Holds n
  by_cases hn : n = fd
  · refine iff_of_false ?_ ?_
    · rintro ⟨j, -, hh⟩
      rw [hholder] at hh
      have hf := h.held j n hh
      rw [hn, hnew] at hf
      cases hf
    · rintro ⟨j, hj, -⟩
      rw [hn, hnew] at hj
      cases hj
  · rw [Holds, Holds, hholder, hfile, Function.update_of_ne hn]

theorem Sound.unlink (h : k.Sound) : (k.unlink e).Sound := by
  have hold : ∀ x i, (k.unlink e).inode x = some i → k.inode x = some i := by
    intro x i (hx : Function.update k.inode e none x = some i)
    by_cases hxe : x = e
    · rw [hxe, Function.update_self] at hx
      cases hx
    · rwa [Function.update_of_ne hxe] at hx
  exact ⟨fun x i hx => h.named x i (hold x i hx),
    fun x y i hx hy => h.single x y i (hold x i hx) (hold y i hy), h.opened, h.held⟩

end

end Kernel

end Flock
