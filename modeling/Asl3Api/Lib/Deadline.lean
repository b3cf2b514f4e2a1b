import Mathlib.Algebra.Order.Floor.Semiring
import Mathlib.Tactic.Linarith
import Mathlib.Tactic.Positivity

/-!
# Polling up to a deadline

Polls are made at the times `t 0`, `t 1`, … Each of them that comes before the deadline `D` is followed
by one that is at least `q` later, or at the deadline.

* `Paced`: the first `n` polls are before the deadline;
* `Paced.le`: the times of the polls from below;
* **`Paced.count_le`**: how many polls can be before the deadline.
-/

set_option autoImplicit false

namespace Polling

variable {K : Type*} [Field K] [LinearOrder K] [IsStrictOrderedRing K] {q D : K} {t : ℕ → K} {n : ℕ}

/-- The first `n` polls are before the deadline, and each of them has its successor. -/
structure Paced (q D : K) (t : ℕ → K) (n : ℕ) : Prop where
  ahead : ∀ i < n, t i < D
  pace : ∀ i < n, min (t i + q) D ≤ t (i + 1)

theorem Paced.le (h : Paced q D t n) {k : ℕ} (hk : k ≤ n) : min (t 0 + k * q) D ≤ t k := by
  induction k with
  | zero => simp
  | succ k ih =>
    have hprev := ih (by omega)
    have hahead := h.ahead k (by omega)
    -- before the deadline the bound is the time itself
    have hk' : t 0 + k * q ≤ t k := by
      rcases min_le_iff.mp hprev with h' | h'
      · exact h'
      · exact absurd hahead (not_lt.mpr h')
    calc min (t 0 + (k + 1 : ℕ) * q) D ≤ min (t k + q) D := by
          refine min_le_min_right D ?_
          push_cast
          linarith
      _ ≤ t (k + 1) := h.pace k (by omega)

/-- **The number of polls before the deadline.** -/
theorem Paced.count_le [FloorSemiring K] (h : Paced q D t n) (hq : 0 < q) :
    n ≤ ⌈(D - t 0) / q⌉₊ := by
  by_contra hn
  have hlt := h.ahead _ (not_le.mp hn)
  have hle := h.le (Nat.le_of_lt (not_le.mp hn))
  have hceil : D - t 0 ≤ ⌈(D - t 0) / q⌉₊ * q := (div_le_iff₀ hq).mp (Nat.le_ceil _)
  rw [min_eq_right (by linarith)] at hle
  exact absurd hlt (not_lt.mpr hle)

end Polling
