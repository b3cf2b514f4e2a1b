import Asl3Api.Lib.PyValue

/-!
# Decimal numerals

* `Numeral`, `numeral_cons`: a numeral without leading zeros;
* `toDigits_append`: digits written behind a number that is not zero;
* **`numeral_iff`**: the numeral of a number is its decimal text, and it has no other one.
-/

set_option autoImplicit false

namespace Py

/-- A decimal numeral: at least one digit, and a leading zero only in `0`. -/
structure Numeral (s : List Char) : Prop where
  nonempty : s ≠ []
  digits : ∀ c ∈ s, isDigit c = true
  lead : s.head? = some '0' → s = ['0']

theorem char_le_iff {a b : Char} : a ≤ b ↔ a.toNat ≤ b.toNat := UInt32.le_iff_toNat_le

theorem isDigit_iff {c : Char} : isDigit c = true ↔ '0'.toNat ≤ c.toNat ∧ c.toNat ≤ '9'.toNat := by
  rw [isDigit, Bool.and_eq_true, decide_eq_true_eq, decide_eq_true_eq, char_le_iff, char_le_iff]

/-- A numeral is `0`, or it starts with another digit. -/
theorem numeral_cons {c : Char} {cs : List Char} : Numeral (c :: cs) ↔
    c = '0' ∧ cs = [] ∨ ('1' ≤ c ∧ c ≤ '9') ∧ ∀ d ∈ cs, isDigit d = true := by
  have hone : c ≠ '0' → (isDigit c = true ↔ '1' ≤ c ∧ c ≤ '9') := by
    intro hzero
    have hne : c.toNat ≠ 48 := fun he => hzero (Char.toNat_inj.mp he)
    rw [isDigit_iff, char_le_iff, char_le_iff]
    refine and_congr_left fun _ => ?_
    change 48 ≤ c.toNat ↔ 49 ≤ c.toNat
    omega
  constructor
  · rintro ⟨-, hd, hl⟩
    obtain ⟨hc, hcs⟩ := List.forall_mem_cons.mp hd
    by_cases hzero : c = '0'
    · subst hzero
      exact Or.inl ⟨rfl, (List.cons.inj (hl rfl)).2⟩
    · exact Or.inr ⟨(hone hzero).mp hc, hcs⟩
  · rintro (⟨rfl, rfl⟩ | ⟨hc, hcs⟩)
    · exact ⟨List.cons_ne_nil _ _, List.forall_mem_singleton.mpr rfl, fun _ => rfl⟩
    · have hzero : c ≠ '0' := by
        rintro rfl
        exact absurd hc.1 (by decide)
      have hd : ∀ d ∈ c :: cs, isDigit d = true :=
        List.forall_mem_cons.mpr ⟨(hone hzero).mpr hc, hcs⟩
      refine ⟨List.cons_ne_nil _ _, hd, fun hl => ?_⟩
      exact absurd (Option.some.inj hl) hzero

theorem parseNat_eq (s : List Char) : parseNat s = Nat.ofDigitChars 10 s 0 := rfl

theorem digit_lt {c : Char} (h : isDigit c = true) : c.toNat - '0'.toNat < 10 := by
  have hc : 48 ≤ c.toNat ∧ c.toNat ≤ 57 := isDigit_iff.mp h
  change c.toNat - 48 < 10
  omega

/-- A digit is the digit of its value. -/
theorem toDigits_digit {c : Char} (h : isDigit c = true) :
    Nat.toDigits 10 (c.toNat - '0'.toNat) = [c] := by
  have hc : 48 ≤ c.toNat ∧ c.toNat ≤ 57 := isDigit_iff.mp h
  rw [Nat.toDigits_of_lt_base (digit_lt h)]
  congr 1
  apply Char.toNat_inj.mp
  rw [Nat.toNat_digitChar_of_lt_ten (digit_lt h)]
  change 48 + (c.toNat - 48) = c.toNat
  omega

/-- Digits behind a number that is not zero are the digits of a greater one. -/
theorem toDigits_append {n : ℕ} (hn : 0 < n) {ds : List Char} (hd : ∀ c ∈ ds, isDigit c = true) :
    Nat.toDigits 10 n ++ ds = Nat.toDigits 10 (Nat.ofDigitChars 10 ds n) := by
  induction ds generalizing n with
  | nil => rw [List.append_nil, Nat.ofDigitChars_nil]
  | cons c ds ih =>
    obtain ⟨hc, hds⟩ := List.forall_mem_cons.mp hd
    calc Nat.toDigits 10 n ++ c :: ds
        = Nat.toDigits 10 n ++ Nat.toDigits 10 (c.toNat - '0'.toNat) ++ ds := by
          rw [toDigits_digit hc, List.append_assoc, List.singleton_append]
      _ = Nat.toDigits 10 (10 * n + (c.toNat - '0'.toNat)) ++ ds := by
          rw [Nat.toDigits_append_toDigits (by decide) hn (digit_lt hc)]
      _ = Nat.toDigits 10 (Nat.ofDigitChars 10 (c :: ds) n) := by
          rw [ih (by omega) hds, Nat.ofDigitChars_cons]

/-- **A numeral is the decimal text of its value.** -/
theorem Numeral.toDigits_parseNat {s : List Char} (h : Numeral s) :
    Nat.toDigits 10 (parseNat s) = s := by
  obtain ⟨c, cs, rfl⟩ := List.exists_cons_of_ne_nil h.nonempty
  obtain ⟨rfl, rfl⟩ | ⟨⟨hone, -⟩, hcs⟩ := numeral_cons.mp h
  · rfl
  · have hc : isDigit c = true := h.digits c List.mem_cons_self
    have hpos : 0 < c.toNat - '0'.toNat := by
      have hle : 49 ≤ c.toNat := char_le_iff.mp hone
      change 0 < c.toNat - 48
      omega
    rw [parseNat_eq, Nat.ofDigitChars_cons, Nat.mul_zero, Nat.zero_add, ← toDigits_append hpos hcs,
      toDigits_digit hc, List.singleton_append]

/-- The decimal text of a number that is not zero has no leading zero. -/
theorem head?_toDigits {n : ℕ} (hn : 0 < n) : (Nat.toDigits 10 n).head? ≠ some '0' := by
  induction n using Nat.strong_induction_on with
  | _ n ih =>
    rw [Nat.toDigits_eq_if (by decide)]
    split_ifs with hlt
    · rw [List.head?_cons, ne_eq, Option.some.injEq, Nat.digitChar_eq_zero]
      omega
    · rw [List.head?_append_of_ne_nil _ Nat.toDigits_ne_nil]
      exact ih (n / 10) (by omega) (by omega)

theorem numeral_toDigits (n : ℕ) : Numeral (Nat.toDigits 10 n) where
  nonempty := Nat.toDigits_ne_nil
  digits := by
    intro c hc
    have hd : c.isDigit = true := Nat.isDigit_of_mem_toDigits (by decide) (by decide) hc
    simpa [Char.isDigit, isDigit, Char.le_def] using hd
  lead := by
    intro hl
    rcases Nat.eq_zero_or_pos n with rfl | hn
    · exact Nat.toDigits_zero 10
    · exact absurd hl (head?_toDigits hn)

/-- **The numeral of a number is its decimal text.** -/
theorem numeral_iff {s : List Char} {n : ℕ} :
    Numeral s ∧ parseNat s = n ↔ s = Nat.toDigits 10 n := by
  constructor
  · rintro ⟨h, rfl⟩
    exact h.toDigits_parseNat.symm
  · rintro rfl
    exact ⟨numeral_toDigits n, Nat.ofDigitChars_ten_toDigits⟩

end Py
