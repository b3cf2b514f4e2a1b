import Mathlib.Data.Nat.Digits.Defs
import Asl3Api.Lib.Dict
import Asl3Api.Lib.Numeral
import Asl3Api.Lib.Pattern

/-!
# Numbers and durations in texts

* `Decimals`, `Decimals.int`: what `int` reads, with the digits of all scripts, a sign and underscores;
* `Decimals.nat_digits`: the value of a text of digits;
* **`fullmatch_intersperse`**: a pattern of fields between separators matches the fields of the text;
* `leading`, `leading_inj`: the units of a duration without the zeros in front;
* **`display_inj`**: a duration is determined by its text.
-/

set_option autoImplicit false

namespace Py

/-! ## Numbers -/

/-- The decimal digits of the Unicode tables, and how many of them `int` reads at most. -/
structure Decimals where
  /-- The value of a decimal digit. -/
  digit : Char → Option ℕ
  /-- `sys.get_int_max_str_digits()`, if there is a limit. -/
  limit : Option ℕ
  /-- What `int` says about a text with too many digits. -/
  excess : ℕ → String
  ascii : ∀ c : Char, c.toNat < 128 →
    digit c = if isDigit c then some (c.toNat - '0'.toNat) else none

namespace Decimals

/-- The digits of ASCII alone, and the limit that `int` has by default. -/
def ofAscii : Decimals where
  digit c := if isDigit c then some (c.toNat - '0'.toNat) else none
  limit := some 4300
  excess := excessDigits
  ascii := fun _ _ => rfl

variable (d : Decimals)

/-- The class `\d`. -/
def isDecimal (c : Char) : Bool := (d.digit c).isSome

/-- Groups of digits between single underscores. -/
def numeral (body : List Char) : Bool :=
  (body.splitOn '_').all fun group => !group.isEmpty && group.all d.isDecimal

/-- The value of the digits of a text. -/
def value (body : List Char) : ℕ := Nat.ofDigits 10 (body.filterMap d.digit).reverse

/-- There are more digits than `int` reads. -/
def tooLong (body : List Char) : Bool := d.limit.any (· < (body.filterMap d.digit).length)

/-- The number behind the sign of `text`. -/
def read (text body : List Char) : Except PyError ℕ :=
  if d.numeral body = false then
    .error (.valueError ("invalid literal for int() with base 10: " ++
      String.ofList (reprStr (String.ofList text))))
  else if d.tooLong body then
    .error (.valueError (d.excess (body.filterMap d.digit).length))
  else .ok (d.value body)

/-- `int(text)`, of a text that begins with no sign. -/
def nat (text : List Char) : Except PyError ℕ := d.read text text

/-- `int(text)`, of a text without white space at its ends. -/
def int (text : List Char) : Except PyError ℤ :=
  match text with
  | '-' :: body => (d.read text body).map fun n => -(n : ℤ)
  | '+' :: body => (d.read text body).map fun n => (n : ℤ)
  | body => (d.read text body).map fun n => (n : ℤ)

variable {d}

/-- A sign of ASCII that is not a digit is in no number. -/
theorem isDecimal_eq_false {c : Char} (hc : c.toNat < 128) (h : isDigit c = false) :
    d.isDecimal c = false := by
  rw [isDecimal, d.ascii c hc, h]
  rfl

theorem filterMap_digit {s : List Char} (h : ∀ c ∈ s, d.isDecimal c = true) :
    (s.filterMap d.digit).length = s.length := by
  induction s with
  | nil => rfl
  | cons c s ih =>
    obtain ⟨v, hv⟩ := Option.isSome_iff_exists.mp (h c List.mem_cons_self)
    rw [List.filterMap_cons_some hv, List.length_cons, List.length_cons,
      ih fun c' hc' => h c' (List.mem_cons_of_mem _ hc')]

/-- **A text of digits has the value of its digits, unless it is too long.** -/
theorem nat_digits {s : List Char} (hne : s ≠ []) (h : ∀ c ∈ s, d.isDecimal c = true) :
    d.nat s = if d.tooLong s then .error (.valueError (d.excess s.length)) else .ok (d.value s) := by
  have hbar : '_' ∉ s := fun hc => by
    have := h _ hc
    rw [isDecimal_eq_false (by decide) (by decide)] at this
    cases this
  have hnum : d.numeral s = true := by
    rw [numeral, List.splitOn_eq_singleton hbar, List.all_cons, List.all_nil, Bool.and_true,
      Bool.and_eq_true, Bool.not_eq_true', List.isEmpty_eq_false_iff]
    exact ⟨hne, List.all_eq_true.mpr h⟩
  rw [nat, read, hnum, if_neg (by decide), filterMap_digit h]

end Decimals

/-! ## Fields between separators -/

theorem join_eq_intercalate (sep : List Char) (xs : List (List Char)) :
    join sep xs = sep.intercalate xs := by
  induction xs with
  | nil => rfl
  | cons x xs ih =>
    cases xs with
    | nil => simp [join]
    | cons y xs => rw [join, ih, List.intercalate_cons_cons, List.append_assoc]

/-- Fields without the separator are read back. -/
theorem splitOn_join {sep : Char} {xs : List (List Char)} (hne : xs ≠ []) (h : ∀ x ∈ xs, sep ∉ x) :
    (join [sep] xs).splitOn sep = xs := by
  rw [join_eq_intercalate, List.splitOn_intercalate _ h hne]

theorem join_splitOn (sep : Char) (s : List Char) : join [sep] (s.splitOn sep) = s := by
  rw [join_eq_intercalate, List.intercalate_splitOn]

theorem flatten_intersperse (sep : List Char) (xs : List (List Char)) :
    (xs.intersperse sep).flatten = join sep xs := by
  rw [join_eq_intercalate]
  rfl

/-- The texts that pieces between separators accept. -/
theorem forall₂_intersperse {ps : List Piece} {sep : Char} {gs : List (List Char)} :
    List.Forall₂ Piece.Matches (ps.intersperse (.word [[sep]])) gs ↔
      ∃ ws, gs = ws.intersperse [sep] ∧ List.Forall₂ Piece.Matches ps ws := by
  induction ps generalizing gs with
  | nil =>
    rw [List.intersperse_nil, List.forall₂_nil_left_iff]
    constructor
    · rintro rfl
      exact ⟨[], rfl, .nil⟩
    · rintro ⟨ws, rfl, hw⟩
      rw [List.forall₂_nil_left_iff.mp hw, List.intersperse_nil]
  | cons p ps ih =>
    cases ps with
    | nil =>
      rw [List.intersperse_singleton]
      constructor
      · intro h
        obtain ⟨g, gs, hg, hnil, rfl⟩ := List.forall₂_cons_left_iff.mp h
        obtain rfl := List.forall₂_nil_left_iff.mp hnil
        exact ⟨[g], rfl, .cons hg .nil⟩
      · rintro ⟨ws, rfl, hw⟩
        obtain ⟨w, ws, hw', hnil, rfl⟩ := List.forall₂_cons_left_iff.mp hw
        obtain rfl := List.forall₂_nil_left_iff.mp hnil
        exact .cons hw' .nil
    | cons q ps =>
      rw [List.intersperse_cons_cons]
      constructor
      · intro h
        obtain ⟨g, gs₁, hg, h₁, rfl⟩ := List.forall₂_cons_left_iff.mp h
        obtain ⟨t, gs₂, ht, h₂, rfl⟩ := List.forall₂_cons_left_iff.mp h₁
        obtain rfl : t = [sep] := List.mem_singleton.mp ht
        obtain ⟨ws, rfl, hw⟩ := ih.mp h₂
        obtain ⟨w, ws', hw', hws, rfl⟩ := List.forall₂_cons_left_iff.mp hw
        exact ⟨g :: w :: ws', by rw [List.intersperse_cons_cons], .cons hg (.cons hw' hws)⟩
      · rintro ⟨ws, rfl, hw⟩
        obtain ⟨g, ws₁, hg, hw₁, rfl⟩ := List.forall₂_cons_left_iff.mp hw
        obtain ⟨w, ws₂, hw', hws, rfl⟩ := List.forall₂_cons_left_iff.mp hw₁
        rw [List.intersperse_cons_cons]
        exact .cons hg (.cons (List.mem_singleton_self _) (ih.mpr ⟨_, rfl, .cons hw' hws⟩))

/-- **Pieces without the separator match the fields of a text, and no other split of it.** -/
theorem fullmatch_intersperse {ps : List Piece} {sep : Char} {s : List Char} {gs : List (List Char)}
    (hne : ps ≠ []) (hp : ∀ p ∈ ps, ∀ w, p.Matches w → sep ∉ w) :
    fullmatch (ps.intersperse (.word [[sep]])) s = some gs ↔
      List.Forall₂ Piece.Matches ps (s.splitOn sep) ∧ gs = (s.splitOn sep).intersperse [sep] := by
  have sound : ∀ {gs}, fullmatch (ps.intersperse (.word [[sep]])) s = some gs →
      List.Forall₂ Piece.Matches ps (s.splitOn sep) ∧ gs = (s.splitOn sep).intersperse [sep] := by
    intro gs h
    obtain ⟨rfl, hf⟩ := fullmatch_sound h
    obtain ⟨ws, rfl, hw⟩ := forall₂_intersperse.mp hf
    have hnil : ws ≠ [] := by
      rintro rfl
      exact hne (List.forall₂_nil_right_iff.mp hw)
    have hsep : ∀ w ∈ ws, sep ∉ w := fun w hw' => by
      obtain ⟨p, hpm, hm⟩ := forall₂_mem_right hw hw'
      exact hp p hpm w hm
    rw [flatten_intersperse, splitOn_join hnil hsep]
    exact ⟨hw, rfl⟩
  constructor
  · exact sound
  · rintro ⟨hf, rfl⟩
    have hsome : (fullmatch (ps.intersperse (.word [[sep]])) s).isSome :=
      fullmatch_isSome.mpr ⟨_, by rw [flatten_intersperse, join_splitOn],
        forall₂_intersperse.mpr ⟨_, rfl, hf⟩⟩
    obtain ⟨gs, hgs⟩ := Option.isSome_iff_exists.mp hsome
    rw [hgs, (sound hgs).2]

/-! ## Units -/

/-- The units from the first one on that is not zero. The last one always stands. -/
def leading : List (ℕ × Char) → List (ℕ × Char)
  | [] => []
  | [u] => [u]
  | u :: v :: us => if u.1 = 0 then leading (v :: us) else u :: v :: us

/-- A number and its unit. -/
def unitText (u : ℕ × Char) : List Char := (toString u.1).toList ++ [u.2]

/-- The units of a duration, with spaces. -/
def display (us : List (ℕ × Char)) : List Char := join [' '] ((leading us).map unitText)

theorem leading_ne_nil {us : List (ℕ × Char)} (h : us ≠ []) : leading us ≠ [] := by
  induction us with
  | nil => exact absurd rfl h
  | cons u us ih =>
    cases us with
    | nil => exact List.cons_ne_nil _ _
    | cons v us =>
      rw [leading]
      split_ifs
      · exact ih (List.cons_ne_nil _ _)
      · exact List.cons_ne_nil _ _

theorem length_leading_le (us : List (ℕ × Char)) : (leading us).length ≤ us.length := by
  induction us with
  | nil => exact le_rfl
  | cons u us ih =>
    cases us with
    | nil => exact le_rfl
    | cons v us =>
      rw [leading]
      split_ifs
      · exact ih.trans (Nat.le_succ _)
      · exact le_rfl

/-- No zero in front is lost that the number of the units does not tell. -/
theorem leading_inj {us vs : List (ℕ × Char)} (hu : us.map Prod.snd = vs.map Prod.snd)
    (h : leading us = leading vs) : us = vs := by
  induction us generalizing vs with
  | nil => exact (List.map_eq_nil_iff.mp hu.symm).symm
  | cons u us ih =>
    cases vs with
    | nil => cases hu
    | cons u' vs =>
      obtain ⟨hu₀, hu₁⟩ := List.cons.inj hu
      have hlen : us.length = vs.length := by
        simpa using congrArg List.length hu₁
      cases us with
      | nil =>
        obtain rfl := List.length_eq_zero_iff.mp hlen.symm
        exact h
      | cons v us =>
        cases vs with
        | nil => cases hlen
        | cons v' vs =>
          rw [leading, leading] at h
          split_ifs at h with hz hz' hz'
          · rw [ih hu₁ h, Prod.ext (hz.trans hz'.symm) hu₀]
          · -- a list of units that is shorter than the other one
            have := length_leading_le (v :: us)
            rw [h] at this
            simp only [List.length_cons] at this hlen
            omega
          · have := length_leading_le (v' :: vs)
            rw [← h] at this
            simp only [List.length_cons] at this hlen
            omega
          · exact h

theorem toList_toString (n : ℕ) : (toString n).toList = Nat.toDigits 10 n := Nat.toList_repr

theorem unitText_injective : Function.Injective unitText := by
  rintro ⟨m, a⟩ ⟨n, b⟩ h
  obtain ⟨hd, hu⟩ := List.append_inj' h rfl
  have hmn : m = n := by
    rw [toList_toString, toList_toString] at hd
    rw [← Nat.ofDigitChars_toDigits (b := 10) (n := m) (by decide) (by decide), hd,
      Nat.ofDigitChars_toDigits (by decide) (by decide)]
  exact Prod.ext hmn (List.singleton_inj.mp hu)

theorem space_notMem_unitText {u : ℕ × Char} (h : u.2 ≠ ' ') : ' ' ∉ unitText u := by
  rw [unitText, List.mem_append, List.mem_singleton, not_or]
  refine ⟨fun hm => ?_, Ne.symm h⟩
  rw [toList_toString] at hm
  have := (numeral_toDigits u.1).digits _ hm
  revert this
  decide

theorem mem_of_mem_leading {us : List (ℕ × Char)} {u : ℕ × Char} (h : u ∈ leading us) : u ∈ us := by
  induction us with
  | nil => exact h
  | cons v us ih =>
    cases us with
    | nil => exact h
    | cons w us =>
      rw [leading] at h
      split_ifs at h
      · exact List.mem_cons_of_mem _ (ih h)
      · exact h

/-- **A duration is determined by its text.** -/
theorem display_inj {us vs : List (ℕ × Char)} (hu : us.map Prod.snd = vs.map Prod.snd)
    (hsp : ' ' ∉ us.map Prod.snd) (h : display us = display vs) : us = vs := by
  have fields : ∀ {ws : List (ℕ × Char)}, ws ≠ [] → ' ' ∉ ws.map Prod.snd →
      (display ws).splitOn ' ' = (leading ws).map unitText := by
    intro ws hne hsp
    refine splitOn_join (mt List.map_eq_nil_iff.mp (leading_ne_nil hne)) fun x hx => ?_
    obtain ⟨w, hw, rfl⟩ := List.mem_map.mp hx
    refine space_notMem_unitText fun h => hsp ?_
    exact h ▸ List.mem_map_of_mem (mem_of_mem_leading hw)
  rcases eq_or_ne us [] with rfl | hne
  · exact (List.map_eq_nil_iff.mp hu.symm).symm
  have hne' : vs ≠ [] := by
    rintro rfl
    exact hne (List.map_eq_nil_iff.mp hu)
  have hl := fields hne hsp
  rw [h, fields hne' (hu ▸ hsp)] at hl
  exact leading_inj hu (unitText_injective.list_map hl).symm

end Py
