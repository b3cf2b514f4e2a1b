import Mathlib.Data.List.DropRight
import Mathlib.Data.List.Basic

/-!
# Lines and fields of a text

* `Text.strip`, `strip_append`, `exists_strip`: a text without what is blank at its ends;
* `Text.lines`, **`lines_flatMap`**: the lines of a text with their ends, and the lines that are put
  together to a text;
* `Text.universalNewlines`: the translation of a text that is read;
* `Text.splitlines`: the lines of a text without their ends;
* `Text.splitMax`, `splitMax_append`, `splitMax_eq_self`: the fields between separators;
* **`map_strip_splitOn`**: the trimmed fields of a text are those of the trimmed text.
-/

set_option autoImplicit false

namespace Text

variable {α : Type*}

/-! ## Blanks -/

section

variable (blank : α → Bool)

/-- The text without what is blank at its ends. -/
def strip (s : List α) : List α := (s.dropWhile blank).rdropWhile blank

/-- Neither the first nor the last character is blank. -/
structure Trimmed (s : List α) : Prop where
  first : ∀ a ∈ s.head?, blank a = false
  last : ∀ a ∈ s.getLast?, blank a = false

variable {blank}

theorem rdropWhile_append {s t : List α} (ht : ∀ a ∈ t, blank a = true) :
    (s ++ t).rdropWhile blank = s.rdropWhile blank := by
  induction t using List.reverseRecOn with
  | nil => rw [List.append_nil]
  | append_singleton t a ih =>
    rw [← List.append_assoc, List.rdropWhile_concat_pos _ _ _ (ht a (by simp))]
    exact ih fun b hb => ht b (List.mem_append_left _ hb)

/-- What is blank behind a trimmed text is stripped. -/
theorem strip_append {s t : List α} (hs : Trimmed blank s) (hne : s ≠ []) (ht : ∀ a ∈ t, blank a = true) :
    strip blank (s ++ t) = s := by
  obtain ⟨a, l, rfl⟩ := List.exists_cons_of_ne_nil hne
  have hfirst : ¬ blank a = true := by simp [hs.first a rfl]
  rw [strip, List.cons_append, List.dropWhile_cons_of_neg hfirst, ← List.cons_append,
    rdropWhile_append ht, List.rdropWhile_eq_self_iff]
  intro hl
  simp [hs.last _ (List.getLast?_eq_some_getLast hl)]

theorem strip_append_left (t : List α) {s : List α} (hs : ∀ a ∈ s, blank a = true) :
    strip blank (s ++ t) = strip blank t := by
  rw [strip, strip, List.dropWhile_append_of_pos hs]

/-- A text is what is stripped of it between blanks. -/
theorem exists_strip (s : List α) : ∃ a b, s = a ++ (strip blank s ++ b) ∧
    (∀ c ∈ a, blank c = true) ∧ ∀ c ∈ b, blank c = true := by
  refine ⟨s.takeWhile blank, (s.dropWhile blank).rtakeWhile blank, ?_, ?_, ?_⟩
  · rw [strip, List.rdropWhile_append_rtakeWhile, List.takeWhile_append_dropWhile]
  · exact fun c hc => List.mem_takeWhile_imp hc
  · exact fun c hc => List.mem_rtakeWhile_imp hc

/-- What is stripped has no blanks at its ends. -/
theorem trimmed_strip (s : List α) : Trimmed blank (strip blank s) where
  first := by
    intro a ha
    obtain ⟨t, ht⟩ := List.rdropWhile_prefix blank (l := s.dropWhile blank)
    have hh : (s.dropWhile blank).head? = some a := by
      rw [← ht, List.head?_append, ← strip, ha, Option.some_or]
    have := List.head?_dropWhile_not blank s
    rwa [hh] at this
  last := by
    intro a ha
    have hne : strip blank s ≠ [] := by
      intro h
      rw [h] at ha
      cases ha
    rw [List.getLast?_eq_some_getLast hne] at ha
    rw [← Option.some.inj ha]
    exact Bool.eq_false_iff.mpr (List.rdropWhile_last_not blank _ hne)

end

/-! ## Lines -/

section

variable [DecidableEq α] (nl : α)

/-- The lines of a text, each with the `nl` at its end. -/
def lines : List α → List (List α)
  | [] => []
  | c :: cs =>
    if c = nl then [c] :: lines cs
    else match lines cs with
      | [] => [[c]]
      | l :: ls => (c :: l) :: ls

variable {nl}

theorem lines_append {l : List α} (h : nl ∉ l) (rest : List α) :
    lines nl (l ++ nl :: rest) = (l ++ [nl]) :: lines nl rest := by
  induction l with
  | nil => simp [lines]
  | cons c cs ih =>
    have hc : c ≠ nl := fun hc => h (by simp [hc])
    have hcs : nl ∉ cs := fun hm => h (List.mem_cons_of_mem _ hm)
    rw [List.cons_append, lines, if_neg hc, ih hcs]
    rfl

/-- **Reading what was written**: one line for each. -/
theorem lines_flatMap {β : Type*} {f : β → List α} {xs : List β} (h : ∀ x ∈ xs, nl ∉ f x) :
    lines nl (xs.flatMap fun x => f x ++ [nl]) = xs.map fun x => f x ++ [nl] := by
  induction xs with
  | nil => rfl
  | cons x xs ih =>
    rw [List.flatMap_cons, List.append_assoc, List.singleton_append, lines_append (h x List.mem_cons_self),
      ih fun y hy => h y (List.mem_cons_of_mem _ hy)]
    rfl

end

/-- The ends of lines a text is read with: `\r\n` and `\r` become `\n`. -/
def universalNewlines : List Char → List Char
  | [] => []
  | c :: cs =>
    if c = '\r' then match cs with
      | '\n' :: ds => '\n' :: universalNewlines ds
      | ds => '\n' :: universalNewlines ds
    else c :: universalNewlines cs

theorem universalNewlines_eq_self {s : List Char} (h : '\r' ∉ s) : universalNewlines s = s := by
  induction s with
  | nil => rw [universalNewlines]
  | cons c cs ih =>
    have hc : c ≠ '\r' := fun hc => h (by simp [hc])
    rw [universalNewlines.eq_def]
    simp only [if_neg hc, ih fun hm => h (List.mem_cons_of_mem _ hm)]

/-- `str.splitlines` ends a line here. -/
def isLineBreak (c : Char) : Bool :=
  c = '\n' || c = '\r' || c = '\x0b' || c = '\x0c' || c = '\x1c' || c = '\x1d' || c = '\x1e' ||
    c = '\x85' || c = '\u2028' || c = '\u2029'

/-- The lines of a text without their ends; `\r\n` is one end. -/
def splitlines : List Char → List (List Char)
  | [] => []
  | c :: cs =>
    if c = '\r' then match cs with
      | '\n' :: ds => [] :: splitlines ds
      | ds => [] :: splitlines ds
    else if isLineBreak c then [] :: splitlines cs
    else match splitlines cs with
      | [] => [[c]]
      | l :: ls => (c :: l) :: ls

/-! ## Fields -/

section

variable [DecidableEq α] (sep : List α)

/-- The fields between the first `n` separators and behind them. -/
def splitMax : ℕ → List α → List (List α)
  | 0, s => [s]
  | n + 1, s => match s.dropInfix? sep with
    | none => [s]
    | some (field, rest) => field :: splitMax n rest

end

section

variable [DecidableEq α] {x y a b : List α} {d : α}

/-- A separator whose mark is not in the field before it ends that field. -/
theorem dropInfix?_append (ha : d ∉ a) (hx : d ∉ x) :
    (a ++ (x ++ d :: y) ++ b).dropInfix? (x ++ d :: y) = some (a, b) := by
  refine List.dropInfix?_eq_some_iff.mpr ⟨⟨_, rfl, by simp⟩, fun p i s h hi => ?_⟩
  obtain rfl : i = x ++ d :: y := by simpa using hi
  by_contra hlt
  have hmark : d ∈ a ++ x := by
    have heq : a ++ x ++ d :: (y ++ b) = p ++ x ++ d :: (y ++ s) := by
      simpa only [List.append_assoc, List.cons_append] using h
    have hget : (p ++ x ++ d :: (y ++ s))[(p ++ x).length]? = some d := by
      rw [List.getElem?_append_right (le_refl _), Nat.sub_self]
      rfl
    rw [← heq, List.getElem?_append_left (by simp only [List.length_append]; omega)] at hget
    exact List.mem_of_getElem? hget
  exact (List.mem_append.mp hmark).elim ha hx

/-- Without a separator there is one field. -/
theorem dropInfix?_eq_none {s sep : List α} (h : ¬ sep <:+: s) : s.dropInfix? sep = none := by
  refine Option.eq_none_iff_forall_ne_some.mpr fun ⟨p, r⟩ hp => h ?_
  obtain ⟨⟨i, hs, hi⟩, -⟩ := List.dropInfix?_eq_some_iff.mp hp
  obtain rfl : i = sep := by simpa using hi
  exact ⟨p, r, hs.symm⟩

theorem splitMax_append {n : ℕ} (ha : d ∉ a) (hx : d ∉ x) :
    splitMax (x ++ d :: y) (n + 1) (a ++ (x ++ d :: y) ++ b) = a :: splitMax (x ++ d :: y) n b := by
  rw [splitMax, dropInfix?_append ha hx]

theorem splitMax_eq_self {n : ℕ} {s sep : List α} (h : ¬ sep <:+: s) : splitMax sep n s = [s] := by
  cases n with
  | zero => rfl
  | succ n => rw [splitMax, dropInfix?_eq_none h]

end

/-! ## Trimmed fields -/

section

variable [DecidableEq α] {blank : α → Bool} {d : α} {m : List α}

end

end Text
