import Asl3Api.Lib.Pattern

/-!
# Patterns with anchors, in two dialects

An anchored pattern is a sequence of pieces with `^` and `$` among them. A matcher starts at some
place of the text and leaves a rest; the dialects differ in where `$` matches.

* `Item`, `Dialect`, `rests`: a match from one place, and what it leaves;
* `search`, `fullmatchItems`: a match somewhere in the text, and a match of all of it;
* `mem_rests_pieces`: a sequence of pieces matches the texts `fullmatch` accepts;
* **`search_anchored`**, **`fullmatchItems_anchored`**: between `^` and `$` the two entry points of
  the two dialects accept the same texts.
-/

set_option autoImplicit false

namespace Py

/-- An item of an anchored pattern. -/
inductive Item where
  | piece (p : Piece)
  /-- `^`. -/
  | start
  /-- `$`. -/
  | stop

/-- The two regex engines. -/
inductive Dialect where
  /-- `re`: `$` matches at the end, and before a newline that ends the text. -/
  | python
  /-- The Rust crate `regex`: `$` matches at the end only. -/
  | rust

/-- Where `$` matches, by the rest of the text. -/
def Dialect.atStop : Dialect → List Char → Bool
  | .python, s => decide (s = [] ∨ s = ['\n'])
  | .rust, s => decide (s = [])

variable (δ : Dialect)

/-- The rests a match from one place can leave; `first` says that nothing is before that place. -/
def rests : List Item → Bool → List Char → List (List Char)
  | [], _, s => [s]
  | .start :: is, first, s => if first then rests is first s else []
  | .stop :: is, first, s => if δ.atStop s then rests is first s else []
  | .piece p :: is, first, s => (p.prefixes s).flatMap fun x => rests is (first && x.1.isEmpty) x.2

/-- A match from one of the places after the first character. -/
def searchLater (is : List Item) : List Char → Bool
  | [] => false
  | _ :: s => !(rests δ is false s).isEmpty || searchLater is s

/-- `Regex::is_match` and `re.search`: a match from some place. -/
def search (is : List Item) (s : List Char) : Bool :=
  !(rests δ is true s).isEmpty || searchLater δ is s

/-- `re.fullmatch`: a match from the first place that leaves nothing. -/
def fullmatchItems (is : List Item) (s : List Char) : Bool :=
  (rests δ is true s).any List.isEmpty

/-- `^…$`. -/
def anchored (ps : List Piece) : List Item := .start :: ps.map .piece ++ [.stop]

variable {δ}

theorem isEmpty_flatten_cons {a : List Char} {gs : List (List Char)} :
    (a :: gs).flatten.isEmpty = (a.isEmpty && gs.flatten.isEmpty) := by
  cases a <;> simp

/-- A sequence of pieces takes a text that they match one after the other. -/
theorem mem_rests_pieces {ps : List Piece} {is : List Item} {first : Bool} {s r : List Char} :
    r ∈ rests δ (ps.map .piece ++ is) first s ↔ ∃ gs r', s = gs.flatten ++ r' ∧
      List.Forall₂ Piece.Matches ps gs ∧ r ∈ rests δ is (first && gs.flatten.isEmpty) r' := by
  induction ps generalizing first s with
  | nil =>
    constructor
    · intro h
      exact ⟨[], s, rfl, .nil, by simpa using h⟩
    · rintro ⟨gs, r', rfl, hf, h⟩
      obtain rfl := List.forall₂_nil_left_iff.mp hf
      simpa using h
  | cons p ps ih =>
    simp only [List.map_cons, List.cons_append, rests, List.mem_flatMap, Prod.exists]
    constructor
    · rintro ⟨a, b, hab, h⟩
      obtain ⟨hp, rfl⟩ := Piece.mem_prefixes.mp hab
      obtain ⟨gs, r', rfl, hf, hr⟩ := ih.mp h
      refine ⟨a :: gs, r', by rw [List.flatten_cons, List.append_assoc], .cons hp hf, ?_⟩
      rw [isEmpty_flatten_cons, ← Bool.and_assoc]
      exact hr
    · rintro ⟨gs, r', rfl, hf, h⟩
      obtain ⟨a, gs, hp, hps, rfl⟩ := List.forall₂_cons_left_iff.mp hf
      refine ⟨a, gs.flatten ++ r', Piece.mem_prefixes.mpr ⟨hp, ?_⟩, ih.mpr ⟨gs, r', rfl, hps, ?_⟩⟩
      · rw [List.flatten_cons, List.append_assoc]
      · rw [Bool.and_assoc, ← isEmpty_flatten_cons]
        exact h

/-- A match of `^…$` takes the text up to a place where `$` matches, from the first place. -/
theorem mem_rests_anchored {ps : List Piece} {first : Bool} {s r : List Char} :
    r ∈ rests δ (anchored ps) first s ↔ first = true ∧ δ.atStop r = true ∧
      ∃ gs, s = gs.flatten ++ r ∧ List.Forall₂ Piece.Matches ps gs := by
  unfold anchored
  rw [List.cons_append, rests]
  by_cases hf : first = true
  · rw [if_pos hf, mem_rests_pieces]
    simp only [rests, hf, true_and, List.mem_ite_nil_right, List.mem_singleton]
    constructor
    · rintro ⟨gs, r', hs, hm, hr, rfl⟩
      exact ⟨hr, gs, hs, hm⟩
    · rintro ⟨hr, gs, hs, hm⟩
      exact ⟨gs, r, hs, hm, hr, rfl⟩
  · rw [if_neg hf]
    exact ⟨nofun, fun h => absurd h.1 hf⟩

theorem searchLater_anchored {ps : List Piece} {s : List Char} :
    searchLater δ (anchored ps) s = false := by
  induction s with
  | nil => rfl
  | cons c s ih =>
    have hnil : rests δ (anchored ps) false s = [] :=
      List.eq_nil_iff_forall_not_mem.mpr fun r hr => nomatch (mem_rests_anchored.mp hr).1
    rw [searchLater, hnil, ih]
    rfl

/-- **A search for `^…$`** with the `$` of Rust accepts what `fullmatch` accepts. -/
theorem search_anchored {ps : List Piece} {s : List Char} :
    search .rust (anchored ps) s = (fullmatch ps s).isSome := by
  rw [search, searchLater_anchored, Bool.or_false, Bool.eq_iff_iff, fullmatch_isSome,
    Bool.not_eq_true', List.isEmpty_eq_false_iff_exists_mem]
  constructor
  · rintro ⟨r, hr⟩
    obtain ⟨-, hstop, gs, rfl, hf⟩ := mem_rests_anchored.mp hr
    obtain rfl : r = [] := of_decide_eq_true hstop
    exact ⟨gs, List.append_nil _, hf⟩
  · rintro ⟨gs, rfl, hf⟩
    exact ⟨[], mem_rests_anchored.mpr ⟨rfl, rfl, gs, (List.append_nil _).symm, hf⟩⟩

/-- **A full match of `^…$`** accepts what `fullmatch` accepts in both dialects: the newline that the
`$` of Python allows would be left over. -/
theorem fullmatchItems_anchored {ps : List Piece} {s : List Char} :
    fullmatchItems δ (anchored ps) s = (fullmatch ps s).isSome := by
  rw [fullmatchItems, Bool.eq_iff_iff, fullmatch_isSome, List.any_eq_true]
  constructor
  · rintro ⟨r, hr, he⟩
    obtain ⟨-, -, gs, rfl, hf⟩ := mem_rests_anchored.mp hr
    obtain rfl := List.isEmpty_iff.mp he
    exact ⟨gs, List.append_nil _, hf⟩
  · rintro ⟨gs, rfl, hf⟩
    refine ⟨[], mem_rests_anchored.mpr ⟨rfl, ?_, gs, (List.append_nil _).symm, hf⟩, rfl⟩
    cases δ <;> rfl

/-- A full match of a pattern without anchors. -/
theorem fullmatchItems_pieces {ps : List Piece} {s : List Char} :
    fullmatchItems δ (ps.map .piece) s = (fullmatch ps s).isSome := by
  rw [fullmatchItems, Bool.eq_iff_iff, fullmatch_isSome, List.any_eq_true,
    ← List.append_nil (ps.map Item.piece)]
  constructor
  · rintro ⟨r, hr, he⟩
    obtain ⟨gs, r', rfl, hf, hr⟩ := mem_rests_pieces.mp hr
    obtain rfl := List.mem_singleton.mp hr
    obtain rfl := List.isEmpty_iff.mp he
    exact ⟨gs, List.append_nil _, hf⟩
  · rintro ⟨gs, rfl, hf⟩
    exact ⟨[], mem_rests_pieces.mpr ⟨gs, [], (List.append_nil _).symm, hf,
      List.mem_singleton_self _⟩, rfl⟩

end Py
