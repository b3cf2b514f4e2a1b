import Mathlib.Data.List.Forall2
import Mathlib.Data.List.TakeWhile
import Asl3Api.Lib.PyValue

/-!
# Sequential patterns

A pattern is a list of pieces, each a character class repeated greedily within bounds
(`[..]{lo,hi}`) or a choice between words. `fullmatch` tries the splits of the text in the order
of a backtracking matcher and returns the text of every piece.

* `Piece.Matches`, `Piece.mem_prefixes`: what a piece accepts;
* `fullmatch_sound`, **`fullmatch_isSome`**: `fullmatch` decides whether the text is a
  concatenation of accepted pieces;
* `firstWord`, `afterWord`, `lastWord`: the white-space separated words of a line, and how a pattern
  that begins, or ends, with a word determines them.
-/

set_option autoImplicit false

namespace Py

/-- One piece of a pattern. -/
inductive Piece where
  /-- `cls{lo,hi}`, without an upper bound when `hi` is `none`. -/
  | run (cls : Char → Bool) (lo : Nat) (hi : Option Nat)
  /-- `(w₁|w₂|…)`. -/
  | word (ws : List (List Char))

namespace Piece

/-- The texts a piece accepts. -/
def Matches : Piece → List Char → Prop
  | .run cls lo hi, s => (∀ c ∈ s, cls c = true) ∧ lo ≤ s.length ∧ ∀ h ∈ hi, s.length ≤ h
  | .word ws, s => s ∈ ws

/-- The longest run a piece could take. -/
def reach (cls : Char → Bool) (hi : Option Nat) (s : List Char) : Nat :=
  match hi with
  | none => (s.takeWhile cls).length
  | some h => min h (s.takeWhile cls).length

/-- The splits a piece allows, the longest run or the first word first. -/
def prefixes : Piece → List Char → List (List Char × List Char)
  | .run cls lo hi, s =>
    (List.range' lo (reach cls hi s + 1 - lo)).reverse.map fun n => (s.take n, s.drop n)
  | .word ws, s => ws.filterMap fun w => if w <+: s then some (w, s.drop w.length) else none

theorem le_length_takeWhile {cls : Char → Bool} {s : List Char} {n : Nat} (hn : n ≤ s.length) :
    n ≤ (s.takeWhile cls).length ↔ ∀ c ∈ s.take n, cls c = true := by
  constructor
  · intro h c hc
    have : s.take n = (s.takeWhile cls).take n := by
      conv_lhs => rw [← List.takeWhile_append_dropWhile (p := cls) (l := s)]
      exact List.take_append_of_le_length h
    rw [this] at hc
    exact List.mem_takeWhile_imp (List.mem_of_mem_take hc)
  · intro h
    have hs : s.takeWhile cls = s.take n ++ (s.drop n).takeWhile cls := by
      rw [← List.takeWhile_append_of_pos h, List.take_append_drop]
    rw [hs, List.length_append, List.length_take, min_eq_left hn]
    omega

theorem mem_prefixes {p : Piece} {s a b : List Char} :
    (a, b) ∈ p.prefixes s ↔ p.Matches a ∧ s = a ++ b := by
  cases p with
  | word ws =>
    simp only [prefixes, Matches, List.mem_filterMap, Option.ite_none_right_eq_some,
      Option.some.injEq, Prod.mk.injEq]
    constructor
    · rintro ⟨w, hw, hp, rfl, rfl⟩
      exact ⟨hw, (List.prefix_iff_eq_append.mp hp).symm⟩
    · rintro ⟨hw, rfl⟩
      exact ⟨a, hw, List.prefix_append a b, rfl, List.drop_left⟩
  | run cls lo hi =>
    simp only [prefixes, Matches, List.mem_map, List.mem_reverse, List.mem_range'_1,
      Prod.mk.injEq]
    constructor
    · rintro ⟨n, ⟨hlo, hn⟩, rfl, rfl⟩
      have hr : n ≤ reach cls hi s := by omega
      have hw : n ≤ (s.takeWhile cls).length := by unfold reach at hr; split at hr <;> omega
      have hs : n ≤ s.length := hw.trans (List.takeWhile_prefix cls).length_le
      refine ⟨⟨(le_length_takeWhile hs).mp hw, ?_, ?_⟩, (List.take_append_drop n s).symm⟩
      · rwa [List.length_take, min_eq_left hs]
      · intro h hh
        rw [Option.mem_def] at hh
        subst hh
        rw [List.length_take, min_eq_left hs]
        exact hr.trans (min_le_left _ _)
    · rintro ⟨⟨hc, hlo, hhi⟩, rfl⟩
      have hs : a.length ≤ (a ++ b).length := by simp
      have hw : a.length ≤ ((a ++ b).takeWhile cls).length := by
        rw [le_length_takeWhile hs, List.take_left']
        · exact hc
        · rfl
      have hr : a.length ≤ reach cls hi (a ++ b) := by
        unfold reach
        split
        · exact hw
        · exact le_min (hhi _ rfl) hw
      exact ⟨a.length, ⟨hlo, by omega⟩, List.take_left, List.drop_left⟩

end Piece

/-- The text of every piece, when the pattern matches the whole text. -/
def fullmatch : List Piece → List Char → Option (List (List Char))
  | [], s => if s = [] then some [] else none
  | p :: ps, s => (p.prefixes s).findSome? fun x => (fullmatch ps x.2).map (x.1 :: ·)

theorem fullmatch_sound {ps : List Piece} {s : List Char} {gs : List (List Char)}
    (h : fullmatch ps s = some gs) : s = gs.flatten ∧ List.Forall₂ Piece.Matches ps gs := by
  induction ps generalizing s gs with
  | nil =>
    simp only [fullmatch, Option.ite_none_right_eq_some, Option.some.injEq] at h
    obtain ⟨rfl, rfl⟩ := h
    exact ⟨rfl, .nil⟩
  | cons p ps ih =>
    obtain ⟨⟨a, b⟩, hab, hm⟩ := List.exists_of_findSome?_eq_some h
    obtain ⟨gs', hgs', rfl⟩ := Option.map_eq_some_iff.mp hm
    obtain ⟨hp, rfl⟩ := Piece.mem_prefixes.mp hab
    obtain ⟨hb, hf⟩ := ih hgs'
    exact ⟨by rw [List.flatten_cons, ← hb], .cons hp hf⟩

/-- **`fullmatch` decides the pattern.** -/
theorem fullmatch_isSome {ps : List Piece} {s : List Char} :
    (fullmatch ps s).isSome ↔ ∃ gs, s = gs.flatten ∧ List.Forall₂ Piece.Matches ps gs := by
  constructor
  · intro h
    obtain ⟨gs, hgs⟩ := Option.isSome_iff_exists.mp h
    exact ⟨gs, fullmatch_sound hgs⟩
  · rintro ⟨gs, rfl, hf⟩
    induction hf with
    | nil => rfl
    | @cons p g ps gs hp hf ih =>
      obtain ⟨r, hr⟩ := Option.isSome_iff_exists.mp ih
      rw [fullmatch, List.findSome?_isSome_iff]
      refine ⟨(g, gs.flatten), Piece.mem_prefixes.mpr ⟨hp, rfl⟩, ?_⟩
      rw [hr]
      rfl

/-- A pattern of one piece accepts what the piece accepts. -/
theorem fullmatch_single {p : Piece} {s : List Char} : (fullmatch [p] s).isSome ↔ p.Matches s := by
  rw [fullmatch_isSome]
  constructor
  · rintro ⟨gs, rfl, hf⟩
    obtain ⟨g, gs, hp, hnil, rfl⟩ := List.forall₂_cons_left_iff.mp hf
    obtain rfl := List.forall₂_nil_left_iff.mp hnil
    simpa using hp
  · intro h
    exact ⟨[s], by simp, .cons h .nil⟩

/-! ## Words -/

/-- The class `\S`. -/
def nonSpace (c : Char) : Bool := !isSpace c

/-- The first white-space separated word of a line that begins with one. -/
def firstWord (s : List Char) : List Char := s.takeWhile nonSpace

/-- What follows the first word and the space after it. -/
def afterWord (s : List Char) : List Char := (s.dropWhile nonSpace).dropWhile isSpace

theorem takeWhile_word {a b : List Char} (ha : ∀ c ∈ a, nonSpace c = true)
    (hb : ∀ c ∈ b.head?, nonSpace c = false) :
    (a ++ b).takeWhile nonSpace = a ∧ (a ++ b).dropWhile nonSpace = b := by
  rw [List.takeWhile_append_of_pos ha, List.dropWhile_append_of_pos ha]
  cases b with
  | nil => simp
  | cons c b => simp [hb c rfl]

theorem head_of_space {sp b : List Char} (hsp : ∀ c ∈ sp, isSpace c = true) (hne : 1 ≤ sp.length) :
    ∀ c ∈ (sp ++ b).head?, nonSpace c = false := by
  cases sp with
  | nil => simp at hne
  | cons x sp =>
    intro c hc
    simp only [List.cons_append, List.head?_cons, Option.mem_def, Option.some.injEq] at hc
    rw [← hc]
    simp [nonSpace, hsp x List.mem_cons_self]

/-- A word, at least one space and a text that begins with no space. -/
theorem firstWord_append {a sp b : List Char} (ha : ∀ c ∈ a, nonSpace c = true)
    (hsp : ∀ c ∈ sp, isSpace c = true) (hne : 1 ≤ sp.length)
    (hb : ∀ c ∈ b.head?, isSpace c = false) :
    firstWord (a ++ (sp ++ b)) = a ∧ afterWord (a ++ (sp ++ b)) = b := by
  obtain ⟨h1, h2⟩ := takeWhile_word ha (head_of_space hsp hne)
  refine ⟨h1, ?_⟩
  rw [afterWord, h2, List.dropWhile_append_of_pos hsp]
  cases b with
  | nil => rfl
  | cons c b => simp [hb c rfl]

/-- A pattern that begins with a word and a space captures the first word. -/
theorem firstWord_of_fullmatch {ps : List Piece} {s : List Char} {gs : List (List Char)}
    (h : fullmatch (.run nonSpace 1 none :: .run isSpace 1 none :: ps) s = some gs) :
    ∃ sp rest, gs = firstWord s :: sp :: rest ∧ s = firstWord s ++ (sp ++ rest.flatten) ∧
      (∀ c ∈ firstWord s, nonSpace c = true) ∧ (∀ c ∈ sp, isSpace c = true) ∧ 1 ≤ sp.length ∧
      List.Forall₂ Piece.Matches ps rest := by
  obtain ⟨hs, hf₀⟩ := fullmatch_sound h
  obtain ⟨w, gs, ⟨hw, -, -⟩, hf₁, rfl⟩ := List.forall₂_cons_left_iff.mp hf₀
  obtain ⟨sp, rest, ⟨hsp, hlen, -⟩, hf, rfl⟩ := List.forall₂_cons_left_iff.mp hf₁
  simp only [List.flatten_cons] at hs
  have hword : firstWord s = w := by
    rw [hs]
    exact (takeWhile_word hw (head_of_space hsp hlen)).1
  rw [hword]
  exact ⟨sp, rest, rfl, hs, hw, hsp, hlen, hf⟩

/-- The last white-space separated word of a line. -/
def lastWord (s : List Char) : List Char :=
  ((s.reverse.dropWhile isSpace).takeWhile nonSpace).reverse

/-- A text that ends with a space, a word and trailing spaces. -/
theorem lastWord_append {a sp w sp' : List Char} (hsp : ∀ c ∈ sp, isSpace c = true)
    (hne : 1 ≤ sp.length) (hw : ∀ c ∈ w, nonSpace c = true) (hw0 : w ≠ [])
    (hsp' : ∀ c ∈ sp', isSpace c = true) : lastWord (a ++ (sp ++ (w ++ sp'))) = w := by
  have hrev : (a ++ (sp ++ (w ++ sp'))).reverse =
      sp'.reverse ++ (w.reverse ++ (sp.reverse ++ a.reverse)) := by
    simp
  have hhead : ∀ c ∈ (w.reverse ++ (sp.reverse ++ a.reverse)).head?, isSpace c = false := by
    intro c hc
    obtain ⟨x, w', hxw⟩ := List.exists_cons_of_ne_nil (List.reverse_ne_nil_iff.mpr hw0)
    rw [hxw, List.cons_append, List.head?_cons, Option.mem_def, Option.some.injEq] at hc
    have hx := hw x (List.mem_reverse.mp (hxw ▸ List.mem_cons_self))
    rw [← hc]
    simpa [nonSpace] using hx
  have hdrop : ((a ++ (sp ++ (w ++ sp'))).reverse).dropWhile isSpace =
      w.reverse ++ (sp.reverse ++ a.reverse) := by
    rw [hrev, List.dropWhile_append_of_pos fun c hc => hsp' c (List.mem_reverse.mp hc)]
    cases hb : w.reverse ++ (sp.reverse ++ a.reverse) with
    | nil => rfl
    | cons c b =>
      rw [hb] at hhead
      simp [hhead c rfl]
  unfold lastWord
  rw [hdrop, (takeWhile_word (fun c hc => hw c (List.mem_reverse.mp hc))
    (head_of_space (fun c hc => hsp c (List.mem_reverse.mp hc)) (by simpa using hne))).1,
    List.reverse_reverse]

/-- A pattern that ends with a space, a choice between words and trailing spaces captures the last
word. -/
theorem lastWord_of_fullmatch {ps : List Piece} {ws : List (List Char)} {s : List Char}
    {gs : List (List Char)} (hws : ∀ w ∈ ws, w ≠ [] ∧ ∀ c ∈ w, nonSpace c = true)
    (h : fullmatch (ps ++ [.run isSpace 1 none, .word ws, .run isSpace 0 none]) s = some gs) :
    lastWord s ∈ ws ∧ gs[ps.length + 1]? = some (lastWord s) := by
  obtain ⟨hs, hf⟩ := fullmatch_sound h
  have hf₁ := List.forall₂_take ps.length hf
  have hf₂ := List.forall₂_drop ps.length hf
  rw [List.take_left] at hf₁
  rw [List.drop_left] at hf₂
  obtain ⟨sp, gs₂, ⟨hsp, hlen, -⟩, hf₃, h₁⟩ := List.forall₂_cons_left_iff.mp hf₂
  obtain ⟨w, gs₃, hw, hf₄, rfl⟩ := List.forall₂_cons_left_iff.mp hf₃
  obtain ⟨sp', gs₄, ⟨hsp', -, -⟩, hnil, rfl⟩ := List.forall₂_cons_left_iff.mp hf₄
  obtain rfl := List.forall₂_nil_left_iff.mp hnil
  have hgs : gs = gs.take ps.length ++ [sp, w, sp'] := by
    rw [← h₁, List.take_append_drop]
  have hlast : lastWord s = w := by
    rw [hs, hgs, List.flatten_append]
    simp only [List.flatten_cons, List.flatten_nil, List.append_nil]
    exact lastWord_append hsp hlen (hws w hw).2 (hws w hw).1 hsp'
  have hl : (gs.take ps.length).length = ps.length := hf₁.length_eq.symm
  rw [hlast]
  refine ⟨hw, ?_⟩
  rw [hgs, List.getElem?_append_right (by omega), hl, Nat.add_sub_cancel_left]
  rfl

end Py
