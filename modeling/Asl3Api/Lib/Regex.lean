import Mathlib.Data.List.Basic
import Mathlib.Data.List.Flatten

/-!
# Regular patterns

Patterns with groups that are repeated within bounds, `(r){lo,hi}`. A matcher follows every way a
pattern can take the front of a text.

* `Regex`, `Regex.Matches`: patterns and what they accept;
* `Regex.rests`, `Regex.fullmatch`: what is left behind a front that the pattern takes, and whether it
  takes the whole text;
* `mem_rests`, **`fullmatch_iff`**: the matcher decides what the pattern accepts.
-/

set_option autoImplicit false

/-- A pattern over characters. -/
inductive Regex (α : Type*) where
  /-- One character of a class. -/
  | cls (p : α → Bool)
  /-- One pattern behind another one. -/
  | seq (r t : Regex α)
  /-- `(r){lo,hi}`, without an upper bound when `hi` is `none`. -/
  | rep (r : Regex α) (lo : ℕ) (hi : Option ℕ)

namespace Regex

variable {α : Type*}

/-- The texts a pattern accepts. -/
def Matches : Regex α → List α → Prop
  | .cls p, s => ∃ c, p c = true ∧ s = [c]
  | .seq r t, s => ∃ a b, r.Matches a ∧ t.Matches b ∧ s = a ++ b
  | .rep r lo hi, s => ∃ ws : List (List α), (∀ w ∈ ws, r.Matches w) ∧ lo ≤ ws.length ∧
      (∀ h ∈ hi, ws.length ≤ h) ∧ s = ws.flatten

section

variable (f : List α → List (List α))

/-- What is left after exactly `n` rounds. -/
def exactly : ℕ → List α → List (List α)
  | 0, s => [s]
  | n + 1, s => (f s).flatMap (exactly n)

/-- What is left after at most `n` rounds. -/
def upTo : ℕ → List α → List (List α)
  | 0, s => [s]
  | n + 1, s => s :: (f s).flatMap (upTo n)

end

/-- What is left of a text behind the fronts that the pattern takes. A round that takes nothing leads
nowhere new, so that a text of length `n` has `n` rounds at most. -/
def rests : Regex α → List α → List (List α)
  | .cls _, [] => []
  | .cls p, c :: s => if p c then [s] else []
  | .seq r t, s => (r.rests s).flatMap t.rests
  | .rep r lo none, s => (exactly r.rests lo s).flatMap fun s' => upTo r.rests s'.length s'
  | .rep r lo (some h), s =>
    if lo ≤ h then (exactly r.rests lo s).flatMap (upTo r.rests (h - lo)) else []

/-- Whether the pattern takes the whole text. -/
def fullmatch (r : Regex α) (s : List α) : Bool := (r.rests s).any List.isEmpty

/-! ## Rounds -/

section

variable {f : List α → List (List α)} {M : List α → Prop} {s b : List α}

theorem mem_exactly (hf : ∀ s b, b ∈ f s ↔ ∃ a, s = a ++ b ∧ M a) {n : ℕ} :
    b ∈ exactly f n s ↔ ∃ ws : List (List α), (∀ w ∈ ws, M w) ∧ ws.length = n ∧
      s = ws.flatten ++ b := by
  induction n generalizing s with
  | zero =>
    rw [exactly, List.mem_singleton]
    constructor
    · rintro rfl
      exact ⟨[], fun w hw => absurd hw List.not_mem_nil, rfl, rfl⟩
    · rintro ⟨ws, -, hlen, rfl⟩
      rw [List.eq_nil_of_length_eq_zero hlen]
      rfl
  | succ n ih =>
    rw [exactly, List.mem_flatMap]
    constructor
    · rintro ⟨m, hm, hb⟩
      obtain ⟨a, rfl, ha⟩ := (hf s m).mp hm
      obtain ⟨ws, hws, hlen, rfl⟩ := ih.mp hb
      refine ⟨a :: ws, List.forall_mem_cons.mpr ⟨ha, hws⟩, congrArg (· + 1) hlen, ?_⟩
      rw [List.flatten_cons, List.append_assoc]
    · rintro ⟨ws, hws, hlen, rfl⟩
      obtain ⟨a, ws, rfl⟩ := List.exists_cons_of_length_eq_add_one hlen
      obtain ⟨ha, hws⟩ := List.forall_mem_cons.mp hws
      refine ⟨ws.flatten ++ b, (hf _ _).mpr ⟨a, ?_, ha⟩, ih.mpr ⟨ws, hws, Nat.succ.inj hlen, rfl⟩⟩
      rw [List.flatten_cons, List.append_assoc]

theorem mem_upTo (hf : ∀ s b, b ∈ f s ↔ ∃ a, s = a ++ b ∧ M a) {n : ℕ} :
    b ∈ upTo f n s ↔ ∃ ws : List (List α), (∀ w ∈ ws, M w) ∧ ws.length ≤ n ∧
      s = ws.flatten ++ b := by
  induction n generalizing s with
  | zero =>
    rw [upTo, List.mem_singleton]
    constructor
    · rintro rfl
      exact ⟨[], fun w hw => absurd hw List.not_mem_nil, Nat.le_refl 0, rfl⟩
    · rintro ⟨ws, -, hlen, rfl⟩
      rw [List.eq_nil_of_length_eq_zero (Nat.le_zero.mp hlen)]
      rfl
  | succ n ih =>
    rw [upTo, List.mem_cons, List.mem_flatMap]
    constructor
    · rintro (rfl | ⟨m, hm, hb⟩)
      · exact ⟨[], fun w hw => absurd hw List.not_mem_nil, Nat.zero_le _, rfl⟩
      · obtain ⟨a, rfl, ha⟩ := (hf s m).mp hm
        obtain ⟨ws, hws, hlen, rfl⟩ := ih.mp hb
        refine ⟨a :: ws, List.forall_mem_cons.mpr ⟨ha, hws⟩, Nat.succ_le_succ hlen, ?_⟩
        rw [List.flatten_cons, List.append_assoc]
    · rintro ⟨ws, hws, hlen, rfl⟩
      cases ws with
      | nil => exact Or.inl rfl
      | cons a ws =>
        obtain ⟨ha, hws⟩ := List.forall_mem_cons.mp hws
        refine Or.inr ⟨ws.flatten ++ b, (hf _ _).mpr ⟨a, ?_, ha⟩,
          ih.mpr ⟨ws, hws, Nat.le_of_succ_le_succ hlen, rfl⟩⟩
        rw [List.flatten_cons, List.append_assoc]

/-- Rounds that take nothing can be left out: as many are enough as there are characters. -/
theorem mem_upTo_length (hf : ∀ s b, b ∈ f s ↔ ∃ a, s = a ++ b ∧ M a) :
    b ∈ upTo f s.length s ↔ ∃ ws : List (List α), (∀ w ∈ ws, M w) ∧ s = ws.flatten ++ b := by
  rw [mem_upTo hf]
  constructor
  · rintro ⟨ws, hws, -, hs⟩
    exact ⟨ws, hws, hs⟩
  · rintro ⟨ws, hws, hs⟩
    refine ⟨ws.filter (!·.isEmpty), fun w hw => hws w (List.mem_of_mem_filter hw), ?_, ?_⟩
    · -- the rounds that are left take a character each
      have hlen : ∀ vs : List (List α), (∀ v ∈ vs, v ≠ []) → vs.length ≤ vs.flatten.length := by
        intro vs hvs
        induction vs with
        | nil => exact Nat.le_refl 0
        | cons v vs ih =>
          obtain ⟨hv, hvs⟩ := List.forall_mem_cons.mp hvs
          have := List.length_pos_of_ne_nil hv
          have := ih hvs
          rw [List.flatten_cons, List.length_cons, List.length_append]
          omega
      have := hlen (ws.filter (!·.isEmpty)) fun w hw => by
        simpa using List.of_mem_filter hw
      rw [List.flatten_filter_not_isEmpty] at this
      rw [hs, List.length_append]
      omega
    · rw [List.flatten_filter_not_isEmpty]
      exact hs

end

/-! ## The matcher -/

/-- **What is left** behind a front of the text is left behind a text that the pattern accepts. -/
theorem mem_rests {r : Regex α} {s b : List α} : b ∈ r.rests s ↔ ∃ a, s = a ++ b ∧ r.Matches a := by
  induction r generalizing s b with
  | cls p =>
    cases s with
    | nil =>
      refine iff_of_false List.not_mem_nil ?_
      rintro ⟨a, hs, c, -, rfl⟩
      cases hs
    | cons c s =>
      rw [rests, List.mem_ite_nil_right, List.mem_singleton]
      constructor
      · rintro ⟨hp, rfl⟩
        exact ⟨[c], rfl, c, hp, rfl⟩
      · rintro ⟨a, hs, c', hp, rfl⟩
        obtain ⟨rfl, rfl⟩ := List.cons.inj hs
        exact ⟨hp, rfl⟩
  | seq r t ihr iht =>
    rw [rests, List.mem_flatMap]
    constructor
    · rintro ⟨m, hm, hb⟩
      obtain ⟨a, rfl, ha⟩ := ihr.mp hm
      obtain ⟨a', rfl, ha'⟩ := iht.mp hb
      exact ⟨a ++ a', (List.append_assoc ..).symm, a, a', ha, ha', rfl⟩
    · rintro ⟨a, rfl, x, y, hx, hy, rfl⟩
      exact ⟨y ++ b, ihr.mpr ⟨x, List.append_assoc .., hx⟩, iht.mpr ⟨y, rfl, hy⟩⟩
  | rep r lo hi ih =>
    have hf : ∀ s b, b ∈ r.rests s ↔ ∃ a, s = a ++ b ∧ r.Matches a := fun s b => ih
    cases hi with
    | none =>
      rw [rests, List.mem_flatMap]
      constructor
      · rintro ⟨m, hm, hb⟩
        obtain ⟨ws, hws, hlen, rfl⟩ := (mem_exactly hf).mp hm
        obtain ⟨vs, hvs, rfl⟩ := (mem_upTo_length hf).mp hb
        refine ⟨(ws ++ vs).flatten, ?_, ws ++ vs, List.forall_mem_append.mpr ⟨hws, hvs⟩, ?_, ?_, rfl⟩
        · rw [List.flatten_append, List.append_assoc]
        · rw [List.length_append]
          omega
        · exact fun h hh => absurd hh.symm (Option.some_ne_none h)
      · rintro ⟨a, rfl, ws, hws, hlo, -, rfl⟩
        refine ⟨(ws.drop lo).flatten ++ b, (mem_exactly hf).mpr ⟨ws.take lo, ?_, ?_, ?_⟩,
          (mem_upTo_length hf).mpr ⟨ws.drop lo, ?_, rfl⟩⟩
        · exact fun w hw => hws w (List.mem_of_mem_take hw)
        · exact List.length_take_of_le hlo
        · rw [← List.append_assoc, ← List.flatten_append, List.take_append_drop]
        · exact fun w hw => hws w (List.mem_of_mem_drop hw)
    | some h =>
      rw [rests, List.mem_ite_nil_right, List.mem_flatMap]
      constructor
      · rintro ⟨hle, m, hm, hb⟩
        obtain ⟨ws, hws, hlen, rfl⟩ := (mem_exactly hf).mp hm
        obtain ⟨vs, hvs, hn, rfl⟩ := (mem_upTo hf).mp hb
        refine ⟨(ws ++ vs).flatten, ?_, ws ++ vs, List.forall_mem_append.mpr ⟨hws, hvs⟩, ?_, ?_, rfl⟩
        · rw [List.flatten_append, List.append_assoc]
        · rw [List.length_append]
          omega
        · intro x hx
          obtain rfl := Option.mem_some.mp hx
          rw [List.length_append]
          omega
      · rintro ⟨a, rfl, ws, hws, hlo, hhi, rfl⟩
        have hh := hhi h rfl
        refine ⟨Nat.le_trans hlo hh, (ws.drop lo).flatten ++ b,
          (mem_exactly hf).mpr ⟨ws.take lo, ?_, ?_, ?_⟩,
          (mem_upTo hf).mpr ⟨ws.drop lo, ?_, ?_, rfl⟩⟩
        · exact fun w hw => hws w (List.mem_of_mem_take hw)
        · exact List.length_take_of_le hlo
        · rw [← List.append_assoc, ← List.flatten_append, List.take_append_drop]
        · exact fun w hw => hws w (List.mem_of_mem_drop hw)
        · rw [List.length_drop]
          omega

/-- **`fullmatch` decides the pattern.** -/
theorem fullmatch_iff {r : Regex α} {s : List α} : r.fullmatch s = true ↔ r.Matches s := by
  rw [fullmatch, List.any_eq_true]
  constructor
  · rintro ⟨b, hb, hnil⟩
    obtain ⟨a, rfl, ha⟩ := mem_rests.mp hb
    rw [List.isEmpty_iff.mp hnil, List.append_nil]
    exact ha
  · exact fun h => ⟨[], mem_rests.mpr ⟨s, (List.append_nil s).symm, h⟩, rfl⟩

end Regex
