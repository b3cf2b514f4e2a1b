import Asl3Api.Lib.Json

/-!
# JSON text with spaces

The text `json.dumps(value)` makes of a Python value: the entries of a dict in their order, a space
behind every comma and colon.

* `dumpsSpaced`: the encoder;
* `printable_escape`, `printable_quote`: strings are written in printable ASCII;
* **`printable_dumpsSpaced`**: so is every value whose floats are.
-/

set_option autoImplicit false

namespace Py

mutual

/-- `json.dumps(value)`. -/
def dumpsSpaced : PyValue → List Char
  | .none => "null".toList
  | .bool b => (if b then "true" else "false").toList
  | .int i => (toString i).toList
  | .float _ r => r.toList
  | .str s => quote s
  | .list xs => '[' :: join [',', ' '] (dumpsSpacedList xs) ++ [']']
  | .dict es => '{' :: join [',', ' '] (dumpsSpacedEntries es) ++ ['}']

def dumpsSpacedList : List PyValue → List (List Char)
  | [] => []
  | x :: xs => dumpsSpaced x :: dumpsSpacedList xs

def dumpsSpacedEntries : List (String × PyValue) → List (List Char)
  | [] => []
  | (k, v) :: es => (quote k ++ ':' :: ' ' :: dumpsSpaced v) :: dumpsSpacedEntries es

end

/-- A printable ASCII character. -/
def Printable (c : Char) : Prop := 32 ≤ c.toNat ∧ c.toNat ≤ 126

instance (c : Char) : Decidable (Printable c) := by
  unfold Printable
  infer_instance

mutual

/-- The texts of the floats of a value. -/
def PyValue.floatTexts : PyValue → List String
  | .float _ r => [r]
  | .list xs => PyValue.floatTextsList xs
  | .dict es => PyValue.floatTextsEntries es
  | _ => []

def PyValue.floatTextsList : List PyValue → List String
  | [] => []
  | x :: xs => x.floatTexts ++ PyValue.floatTextsList xs

def PyValue.floatTextsEntries : List (String × PyValue) → List String
  | [] => []
  | (_, v) :: es => v.floatTexts ++ PyValue.floatTextsEntries es

end

/-! ## Strings -/

/-- A text that is looked through. -/
theorem printable_of_all {s : List Char} (h : s.all (fun c => decide (Printable c)) = true) :
    ∀ c ∈ s, Printable c := fun c hc => of_decide_eq_true (List.all_eq_true.mp h c hc)

theorem printable_hexDigit {n : ℕ} (hn : n < 16) : Printable (hexDigit n) := by
  have h : ∀ m : Fin 16, Printable (hexDigit m) := by decide
  exact h ⟨n, hn⟩

theorem printable_hex4 (n : ℕ) : ∀ c ∈ hex4 n, Printable c := by
  have hmod : ∀ k, Printable (hexDigit (k % 16)) := fun k => printable_hexDigit (Nat.mod_lt k (by decide))
  simp only [hex4, List.forall_mem_cons, hmod, true_and]
  exact fun c hc => absurd hc List.not_mem_nil

/-- An escape is printable. -/
theorem printable_escape (c : Char) : ∀ d ∈ escape c, Printable d := by
  have hu : ∀ n, ∀ d ∈ '\\' :: 'u' :: hex4 n, Printable d := fun n =>
    List.forall_mem_cons.mpr ⟨by decide, List.forall_mem_cons.mpr ⟨by decide, printable_hex4 n⟩⟩
  unfold escape
  split_ifs with h1 h2 h3 h4 h5 h6 h7 h8 h9
  · exact printable_of_all (by decide)
  · exact printable_of_all (by decide)
  · exact printable_of_all (by decide)
  · exact printable_of_all (by decide)
  · exact printable_of_all (by decide)
  · exact printable_of_all (by decide)
  · exact printable_of_all (by decide)
  · exact List.forall_mem_singleton.mpr h8
  · exact hu _
  · intro d hd
    rcases List.mem_append.mp hd with hd | hd
    · exact hu _ d hd
    · exact hu _ d hd

theorem printable_quote (s : String) : ∀ c ∈ quote s, Printable c := by
  intro c hc
  rw [quote, List.cons_append, List.mem_cons, List.mem_append, List.mem_flatMap,
    List.mem_singleton] at hc
  obtain rfl | ⟨d, -, hd⟩ | rfl := hc
  · decide
  · exact printable_escape d c hd
  · decide

/-! ## Values -/

theorem printable_toString (i : ℤ) : ∀ c ∈ (toString i).toList, Printable c := by
  have hnat : ∀ n : ℕ, ∀ c ∈ (toString n).toList, Printable c := by
    intro n c hc
    have hmem : c ∈ Nat.toDigits 10 n := by rwa [← Nat.toList_repr]
    have hd : c.isDigit = true := Nat.isDigit_of_mem_toDigits (by decide) (by decide) hmem
    simp only [Char.isDigit, Bool.and_eq_true, decide_eq_true_eq, ge_iff_le] at hd
    have hlo : 48 ≤ c.toNat := UInt32.le_iff_toNat_le.mp hd.1
    have hhi : c.toNat ≤ 57 := UInt32.le_iff_toNat_le.mp hd.2
    exact ⟨by omega, by omega⟩
  cases i with
  | ofNat n => exact hnat n
  | negSucc n =>
    intro c hc
    have hs : (toString (Int.negSucc n)).toList = '-' :: (toString (n + 1)).toList := by
      change ("-" ++ toString (n + 1)).toList = _
      rw [String.toList_append]
      rfl
    rw [hs, List.mem_cons] at hc
    obtain rfl | hc := hc
    · decide
    · exact hnat _ c hc

theorem mem_join {sep : List Char} {xs : List (List Char)} {c : Char} (h : c ∈ join sep xs) :
    c ∈ sep ∨ ∃ x ∈ xs, c ∈ x := by
  induction xs with
  | nil => cases h
  | cons x xs ih =>
    cases xs with
    | nil => exact Or.inr ⟨x, List.mem_cons_self, h⟩
    | cons y xs =>
      rw [join, List.mem_append, List.mem_append] at h
      obtain (h | h) | h := h
      · exact Or.inr ⟨x, List.mem_cons_self, h⟩
      · exact Or.inl h
      · rcases ih h with h | ⟨z, hz, h⟩
        · exact Or.inl h
        · exact Or.inr ⟨z, List.mem_cons_of_mem _ hz, h⟩

theorem printable_join {xs : List (List Char)} (h : ∀ x ∈ xs, ∀ c ∈ x, Printable c) :
    ∀ c ∈ join [',', ' '] xs, Printable c := by
  intro c hc
  rcases mem_join hc with hc | ⟨x, hx, hc⟩
  · have hsep : ∀ d ∈ [',', ' '], Printable d := printable_of_all (by decide)
    exact hsep c hc
  · exact h x hx c hc

theorem printable_bracket {a b : Char} {s : List Char} (ha : Printable a) (hb : Printable b)
    (h : ∀ c ∈ s, Printable c) : ∀ c ∈ a :: s ++ [b], Printable c := by
  intro c hc
  rw [List.cons_append, List.mem_cons, List.mem_append, List.mem_singleton] at hc
  obtain rfl | hc | rfl := hc
  · exact ha
  · exact h c hc
  · exact hb

mutual

/-- **A value is written in printable ASCII**, when its floats are. -/
theorem printable_dumpsSpaced : ∀ (v : PyValue), (∀ r ∈ v.floatTexts, ∀ c ∈ r.toList, Printable c) →
    ∀ c ∈ dumpsSpaced v, Printable c
  | .none, _ => by rw [dumpsSpaced]; exact printable_of_all (by decide)
  | .bool b, _ => by rw [dumpsSpaced]; cases b <;> exact printable_of_all (by decide)
  | .int i, _ => by rw [dumpsSpaced]; exact printable_toString i
  | .float _ r, h => by
    rw [dumpsSpaced]
    exact h r (by rw [PyValue.floatTexts]; exact List.mem_singleton_self r)
  | .str s, _ => by rw [dumpsSpaced]; exact printable_quote s
  | .list xs, h => by
    rw [dumpsSpaced]
    rw [PyValue.floatTexts] at h
    exact printable_bracket (by decide) (by decide) (printable_join (printable_dumpsSpacedList xs h))
  | .dict es, h => by
    rw [dumpsSpaced]
    rw [PyValue.floatTexts] at h
    exact printable_bracket (by decide) (by decide)
      (printable_join (printable_dumpsSpacedEntries es h))

theorem printable_dumpsSpacedList : ∀ (xs : List PyValue),
    (∀ r ∈ PyValue.floatTextsList xs, ∀ c ∈ r.toList, Printable c) →
    ∀ x ∈ dumpsSpacedList xs, ∀ c ∈ x, Printable c
  | [], _ => by rw [dumpsSpacedList]; exact fun _ hx => absurd hx List.not_mem_nil
  | v :: xs, h => by
    rw [PyValue.floatTextsList] at h
    rw [dumpsSpacedList]
    refine List.forall_mem_cons.mpr ⟨printable_dumpsSpaced v fun r hr => ?_,
      printable_dumpsSpacedList xs fun r hr => ?_⟩
    · exact h r (List.mem_append_left _ hr)
    · exact h r (List.mem_append_right _ hr)

theorem printable_dumpsSpacedEntries : ∀ (es : List (String × PyValue)),
    (∀ r ∈ PyValue.floatTextsEntries es, ∀ c ∈ r.toList, Printable c) →
    ∀ x ∈ dumpsSpacedEntries es, ∀ c ∈ x, Printable c
  | [], _ => by rw [dumpsSpacedEntries]; exact fun _ hx => absurd hx List.not_mem_nil
  | (k, v) :: es, h => by
    rw [PyValue.floatTextsEntries] at h
    rw [dumpsSpacedEntries]
    refine List.forall_mem_cons.mpr ⟨fun c hc => ?_, printable_dumpsSpacedEntries es fun r hr => ?_⟩
    · rw [List.mem_append, List.mem_cons, List.mem_cons] at hc
      obtain hc | rfl | rfl | hc := hc
      · exact printable_quote k c hc
      · decide
      · decide
      · exact printable_dumpsSpaced v (fun r hr => h r (List.mem_append_left _ hr)) c hc
    · exact h r (List.mem_append_right _ hr)

end

end Py
