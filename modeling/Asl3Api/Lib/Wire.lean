import Mathlib.Data.List.Infix
import Mathlib.Data.List.Basic
import Mathlib.Tactic.SplitIfs

/-!
# Lines and frames on a byte stream

* `encodeUtf8`, `decodeUtf8`, `decodeUtf8_encodeUtf8`: texts and bytes;
* `readUntil`, `readUntil_first`: `StreamReader.readuntil` without its limit, and the first place of
  a separator;
* `splitLines`, **`splitLines_join`**: `text.split("\r\n")` undoes the join of lines;
* **`readUntil_encode`**: a text with no empty line ends at the blank line after it, whatever bytes
  come next.
-/

set_option autoImplicit false

namespace Py

/-! ## UTF-8 -/

/-- `text.encode()`. -/
def encodeUtf8 (text : List Char) : List UInt8 := text.flatMap String.utf8EncodeChar

/-- `raw.decode("utf-8", errors="strict")`. -/
def decodeUtf8 (raw : List UInt8) : Option (List Char) :=
  raw.toByteArray.utf8Decode?.map Array.toList

theorem encodeUtf8_append (s t : List Char) :
    encodeUtf8 (s ++ t) = encodeUtf8 s ++ encodeUtf8 t := List.flatMap_append

theorem decodeUtf8_encodeUtf8 (text : List Char) : decodeUtf8 (encodeUtf8 text) = some text := by
  have h : (encodeUtf8 text).toByteArray = text.utf8Encode := rfl
  rw [decodeUtf8, h, List.utf8Decode?_utf8Encode, Option.map_some, List.toList_toArray]

/-- No code is the beginning of another. -/
theorem prefix_of_encodeUtf8 {s t : List Char} (h : encodeUtf8 s <+: encodeUtf8 t) : s <+: t := by
  obtain ⟨bs, hbs⟩ := h
  refine List.isPrefix_of_utf8Encode_append_eq_utf8Encode bs.toByteArray ?_
  have he : (encodeUtf8 s ++ bs).toByteArray = (encodeUtf8 t).toByteArray := by rw [hbs]
  rw [List.toByteArray_append] at he
  exact he

theorem encodeUtf8_prefix_iff {s t : List Char} : encodeUtf8 s <+: encodeUtf8 t ↔ s <+: t := by
  refine ⟨prefix_of_encodeUtf8, ?_⟩
  rintro ⟨u, rfl⟩
  rw [encodeUtf8_append]
  exact List.prefix_append _ _

/-- The byte of a carriage return is in the code of no other character. -/
theorem cr_mem_utf8EncodeChar {c : Char} (h : (13 : UInt8) ∈ String.utf8EncodeChar c) : c = '\r' := by
  have hval : c.val.toNat = 13 := by
    unfold String.utf8EncodeChar at h
    dsimp only at h
    split_ifs at h <;> simp only [List.mem_cons, List.not_mem_nil, or_false, ← UInt8.toNat_inj,
      UInt8.toNat_ofNat', UInt8.reduceToNat] at h <;> omega
  exact Char.ext (UInt32.toNat_inj.mp hval)

/-! ## Frames -/

section

variable {α : Type} [DecidableEq α]

/-- The stream up to and with the first separator, and what follows it. -/
def readUntil (sep : List α) : List α → Option (List α × List α)
  | [] => none
  | c :: s =>
    if sep <+: c :: s then some (sep, (c :: s).drop sep.length)
    else (readUntil sep s).map fun p => (c :: p.1, p.2)

/-- The separator between `s` and `rest` is the first one. -/
def First (sep : List α) : List α → List α → Prop
  | [], _ => True
  | c :: s, rest => ¬ sep <+: c :: (s ++ (sep ++ rest)) ∧ First sep s rest

theorem readUntil_first {sep s rest : List α} (hsep : sep ≠ []) (h : First sep s rest) :
    readUntil sep (s ++ (sep ++ rest)) = some (s ++ sep, rest) := by
  induction s with
  | nil =>
    obtain ⟨c, sep', rfl⟩ := List.exists_cons_of_ne_nil hsep
    rw [List.nil_append, List.nil_append, List.cons_append, readUntil, if_pos]
    · rw [← List.cons_append, List.drop_left]
    · exact List.prefix_append (c :: sep') rest
  | cons c s ih => rw [List.cons_append, readUntil, if_neg h.1, ih h.2]; rfl

omit [DecidableEq α] in
theorem first_append {sep s t rest : List α}
    (hs : ∀ a ∈ s, ∀ b ∈ sep.head?, a ≠ b) (hsep : sep ≠ []) (h : First sep t rest) :
    First sep (s ++ t) rest := by
  induction s with
  | nil => exact h
  | cons c s ih =>
    obtain ⟨b, sep', rfl⟩ := List.exists_cons_of_ne_nil hsep
    refine ⟨fun hp => ?_, ih fun a ha => hs a (List.mem_cons_of_mem _ ha)⟩
    exact hs c List.mem_cons_self b rfl (List.cons_prefix_cons.mp hp).1.symm

omit [DecidableEq α] in
/-- No separator begins before the first one. -/
theorem First.length_le {sep s rest before after : List α} (h : First sep s rest)
    (he : s ++ (sep ++ rest) = before ++ (sep ++ after)) : s.length ≤ before.length := by
  induction s generalizing before with
  | nil => exact Nat.zero_le _
  | cons c s ih =>
    cases before with
    | nil =>
      refine absurd ?_ h.1
      rw [List.cons_append, List.nil_append] at he
      exact ⟨after, he.symm⟩
    | cons d before => exact Nat.succ_le_succ (ih h.2 (List.cons.inj he).2)

end

/-! ## Lines -/

/-- The line separator. -/
def crlf : List Char := ['\r', '\n']

/-- The frame separator, a blank line. -/
def blankLine : List Char := ['\r', '\n', '\r', '\n']

/-- `text.split("\r\n")`. -/
def splitLines : List Char → List (List Char)
  | [] => [[]]
  | '\r' :: '\n' :: s => [] :: splitLines s
  | c :: s => (splitLines s).modifyHead (c :: ·)

theorem splitLines_ne_nil (s : List Char) : splitLines s ≠ [] := by
  fun_induction splitLines s with
  | case1 => exact List.cons_ne_nil _ _
  | case2 s ih => exact List.cons_ne_nil _ _
  | case3 c s _ ih =>
    obtain ⟨l, ls, hl⟩ := List.exists_cons_of_ne_nil ih
    rw [hl]
    exact List.cons_ne_nil _ _

theorem splitLines_cons {c : Char} {s : List Char} (h : ¬ crlf <+: c :: s) :
    splitLines (c :: s) = (splitLines s).modifyHead (c :: ·) := by
  rw [splitLines]
  rintro s' rfl rfl
  exact h (List.prefix_append crlf s')

/-- Every separator splits: two of them cannot overlap. -/
theorem splitLines_append (s t : List Char) :
    splitLines (s ++ (crlf ++ t)) = splitLines s ++ splitLines t := by
  fun_induction splitLines s with
  | case1 => rfl
  | case2 s ih =>
    rw [List.cons_append, List.cons_append, splitLines, ih, List.cons_append]
  | case3 c s hc ih =>
    have hp : ¬ crlf <+: c :: (s ++ (crlf ++ t)) := by
      intro h
      obtain ⟨rfl, h₁⟩ := List.cons_prefix_cons.mp h
      cases s with
      | nil => exact absurd (List.cons_prefix_cons.mp h₁).1 (by decide)
      | cons d s => exact hc s rfl (congrArg (· :: s) (List.cons_prefix_cons.mp h₁).1.symm)
    obtain ⟨l, ls, hl⟩ := List.exists_cons_of_ne_nil (splitLines_ne_nil s)
    rw [List.cons_append, splitLines_cons hp, ih, hl]
    rfl

theorem splitLines_eq_singleton {s : List Char} (h : ¬ crlf <:+: s) : splitLines s = [s] := by
  induction s with
  | nil => rfl
  | cons c s ih =>
    rw [splitLines_cons fun hp => h hp.isInfix, ih fun hi => h (List.infix_cons hi)]
    rfl

/-- **Joined lines are split into the same lines.** -/
theorem splitLines_join {ls : List (List Char)} (hne : ls ≠ []) (h : ∀ l ∈ ls, ¬ crlf <:+: l) :
    splitLines (crlf.intercalate ls) = ls := by
  induction ls with
  | nil => exact absurd rfl hne
  | cons l ls ih =>
    have hl := splitLines_eq_singleton (h l List.mem_cons_self)
    cases ls with
    | nil => rwa [List.intercalate_singleton]
    | cons l' ls =>
      rw [List.intercalate_cons_cons, List.append_assoc, splitLines_append, hl,
        ih (List.cons_ne_nil _ _) fun x hx => h x (List.mem_cons_of_mem _ hx)]
      rfl

/-! ## The end of a frame -/

/-- A text without an empty line holds no frame separator and does not end with a line separator. -/
theorem no_blankLine {s : List Char} (h : [] ∉ splitLines s) :
    ¬ blankLine <:+: s ∧ ¬ crlf <:+ s := by
  constructor
  · rintro ⟨a, b, rfl⟩
    refine h ?_
    have hs : a ++ blankLine ++ b = a ++ (crlf ++ (crlf ++ b)) := by simp [blankLine, crlf]
    rw [hs, splitLines_append]
    exact List.mem_append_right _ List.mem_cons_self
  · rintro ⟨a, rfl⟩
    refine h ?_
    have hs := splitLines_append a []
    rw [List.append_nil] at hs
    rw [hs]
    exact List.mem_append_right _ List.mem_cons_self

/-- The frame separator does not begin inside such a text. -/
theorem not_blankLine_inside {c : Char} {s rest : List Char} (hi : ¬ blankLine <:+: c :: s)
    (hs : ¬ crlf <:+ c :: s) : ¬ blankLine <+: c :: (s ++ (blankLine ++ rest)) := by
  intro h
  obtain ⟨rfl, h₁⟩ := List.cons_prefix_cons.mp h
  match s with
  | [] => exact absurd (List.cons_prefix_cons.mp h₁).1 (by decide)
  | [d] =>
    rw [← (List.cons_prefix_cons.mp h₁).1] at hs
    exact hs (List.suffix_refl _)
  | [d, e] =>
    have h₂ := (List.cons_prefix_cons.mp (List.cons_prefix_cons.mp h₁).2).2
    exact absurd (List.cons_prefix_cons.mp h₂).1 (by decide)
  | d :: e :: f :: s =>
    have hp : blankLine <+: '\r' :: d :: e :: f :: s :=
      (List.isPrefix_append_of_length (by simp [blankLine])).mp h
    exact hi hp.isInfix

theorem first_encode {s : List Char} (hi : ¬ blankLine <:+: s) (hs : ¬ crlf <:+ s)
    (rest : List UInt8) : First (encodeUtf8 blankLine) (encodeUtf8 s) rest := by
  induction s with
  | nil => trivial
  | cons c s ih =>
    have ih' := ih (fun h => hi (List.infix_cons h)) fun h => hs (h.trans (List.suffix_cons c s))
    have hsplit : encodeUtf8 (c :: s) = String.utf8EncodeChar c ++ encodeUtf8 s := rfl
    rw [hsplit]
    by_cases hc : c = '\r'
    · subst hc
      refine ⟨fun hp => ?_, ih'⟩
      have happ : (13 : UInt8) :: (encodeUtf8 s ++ (encodeUtf8 blankLine ++ rest)) =
          encodeUtf8 ('\r' :: (s ++ (blankLine ++ []))) ++ rest := by
        rw [List.append_nil, ← List.append_assoc, ← encodeUtf8_append]
        rfl
      have hlen : (encodeUtf8 blankLine).length ≤
          (encodeUtf8 ('\r' :: (s ++ (blankLine ++ [])))).length := by
        rw [List.append_nil, ← List.cons_append, encodeUtf8_append, List.length_append]
        exact Nat.le_add_left _ _
      have hp' : encodeUtf8 blankLine <+: encodeUtf8 ('\r' :: (s ++ (blankLine ++ []))) := by
        rw [← List.isPrefix_append_of_length hlen, ← happ]
        exact hp
      exact not_blankLine_inside hi hs (encodeUtf8_prefix_iff.mp hp')
    · refine first_append (fun a ha b hb => ?_) (List.cons_ne_nil _ _) ih'
      obtain rfl : (13 : UInt8) = b := Option.some.inj hb
      rintro rfl
      exact hc (cr_mem_utf8EncodeChar ha)

/-- **A text without an empty line, and a blank line**: the frame ends there, whatever bytes come
next. -/
theorem readUntil_encode {s : List Char} (h : [] ∉ splitLines s) (rest : List UInt8) :
    readUntil (encodeUtf8 blankLine) (encodeUtf8 (s ++ blankLine) ++ rest) =
      some (encodeUtf8 (s ++ blankLine), rest) := by
  obtain ⟨hi, hs⟩ := no_blankLine h
  rw [encodeUtf8_append, List.append_assoc]
  exact readUntil_first (List.cons_ne_nil _ _) (first_encode hi hs rest)

end Py
