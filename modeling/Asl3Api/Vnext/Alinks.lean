import Asl3Api.Vnext.Rows

/-!
# The text of a list of links (`vnext/observation.py`)

`app_rpt` writes its links as `RPT_ALINKS` and their number as `RPT_NUMALINKS`; `parse_alinks` reads
the two texts. There are fewer safe names than `int` takes digits, so its bound refuses no list.

* `AlinkList`: the lists of links that have a text, with `AlinkList.value` and `AlinkList.count`;
* `alinksText_iff`: the texts that are accepted are those of these lists;
* `parseAlinks_refused`: other texts are refused with a `ValueError`;
* **`alinks_codec`**: writing and reading are inverse to each other.
-/

set_option autoImplicit false

namespace Asl3

open Py

/-! ## The writer -/

/-- The letter of a mode. `app_rpt` knows no unknown mode. -/
def LinkMode.letter : LinkMode → List Char
  | .T => ['T']
  | .R => ['R']
  | .L => ['L']
  | .C => ['C']
  | .unknown => []

/-- The token of a link: its name, the letter of its mode and whether it is keyed. -/
def alinkToken (a : String × Alink) : List Char :=
  a.1.toList ++ a.2.mode.letter ++ [if a.2.keyed then 'K' else 'U']

/-- A list of links with safe names, none of them twice, and with known modes. -/
structure AlinkList where
  links : List (String × Alink)
  safe : ∀ a ∈ links, SafeName a.1
  mode : ∀ a ∈ links, a.2.mode ≠ .unknown
  names : (links.map Prod.fst).Nodup

namespace AlinkList

/-- `RPT_NUMALINKS`: the decimal count. -/
def count (l : AlinkList) : String := toString l.links.length

/-- `RPT_ALINKS`: the count and the tokens of the links, or nothing when there are none. -/
def value (l : AlinkList) : String :=
  if l.links = [] then ""
  else String.ofList ([','].intercalate (l.count.toList :: l.links.map alinkToken))

end AlinkList

/-! ## What is accepted -/

theorem linkMode?_iff {c : Char} {mode : LinkMode} :
    linkMode? c = some mode ↔ mode.letter = [c] := by
  cases mode <;> simp only [LinkMode.letter, linkMode?] <;> split_ifs <;> simp_all [eq_comm]

theorem keyed?_iff {c : Char} {keyed : Bool} : keyed? c = some keyed ↔
    c = if keyed then 'K' else 'U' := by
  cases keyed <;> simp only [keyed?] <;> split_ifs <;> simp_all

/-- The known modes have one letter. -/
theorem exists_letter {mode : LinkMode} : (∃ c, mode.letter = [c]) ↔ mode ≠ .unknown := by
  cases mode <;> simp [LinkMode.letter]

/-- The token of an accepted link is the one that is written for it. -/
theorem alinkToken_iff {token : List Char} {a : String × Alink} :
    AlinkToken token a ↔ token = alinkToken a ∧ SafeName a.1 ∧ a.2.mode ≠ .unknown := by
  constructor
  · rintro ⟨⟨m, k, rfl, hm, hk⟩, hs⟩
    rw [linkMode?_iff] at hm
    rw [keyed?_iff] at hk
    refine ⟨?_, hs, exists_letter.mp ⟨m, hm⟩⟩
    rw [alinkToken, hm, ← hk, List.append_assoc]
    rfl
  · rintro ⟨rfl, hs, hu⟩
    obtain ⟨m, hm⟩ := exists_letter.mpr hu
    refine ⟨⟨m, if a.2.keyed then 'K' else 'U', ?_, linkMode?_iff.mpr hm, keyed?_iff.mpr rfl⟩, hs⟩
    rw [alinkToken, hm, List.append_assoc]
    rfl

/-- The tokens of accepted links are those that are written for them. -/
theorem forall₂_alinkToken {tokens : List (List Char)} {links : List (String × Alink)} :
    List.Forall₂ AlinkToken tokens links ↔ tokens = links.map alinkToken ∧
      ∀ a ∈ links, SafeName a.1 ∧ a.2.mode ≠ .unknown := by
  constructor
  · intro h
    induction h with
    | nil => exact ⟨rfl, nofun⟩
    | cons ht _ ih =>
      obtain ⟨rfl, ha⟩ := alinkToken_iff.mp ht
      exact ⟨by rw [ih.1, List.map_cons], List.forall_mem_cons.mpr ⟨ha, ih.2⟩⟩
  · rintro ⟨rfl, h⟩
    refine List.forall₂_map_left_iff.mpr (List.forall₂_same.mpr fun a ha => ?_)
    exact alinkToken_iff.mpr ⟨rfl, h a ha⟩

/-- **The accepted texts are the written ones.** -/
theorem alinksText_iff {value count : String} {links : List (String × Alink)} :
    AlinksText value count links ↔
      ∃ l : AlinkList, l.links = links ∧ l.value = value ∧ l.count = count := by
  constructor
  · rintro ⟨hnum, htotal, hnames, tokens, hf, ht⟩
    obtain ⟨rfl, ha⟩ := forall₂_alinkToken.mp hf
    have hcount : toString links.length = count := by
      apply String.toList_inj.mp
      rw [numeral_iff.mp ⟨isCount_iff.mp hnum, htotal⟩]
      exact Nat.toList_repr
    refine ⟨⟨links, fun a h => (ha a h).1, fun a h => (ha a h).2, hnames⟩, rfl, ?_, hcount⟩
    apply String.toList_inj.mp
    rw [ht, AlinkList.value, AlinkList.count, hcount]
    split_ifs
    · rfl
    · exact String.toList_ofList
  · rintro ⟨l, rfl, rfl, rfl⟩
    have hnum : Numeral l.count.toList ∧ parseNat l.count.toList = l.links.length :=
      numeral_iff.mpr Nat.toList_repr
    refine ⟨isCount_iff.mpr hnum.1, hnum.2, l.names, l.links.map alinkToken, ?_, ?_⟩
    · exact forall₂_alinkToken.mpr ⟨rfl, fun a h => ⟨l.safe a h, l.mode a h⟩⟩
    · rw [AlinkList.value]
      split_ifs
      · rfl
      · exact String.toList_ofList

/-! ## What is refused -/

/-- A step that fails with a `ValueError` only. -/
def Refuses {α : Type} (x : Except PyError α) : Prop :=
  ∀ e, x = .error e → ∃ text, e = .valueError text

section

variable {α : Type}

theorem Refuses.ok {a : α} : Refuses (.ok a : Except PyError α) := nofun

theorem Refuses.error {text : String} : Refuses (.error (.valueError text) : Except PyError α) := by
  rintro e ⟨⟩
  exact ⟨text, rfl⟩

end

theorem safeName_refuses (name : String) : Refuses (safeName name) := by
  unfold safeName
  split_ifs
  · exact .error
  · exact .error
  · exact .ok

theorem alinkEntry_refuses (token : List Char) : Refuses (alinkEntry token) := by
  unfold alinkEntry
  split
  · split
    · rename_i e h
      obtain ⟨text, rfl⟩ := safeName_refuses _ e h
      exact .error
    · split
      · exact .ok
      · exact .error
  · exact .error

/-- Two texts are read, or refused with a `ValueError`. -/
theorem parseAlinks_refuses (value count : String) :
    Refuses (parseAlinks (some value) (some count)) := by
  dsimp only [parseAlinks]
  split_ifs
  · exact .error
  · exact .error
  · exact .ok
  · split
    · exact .error
    · split_ifs
      · exact .error
      · intro e h
        obtain rfl | ⟨token, -, ht⟩ := collect_eq_error h
        · exact ⟨_, rfl⟩
        · exact alinkEntry_refuses token e ht

/-! ## The codec -/

/-- **Reading is the inverse of writing**: what is written is read back, what is read was written,
and every other pair of texts is refused with a `ValueError`. -/
theorem alinks_codec :
    (∀ l : AlinkList, parseAlinks (some l.value) (some l.count) = .ok l.links) ∧
    (∀ value count links, parseAlinks (some value) (some count) = .ok links →
      ∃ l : AlinkList, l.links = links ∧ l.value = value ∧ l.count = count) ∧
    ∀ value count, (¬ ∃ l : AlinkList, l.value = value ∧ l.count = count) →
      ∃ text, parseAlinks (some value) (some count) = .error (.valueError text) := by
  have hread : ∀ value count links, parseAlinks (some value) (some count) = .ok links ↔
      ∃ l : AlinkList, l.links = links ∧ l.value = value ∧ l.count = count := by
    intro value count links
    rw [parseAlinks_eq_ok, ← alinksText_iff]
    simp
  refine ⟨?_, fun value count links => (hread value count links).mp, ?_⟩
  · intro l
    exact (hread _ _ _).mpr ⟨l, rfl, rfl, rfl⟩
  intro value count hnone
  cases hp : parseAlinks (some value) (some count) with
  | error e =>
    obtain ⟨text, rfl⟩ := parseAlinks_refuses value count e hp
    exact ⟨text, rfl⟩
  | ok links =>
    obtain ⟨l, -, hv, hc⟩ := (hread _ _ _).mp hp
    exact absurd ⟨l, hv, hc⟩ hnone

/-- Two links, one of them with a name that ends like a token. -/
def sampleLinks : AlinkList where
  links := [("55553", ⟨.T, true⟩), ("ECHO-TK", ⟨.R, false⟩)]
  safe := by
    refine List.forall_mem_cons.mpr ⟨?_, List.forall_mem_singleton.mpr ?_⟩
    · exact ⟨by decide, by decide, by simp [isSpace], by decide⟩
    · exact ⟨by decide, by decide, by simp [isSpace], by decide⟩
  mode := by decide
  names := by decide

/-- They are read back, and a text of one link is not read as two. -/
theorem alinks_codec_sample :
    parseAlinks (some "2,55553TK,ECHO-TKRU") (some "2") =
      .ok [("55553", ⟨.T, true⟩), ("ECHO-TK", ⟨.R, false⟩)] ∧
    ∃ text, parseAlinks (some "2,55553TK") (some "2") = .error (.valueError text) := by
  refine ⟨alinks_codec.1 sampleLinks, alinks_codec.2.2 _ _ ?_⟩
  rintro ⟨l, hv, hc⟩
  have hread := alinks_codec.1 l
  rw [hv, hc] at hread
  have herror : parseAlinks (some "2,55553TK") (some "2") =
      .error (.valueError "Truncated or inconsistent ALINKS") := by decide +kernel
  rw [herror] at hread
  cases hread

end Asl3
