import Asl3Api.Lib.Numeral
import Asl3Api.Vnext.Evidence

/-!
# What the rows of a reply say

Each loop of the parser stands next to a relation that says what an accepted row is, without a word
about how it is read.

* `SafeName`, `safeName_eq_ok`: the identifiers of adjacent links;
* `VarRow`, `XstatRow`, `SawstatRow` with `varEntry_iff`, `xstatEntry_iff`, `sawstatEntry_iff`;
* `isCount_iff`: the counts are the numerals;
* `AlinksText`, **`parseAlinks_eq_ok`**: `RPT_ALINKS` and `RPT_NUMALINKS` are accepted exactly when
  they are the text of a list of distinct links.
-/

set_option autoImplicit false

namespace Asl3

open Py

/-! ## Names -/

/-- An identifier of an adjacent link that is not the truncation sentinel. -/
structure SafeName (name : String) : Prop where
  nonempty : name ≠ ""
  length : name.toList.length ≤ 64
  chars : ∀ c ∈ name.toList, isSpace c = false ∧ c ≠ ',' ∧ 32 ≤ c.toNat ∧ c.toNat ≠ 127
  real : name ≠ "000000"

/-- A pattern of one piece. -/
theorem fullmatch_singleton {p : Piece} {s : List Char} :
    (fullmatch [p] s).isSome ↔ p.Matches s := by
  rw [fullmatch_isSome]
  constructor
  · rintro ⟨gs, rfl, hf⟩
    obtain ⟨g, gs, hg, hnil, rfl⟩ := List.forall₂_cons_left_iff.mp hf
    obtain rfl := List.forall₂_nil_left_iff.mp hnil
    simpa using hg
  · intro h
    exact ⟨[s], by simp, .cons h .nil⟩

theorem safeName_eq_ok {name n : String} : safeName name = .ok n ↔ n = name ∧ SafeName name := by
  have hm : (fullmatch safeLinkName name.toList).isSome ↔ name ≠ "" ∧ name.toList.length ≤ 64 ∧
      ∀ c ∈ name.toList, isSpace c = false ∧ c ≠ ',' ∧ 32 ≤ c.toNat ∧ c.toNat ≠ 127 := by
    rw [safeLinkName, fullmatch_singleton]
    simp only [Piece.Matches, Bool.and_eq_true, Bool.not_eq_true', decide_eq_true_eq,
      Option.mem_def, Option.some.injEq, forall_eq', and_assoc, ne_eq, ← String.toList_eq_nil_iff,
      Nat.one_le_iff_ne_zero, List.length_eq_zero_iff]
    tauto
  unfold safeName
  split_ifs with h1 h2
  · simp only [false_iff, not_and]
    rintro rfl h
    rw [Option.isNone_iff_eq_none, ← Option.not_isSome_iff_eq_none, hm] at h1
    exact h1 ⟨h.nonempty, h.length, h.chars⟩
  · simp only [false_iff, not_and]
    rintro rfl h
    exact h.real h2
  · rw [Option.isNone_iff_eq_none, ← Option.not_isSome_iff_eq_none, not_not, hm] at h1
    constructor
    · rintro ⟨⟩
      exact ⟨rfl, h1.1, h1.2.1, h1.2.2, h2⟩
    · rintro ⟨rfl, -⟩
      rfl

/-! ## Rows -/

/-- The row of a variable: `key=value`, and the key is not empty. -/
structure VarRow (row : String) (entry : String × String) : Prop where
  key : entry.1 ≠ "" ∧ '=' ∉ entry.1.toList
  text : row = entry.1 ++ "=" ++ entry.2

theorem varEntry_iff {row : String} {entry : String × String} :
    varEntry row = .ok entry ↔ VarRow row entry := by
  obtain ⟨key, value⟩ := entry
  constructor
  · intro h
    have hkey : key ≠ "" ∧ '=' ∉ key.toList := by
      unfold varEntry at h
      rcases hp : partition '=' row.toList with ⟨k, found, v⟩
      simp only [hp] at h
      split_ifs at h with hc
      cases h
      rw [not_or] at hc
      refine ⟨fun he => hc.2 (String.ofList_eq_empty_iff.mp he), ?_⟩
      rw [String.toList_ofList]
      exact partition_head hp
    exact ⟨hkey, (varEntry_eq_ok (by simpa using hkey.1) hkey.2 row value).mp h⟩
  · rintro ⟨hkey, htext⟩
    exact (varEntry_eq_ok (by simpa using hkey.1) hkey.2 row value).mpr htext

/-- A row matches a row grammar. -/
def InGrammar (grammar : List Piece) (row : String) : Prop :=
  ∃ groups, row.toList = groups.flatten ∧ List.Forall₂ Piece.Matches grammar groups

/-- The text of a connection state. -/
def ConnectionStatus.text : ConnectionStatus → String
  | .established => "ESTABLISHED"
  | .connecting => "CONNECTING"

/-- A `Conn` row of XStat: its first word is the name and its last word the state. -/
structure XstatRow (row : String) (entry : String × ConnectionStatus) : Prop where
  grammar : InGrammar xstatConn row
  name : firstWord row.toList = entry.1.toList
  status : lastWord row.toList = entry.2.text.toList
  safe : SafeName entry.1

/-- A `Conn` row of SawStat: its second word is `1` when the link is keyed, and `0` otherwise. -/
structure SawstatRow (row : String) (entry : String × Bool) : Prop where
  grammar : InGrammar sawstatConn row
  name : firstWord row.toList = entry.1.toList
  keyed : firstWord (afterWord row.toList) = [if entry.2 then '1' else '0']
  safe : SafeName entry.1

theorem connStatus_eq {text : List Char}
    (h : text ∈ ["ESTABLISHED".toList, "CONNECTING".toList]) {status : ConnectionStatus} :
    connStatus text = status ↔ text = status.text.toList := by
  rcases List.mem_pair.mp h with rfl | rfl <;> cases status <;> decide

/-- What the groups of an XStat row are. -/
theorem xstatConn_groups {row : String} {groups : List (List Char)}
    (h : fullmatch xstatConn row.toList = some groups) : groups.getD 0 [] = firstWord row.toList ∧
      groups.getD 16 [] = lastWord row.toList ∧
      lastWord row.toList ∈ ["ESTABLISHED".toList, "CONNECTING".toList] := by
  obtain ⟨sp, rest, hg, -⟩ := firstWord_of_fullmatch h
  have hlast := @lastWord_of_fullmatch (xstatConn.take 15)
    ["ESTABLISHED".toList, "CONNECTING".toList] _ _ (by simp [nonSpace, isSpace]) h
  refine ⟨by rw [hg]; rfl, ?_, hlast.1⟩
  rw [List.getD_eq_getElem?_getD]
  exact congrArg (Option.getD · []) hlast.2

theorem xstatEntry_iff {row : String} {entry : String × ConnectionStatus} :
    xstatEntry row = .ok entry ↔ XstatRow row entry := by
  obtain ⟨name, status⟩ := entry
  unfold xstatEntry
  cases hm : fullmatch xstatConn row.toList with
  | none =>
    simp only [reduceCtorEq, false_iff]
    rintro ⟨hg, -⟩
    exact absurd (fullmatch_isSome.mpr hg) (by simp [hm])
  | some groups =>
    obtain ⟨h0, h16, hst⟩ := xstatConn_groups hm
    have hg : InGrammar xstatConn row := fullmatch_isSome.mp (by rw [hm]; rfl)
    simp only [h0, h16]
    cases hs : safeName (String.ofList (firstWord row.toList)) with
    | error e =>
      simp only [reduceCtorEq, false_iff]
      rintro ⟨-, hn, -, hsafe⟩
      rw [hn, String.ofList_toList, safeName_eq_ok.mpr ⟨rfl, hsafe⟩] at hs
      cases hs
    | ok n =>
      obtain ⟨rfl, hsafe⟩ := safeName_eq_ok.mp hs
      simp only [Except.ok.injEq, Prod.mk.injEq, connStatus_eq hst]
      constructor
      · rintro ⟨rfl, hstatus⟩
        exact ⟨hg, String.toList_ofList.symm, hstatus, hsafe⟩
      · rintro ⟨-, hn, hstatus, -⟩
        exact ⟨String.toList_inj.mp (String.toList_ofList.trans hn), hstatus⟩

theorem sawstatEntry_iff {row : String} {entry : String × Bool} :
    sawstatEntry row = .ok entry ↔ SawstatRow row entry := by
  obtain ⟨name, keyed⟩ := entry
  constructor
  · intro h
    obtain ⟨hn, hk⟩ := sawstatEntry_eq_ok h
    unfold sawstatEntry at h
    cases hm : fullmatch sawstatConn row.toList with
    | none => rw [hm] at h; cases h
    | some groups =>
      obtain ⟨sp, rest, rfl, -⟩ := firstWord_of_fullmatch hm
      simp only [hm, List.getD_cons_zero] at h
      cases hs : safeName (String.ofList (firstWord row.toList)) with
      | error e => rw [hs] at h; cases h
      | ok n =>
        rw [hs] at h
        cases h
        obtain ⟨rfl, hsafe⟩ := safeName_eq_ok.mp hs
        exact ⟨fullmatch_isSome.mp (by rw [hm]; rfl), hn.symm, hk, hsafe⟩
  · rintro ⟨hg, hn, hk, hsafe⟩
    -- the row is accepted, and the entry it gives is the one of the relation
    obtain ⟨groups, hm⟩ := Option.isSome_iff_exists.mp (fullmatch_isSome.mpr hg)
    obtain ⟨sp, rest, hgr, -⟩ := firstWord_of_fullmatch hm
    have hname : groups.getD 0 [] = name.toList := by rw [hgr, ← hn]; rfl
    have hok : sawstatEntry row = .ok (name, decide (groups.getD 2 [] = ['1'])) := by
      unfold sawstatEntry
      simp only [hm, hname, String.ofList_toList, safeName_eq_ok.mpr ⟨rfl, hsafe⟩]
    have hkey := (sawstatEntry_eq_ok hok).2
    rw [hok, Except.ok.injEq, Prod.mk.injEq]
    refine ⟨rfl, ?_⟩
    rw [hk, List.cons.injEq] at hkey
    cases hb : decide (groups.getD 2 [] = ['1']) <;> cases keyed <;> simp_all

/-! ## ALINKS -/

/-- A token of `RPT_ALINKS`: a name, the letter of a mode and `K` or `U`. -/
structure AlinkToken (token : List Char) (entry : String × Alink) : Prop where
  text : ∃ m k, token = entry.1.toList ++ [m, k] ∧ linkMode? m = some entry.2.mode ∧
    keyed? k = some entry.2.keyed
  safe : SafeName entry.1

/-- `RPT_ALINKS` and `RPT_NUMALINKS` are the text of a list of links: no text and the count zero, or
the count and the tokens of the links after it, and no name comes twice. -/
structure AlinksText (value count : String) (alinks : List (String × Alink)) : Prop where
  numeral : isCount count = true
  total : parseNat count.toList = alinks.length
  names : (alinks.map Prod.fst).Nodup
  text : ∃ tokens, List.Forall₂ AlinkToken tokens alinks ∧
    value.toList = if alinks = [] then [] else [','].intercalate (count.toList :: tokens)

theorem linkMode?_ne_comma {c : Char} {mode : LinkMode} (h : linkMode? c = some mode) : c ≠ ',' := by
  rintro rfl
  exact absurd h (by decide +revert)

theorem keyed?_ne_comma {c : Char} {keyed : Bool} (h : keyed? c = some keyed) : c ≠ ',' := by
  rintro rfl
  exact absurd h (by decide +revert)

theorem alinkEntry_iff {token : List Char} {entry : String × Alink} :
    alinkEntry token = .ok entry ↔ AlinkToken token entry := by
  obtain ⟨name, mode, keyed⟩ := entry
  constructor
  · intro h
    unfold alinkEntry at h
    split at h
    · rename_i k m c rest hrev
      cases hs : safeName (String.ofList (c :: rest).reverse) with
      | error e => rw [hs] at h; cases h
      | ok n =>
        obtain ⟨rfl, hsafe⟩ := safeName_eq_ok.mp hs
        rw [hs] at h
        cases hm : linkMode? m with
        | none => simp only [hm] at h; cases h
        | some mode' => cases hk : keyed? k with
          | none => simp only [hm, hk] at h; cases h
          | some keyed' =>
            simp only [hm, hk] at h
            cases h
            refine ⟨⟨m, k, ?_, hm, hk⟩, hsafe⟩
            rw [← List.reverse_inj, hrev, String.toList_ofList]
            simp
    · cases h
  · rintro ⟨⟨m, k, rfl, hm, hk⟩, hsafe⟩
    have hne : name.toList.reverse ≠ [] := by simpa using hsafe.nonempty
    obtain ⟨c, rest, hc⟩ := List.exists_cons_of_ne_nil hne
    have hname : String.ofList (c :: rest).reverse = name := by
      rw [← hc, List.reverse_reverse, String.ofList_toList]
    have hrev : (name.toList ++ [m, k]).reverse = k :: m :: c :: rest := by
      simp [hc]
    unfold alinkEntry
    simp only [hrev, hname, safeName_eq_ok.mpr ⟨rfl, hsafe⟩, hm, hk]

theorem AlinkToken.not_comma {token : List Char} {entry : String × Alink}
    (h : AlinkToken token entry) : ',' ∉ token := by
  obtain ⟨⟨m, k, rfl, hm, hk⟩, hsafe⟩ := h
  simp only [List.mem_append, List.mem_cons, List.not_mem_nil, or_false, not_or]
  exact ⟨fun hc => (hsafe.chars _ hc).2.1 rfl, (linkMode?_ne_comma hm).symm,
    (keyed?_ne_comma hk).symm⟩

/-- The counts are the numerals. -/
theorem isCount_iff {count : String} : isCount count = true ↔ Numeral count.toList := by
  unfold isCount
  rw [Bool.or_eq_true, decide_eq_true_eq, fullmatch_isSome]
  constructor
  · rintro (rfl | ⟨gs, hs, hf⟩)
    · exact numeral_toDigits 0
    · obtain ⟨g, gs₁, ⟨hg, hlo, hhi⟩, hf₁, rfl⟩ := List.forall₂_cons_left_iff.mp hf
      obtain ⟨g', gs₂, ⟨hg', -, -⟩, hf₂, rfl⟩ := List.forall₂_cons_left_iff.mp hf₁
      obtain rfl := List.forall₂_nil_left_iff.mp hf₂
      obtain ⟨c, rfl⟩ : ∃ c, g = [c] := List.length_eq_one_iff.mp (le_antisymm (hhi 1 rfl) hlo)
      have hc : '1' ≤ c ∧ c ≤ '9' := by simpa using hg c (List.mem_singleton_self c)
      rw [hs, List.flatten_cons, List.flatten_cons, List.flatten_nil, List.append_nil,
        List.singleton_append, numeral_cons]
      exact Or.inr ⟨hc, hg'⟩
  · intro h
    obtain ⟨c, cs, hs⟩ := List.exists_cons_of_ne_nil h.nonempty
    rw [hs] at h
    obtain ⟨rfl, rfl⟩ | ⟨hc, hcs⟩ := numeral_cons.mp h
    · exact Or.inl (String.toList_inj.mp hs)
    · refine Or.inr ⟨[[c], cs], by simpa using hs, .cons ⟨?_, by simp, by simp⟩ (.cons ?_ .nil)⟩
      · simpa using hc
      · exact ⟨hcs, by simp, nofun⟩

/-- A numeral has no comma. -/
theorem isCount_not_comma {count : String} (h : isCount count = true) : ',' ∉ count.toList :=
  fun hc => absurd ((isCount_iff.mp h).digits ',' hc) (by decide)

/-- The tokens of a text that begins with the count. -/
theorem splitOn_alinks {value : String} {count : List Char} {tokens : List (List Char)}
    (hc : ',' ∉ count) (ht : ∀ t ∈ tokens, ',' ∉ t) :
    value.toList.splitOn ',' = count :: tokens ↔
      value.toList = [','].intercalate (count :: tokens) := by
  constructor
  · intro h
    rw [← h, List.intercalate_splitOn]
  · intro h
    rw [h, List.splitOn_intercalate]
    · exact List.forall_mem_cons.mpr ⟨hc, ht⟩
    · exact List.cons_ne_nil _ _

/-- **`parse_alinks` accepts exactly the texts of lists of distinct links.** -/
theorem parseAlinks_eq_ok {value count : Option String} {alinks : List (String × Alink)} :
    parseAlinks value count = .ok alinks ↔
      ∃ v c, value = some v ∧ count = some c ∧ AlinksText v c alinks := by
  cases value with
  | none => simp [parseAlinks]
  | some v => cases count with
    | none => simp [parseAlinks]
    | some c =>
      simp only [Option.some.injEq, exists_and_left, exists_eq_left']
      dsimp only [parseAlinks]
      by_cases hbad : isCount c = false
      · rw [if_pos hbad]
        simp only [reduceCtorEq, false_iff]
        exact fun h => absurd h.numeral (by simp [hbad])
      rw [if_neg hbad]
      have hnum : isCount c = true := by simpa using hbad
      by_cases hzero : parseNat c.toList = 0
      · rw [if_pos hzero]
        constructor
        · intro h
          split_ifs at h with hv
          cases h
          rw [not_not] at hv
          exact ⟨hnum, hzero, List.nodup_nil, [], .nil, by simp [hv]⟩
        · rintro ⟨-, hlen, -, tokens, -, ht⟩
          obtain rfl := List.eq_nil_of_length_eq_zero (hlen.symm.trans hzero)
          rw [if_pos rfl, String.toList_eq_nil_iff] at ht
          simp [ht]
      rw [if_neg hzero]
      have hcomma := isCount_not_comma hnum
      constructor
      · intro h
        split at h
        · cases h
        · rename_i head tokens hsplit
          split_ifs at h with hbad
          rw [not_or, not_not, not_not] at hbad
          obtain ⟨rfl, hlen⟩ := hbad
          obtain ⟨hf, hn⟩ := collect_eq_ok.mp h
          have hf' : List.Forall₂ AlinkToken tokens alinks := hf.imp fun _ _ => alinkEntry_iff.mp
          have hl : tokens.length = alinks.length := hf.length_eq
          have hne : alinks ≠ [] := by
            rintro rfl
            exact hzero (hlen.symm.trans hl)
          refine ⟨hnum, hlen.symm.trans hl, hn, tokens, hf', ?_⟩
          rw [if_neg hne, ← hsplit, List.intercalate_splitOn]
      · rintro ⟨-, hlen, hn, tokens, hf, ht⟩
        have hne : alinks ≠ [] := by
          rintro rfl
          exact hzero hlen
        have htok : ∀ t ∈ tokens, ',' ∉ t := by
          intro t hm
          obtain ⟨a, -, ha⟩ := forall₂_mem_left hf hm
          exact ha.not_comma
        rw [if_neg hne] at ht
        rw [(splitOn_alinks hcomma htok).mpr ht]
        simp only [ne_eq, not_true_eq_false, false_or]
        rw [if_neg (by rw [not_not, hlen]; exact hf.length_eq)]
        exact collect_eq_ok.mpr ⟨hf.imp fun _ _ => alinkEntry_iff.mpr, hn⟩

end Asl3
