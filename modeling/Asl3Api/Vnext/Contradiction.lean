import Asl3Api.Vnext.Reading

/-!
# Contradictions between the sources of a sample

The result contract (`docs/VNEXT.md`) says that a disagreement between the sources, or a truncation
sentinel in any of them, is unknown.

* `Contradiction`: the disagreements and sentinels of the contract, on the raw replies;
* `Unchecked`: those that no check of the parser looks for;
* `Evidence.contradiction_iff`: a consistent reading excludes the others;
* **`contradictions_unknown`**: for which pairs of replies every contradiction is unknown.
-/

set_option autoImplicit false

namespace Asl3

open Py

/-- A list of links in a text has the truncation sentinel as a link, with or without the letter of a
mode before it. -/
def SentinelIn (text : String) : Prop :=
  ∃ token ∈ text.toList.splitOn ',', ∃ mode : List Char, mode.length ≤ 1 ∧
    (token.dropWhile isSpace).takeWhile nonSpace = mode ++ "000000".toList

/-- The contradictions between the sources, and the sentinels in them. -/
inductive Contradiction (xstat sawstat : Reply) : Prop where
  /-- ALINKS says that the link is connecting, and its row that it is established. -/
  | established (name : String) (key : Char) (listed : Lists xstat name 'C' key)
    (row : ConnState xstat name .established)
  /-- The row says that the link is connecting, and ALINKS that it is not. -/
  | connecting (name : String) (mode key : Char) (listed : Lists xstat name mode key)
    (ne : mode ≠ 'C') (row : ConnState xstat name .connecting)
  /-- One reply has a row of the name and the other has none. -/
  | names (name : String) (differ : ¬ (HasConn xstat name ↔ HasConn sawstat name))
  /-- ALINKS lists a name that has no row. -/
  | orphan (name : String) (mode key : Char) (listed : Lists xstat name mode key)
    (none : ¬ HasConn xstat name)
  /-- ALINKS says that the link is not keyed, and SawStat that it is. -/
  | keyed (name : String) (mode : Char) (listed : Lists xstat name mode 'U')
    (row : ConnKeyed sawstat name true)
  /-- ALINKS says that the link is keyed, and SawStat that it is not. -/
  | unkeyed (name : String) (mode : Char) (listed : Lists xstat name mode 'K')
    (row : ConnKeyed sawstat name false)
  | alinks (mode key : Char) (listed : Lists xstat "000000" mode key)
  | conn (row : HasConn xstat "000000" ∨ HasConn sawstat "000000")
  | links (value : String) (var : "RPT_LINKS=" ++ value ∈ xstat.rows "var")
    (sentinel : SentinelIn value)
  | linkedNodes (text : String)
    (header : text ∈ xstat.rows "linkednodes" ∨ text ∈ sawstat.rows "linkednodes")
    (sentinel : SentinelIn text)

/-- The contradictions that no check of the parser looks for: the connection state of ALINKS against
the one of the row, and the sentinel in `LinkedNodes`. -/
inductive Unchecked (xstat sawstat : Reply) : Prop where
  | established (name : String) (key : Char) (listed : Lists xstat name 'C' key)
    (row : ConnState xstat name .established)
  | connecting (name : String) (mode key : Char) (listed : Lists xstat name mode key)
    (ne : mode ≠ 'C') (row : ConnState xstat name .connecting)
  | linkedNodes (text : String)
    (header : text ∈ xstat.rows "linkednodes" ∨ text ∈ sawstat.rows "linkednodes")
    (sentinel : SentinelIn text)

theorem Unchecked.contradiction {xstat sawstat : Reply} (h : Unchecked xstat sawstat) :
    Contradiction xstat sawstat := by
  cases h with
  | established name key listed row => exact .established name key listed row
  | connecting name mode key listed ne row => exact .connecting name mode key listed ne row
  | linkedNodes text header sentinel => exact .linkedNodes text header sentinel

theorem infix_intercalate {sep token : List Char} {tokens : List (List Char)} (h : token ∈ tokens) :
    token <:+: sep.intercalate tokens := by
  induction tokens with
  | nil => cases h
  | cons t ts ih =>
    cases ts with
    | nil =>
      rw [List.mem_singleton.mp h, List.intercalate_singleton]
    | cons t' ts =>
      rw [List.intercalate_cons_cons]
      rcases List.mem_cons.mp h with rfl | h
      · rw [List.append_assoc]
        exact (List.prefix_append _ _).isInfix
      · exact (ih h).trans (List.suffix_append _ _).isInfix

/-- A sentinel among the links of a text is in the text. -/
theorem SentinelIn.contains {text : String} (h : SentinelIn text) :
    contains text "000000" = true := by
  obtain ⟨token, ht, mode, -, he⟩ := h
  unfold Py.contains
  rw [decide_eq_true_eq]
  have hinfix : token <:+: text.toList := by
    have h := @infix_intercalate [','] token _ ht
    rwa [List.intercalate_splitOn] at h
  have h1 : "000000".toList <:+: (token.dropWhile isSpace).takeWhile nonSpace := by
    rw [he]
    exact (List.suffix_append _ _).isInfix
  exact ((h1.trans (List.takeWhile_prefix _).isInfix).trans
    (List.dropWhile_suffix _).isInfix).trans hinfix

namespace Evidence

variable {xstat sawstat : Reply} {node : String} (E : Evidence xstat sawstat node)

include E

/-- The sentinel is not the name of a row. -/
theorem not_sentinel : ¬ HasConn xstat "000000" := by
  rintro ⟨row, hm, hn⟩
  obtain ⟨c, -, hr⟩ := forall₂_mem_left E.conn_rows hm
  exact hr.safe.real (String.toList_inj.mp (hr.name.symm.trans hn))

/-- **A consistent reading leaves only the contradictions that nothing checks.** -/
theorem contradiction_iff : Contradiction xstat sawstat ↔ Unchecked xstat sawstat := by
  refine ⟨fun h => ?_, Unchecked.contradiction⟩
  have hsame : ∀ name, HasConn xstat name ↔ HasConn sawstat name := by
    intro name
    rw [E.hasConn_iff, E.sawConn_iff]
    exact E.same_names name
  have hlisted : ∀ name m k, Lists xstat name m k → HasConn xstat name := by
    intro name m k hl
    obtain ⟨a, ha, -⟩ := E.lists_iff.mp hl
    exact E.hasConn_iff.mpr (E.listed _ ha)
  have hagree : ∀ name m k b b', Lists xstat name m k → keyed? k = some b →
      ConnKeyed sawstat name b' → b' = b := by
    intro name m k b b' hl hb hrow
    obtain ⟨a, ha, -, hk⟩ := E.lists_iff.mp hl
    rw [E.agree _ ha b' (E.connKeyed_iff.mp hrow)]
    exact Option.some.inj (hk.symm.trans hb)
  cases h with
  | established name key listed row => exact .established name key listed row
  | connecting name mode key listed ne row => exact .connecting name mode key listed ne row
  | linkedNodes text header sentinel => exact .linkedNodes text header sentinel
  | names name differ => exact absurd (hsame name) differ
  | orphan name mode key listed none => exact absurd (hlisted name mode key listed) none
  | keyed name mode listed row => cases hagree name mode 'U' false true listed (by decide) row
  | unkeyed name mode listed row => cases hagree name mode 'K' true false listed (by decide) row
  | alinks mode key listed => exact absurd (hlisted _ mode key listed) E.not_sentinel
  | conn row =>
    rcases row with row | row
    · exact absurd row E.not_sentinel
    · exact absurd ((hsame _).mpr row) E.not_sentinel
  | links value var sentinel =>
    have hv := (E.var_iff "RPT_LINKS" value (by decide) (by decide)).mp var
    exact absurd sentinel.contains (by simp [E.links_var value hv])

end Evidence

/-- **The contradictions of the contract become unknown** for every pair of replies but those that
are consistent in all that the parser checks and hold a contradiction that it does not check. -/
theorem contradictions_unknown (xstat sawstat : Reply) (node epoch now : String) :
    (Contradiction xstat sawstat → ∃ state, parseSnapshot xstat sawstat node epoch now = .ok state ∧
        state.stateStatus = .stateUnknown ∧ state.complete = false) ↔
      ¬ (Unchecked xstat sawstat ∧ Nonempty (Evidence xstat sawstat node)) := by
  rcases parseSnapshot_cases xstat sawstat node epoch now with ⟨E, h⟩ | ⟨hE, reason, h⟩
  · rw [E.contradiction_iff, not_and_or, or_iff_left (not_not.mpr ⟨E⟩)]
    refine forall_congr' fun hu => iff_of_false ?_ not_false
    rintro ⟨state, hs, -, hc⟩
    rw [h] at hs
    cases hs
    cases hc
  · refine iff_of_true (fun _ => ⟨_, h, rfl, rfl⟩) ?_
    rintro ⟨-, ⟨E⟩⟩
    exact hE.false E

/-- An XStat reply of node 1999 with one link, whose row says that it is established and whose ALINKS
entry has the given mode letter; `linked` is the text of `LinkedNodes`. -/
def oneLink (mode : Char) (linked : String) : Reply := .mapping
  [("Response", .one "Success"), ("Node", .one "1999"),
    ("Var", .many ["RPT_RXKEYED=0", "RPT_TXKEYED=0", "RPT_NUMALINKS=1",
      "RPT_ALINKS=1,2000" ++ String.ofList [mode, 'U']]),
    ("Conn", .one "2000 10.0.0.1 0 OUT 00:00:10 ESTABLISHED"), ("LinkedNodes", .one linked)]

/-- The SawStat reply that goes with it. -/
def oneLinkSaw : Reply := .mapping
  [("Response", .one "Success"), ("Node", .one "1999"), ("Conn", .one "2000 0 1 1")]

/-- A link that is connecting for ALINKS and established for its row, and a sentinel in
`LinkedNodes`: both are contradictions, and both give a complete snapshot. -/
theorem contradictions_accepted :
    (Contradiction (oneLink 'C' "T2000") oneLinkSaw ∧
      ¬ ∃ state, parseSnapshot (oneLink 'C' "T2000") oneLinkSaw "1999" "e1" "t1" = .ok state ∧
        state.stateStatus = .stateUnknown ∧ state.complete = false) ∧
    Contradiction (oneLink 'T' "T2000, T000000") oneLinkSaw ∧
      ¬ ∃ state, parseSnapshot (oneLink 'T' "T2000, T000000") oneLinkSaw "1999" "e1" "t1" =
        .ok state ∧ state.stateStatus = .stateUnknown ∧ state.complete = false := by
  have hcomplete : ∀ mode linked, (parseSnapshot (oneLink mode linked) oneLinkSaw "1999" "e1"
      "t1").toOption.map NodeState.complete = some true →
      ¬ ∃ state, parseSnapshot (oneLink mode linked) oneLinkSaw "1999" "e1" "t1" = .ok state ∧
        state.stateStatus = .stateUnknown ∧ state.complete = false := by
    rintro mode linked h ⟨state, hs, -, hf⟩
    rw [hs] at h
    exact absurd ((Option.some.inj h).symm.trans hf) (by decide)
  have hvar : "RPT_ALINKS=" ++ "1,2000CU" ∈ (oneLink 'C' "T2000").rows "var" := by decide +kernel
  have hconn : "2000 10.0.0.1 0 OUT 00:00:10 ESTABLISHED" ∈ (oneLink 'C' "T2000").rows "conn" := by
    decide +kernel
  have hlinked : "T2000, T000000" ∈ (oneLink 'T' "T2000, T000000").rows "linkednodes" := by
    decide +kernel
  have hsentinel : SentinelIn "T2000, T000000" :=
    ⟨" T000000".toList, by decide +kernel, ['T'], by decide, by decide +kernel⟩
  exact ⟨⟨.established "2000" 'U' ⟨_, hvar, by decide +kernel⟩
    ⟨_, hconn, by decide +kernel, by decide +kernel⟩, hcomplete _ _ (by decide +kernel)⟩,
    .linkedNodes _ (Or.inl hlinked) hsentinel, hcomplete _ _ (by decide +kernel)⟩

end Asl3
