import Asl3Api.EventHandler
import Asl3Api.Lib.Duration

/-!
# The legacy view of a snapshot (`ami_client.py`, `get_node_variables`)

* `getNodeVariables`: the variables of the legacy routes, from what `snapshot()` returns;
* `NodeVariables.alinks`: its links in the format of `RPT_ALINKS`;
* `alinksText_tokens`: the texts that `parse_alinks` accepts, by their tokens;
* `perm_alinks`: when every connection is listed, the links are those of `RPT_ALINKS`;
* **`legacy_links`**: the legacy text of the links says what app_rpt said, or is refused.
-/

set_option autoImplicit false

namespace Asl3

open Py

namespace AMIClient

/-! ## The view -/

/-- What `get_node_variables` returns. -/
structure NodeVariables where
  rxkeyed : Option Bool
  txkeyed : Option Bool
  extTxkeyed : Option Bool := none
  autopatchUp : Option Bool := none
  numLinks : Option ℕ
  links : Option String
  numActiveLinks : Option ℕ
  activeLinks : Option String
  complete : Bool
  stateStatus : StateStatus
  deriving DecidableEq, Repr

/-- `f"{link.node}{link.mode}{'K' if link.keyed else 'U'}"`. -/
def activeLink (link : DirectLink) : List Char :=
  link.node.toList ++ link.mode.name.toList ++ [if link.keyed then 'K' else 'U']

/-- `get_node_variables`, from the state that `snapshot()` returns. -/
def getNodeVariables (state : NodeState) : NodeVariables where
  rxkeyed := state.rxKeyed
  txkeyed := state.txKeyed
  numLinks := state.directLinks.map List.length
  links := state.directLinks.map fun links =>
    String.ofList (join [','] (links.map fun link => link.node.toList))
  numActiveLinks := state.directLinks.map List.length
  activeLinks := state.directLinks.map fun links => String.ofList (join [','] (links.map activeLink))
  complete := state.complete
  stateStatus := state.stateStatus

/-- The links of a view as `RPT_ALINKS` and `RPT_NUMALINKS` have them: the count in front. -/
def NodeVariables.alinks (v : NodeVariables) : Option (String × String) :=
  match v.numActiveLinks, v.activeLinks with
  | some n, some text => some (if n = 0 then "" else toString n ++ "," ++ text, toString n)
  | _, _ => none

/-! ## Texts with commas -/

/-- The accepted links of a text, by its tokens. -/
theorem alinksText_tokens {value count : String} {tokens : List (List Char)}
    {alinks : List (String × Alink)} (hne : tokens ≠ []) (ht : ∀ t ∈ tokens, ',' ∉ t)
    (hc : count = toString tokens.length) (hv : value.toList = join [','] (count.toList :: tokens)) :
    AlinksText value count alinks ↔
      List.Forall₂ AlinkToken tokens alinks ∧ (alinks.map Prod.fst).Nodup := by
  have hnum : Numeral count.toList ∧ parseNat count.toList = tokens.length :=
    numeral_iff.mpr (by rw [hc]; exact Nat.toList_repr)
  have hcomma : ∀ t ∈ count.toList :: tokens, ',' ∉ t :=
    List.forall_mem_cons.mpr ⟨isCount_not_comma (isCount_iff.mpr hnum.1), ht⟩
  constructor
  · rintro ⟨-, -, hnames, tokens', hf, htext⟩
    refine ⟨?_, hnames⟩
    have hsplit := congrArg (fun s => s.splitOn ',') (hv.symm.trans htext)
    rw [splitOn_join (List.cons_ne_nil _ _) hcomma] at hsplit
    split_ifs at hsplit with hnil
    · rw [List.splitOn_nil, List.cons.injEq] at hsplit
      exact absurd hsplit.2 hne
    · have hcomma' : ∀ t ∈ count.toList :: tokens', ',' ∉ t :=
        List.forall_mem_cons.mpr ⟨hcomma _ List.mem_cons_self, fun t hm => by
          obtain ⟨e, -, he⟩ := forall₂_mem_left hf hm
          exact he.not_comma⟩
      rw [List.splitOn_intercalate _ hcomma' (List.cons_ne_nil _ _), List.cons.injEq] at hsplit
      rwa [hsplit.2]
  · rintro ⟨hf, hnames⟩
    have hlen := hf.length_eq
    refine ⟨isCount_iff.mpr hnum.1, hnum.2.trans hlen, hnames, tokens, hf, ?_⟩
    have hnil : alinks ≠ [] := by
      rintro rfl
      exact hne (List.eq_nil_of_length_eq_zero hlen)
    rw [if_neg hnil, hv, join_eq_intercalate]

/-! ## Tokens of links -/

/-- The entry of a link in `RPT_ALINKS`. -/
def alinkOf (link : DirectLink) : String × Alink := (link.node, ⟨link.mode, link.keyed⟩)

/-- The text of a known mode is its letter. -/
theorem letter_eq_name {mode : LinkMode} (h : mode ≠ .unknown) : mode.letter = mode.name.toList := by
  cases mode <;> first | rfl | exact absurd rfl h

theorem activeLink_eq {link : DirectLink} (h : link.mode ≠ .unknown) :
    activeLink link = alinkToken (alinkOf link) := by
  rw [activeLink, alinkToken, alinkOf, letter_eq_name h]

/-- The token of a link with a mode is accepted. -/
theorem alinkToken_activeLink {link : DirectLink} (hs : SafeName link.node)
    (h : link.mode ≠ .unknown) : AlinkToken (activeLink link) (alinkOf link) :=
  alinkToken_iff.mpr ⟨activeLink_eq h, hs, h⟩

/-- The token of a link of unknown mode is not, as no letter of a mode stands before its last one. -/
theorem not_alinkToken_unknown {link : DirectLink} (h : link.mode = .unknown)
    (entry : String × Alink) : ¬ AlinkToken (activeLink link) entry := by
  rintro ⟨⟨m, k, htext, hm, -⟩, -⟩
  have hlast : (activeLink link).reverse[1]? = some 'N' := by
    rw [activeLink, h]
    simp [LinkMode.name]
  rw [htext] at hlast
  simp only [List.reverse_append, List.reverse_cons, List.reverse_nil, List.nil_append,
    List.cons_append, List.getElem?_cons_succ, List.getElem?_cons_zero, Option.some.injEq] at hlast
  have hnone : linkMode? 'N' = none := by decide
  rw [hlast, hnone] at hm
  cases hm

theorem activeLink_comma {link : DirectLink} (hs : SafeName link.node) : ',' ∉ activeLink link := by
  have hmode : ',' ∉ link.mode.name.toList := by cases link.mode <;> decide
  have hkeyed : ',' ≠ (if link.keyed then 'K' else 'U') := by cases link.keyed <;> decide
  simp only [activeLink, List.mem_append, List.mem_singleton, not_or]
  exact ⟨⟨fun hc => (hs.chars _ hc).2.1 rfl, hmode⟩, hkeyed⟩

/-! ## Links of a snapshot -/

variable {m : Message} {sawstat : Reply} {node epoch now : String} {x : Xstat} {s : NodeState}

/-- A complete snapshot has one link for every connection that XStat shows. -/
theorem complete_links (hx : parseXstat m node = .ok x)
    (hs : parseSnapshot (.mapping m) sawstat node epoch now = .ok s) (hc : s.complete = true) :
    ∃ keyed, s.directLinks = some (x.connections.map (linkOf x.alinks keyed)) ∧
      ∀ c ∈ x.connections, ∃ k, keyed.lookup c.1 = some k ∧ ∀ a ∈ x.alinks.lookup c.1, a.keyed = k := by
  have hcombine : combine (.mapping m) sawstat node epoch now = .ok s := by
    rcases parseSnapshot_cases (.mapping m) sawstat node epoch now with ⟨E, hE⟩ | ⟨-, reason, hE⟩
    · rw [hE] at hs
      exact combine_eq_ok.mpr ⟨E, (Except.ok.inj hs).symm⟩
    · rw [hE] at hs
      rw [← Except.ok.inj hs] at hc
      cases hc
  unfold combine at hcombine
  cases sawstat with
  | other => cases hcombine
  | mapping saw =>
    simp only [bind_eq_ok, check_eq_ok, hx, Except.ok.injEq, exists_eq_left'] at hcombine
    obtain ⟨keyed, -, -, links, hl, h⟩ := hcombine
    obtain ⟨hall, rfl⟩ := buildLinks_eq_ok.mp hl
    cases h
    exact ⟨keyed, rfl, hall⟩

variable {keyed : List (String × Bool)}

/-- The mode of a link is known exactly when `RPT_ALINKS` lists its name. -/
theorem mode_linkOf (hx : x.Reads m node) {c : String × ConnectionStatus} :
    (linkOf x.alinks keyed c).mode = .unknown ↔ c.1 ∉ x.alinks.map Prod.fst := by
  obtain ⟨v, n, -, -, htext⟩ := hx.alinks
  rw [← lookup_isSome_iff_mem, linkOf]
  cases ha : x.alinks.lookup c.1 with
  | none => simp
  | some a =>
    have hmem := (lookup_eq_some_iff_mem htext.names).mp ha
    obtain ⟨tokens, hf, -⟩ := htext.text
    obtain ⟨token, -, ht⟩ := forall₂_mem_right hf hmem
    simpa using (alinkToken_iff.mp ht).2.2

/-- **When every connection is listed**, the links of the snapshot are those of `RPT_ALINKS`. -/
theorem perm_alinks (hx : x.Reads m node)
    (hk : ∀ c ∈ x.connections, ∃ k, keyed.lookup c.1 = some k ∧ ∀ a ∈ x.alinks.lookup c.1, a.keyed = k)
    (hall : ∀ c ∈ x.connections, c.1 ∈ x.alinks.map Prod.fst) :
    ((x.connections.map (linkOf x.alinks keyed)).map alinkOf).Perm x.alinks := by
  obtain ⟨v, n, -, -, htext⟩ := hx.alinks
  -- the entry of a connection is the one with its name
  have hentry : ∀ c ∈ x.connections, alinkOf (linkOf x.alinks keyed c) ∈ x.alinks := by
    intro c hc
    obtain ⟨a, ha⟩ := Option.isSome_iff_exists.mp (lookup_isSome_iff_mem.mpr (hall c hc))
    obtain ⟨k, hk, hagree⟩ := hk c hc
    have he : alinkOf (linkOf x.alinks keyed c) = (c.1, a) := by
      simp only [alinkOf, linkOf, ha, hk, Option.map_some, Option.getD_some, ← hagree a ha]
    rw [he]
    exact (lookup_eq_some_iff_mem htext.names).mp ha
  have hnames : ((x.connections.map (linkOf x.alinks keyed)).map alinkOf).map Prod.fst =
      x.connections.map Prod.fst := by
    simp [alinkOf, linkOf, Function.comp_def]
  have hnodup := hx.conn_names
  rw [← hnames] at hnodup
  refine (List.perm_ext_iff_of_nodup hnodup.of_map htext.names.of_map).mpr fun e => ⟨?_, fun he => ?_⟩
  · intro he
    rw [List.map_map] at he
    obtain ⟨c, hc, rfl⟩ := List.mem_map.mp he
    exact hentry c hc
  · have hname := hx.listed e he
    rw [← hnames] at hname
    obtain ⟨e', he', hfst⟩ := List.mem_map.mp hname
    have hmem' : e' ∈ x.alinks := by
      rw [List.map_map] at he'
      obtain ⟨c, hc, rfl⟩ := List.mem_map.mp he'
      exact hentry c hc
    rwa [← List.inj_on_of_nodup_map htext.names hmem' he hfst]

/-- Every link of the snapshot has a safe name. -/
theorem safe_linkOf (hx : x.Reads m node) :
    ∀ link ∈ x.connections.map (linkOf x.alinks keyed), SafeName link.node := by
  intro link hl
  obtain ⟨c, hc, rfl⟩ := List.mem_map.mp hl
  obtain ⟨row, -, hrow⟩ := forall₂_mem_right hx.conn_rows hc
  exact hrow.safe

/-! ## The text of the view -/

/-- The text of a view with links: the count and the tokens. -/
theorem alinks_view {links : List DirectLink} (h : s.directLinks = some links) : ∃ value,
    (getNodeVariables s).alinks = some (value, toString links.length) ∧
      value.toList = if links = [] then []
        else join [','] ((toString links.length).toList :: links.map activeLink) := by
  refine ⟨if links.length = 0 then "" else
    toString links.length ++ "," ++ String.ofList (join [','] (links.map activeLink)), ?_, ?_⟩
  · simp only [NodeVariables.alinks, getNodeVariables, h, Option.map_some]
  · cases links with
    | nil => rfl
    | cons l links =>
      have hlen : (l :: links).length ≠ 0 := Nat.succ_ne_zero _
      rw [if_neg (List.cons_ne_nil _ _), if_neg hlen, String.toList_append, String.toList_append,
        List.map_cons, join]
      simp only [String.toList_ofList]
      rfl

/-- **The links of the legacy view** of a complete snapshot. Its names are those of the connections,
in order. With its count in front, `active_links` reads as the links that app_rpt wrote to `RPT_ALINKS`
when this lists every connection, and is refused otherwise. -/
theorem legacy_links (m : Message) (sawstat : Reply) (node epoch now : String) (x : Xstat)
    (s : NodeState) (hx : parseXstat m node = .ok x)
    (hs : parseSnapshot (.mapping m) sawstat node epoch now = .ok s) (hc : s.complete = true) :
    ∃ value, (getNodeVariables s).alinks = some (value, toString x.connections.length) ∧
      ((getNodeVariables s).links.map fun text => text.toList.splitOn ',') =
        some (if x.connections = [] then [[]] else x.connections.map fun c => c.1.toList) ∧
      ((∀ c ∈ x.connections, c.1 ∈ x.alinks.map Prod.fst) →
        ∃ d, parseAlinks (some value) (some (toString x.connections.length)) = .ok d ∧
          d.Perm x.alinks) ∧
      ((∃ c ∈ x.connections, c.1 ∉ x.alinks.map Prod.fst) →
        ∃ text, parseAlinks (some value) (some (toString x.connections.length)) =
          .error (.valueError text)) := by
  obtain ⟨keyed, hlinks, hkeyed⟩ := complete_links hx hs hc
  have hread := parseXstat_iff.mp hx
  obtain ⟨value, hvalue, htext⟩ := alinks_view hlinks
  have hsafe := @safe_linkOf m node x keyed hread
  rw [List.length_map] at hvalue
  refine ⟨value, hvalue, ?_, ?_⟩
  · simp only [getNodeVariables, hlinks, Option.map_some, String.toList_ofList, List.map_map,
      Option.some.injEq]
    split_ifs with hnil
    · rw [hnil]
      rfl
    · refine splitOn_join (by simpa using hnil) fun t ht => ?_
      obtain ⟨c, hmem, rfl⟩ := List.mem_map.mp ht
      exact fun hcomma => ((hsafe _ (List.mem_map_of_mem hmem)).chars _ hcomma).2.1 rfl
  by_cases hnil : x.connections = []
  · have hempty : x.alinks = [] := by
      refine List.eq_nil_iff_forall_not_mem.mpr fun a ha => ?_
      have hl := hread.listed a ha
      rw [hnil] at hl
      cases hl
    have hvalue : value = "" := by
      rw [hnil, List.map_nil, if_pos rfl] at htext
      exact String.toList_eq_nil_iff.mp htext
    rw [hnil, hempty, hvalue]
    exact ⟨fun _ => ⟨[], by decide +kernel, .nil⟩, fun ⟨c, hm, _⟩ => nomatch hm⟩
  · have hne : (x.connections.map (linkOf x.alinks keyed)).map activeLink ≠ [] := by simpa using hnil
    have hcomma : ∀ t ∈ (x.connections.map (linkOf x.alinks keyed)).map activeLink, ',' ∉ t := by
      intro t ht
      obtain ⟨link, hl, rfl⟩ := List.mem_map.mp ht
      exact activeLink_comma (hsafe link hl)
    rw [if_neg (by simpa using hnil), List.length_map] at htext
    have hiff : ∀ d, parseAlinks (some value) (some (toString x.connections.length)) = .ok d ↔
        List.Forall₂ AlinkToken ((x.connections.map (linkOf x.alinks keyed)).map activeLink) d ∧
          (d.map Prod.fst).Nodup := by
      intro d
      rw [parseAlinks_eq_ok, ← alinksText_tokens hne hcomma (by simp) htext]
      simp
    constructor
    · intro hall
      have hperm := perm_alinks hread hkeyed hall
      obtain ⟨v, n, -, -, halinks⟩ := hread.alinks
      refine ⟨_, (hiff _).mpr ⟨?_, (hperm.map Prod.fst).nodup_iff.mpr halinks.names⟩, hperm⟩
      rw [List.forall₂_map_left_iff, List.forall₂_map_right_iff, List.forall₂_same]
      intro link hl
      refine alinkToken_activeLink (hsafe link hl) fun hmode => ?_
      obtain ⟨c, hm, rfl⟩ := List.mem_map.mp hl
      exact (mode_linkOf hread).mp hmode (hall c hm)
    · rintro ⟨c, hm, hnot⟩
      cases hp : parseAlinks (some value) (some (toString x.connections.length)) with
      | error e =>
        obtain ⟨text, rfl⟩ := parseAlinks_refuses value _ e hp
        exact ⟨text, rfl⟩
      | ok d =>
        have hlink : linkOf x.alinks keyed c ∈ x.connections.map (linkOf x.alinks keyed) :=
          List.mem_map_of_mem hm
        obtain ⟨e, -, he⟩ :=
          forall₂_mem_left ((hiff d).mp hp).1 (List.mem_map_of_mem hlink)
        exact absurd he (not_alinkToken_unknown ((mode_linkOf hread).mpr hnot) e)

/-- Two replies of a node with two connections. -/
def viewXstat : Message :=
  [("response", .one "Success"), ("node", .one "546051"),
    ("var", .many ["RPT_RXKEYED=0", "RPT_TXKEYED=1", "RPT_NUMALINKS=2", "RPT_ALINKS=2,55553TK,W1AWRU"]),
    ("conn", .many ["W1AW 192.0.2.7 0 IN 00:01:02 ESTABLISHED",
      "55553 192.0.2.8 0 OUT 00:00:07 ESTABLISHED"])]

def viewSawstat : Message :=
  [("response", .one "Success"), ("node", .one "546051"),
    ("conn", .many ["55553 1 0 0", "W1AW 0 0 0"])]

/-- What XStat says of them. -/
def viewRead : Xstat where
  vars := [("RPT_RXKEYED", "0"), ("RPT_TXKEYED", "1"), ("RPT_NUMALINKS", "2"),
    ("RPT_ALINKS", "2,55553TK,W1AWRU")]
  connections := [("W1AW", .established), ("55553", .established)]
  alinks := [("55553", ⟨.T, true⟩), ("W1AW", ⟨.R, false⟩)]

/-- The state they show. -/
def viewState : NodeState where
  node := "546051"
  observedAt := "now"
  connectionEpoch := some "epoch"
  stateStatus := .complete
  trafficState := .active
  complete := true
  rxKeyed := some false
  txKeyed := some true
  directLinks := some [⟨"W1AW", none, .R, false, .established⟩,
    ⟨"55553", some "55553", .T, true, .established⟩]

/-- The legacy view names them in the order of the connections, and reads as the same links. -/
theorem legacy_links_two : ∃ value d, (getNodeVariables viewState).alinks = some (value, "2") ∧
    parseAlinks (some value) (some "2") = .ok d ∧ d.Perm viewRead.alinks := by
  have hx : parseXstat viewXstat "546051" = .ok viewRead := by decide +kernel
  have hs : parseSnapshot (.mapping viewXstat) (.mapping viewSawstat) "546051" "epoch" "now" =
      .ok viewState := by decide +kernel
  obtain ⟨value, hvalue, -, hlisted, -⟩ := legacy_links viewXstat (.mapping viewSawstat) "546051"
    "epoch" "now" viewRead viewState hx hs rfl
  obtain ⟨d, hd, hp⟩ := hlisted (by decide)
  exact ⟨value, d, hvalue, hd, hp⟩

end AMIClient

end Asl3
