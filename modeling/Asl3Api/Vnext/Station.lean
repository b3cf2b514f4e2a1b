import Mathlib.Data.List.Perm.Basic
import Mathlib.Tactic.IntervalCases
import Asl3Api.Vnext.Alinks
import Asl3Api.Vnext.Observe
import Asl3Api.Vnext.Server

/-!
# Observations of a node that answers

The state of a node, the rows that it writes of it, and what an observation over a session makes of
the octets.

* `Adjacent`, `Station`: an adjacent link, and the state of the node;
* `Adjacent.xstatRow`, `Adjacent.sawstatRow`, `Station.varRows`: what the node writes;
* `rows_of_decodes`: the rows of a decoded reply are those that were written;
* `Station.evidence`: the rows of one state are a consistent reading;
* **`observation_end_to_end`**: the state that an observation returns is the one the node had.
-/

set_option autoImplicit false

namespace Asl3

open Py AMISession AMITransport

/-! ## The state of a node -/

/-- An adjacent link, with all the columns of its two rows. -/
structure Adjacent where
  name : String
  address : String
  reconnects : ℕ
  inbound : Bool
  hours : ℕ
  minutes : Fin 60
  seconds : Fin 60
  status : ConnectionStatus
  /-- It is unknown when `RPT_ALINKS` leaves the link out. -/
  mode : LinkMode
  keyed : Bool
  lastKeyed : ℤ
  lastUnkeyed : ℤ
  /-- The columns are further apart by this many blanks. -/
  pad : ℕ → ℕ
  safe : SafeName name
  word : address ≠ "" ∧ ∀ c ∈ address.toList, nonSpace c = true

namespace Adjacent

/-- The blanks behind a column. -/
def blanks (a : Adjacent) (i : ℕ) : List Char := ' ' :: List.replicate (a.pad i) ' '

/-- A number below one hundred has two digits, and another one its own. -/
def twoDigits (n : ℕ) : List Char := if n < 10 then '0' :: Nat.toDigits 10 n else Nat.toDigits 10 n

/-- The text of a whole number. -/
def signed (z : ℤ) : List (List Char) := [if z < 0 then ['-'] else [], Nat.toDigits 10 z.natAbs]

/-- The columns of the `Conn` row of XStat. -/
def xstatGroups (a : Adjacent) : List (List Char) :=
  [a.name.toList, a.blanks 0, a.address.toList, a.blanks 1, Nat.toDigits 10 a.reconnects, a.blanks 2,
    if a.inbound then "IN".toList else "OUT".toList, a.blanks 3,
    twoDigits a.hours, [':'], [Nat.digitChar (a.minutes / 10)], [Nat.digitChar (a.minutes % 10)],
    [':'], [Nat.digitChar (a.seconds / 10)], [Nat.digitChar (a.seconds % 10)], a.blanks 4,
    a.status.text.toList, List.replicate (a.pad 5) ' ']

/-- The columns of the `Conn` row of SawStat. -/
def sawstatGroups (a : Adjacent) : List (List Char) :=
  [a.name.toList, a.blanks 6, [if a.keyed then '1' else '0'], a.blanks 7] ++ signed a.lastKeyed ++
    [a.blanks 8] ++ signed a.lastUnkeyed ++ [List.replicate (a.pad 9) ' ']

def xstatRow (a : Adjacent) : String := String.ofList a.xstatGroups.flatten

def sawstatRow (a : Adjacent) : String := String.ofList a.sawstatGroups.flatten

/-- The link that the state of the node has for it. -/
def link (a : Adjacent) : DirectLink where
  node := a.name
  allstarNode := if isNode a.name then some a.name else none
  mode := a.mode
  keyed := a.keyed
  connectionStatus := a.status

end Adjacent

/-- The state of the node while both reads see it. -/
structure Station where
  rxKeyed : Bool
  txKeyed : Bool
  links : List Adjacent
  /-- The other channel variables. -/
  others : List (String × String)
  names : (links.map Adjacent.name).Nodup
  otherKeys : (others.map Prod.fst).Nodup ∧ ∀ v ∈ others, v.1 ≠ "" ∧ '=' ∉ v.1.toList ∧
    v.1 ∉ ["RPT_RXKEYED", "RPT_TXKEYED", "RPT_NUMALINKS", "RPT_ALINKS"]
  untruncated : ∀ value, ("RPT_LINKS", value) ∈ others → contains value "000000" = false

namespace Station

/-- The links that `RPT_ALINKS` lists. -/
def alinks (s : Station) : AlinkList where
  links := (s.links.filter fun a => a.mode ≠ .unknown).map fun a => (a.name, ⟨a.mode, a.keyed⟩)
  safe := by
    intro x hx
    obtain ⟨a, -, rfl⟩ := List.mem_map.mp hx
    exact a.safe
  mode := by
    intro x hx
    obtain ⟨a, ha, rfl⟩ := List.mem_map.mp hx
    exact of_decide_eq_true (List.mem_filter.mp ha).2
  names := by
    rw [List.map_map]
    exact s.names.sublist ((List.filter_sublist (l := s.links)).map Adjacent.name)

/-- The variables that an observation reads, but for the list of all links. -/
def keys : List String := ["RPT_RXKEYED", "RPT_TXKEYED", "RPT_NUMALINKS", "RPT_ALINKS"]

/-- The channel variables. -/
def vars (s : Station) : List (String × String) :=
  [("RPT_RXKEYED", bit s.rxKeyed), ("RPT_TXKEYED", bit s.txKeyed),
    ("RPT_NUMALINKS", s.alinks.count), ("RPT_ALINKS", s.alinks.value)] ++ s.others

def varRows (s : Station) : List String := s.vars.map fun v => v.1 ++ "=" ++ v.2

/-- The state that an observation of the node should have. -/
def state (s : Station) (node epoch now : String) : NodeState where
  node := node
  observedAt := now
  connectionEpoch := some epoch
  stateStatus := .complete
  trafficState := if s.rxKeyed || s.txKeyed || s.links.any Adjacent.keyed then .active else .clear
  complete := true
  rxKeyed := some s.rxKeyed
  txKeyed := some s.txKeyed
  directLinks := some (s.links.map Adjacent.link)

end Station

/-! ## The rows -/

namespace Adjacent

variable (a : Adjacent)

theorem blanks_space (i : ℕ) : ∀ c ∈ a.blanks i, isSpace c = true := by
  intro c hc
  rcases List.mem_cons.mp hc with rfl | hc
  · rfl
  · rw [List.eq_of_mem_replicate hc]
    rfl

theorem blanks_matches (i : ℕ) : spacePiece.Matches (a.blanks i) :=
  ⟨a.blanks_space i, Nat.succ_le_of_lt (Nat.succ_pos _), fun _ h => absurd h (Option.not_mem_none _)⟩

theorem name_word : ∀ c ∈ a.name.toList, nonSpace c = true := by
  intro c hc
  rw [nonSpace, (a.safe.chars c hc).1]
  rfl

theorem name_matches : wordPiece.Matches a.name.toList := by
  refine ⟨a.name_word, ?_, fun _ h => absurd h (Option.not_mem_none _)⟩
  rw [Nat.one_le_iff_ne_zero, ne_eq, List.length_eq_zero_iff, String.toList_eq_nil_iff]
  exact a.safe.nonempty

theorem digits_matches (n : ℕ) : (Piece.run isDigit 1 none).Matches (Nat.toDigits 10 n) :=
  ⟨(numeral_toDigits n).digits, Nat.length_toDigits_pos, fun _ h => absurd h (Option.not_mem_none _)⟩

theorem twoDigits_matches (n : ℕ) : (Piece.run isDigit 2 none).Matches (twoDigits n) := by
  have hd := (numeral_toDigits n).digits
  unfold twoDigits
  split_ifs with hn
  · refine ⟨List.forall_mem_cons.mpr ⟨rfl, hd⟩, ?_, fun _ h => absurd h (Option.not_mem_none _)⟩
    rw [List.length_cons]
    have hpos : 0 < (Nat.toDigits 10 n).length := Nat.length_toDigits_pos
    omega
  · refine ⟨hd, ?_, fun _ h => absurd h (Option.not_mem_none _)⟩
    have hlen := (Nat.length_toDigits_le_iff (b := 10) (n := n) (k := 1) (by decide) (by decide)).not
    omega

/-- The two digits of a minute or a second. -/
theorem sixty_matches (n : Fin 60) :
    (Piece.run (fun c => '0' ≤ c && c ≤ '5') 1 (some 1)).Matches [Nat.digitChar (n / 10)] ∧
      (Piece.run isDigit 1 (some 1)).Matches [Nat.digitChar (n % 10)] := by
  have hclass : ∀ n : Fin 60, ('0' ≤ Nat.digitChar (n / 10) && Nat.digitChar (n / 10) ≤ '5') = true ∧
      isDigit (Nat.digitChar (n % 10)) = true := by decide +kernel
  have hone : ∀ c : Char, 1 ≤ [c].length ∧ ∀ h ∈ some 1, [c].length ≤ h :=
    fun c => ⟨le_refl 1, fun h hh => Nat.le_of_eq (Option.some.inj hh)⟩
  exact ⟨⟨List.forall_mem_singleton.mpr (hclass n).1, hone _⟩,
    ⟨List.forall_mem_singleton.mpr (hclass n).2, hone _⟩⟩

theorem trailing_matches (n : ℕ) : (Piece.run isSpace 0 none).Matches (List.replicate n ' ') := by
  refine ⟨fun c hc => ?_, Nat.zero_le _, fun _ h => absurd h (Option.not_mem_none _)⟩
  rw [List.eq_of_mem_replicate hc]
  rfl

theorem status_word : a.status.text.toList ∈ ["ESTABLISHED".toList, "CONNECTING".toList] := by
  cases a.status
  · exact List.mem_cons_self
  · exact List.mem_cons_of_mem _ List.mem_cons_self

/-- **The row of XStat** shows the name and the connection state. -/
theorem xstatRow_reads : XstatRow a.xstatRow (a.name, a.status) where
  grammar := by
    refine ⟨a.xstatGroups, String.toList_ofList, ?_⟩
    have haddress : wordPiece.Matches a.address.toList := by
      refine ⟨a.word.2, ?_, fun _ h => absurd h (Option.not_mem_none _)⟩
      rw [Nat.one_le_iff_ne_zero, ne_eq, List.length_eq_zero_iff, String.toList_eq_nil_iff]
      exact a.word.1
    have hdirection : (if a.inbound then "IN".toList else "OUT".toList) ∈
        ["IN".toList, "OUT".toList] := by
      cases a.inbound
      · exact List.mem_cons_of_mem _ List.mem_cons_self
      · exact List.mem_cons_self
    exact .cons a.name_matches <| .cons (a.blanks_matches 0) <| .cons haddress <|
      .cons (a.blanks_matches 1) <| .cons (digits_matches _) <| .cons (a.blanks_matches 2) <|
      .cons hdirection <| .cons (a.blanks_matches 3) <| .cons (twoDigits_matches _) <|
      .cons List.mem_cons_self <| .cons (sixty_matches _).1 <| .cons (sixty_matches _).2 <|
      .cons List.mem_cons_self <| .cons (sixty_matches _).1 <| .cons (sixty_matches _).2 <|
      .cons (a.blanks_matches 4) <| .cons a.status_word <| .cons (trailing_matches _) .nil
  name := by
    rw [xstatRow, String.toList_ofList]
    exact (takeWhile_word a.name_word (head_of_space (a.blanks_space 0) (Nat.succ_le_of_lt
      (Nat.succ_pos _)))).1
  status := by
    have hword : ∀ c ∈ a.status.text.toList, nonSpace c = true := by
      refine List.all_eq_true.mp ?_
      cases a.status <;> decide
    have hne : a.status.text.toList ≠ [] := by
      cases a.status <;> decide
    have hsplit : a.xstatGroups.flatten = (a.xstatGroups.take 15).flatten ++
        (a.blanks 4 ++ (a.status.text.toList ++ List.replicate (a.pad 5) ' ')) := by
      simp [xstatGroups]
    rw [xstatRow, String.toList_ofList, hsplit]
    exact lastWord_append (a.blanks_space 4) (Nat.succ_le_of_lt (Nat.succ_pos _)) hword hne
      (trailing_matches _).1
  safe := a.safe

theorem signed_matches (z : ℤ) : List.Forall₂ Piece.Matches
    [.run (fun c => c = '-') 0 (some 1), .run isDigit 1 none] (signed z) := by
  refine .cons ?_ (.cons (digits_matches _) .nil)
  split_ifs
  · exact ⟨List.forall_mem_singleton.mpr rfl, Nat.zero_le _,
      fun h hh => Nat.le_of_eq (Option.some.inj hh)⟩
  · exact ⟨fun c hc => absurd hc List.not_mem_nil, Nat.zero_le _, fun h _ => Nat.zero_le h⟩

/-- **The row of SawStat** shows the name and whether it is keyed. -/
theorem sawstatRow_reads : SawstatRow a.sawstatRow (a.name, a.keyed) where
  grammar := by
    have hbit : (Piece.run (fun c => c = '0' || c = '1') 1 (some 1)).Matches
        [if a.keyed then '1' else '0'] := by
      refine ⟨List.forall_mem_singleton.mpr ?_, le_refl 1, fun h hh => Nat.le_of_eq (Option.some.inj hh)⟩
      cases a.keyed <;> rfl
    refine ⟨a.sawstatGroups, String.toList_ofList, ?_⟩
    exact .cons a.name_matches <| .cons (a.blanks_matches 6) <| .cons hbit <|
      .cons (a.blanks_matches 7) <| List.rel_append (signed_matches a.lastKeyed) <|
      .cons (a.blanks_matches 8) <| List.rel_append (signed_matches a.lastUnkeyed) <|
      .cons (trailing_matches _) .nil
  name := by
    rw [sawstatRow, String.toList_ofList]
    exact (takeWhile_word a.name_word (head_of_space (a.blanks_space 6) (Nat.succ_le_of_lt
      (Nat.succ_pos _)))).1
  keyed := by
    have hone : 1 ≤ (a.blanks 6).length := Nat.succ_le_of_lt (Nat.succ_pos _)
    have hbit : nonSpace (if a.keyed then '1' else '0') = true := by
      cases a.keyed <;> rfl
    have hsplit : a.sawstatGroups.flatten = a.name.toList ++ (a.blanks 6 ++
        ([if a.keyed then '1' else '0'] ++ (a.blanks 7 ++ (a.sawstatGroups.drop 4).flatten))) := by
      simp [sawstatGroups]
    rw [sawstatRow, String.toList_ofList, hsplit]
    rw [(firstWord_append a.name_word (a.blanks_space 6) hone ?_).2]
    · exact (takeWhile_word (List.forall_mem_singleton.mpr hbit) (head_of_space (a.blanks_space 7)
        (Nat.succ_le_of_lt (Nat.succ_pos _)))).1
    · intro c hc
      cases hc
      simpa [nonSpace] using hbit
  safe := a.safe

end Adjacent

/-! ## The replies -/

section

variable {lower : String → String} {headers : List (String × String)} {m : Message}

/-- The rows of a decoded reply are the values that were written. -/
theorem rows_of_decodes (hlower : ∀ k, Py.lower (lower k) = lower k)
    (hd : Decodes (received lower headers) m) (key : String) :
    (Reply.mapping m).rows key = valuesOf (received lower headers) key := by
  have hkeys : ∀ f ∈ m, Py.lower f.1 = f.1 := by
    intro f hf
    have hsome : (m.lookup f.1).isSome := lookup_isSome_iff_mem.mpr (List.mem_map_of_mem hf)
    rw [hd.fields, Option.isSome_iff_ne_none, ne_eq, fieldOf_eq_none] at hsome
    obtain ⟨v, hv⟩ := List.exists_mem_of_ne_nil _ hsome
    obtain ⟨h, hh, -⟩ := List.mem_map.mp hv
    obtain ⟨hr, hkey⟩ := List.mem_filter.mp hh
    obtain ⟨k, -, rfl⟩ := List.mem_map.mp hr
    rw [← of_decide_eq_true hkey]
    exact hlower k.1
  have hsame : m.map (fun f => (Py.lower f.1, f.2)) = m := by
    calc m.map (fun f => (Py.lower f.1, f.2))
        = m.map id := List.map_congr_left fun f hf => Prod.ext (hkeys f hf) rfl
      _ = m := List.map_id m
  have hlookup : m.reverse.lookup key = m.lookup key := by
    have hn : (m.reverse.map Prod.fst).Nodup := by
      rw [List.map_reverse, List.nodup_reverse]
      exact hd.keys
    refine Option.ext fun v => ?_
    rw [lookup_eq_some_iff_mem hn, lookup_eq_some_iff_mem hd.keys, List.mem_reverse]
  rw [Reply.rows, lowerKeys, hsame, fieldValues, hlookup, hd.fields]
  rcases valuesOf (received lower headers) key with _ | ⟨v, _ | ⟨w, vs⟩⟩ <;> rfl

end

/-- What has a row for every entry has one in another order, for the entries in that order. -/
theorem forall₂_of_perm {α β : Type*} {R : α → β → Prop} {rows rows' : List α} {entries : List β}
    (hp : rows.Perm rows') (hf : List.Forall₂ R rows' entries) :
    ∃ entries', List.Forall₂ R rows entries' ∧ entries'.Perm entries :=
  List.perm_comp_forall₂ hp hf

namespace Station

variable (s : Station)

theorem vars_keys : s.vars.map Prod.fst = keys ++ s.others.map Prod.fst := rfl

theorem var_rows : List.Forall₂ VarRow s.varRows s.vars := by
  refine List.forall₂_map_left_iff.mpr (List.forall₂_same.mpr fun v hv => ⟨?_, rfl⟩)
  have hk := List.mem_map_of_mem (f := Prod.fst) hv
  rw [s.vars_keys, List.mem_append] at hk
  rcases hk with hk | hk
  · have hfixed : ∀ k ∈ keys, k ≠ "" ∧ '=' ∉ k.toList := by decide +kernel
    exact hfixed v.1 hk
  · obtain ⟨w, hw, hk⟩ := List.mem_map.mp hk
    rw [← hk]
    exact ⟨(s.otherKeys.2 w hw).1, (s.otherKeys.2 w hw).2.1⟩

theorem var_keys : (s.vars.map Prod.fst).Nodup := by
  rw [s.vars_keys, List.nodup_append]
  refine ⟨by decide, s.otherKeys.1, ?_⟩
  rintro k hk k' hk' rfl
  obtain ⟨v, hv, rfl⟩ := List.mem_map.mp hk'
  exact (s.otherKeys.2 v hv).2.2 hk

/-- The names of the links, whatever stands beside them. -/
theorem map_names {ν : Type} (f : Adjacent → ν) :
    (s.links.map fun a => (a.name, f a)).map Prod.fst = s.links.map Adjacent.name := by
  rw [List.map_map]
  rfl

theorem alinks_lookup {a : Adjacent} (ha : a ∈ s.links) :
    s.alinks.links.lookup a.name = if a.mode = .unknown then none else some ⟨a.mode, a.keyed⟩ := by
  have hmem : ∀ x : Alink, (a.name, x) ∈ s.alinks.links ↔ a.mode ≠ .unknown ∧ x = ⟨a.mode, a.keyed⟩ := by
    intro x
    constructor
    · intro h
      obtain ⟨b, hb, heq⟩ := List.mem_map.mp h
      obtain ⟨hb, hmode⟩ := List.mem_filter.mp hb
      obtain ⟨hname, rfl⟩ := Prod.mk.inj heq
      obtain rfl := List.inj_on_of_nodup_map s.names hb ha hname
      exact ⟨of_decide_eq_true hmode, rfl⟩
    · rintro ⟨hmode, rfl⟩
      exact List.mem_map.mpr ⟨a, List.mem_filter.mpr ⟨ha, decide_eq_true hmode⟩, rfl⟩
  refine Option.ext fun x => ?_
  rw [lookup_eq_some_iff_mem s.alinks.names, hmem]
  split_ifs with h
  · exact iff_of_false (fun h' => h'.1 h) not_false
  · rw [Option.some.injEq, eq_comm (a := Alink.mk _ _)]
    exact and_iff_right h

variable {s} {xstat sawstat : Reply} {node : String}

/-- **The rows of one state are a consistent reading**, whose state is that one. -/
theorem evidence (hx : xstat.Answers node) (hs : sawstat.Answers node)
    (hvar : (xstat.rows "var").Perm s.varRows)
    (hconn : xstat.rows "conn" = s.links.map Adjacent.xstatRow)
    (hsaw : (sawstat.rows "conn").Perm (s.links.map Adjacent.sawstatRow)) :
    ∃ E : Evidence xstat sawstat node, ∀ epoch now, E.snapshot epoch now = s.state node epoch now := by
  obtain ⟨vars, hvars, hpv⟩ := forall₂_of_perm hvar s.var_rows
  have hread : List.Forall₂ SawstatRow (s.links.map Adjacent.sawstatRow)
      (s.links.map fun a => (a.name, a.keyed)) :=
    List.forall₂_map_left_iff.mpr (List.forall₂_map_right_iff.mpr
      (List.forall₂_same.mpr fun a _ => a.sawstatRow_reads))
  obtain ⟨keyed, hkeyed, hpk⟩ := forall₂_of_perm hsaw hread
  have hkeys : (keyed.map Prod.fst).Perm (s.links.map Adjacent.name) := by
    rw [← s.map_names Adjacent.keyed]
    exact hpk.map Prod.fst
  have hlookup : ∀ a ∈ s.links, keyed.lookup a.name = some a.keyed := fun a ha =>
    (lookup_eq_some_iff_mem (hkeys.nodup_iff.mpr s.names)).mpr
      (hpk.mem_iff.mpr (List.mem_map_of_mem (f := fun a : Adjacent => (a.name, a.keyed)) ha))
  refine ⟨{
    vars
    rxKeyed := s.rxKeyed
    txKeyed := s.txKeyed
    connections := s.links.map fun a => (a.name, a.status)
    alinks := s.alinks.links
    keyed
    xstat_answers := hx
    sawstat_answers := hs
    var_rows := hvars
    var_keys := (hpv.map Prod.fst).nodup_iff.mpr s.var_keys
    rx_var := hpv.mem_iff.mpr List.mem_cons_self
    tx_var := hpv.mem_iff.mpr (List.mem_cons_of_mem _ List.mem_cons_self)
    links_var := ?_
    alinks_var := ?_
    conn_rows := ?_
    conn_names := ?_
    saw_rows := hkeyed
    saw_names := hkeys.nodup_iff.mpr s.names
    same_names := ?_
    listed := ?_
    agree := ?_ }, fun epoch now => ?_⟩
  · intro value hv
    rcases List.mem_append.mp (hpv.mem_iff.mp hv) with hv | hv
    · have hk : "RPT_LINKS" ∈ keys := List.mem_map_of_mem (f := Prod.fst) hv
      exact absurd hk (by decide)
    · exact s.untruncated value hv
  · refine ⟨s.alinks.value, s.alinks.count, hpv.mem_iff.mpr ?_, hpv.mem_iff.mpr ?_,
      alinksText_iff.mpr ⟨s.alinks, rfl, rfl, rfl⟩⟩
    · exact List.mem_append_left _ (by simp)
    · exact List.mem_append_left _ (by simp)
  · rw [hconn]
    exact List.forall₂_map_left_iff.mpr (List.forall₂_map_right_iff.mpr
      (List.forall₂_same.mpr fun a _ => a.xstatRow_reads))
  · rw [s.map_names]
    exact s.names
  · intro name
    rw [s.map_names, hkeys.mem_iff]
  · intro x hx
    obtain ⟨a, ha, rfl⟩ := List.mem_map.mp hx
    rw [s.map_names]
    exact List.mem_map_of_mem (List.mem_filter.mp ha).1
  · intro x hx k hk
    obtain ⟨a, ha, rfl⟩ := List.mem_map.mp hx
    have h := (lookup_eq_some_iff_mem (hkeys.nodup_iff.mpr s.names)).mpr hk
    rw [hlookup a (List.mem_filter.mp ha).1] at h
    exact (Option.some.inj h).symm
  · have hlinks : (s.links.map fun a => (a.name, a.status)).map (linkOf s.alinks.links keyed) =
        s.links.map Adjacent.link := by
      rw [List.map_map]
      refine List.map_congr_left fun a ha => ?_
      have hmode : (Option.map Alink.mode
          (if a.mode = .unknown then none else some ⟨a.mode, a.keyed⟩)).getD .unknown = a.mode := by
        split_ifs with h
        · exact h.symm
        · rfl
      simp only [Function.comp_apply, linkOf, s.alinks_lookup ha, hlookup a ha, hmode, Adjacent.link,
        Option.getD_some]
    simp only [Evidence.snapshot, Evidence.links, hlinks, state, List.any_map]
    rfl

end Station

/-- **An observation shows the state that the node has.** The node answers both reads of the session
with the rows of its state, its variables and the rows of SawStat in any order, whatever other headers
the replies have and whatever events it writes between them. -/
theorem observation_end_to_end (lower : String → String)
    (hlower : ∀ k, Py.lower (lower k) = lower k) (cfg : Config) (peer : Peer) (node now uuid : String)
    (x : Script) (h : x.Served lower cfg peer (rptStatus "XStat" node) (rptStatus "SawStat" node))
    (s : Station) (hnode : valuesOf (received lower x.first) "node" = [node] ∧
      valuesOf (received lower x.second) "node" = [node])
    (hvar : (valuesOf (received lower x.first) "var").Perm s.varRows)
    (hconn : valuesOf (received lower x.first) "conn" = s.links.map Adjacent.xstatRow)
    (hsaw : (valuesOf (received lower x.second) "conn").Perm (s.links.map Adjacent.sawstatRow)) :
    (Observer.observed cfg peer node false now uuid).1 = .ok (s.state node peer.epoch now) := by
  obtain ⟨xstat, sawstat, hanswered, hdx, hds⟩ := h.answered
  have hx : (Reply.mapping xstat).Answers node := by
    refine ⟨?_, ?_⟩
    · rw [rows_of_decodes hlower hdx]
      exact h.replies.2.1.1
    · rw [rows_of_decodes hlower hdx]
      exact hnode.1
  have hs : (Reply.mapping sawstat).Answers node := by
    refine ⟨?_, ?_⟩
    · rw [rows_of_decodes hlower hds]
      exact h.replies.2.2.1
    · rw [rows_of_decodes hlower hds]
      exact hnode.2
  obtain ⟨E, hE⟩ := Station.evidence (s := s) hx hs
    (by rw [rows_of_decodes hlower hdx]; exact hvar)
    (by rw [rows_of_decodes hlower hdx]; exact hconn)
    (by rw [rows_of_decodes hlower hds]; exact hsaw)
  rw [observed_of_answered hanswered]
  obtain ⟨state, hstate, hcases⟩ := snapshot_replies node xstat sawstat peer.epoch false now uuid
  rw [hstate]
  rcases hcases with ⟨E', -, rfl⟩ | ⟨hempty, -⟩
  · rw [E'.snapshot_unique E, hE]
    rfl
  · exact ((hempty rfl).false E).elim

/-! ## A node -/

/-- A node that transceives with one keyed link, beside a client that `RPT_ALINKS` leaves out. -/
def sampleStation : Station where
  rxKeyed := false
  txKeyed := true
  links := [
    { name := "2000", address := "10.0.0.7", reconnects := 3, inbound := false, hours := 0,
      minutes := 12, seconds := 5, status := .established, mode := .T, keyed := true, lastKeyed := 0,
      lastUnkeyed := -1, pad := fun _ => 0
      safe := (safeName_eq_ok.mp rfl).2
      word := ⟨by decide, List.all_eq_true.mp (by decide +kernel)⟩ },
    { name := "W5XYZ-P", address := "192.0.2.1", reconnects := 0, inbound := true, hours := 101,
      minutes := 0, seconds := 59, status := .connecting, mode := .unknown, keyed := false,
      lastKeyed := 44, lastUnkeyed := 7, pad := fun i => i
      safe := (safeName_eq_ok.mp rfl).2
      word := ⟨by decide, List.all_eq_true.mp (by decide +kernel)⟩ }]
  others := [("RPT_LINKS", "2,T2000,TW5XYZ-P"), ("RPT_ETXKEYED", "0")]
  names := by decide
  otherKeys := by decide +kernel
  untruncated := by
    intro value hv
    simp only [List.mem_cons, Prod.mk.injEq, List.not_mem_nil, or_false] at hv
    rcases hv with ⟨-, rfl⟩ | ⟨h, -⟩
    · decide +kernel
    · exact absurd h (by decide)

/-- What the node writes, with an event in front of its second reply and the rows of SawStat the other
way round. -/
def sampleScript : Script where
  booting := []
  login := [("Response", "Success"), ("ActionID", "a0")]
  before := []
  first := [("Response", "Success"), ("ActionID", "a1"), ("Node", "546051")] ++
    sampleStation.varRows.map (fun row => ("Var", row)) ++
    sampleStation.links.map fun a => ("Conn", a.xstatRow)
  between := [[("Event", "RPT_TXKEYED"), ("Channel", "DAHDI/pseudo-1")]]
  second := [("Response", "Success"), ("ActionID", "a2"), ("Node", "546051")] ++
    sampleStation.links.reverse.map fun a => ("Conn", a.sawstatRow)

/-- The session with this node. -/
def samplePeer : Peer where
  connect := .ok ()
  banner := .ok "Asterisk Call Manager/9.0.0"
  epoch := "epoch"
  actionId := fun n => "a" ++ toString n
  drain := fun _ => .ok ()
  frames := fun n => streamFrames Py.lower n (octets sampleScript.frames ++ [])
  closed := .ok ()

theorem sampleScript_served : sampleScript.Served Py.lower ⟨.dict []⟩ samplePeer
    (rptStatus "XStat" "546051") (rptStatus "SawStat" "546051") where
  connect := rfl
  banner := ⟨_, rfl, by decide +kernel⟩
  closed := rfl
  sent := sent_of_check (by decide +kernel)
  stream := ⟨[], rfl⟩
  frameable := by
    have hcheck : sampleScript.frames.all (checkFrame Py.lower) = true := by decide +kernel
    exact fun headers hm => frameable_of_check (List.all_eq_true.mp hcheck headers hm)
  events := by
    refine List.forall_mem_singleton.mpr ⟨?_, ?_⟩
    · decide +kernel
    · decide +kernel
  budget := by decide
  replies := by
    refine ⟨?_, ?_, ?_⟩
    · exact ⟨by decide +kernel, by decide +kernel⟩
    · exact ⟨by decide +kernel, by decide +kernel⟩
    · exact ⟨by decide +kernel, by decide +kernel⟩

/-- Lowering what is lowered changes nothing. -/
theorem lower_lower (text : String) : Py.lower (Py.lower text) = Py.lower text := by
  have hchar : ∀ c, (lowerChar c).flatMap lowerChar = lowerChar c := by
    intro c
    by_cases hupper : 'A' ≤ c ∧ c ≤ 'Z'
    · obtain ⟨hlo, hhi⟩ : 65 ≤ c.toNat ∧ c.toNat ≤ 90 :=
        ⟨char_le_iff.mp hupper.1, char_le_iff.mp hupper.2⟩
      rw [← Char.ofNat_toNat c]
      generalize c.toNat = n at hlo hhi
      interval_cases n <;> decide
    · unfold lowerChar
      split_ifs with hi hk
      · decide
      · decide
      · rw [List.flatMap_singleton, if_neg hupper, if_neg hi, if_neg hk]
  rw [Py.lower, Py.lower, String.toList_ofList, List.flatMap_assoc]
  exact congrArg String.ofList (congrArg (List.flatMap · text.toList) (funext hchar))

/-- It is observed as it is. -/
theorem observation_end_to_end_sample :
    (Observer.observed ⟨.dict []⟩ samplePeer "546051" false "now" "uuid").1 =
      .ok (sampleStation.state "546051" "epoch" "now") :=
  observation_end_to_end Py.lower lower_lower ⟨.dict []⟩ samplePeer "546051" "now" "uuid" sampleScript
    sampleScript_served sampleStation ⟨by decide +kernel, by decide +kernel⟩
    (List.Perm.of_eq (by decide +kernel)) (by decide +kernel)
    ((List.Perm.of_eq (by decide +kernel)).trans (List.reverse_perm _))

end Asl3
