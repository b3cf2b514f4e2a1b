import Asl3Api.Vnext.Snapshot

/-!
# Facts in the raw replies

What a client of app_rpt can read in the text of the replies, and what becomes of it in a
consistent reading.

* `HasConn`, `ConnState`, `ConnKeyed`: what the `Conn` rows say of a name;
* `Lists`: what `RPT_ALINKS` says of a name;
* `Evidence.hasConn_iff`, `Evidence.connState_iff`, `Evidence.connKeyed_iff`,
  **`Evidence.lists_iff`**: a consistent reading holds these facts and no others.
-/

set_option autoImplicit false

namespace Asl3

open Py

/-- A `Conn` row of the reply has the name. -/
def HasConn (reply : Reply) (name : String) : Prop :=
  ∃ row ∈ reply.rows "conn", firstWord row.toList = name.toList

/-- XStat has a `Conn` row of the name with the state. -/
def ConnState (xstat : Reply) (name : String) (status : ConnectionStatus) : Prop :=
  ∃ row ∈ xstat.rows "conn", firstWord row.toList = name.toList ∧
    lastWord row.toList = status.text.toList

/-- SawStat has a `Conn` row of the name that is keyed, or not. -/
def ConnKeyed (sawstat : Reply) (name : String) (keyed : Bool) : Prop :=
  ∃ row ∈ sawstat.rows "conn", firstWord row.toList = name.toList ∧
    firstWord (afterWord row.toList) = [if keyed then '1' else '0']

/-- `RPT_ALINKS` has an entry of the name with a mode letter and a key letter. -/
def Lists (xstat : Reply) (name : String) (mode key : Char) : Prop :=
  ∃ value, "RPT_ALINKS=" ++ value ∈ xstat.rows "var" ∧
    name.toList ++ [mode, key] ∈ (value.toList.splitOn ',').tail

/-- An entry of a dict in which no key comes twice is the only one of its key. -/
theorem entry_unique {ν : Type} {d : List (String × ν)} (hn : (d.map Prod.fst).Nodup) {k : String}
    {v v' : ν} (h : (k, v) ∈ d) (h' : (k, v') ∈ d) : v = v' := by
  rw [← lookup_eq_some_iff_mem hn] at h h'
  exact Option.some.inj (h.symm.trans h')

theorem status_text_injective {s s' : ConnectionStatus} (h : s.text = s'.text) : s = s' := by
  cases s <;> cases s' <;> first | rfl | exact absurd h (by decide)

theorem digit_injective {b b' : Bool}
    (h : (if b = true then '1' else '0') = if b' = true then '1' else '0') : b = b' := by
  cases b <;> cases b' <;> first | rfl | exact absurd h (by decide)

theorem linkMode?_injective {c c' : Char} {mode : LinkMode} (h : linkMode? c = some mode)
    (h' : linkMode? c' = some mode) : c = c' := by
  rw [linkMode?_iff] at h h'
  exact List.singleton_inj.mp (h.symm.trans h')

theorem keyed?_injective {c c' : Char} {keyed : Bool} (h : keyed? c = some keyed)
    (h' : keyed? c' = some keyed) : c = c' := by
  rw [keyed?_iff] at h h'
  exact h.trans h'.symm

namespace Evidence

variable {xstat sawstat : Reply} {node : String} (E : Evidence xstat sawstat node)

include E

/-- The variables are those of the rows. -/
theorem var_iff (key value : String) (hne : key.toList ≠ []) (heq : '=' ∉ key.toList) :
    key ++ "=" ++ value ∈ xstat.rows "var" ↔ (key, value) ∈ E.vars := by
  constructor
  · intro h
    obtain ⟨⟨k, v⟩, hm, hr⟩ := forall₂_mem_left E.var_rows h
    have hk := (varEntry_eq_ok hne heq (key ++ "=" ++ value) value).mpr rfl
    rw [varEntry_iff.mpr hr] at hk
    cases hk
    exact hm
  · intro h
    obtain ⟨row, hm, hr⟩ := forall₂_mem_right E.var_rows h
    rwa [← hr.text]

theorem hasConn_iff {name : String} : HasConn xstat name ↔ name ∈ E.connections.map Prod.fst := by
  constructor
  · rintro ⟨row, hm, hn⟩
    obtain ⟨c, hc, hr⟩ := forall₂_mem_left E.conn_rows hm
    rw [← String.toList_inj.mp (hr.name.symm.trans hn)]
    exact List.mem_map_of_mem hc
  · intro h
    obtain ⟨c, hc, rfl⟩ := List.mem_map.mp h
    obtain ⟨row, hm, hr⟩ := forall₂_mem_right E.conn_rows hc
    exact ⟨row, hm, hr.name⟩

theorem sawConn_iff {name : String} : HasConn sawstat name ↔ name ∈ E.keyed.map Prod.fst := by
  constructor
  · rintro ⟨row, hm, hn⟩
    obtain ⟨k, hk, hr⟩ := forall₂_mem_left E.saw_rows hm
    rw [← String.toList_inj.mp (hr.name.symm.trans hn)]
    exact List.mem_map_of_mem hk
  · intro h
    obtain ⟨k, hk, rfl⟩ := List.mem_map.mp h
    obtain ⟨row, hm, hr⟩ := forall₂_mem_right E.saw_rows hk
    exact ⟨row, hm, hr.name⟩

theorem connState_iff {name : String} {status : ConnectionStatus} :
    ConnState xstat name status ↔ (name, status) ∈ E.connections := by
  constructor
  · rintro ⟨row, hm, hn, hs⟩
    obtain ⟨⟨n, s⟩, hc, hr⟩ := forall₂_mem_left E.conn_rows hm
    obtain rfl : n = name := String.toList_inj.mp (hr.name.symm.trans hn)
    rw [← status_text_injective (String.toList_inj.mp (hr.status.symm.trans hs))]
    exact hc
  · intro h
    obtain ⟨row, hm, hr⟩ := forall₂_mem_right E.conn_rows h
    exact ⟨row, hm, hr.name, hr.status⟩

theorem connKeyed_iff {name : String} {keyed : Bool} :
    ConnKeyed sawstat name keyed ↔ (name, keyed) ∈ E.keyed := by
  constructor
  · rintro ⟨row, hm, hn, hk⟩
    obtain ⟨⟨n, k⟩, hc, hr⟩ := forall₂_mem_left E.saw_rows hm
    obtain rfl : n = name := String.toList_inj.mp (hr.name.symm.trans hn)
    rw [← digit_injective (List.cons.inj (hr.keyed.symm.trans hk)).1]
    exact hc
  · intro h
    obtain ⟨row, hm, hr⟩ := forall₂_mem_right E.saw_rows h
    exact ⟨row, hm, hr.name, hr.keyed⟩

/-- The tokens of `RPT_ALINKS` after the count are those of the links. -/
theorem alinks_tokens : ∃ value tokens, ("RPT_ALINKS", value) ∈ E.vars ∧
    (value.toList.splitOn ',').tail = tokens ∧ List.Forall₂ AlinkToken tokens E.alinks := by
  obtain ⟨value, count, hv, -, htext⟩ := E.alinks_var
  obtain ⟨tokens, hf, ht⟩ := htext.text
  refine ⟨value, tokens, hv, ?_, hf⟩
  by_cases hnil : E.alinks = []
  · rw [if_pos hnil] at ht
    rw [hnil] at hf
    rw [ht, List.forall₂_nil_right_iff.mp hf]
    rfl
  · rw [if_neg hnil] at ht
    have hcomma : ∀ t ∈ tokens, ',' ∉ t := by
      intro t hm
      obtain ⟨a, -, ha⟩ := forall₂_mem_left hf hm
      exact ha.not_comma
    rw [(splitOn_alinks (isCount_not_comma htext.numeral) hcomma).mpr ht]
    rfl

theorem alinks_names : (E.alinks.map Prod.fst).Nodup := by
  obtain ⟨_, _, -, -, htext⟩ := E.alinks_var
  exact htext.names

/-- **The links are the entries of `RPT_ALINKS`.** -/
theorem lists_iff {name : String} {m k : Char} : Lists xstat name m k ↔
    ∃ a, (name, a) ∈ E.alinks ∧ linkMode? m = some a.mode ∧ keyed? k = some a.keyed := by
  obtain ⟨value, tokens, hv, rfl, hf⟩ := E.alinks_tokens
  constructor
  · rintro ⟨value', hv', ht⟩
    have hmem := (E.var_iff "RPT_ALINKS" value' (by decide) (by decide)).mp hv'
    rw [entry_unique E.var_keys hmem hv] at ht
    obtain ⟨⟨n, a⟩, ha, ⟨m', k', htok, hm, hk⟩, -⟩ := forall₂_mem_left hf ht
    obtain ⟨hn, hmk⟩ := List.append_inj' htok rfl
    cases hmk
    rw [String.toList_inj.mp hn]
    exact ⟨a, ha, hm, hk⟩
  · rintro ⟨a, ha, hm, hk⟩
    obtain ⟨t, ht, ⟨m', k', rfl, hm', hk'⟩, -⟩ := forall₂_mem_right hf ha
    rw [linkMode?_injective hm hm', keyed?_injective hk hk']
    exact ⟨value, (E.var_iff "RPT_ALINKS" value (by decide) (by decide)).mpr hv, ht⟩

end Evidence

end Asl3
