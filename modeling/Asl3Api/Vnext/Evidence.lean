import Asl3Api.Vnext.Observation

/-!
# What a clear snapshot rests on

* `varEntry_eq_ok`, `xstatEntry_name`, `sawstatEntry_eq_ok`: what an accepted row says;
* `var_mem_iff`, `name_iff`: what an accepted reply says of its rows;
* `Idle`: the raw replies to XStat and SawStat show no traffic;
* **`idle_of_clear`**: a snapshot with clear traffic comes from such replies.
-/

set_option autoImplicit false

namespace Asl3

open Py

/-! ## Rows -/

/-- A variable is read from the row `key=value`. -/
theorem varEntry_eq_ok {key : String} (hne : key.toList ≠ []) (heq : '=' ∉ key.toList)
    (row value : String) : varEntry row = .ok (key, value) ↔ row = key ++ "=" ++ value := by
  unfold varEntry
  constructor
  · intro h
    rcases hp : partition '=' row.toList with ⟨k, found, v⟩
    simp only [hp] at h
    split_ifs at h with hc
    cases h
    rw [not_or, Bool.not_eq_false] at hc
    rw [hc.1] at hp
    rw [← String.toList_inj, partition_found hp]
    simp
  · rintro rfl
    have hl : (key ++ "=" ++ value).toList = key.toList ++ '=' :: value.toList := by simp
    simp [hl, partition_append heq, hne]

theorem xstatEntry_name {row name : String} {status : ConnectionStatus}
    (h : xstatEntry row = .ok (name, status)) : name.toList = firstWord row.toList := by
  unfold xstatEntry at h
  cases hm : fullmatch xstatConn row.toList with
  | none => rw [hm] at h; cases h
  | some groups =>
    obtain ⟨sp, rest, rfl, -⟩ := firstWord_of_fullmatch hm
    simp only [hm, List.getD_cons_zero, safeName, String.toList_ofList] at h
    split_ifs at h
    cases h
    exact String.toList_ofList

/-- A SawStat row is keyed when its second word is `1`, and the word is `0` otherwise. -/
theorem sawstatEntry_eq_ok {row name : String} {keyed : Bool}
    (h : sawstatEntry row = .ok (name, keyed)) : name.toList = firstWord row.toList ∧
      firstWord (afterWord row.toList) = [if keyed then '1' else '0'] := by
  unfold sawstatEntry at h
  cases hm : fullmatch sawstatConn row.toList with
  | none => rw [hm] at h; cases h
  | some groups =>
    obtain ⟨sp, rest, rfl, hs, hw, hsp, hlen, hf⟩ := firstWord_of_fullmatch hm
    obtain ⟨k, more, ⟨hk, hk1, hk2⟩, hf₁, rfl⟩ := List.forall₂_cons_left_iff.mp hf
    obtain ⟨sp', rest', ⟨hsp', hlen', -⟩, -, rfl⟩ := List.forall₂_cons_left_iff.mp hf₁
    have hone : k.length = 1 := le_antisymm (hk2 1 rfl) hk1
    obtain ⟨c, rfl⟩ := List.length_eq_one_iff.mp hone
    have hc : c = '0' ∨ c = '1' := by simpa using hk c (List.mem_singleton_self c)
    have hsecond : firstWord (afterWord row.toList) = [c] := by
      have hns : isSpace c = false := by rcases hc with rfl | rfl <;> rfl
      rw [hs, (firstWord_append hw hsp hlen (by simp [hns])).2]
      simp only [List.flatten_cons]
      exact (takeWhile_word (by simp [nonSpace, hns]) (head_of_space hsp' hlen')).1
    simp only [hm, List.getD_cons_zero, List.getD_cons_succ, safeName, String.toList_ofList] at h
    split_ifs at h
    cases h
    refine ⟨String.toList_ofList, ?_⟩
    rw [hsecond]
    rcases hc with rfl | rfl <;> rfl

/-! ## Replies -/

section

variable {xstat sawstat : Message} {node epoch now : String}

theorem parseXstat_eq_ok {x : Xstat} (h : parseXstat xstat node = .ok x) :
    collect varEntry varError [] (fieldValues (lowerKeys xstat) "var") = .ok x.vars ∧
      binary x.vars "RPT_RXKEYED" = true ∧ binary x.vars "RPT_TXKEYED" = true ∧
      collect xstatEntry (.valueError "Duplicate XStat Conn") []
        (fieldValues (lowerKeys xstat) "conn") = .ok x.connections := by
  unfold parseXstat at h
  simp only [bind_eq_ok] at h
  obtain ⟨-, -, vars, hvars, h⟩ := h
  split_ifs at h with h1 h2 h3
  rw [bind_eq_ok] at h
  obtain ⟨connections, hconn, h⟩ := h
  rw [bind_eq_ok] at h
  obtain ⟨alinks, -, h⟩ := h
  split_ifs at h
  cases h
  exact ⟨hvars, by simpa using h1, by simpa using h2, hconn⟩

theorem parseSawstat_eq_ok {keyed : List (String × Bool)} (h : parseSawstat sawstat node = .ok keyed) :
    collect sawstatEntry (.valueError "Duplicate SawStat Conn") []
      (fieldValues (lowerKeys sawstat) "conn") = .ok keyed := by
  unfold parseSawstat at h
  simp only [bind_eq_ok] at h
  obtain ⟨-, -, h⟩ := h
  exact h

/-- The rows of a variable are those of its value. -/
theorem var_mem_iff {rows : List String} {vars : List (String × String)}
    (h : collect varEntry varError [] rows = .ok vars) (key : String) (hne : key.toList ≠ [])
    (heq : '=' ∉ key.toList) (value : String) :
    key ++ "=" ++ value ∈ rows ↔ vars.lookup key = some value := by
  rw [collect_lookup h]
  simp only [varEntry_eq_ok hne heq, List.lookup_nil, reduceCtorEq, false_or, exists_eq_right]

/-- The names in the dict are the first words of the rows. -/
theorem name_iff {ν : Type} {entry : String → Except PyError (String × ν)} {duplicate : PyError}
    {rows : List String} {d : List (String × ν)} (h : collect entry duplicate [] rows = .ok d)
    (hname : ∀ row n v, entry row = .ok (n, v) → n.toList = firstWord row.toList) (name : String) :
    (∃ row ∈ rows, firstWord row.toList = name.toList) ↔ (d.lookup name).isSome := by
  constructor
  · rintro ⟨row, hr, hn⟩
    obtain ⟨n, v, he, hl⟩ := collect_entry h hr
    obtain rfl : n = name := String.toList_inj.mp ((hname row n v he).trans hn)
    rw [hl]
    rfl
  · intro hs
    obtain ⟨v, hv⟩ := Option.isSome_iff_exists.mp hs
    rcases (collect_lookup h name v).mp hv with hnil | ⟨row, hr, he⟩
    · cases hnil
    · exact ⟨row, hr, (hname row name v he).symm⟩

theorem sameNames_iff {connections : List (String × ConnectionStatus)} {keyed : List (String × Bool)}
    (h : sameNames connections keyed = true) (name : String) :
    (connections.lookup name).isSome ↔ (keyed.lookup name).isSome := by
  unfold sameNames at h
  simp only [Bool.and_eq_true, List.all_eq_true] at h
  constructor
  · intro hs
    obtain ⟨c, hc, he⟩ := List.lookup_isSome_iff.mp hs
    rw [beq_iff_eq.mp he]
    exact h.1 c hc
  · intro hs
    obtain ⟨k, hk, he⟩ := List.lookup_isSome_iff.mp hs
    rw [beq_iff_eq.mp he]
    exact h.2 k hk

/-- Every connection has a link with its keyed state. -/
theorem buildLinks_keyed {alinks : List (String × Alink)} {keyed : List (String × Bool)}
    {connections : List (String × ConnectionStatus)} {links : List DirectLink}
    (h : buildLinks alinks keyed connections = .ok links) :
    ∀ c ∈ connections, ∃ link ∈ links, keyed.lookup c.1 = some link.keyed := by
  induction connections generalizing links with
  | nil => exact fun c hc => absurd hc List.not_mem_nil
  | cons c connections ih =>
    obtain ⟨name, status⟩ := c
    rw [buildLinks] at h
    cases hk : keyed.lookup name with
    | none => simp only [hk] at h; cases h
    | some b =>
      simp only [hk] at h
      by_cases hm : ((alinks.lookup name).any fun a => a.keyed ≠ b) = true
      · rw [if_pos hm] at h
        cases h
      rw [if_neg hm] at h
      cases hb : buildLinks alinks keyed connections with
      | error e => rw [hb] at h; cases h
      | ok rest =>
        rw [hb] at h
        cases h
        intro c hc
        rcases List.mem_cons.mp hc with rfl | hc
        · exact ⟨_, List.mem_cons_self, hk⟩
        · obtain ⟨link, hl, he⟩ := ih hb c hc
          exact ⟨link, List.mem_cons_of_mem _ hl, he⟩

variable (xstat sawstat) in
/-- The raw replies show no traffic: neither side of the node is keyed, both replies name the same
direct links, and none of them is keyed. -/
structure Idle : Prop where
  rx : ∀ value, "RPT_RXKEYED=" ++ value ∈ fieldValues (lowerKeys xstat) "var" ↔ value = "0"
  tx : ∀ value, "RPT_TXKEYED=" ++ value ∈ fieldValues (lowerKeys xstat) "var" ↔ value = "0"
  links : ∀ name : String,
    (∃ row ∈ fieldValues (lowerKeys xstat) "conn", firstWord row.toList = name.toList) ↔
      ∃ row ∈ fieldValues (lowerKeys sawstat) "conn", firstWord row.toList = name.toList
  keyed : ∀ row ∈ fieldValues (lowerKeys sawstat) "conn", firstWord (afterWord row.toList) = ['0']

theorem value_of_binary {vars : List (String × String)} {key : String} (h : binary vars key = true)
    (h1 : vars.lookup key ≠ some "1") (value : String) : vars.lookup key = some value ↔ value = "0" := by
  unfold binary at h
  simp only [Bool.or_eq_true, decide_eq_true_eq] at h
  rw [h.resolve_right h1, Option.some.injEq, eq_comm]

theorem idle_of_combine {state : NodeState}
    (h : combine (.mapping xstat) (.mapping sawstat) node epoch now = .ok state)
    (hc : state.trafficState = .clear) : Idle xstat sawstat := by
  unfold combine at h
  simp only [bind_eq_ok] at h
  obtain ⟨x, hx, keyed, hk, h⟩ := h
  split_ifs at h with hnames
  rw [bind_eq_ok] at h
  obtain ⟨links, hl, h⟩ := h
  cases h
  -- no part of the evidence is active
  have hactive : x.vars.lookup "RPT_RXKEYED" ≠ some "1" ∧ x.vars.lookup "RPT_TXKEYED" ≠ some "1" ∧
      ∀ link ∈ links, link.keyed = false := by
    simp only at hc
    split_ifs at hc with ha
    simpa [and_assoc] using ha
  obtain ⟨hvars, hrx, htx, hconn⟩ := parseXstat_eq_ok hx
  have hsaw := parseSawstat_eq_ok hk
  have hsame := sameNames_iff (by simpa using hnames : sameNames x.connections keyed = true)
  refine ⟨fun value => ?_, fun value => ?_, fun name => ?_, fun row hr => ?_⟩
  · rw [← value_of_binary hrx hactive.1 value]
    exact var_mem_iff hvars "RPT_RXKEYED" (by decide) (by decide) value
  · rw [← value_of_binary htx hactive.2.1 value]
    exact var_mem_iff hvars "RPT_TXKEYED" (by decide) (by decide) value
  · rw [name_iff hconn (fun _ _ _ => xstatEntry_name) name,
      name_iff hsaw (fun _ _ _ he => (sawstatEntry_eq_ok he).1) name]
    exact hsame name
  · obtain ⟨n, b, he, hlook⟩ := collect_entry hsaw hr
    obtain ⟨c, hcm, hcn⟩ := List.lookup_isSome_iff.mp ((hsame n).mpr (by rw [hlook]; rfl))
    obtain ⟨link, hlm, hlk⟩ := buildLinks_keyed hl c hcm
    rw [← beq_iff_eq.mp hcn, hlook, Option.some.injEq, hactive.2.2 link hlm] at hlk
    rw [(sawstatEntry_eq_ok he).2, hlk]
    rfl

end

/-- **A snapshot with clear traffic** is not stale, and comes from replies that show none. -/
theorem idle_of_clear {node now uuid : String} {o : Observation} {state : NodeState}
    (h : Observer.snapshot node o now uuid = .ok state) (hc : state.trafficState = .clear) :
    ∃ xstat sawstat epoch, o = .replies xstat sawstat epoch false ∧ Idle xstat sawstat := by
  cases o with
  | failed e =>
    simp only [Observer.snapshot] at h
    split_ifs at h
    cases h
    cases hc
  | replies xstat sawstat epoch stale =>
    simp only [Observer.snapshot] at h
    split_ifs at h with hstale
    · cases h
      cases hc
    · rw [Bool.not_eq_true] at hstale
      rw [hstale]
      refine ⟨xstat, sawstat, epoch, rfl, ?_⟩
      unfold parseSnapshot at h
      cases hcomb : combine (.mapping xstat) (.mapping sawstat) node epoch now with
      | ok st =>
        simp only [hcomb] at h
        cases h
        exact idle_of_combine hcomb hc
      | error e =>
        cases e <;> simp only [hcomb] at h <;> cases h <;> cases hc

end Asl3
