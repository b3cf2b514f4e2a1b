import Asl3Api.Vnext.Alinks

/-!
# The evidence a snapshot rests on

`parse_snapshot` reads two replies that app_rpt does not build at one time. An `Evidence` is a
reading of both in which nothing is missing and nothing disagrees.

* `Evidence`: the consistent readings of a pair of replies;
* `Evidence.snapshot`: the state of the node such a reading shows;
* `combine_eq_ok`: the parser reads the pair exactly when it has such a reading;
* **`parse_snapshot_exact`**: what `parse_snapshot` returns for every pair of values.
-/

set_option autoImplicit false

namespace Asl3

open Py

/-- The texts of a header of a reply, its name in lower case. -/
def Reply.rows : Reply → String → List String
  | .mapping m, key => fieldValues (lowerKeys m) key
  | .other, _ => []

/-- The reply is a success, for the node. -/
structure Reply.Answers (reply : Reply) (node : String) : Prop where
  response : reply.rows "response" = ["Success"]
  node : reply.rows "node" = [node]

/-- The text of a keyed state. -/
def bit (b : Bool) : String := if b then "1" else "0"

/-- A consistent reading of a pair of replies for the node: the variables and the `Conn` rows of
both, in order, and the links of `RPT_ALINKS`. -/
structure Evidence (xstat sawstat : Reply) (node : String) where
  vars : List (String × String)
  rxKeyed : Bool
  txKeyed : Bool
  connections : List (String × ConnectionStatus)
  alinks : List (String × Alink)
  keyed : List (String × Bool)
  xstat_answers : xstat.Answers node
  sawstat_answers : sawstat.Answers node
  var_rows : List.Forall₂ VarRow (xstat.rows "var") vars
  var_keys : (vars.map Prod.fst).Nodup
  rx_var : ("RPT_RXKEYED", bit rxKeyed) ∈ vars
  tx_var : ("RPT_TXKEYED", bit txKeyed) ∈ vars
  links_var : ∀ value, ("RPT_LINKS", value) ∈ vars → contains value "000000" = false
  alinks_var : ∃ value count, ("RPT_ALINKS", value) ∈ vars ∧ ("RPT_NUMALINKS", count) ∈ vars ∧
    AlinksText value count alinks
  conn_rows : List.Forall₂ XstatRow (xstat.rows "conn") connections
  conn_names : (connections.map Prod.fst).Nodup
  saw_rows : List.Forall₂ SawstatRow (sawstat.rows "conn") keyed
  saw_names : (keyed.map Prod.fst).Nodup
  same_names : ∀ name, name ∈ connections.map Prod.fst ↔ name ∈ keyed.map Prod.fst
  listed : ∀ a ∈ alinks, a.1 ∈ connections.map Prod.fst
  agree : ∀ a ∈ alinks, ∀ k, (a.1, k) ∈ keyed → k = a.2.keyed

/-- The link of a `Conn` row: the mode of ALINKS, or unknown when it does not list the name, and the
keyed state of SawStat. -/
def linkOf (alinks : List (String × Alink)) (keyed : List (String × Bool))
    (c : String × ConnectionStatus) : DirectLink where
  node := c.1
  allstarNode := if isNode c.1 then some c.1 else none
  mode := ((alinks.lookup c.1).map Alink.mode).getD .unknown
  keyed := (keyed.lookup c.1).getD false
  connectionStatus := c.2

namespace Evidence

variable {xstat sawstat : Reply} {node : String} (E : Evidence xstat sawstat node)

/-- One link for every `Conn` row of XStat, in order. -/
def links : List DirectLink := E.connections.map (linkOf E.alinks E.keyed)

/-- The state of the node a consistent reading shows. -/
def snapshot (epoch now : String) : NodeState where
  node := node
  observedAt := now
  connectionEpoch := some epoch
  stateStatus := .complete
  trafficState :=
    if E.rxKeyed || E.txKeyed || E.links.any DirectLink.keyed then .active else .clear
  complete := true
  rxKeyed := some E.rxKeyed
  txKeyed := some E.txKeyed
  directLinks := some E.links

end Evidence

/-! ## The parts of the parser -/

theorem fieldScalar_eq_ok {message : Message} {key value : String} :
    fieldScalar message key = .ok value ↔ fieldValues message key = [value] := by
  unfold fieldScalar
  split
  · rename_i s hs
    rw [hs, Except.ok.injEq, List.cons.injEq, and_iff_left rfl]
  · rename_i hne
    simp only [reduceCtorEq, false_iff]
    exact fun h => hne value h

theorem checkReply_eq_ok {m : Message} {node text : String} {u : Unit} :
    checkReply (lowerKeys m) node text = .ok u ↔ (Reply.mapping m).Answers node := by
  unfold checkReply
  simp only [bind_eq_ok, throw_bind, check_eq_ok, fieldScalar_eq_ok, not_not]
  constructor
  · rintro ⟨response, hr, rfl, name, hn, rfl, -⟩
    exact ⟨hr, hn⟩
  · rintro ⟨hr, hn⟩
    exact ⟨"Success", hr, rfl, node, hn, rfl, rfl⟩

/-- What an accepted XStat reply says. -/
structure Xstat.Reads (x : Xstat) (m : Message) (node : String) : Prop where
  answers : (Reply.mapping m).Answers node
  var_rows : List.Forall₂ VarRow ((Reply.mapping m).rows "var") x.vars
  var_keys : (x.vars.map Prod.fst).Nodup
  rx : binary x.vars "RPT_RXKEYED" = true
  tx : binary x.vars "RPT_TXKEYED" = true
  links : contains ((x.vars.lookup "RPT_LINKS").getD "") "000000" = false
  conn_rows : List.Forall₂ XstatRow ((Reply.mapping m).rows "conn") x.connections
  conn_names : (x.connections.map Prod.fst).Nodup
  alinks : ∃ v c, x.vars.lookup "RPT_ALINKS" = some v ∧ x.vars.lookup "RPT_NUMALINKS" = some c ∧
    AlinksText v c x.alinks
  listed : ∀ a ∈ x.alinks, a.1 ∈ x.connections.map Prod.fst

theorem forall₂_iff {α β : Type*} {R S : α → β → Prop} (h : ∀ a b, R a b ↔ S a b) {as : List α}
    {bs : List β} : List.Forall₂ R as bs ↔ List.Forall₂ S as bs :=
  ⟨fun hf => hf.imp fun a b => (h a b).mp, fun hf => hf.imp fun a b => (h a b).mpr⟩

theorem alinks_any {alinks : List (String × Alink)} {connections : List (String × ConnectionStatus)} :
    (alinks.any fun a => (connections.lookup a.1).isNone) = false ↔
      ∀ a ∈ alinks, a.1 ∈ connections.map Prod.fst := by
  rw [List.any_eq_false]
  refine forall₂_congr fun a _ => ?_
  rw [← lookup_isSome_iff_mem, Option.isNone_iff_eq_none, ← Option.ne_none_iff_isSome]

theorem parseXstat_iff {m : Message} {node : String} {x : Xstat} :
    parseXstat m node = .ok x ↔ x.Reads m node := by
  unfold parseXstat
  simp only [bind_eq_ok, check_eq_ok, checkReply_eq_ok, collect_eq_ok, parseAlinks_eq_ok,
    Bool.not_eq_false, Bool.not_eq_true, alinks_any, forall₂_iff fun _ _ => varEntry_iff,
    forall₂_iff fun _ _ => xstatEntry_iff]
  constructor
  · rintro ⟨-, hans, vars, ⟨hvar, hkeys⟩, hrx, htx, hlinks, connections, ⟨hconn, hnames⟩, alinks,
      halinks, hlisted, h⟩
    cases h
    exact ⟨hans, hvar, hkeys, hrx, htx, hlinks, hconn, hnames, halinks, hlisted⟩
  · rintro ⟨hans, hvar, hkeys, hrx, htx, hlinks, hconn, hnames, halinks, hlisted⟩
    exact ⟨(), hans, x.vars, ⟨hvar, hkeys⟩, hrx, htx, hlinks, x.connections, ⟨hconn, hnames⟩,
      x.alinks, halinks, hlisted, rfl⟩

theorem parseSawstat_iff {m : Message} {node : String} {keyed : List (String × Bool)} :
    parseSawstat m node = .ok keyed ↔ (Reply.mapping m).Answers node ∧
      List.Forall₂ SawstatRow ((Reply.mapping m).rows "conn") keyed ∧
      (keyed.map Prod.fst).Nodup := by
  unfold parseSawstat
  simp only [bind_eq_ok, checkReply_eq_ok, collect_eq_ok, forall₂_iff fun _ _ => sawstatEntry_iff]
  exact ⟨fun ⟨_, h⟩ => h, fun h => ⟨(), h⟩⟩

theorem sameNames_eq_true {connections : List (String × ConnectionStatus)}
    {keyed : List (String × Bool)} : sameNames connections keyed = true ↔
      ∀ name, name ∈ connections.map Prod.fst ↔ name ∈ keyed.map Prod.fst := by
  constructor
  · intro h name
    rw [← lookup_isSome_iff_mem, ← lookup_isSome_iff_mem]
    exact sameNames_iff h name
  · intro h
    unfold sameNames
    rw [Bool.and_eq_true, List.all_eq_true, List.all_eq_true]
    exact ⟨fun c hc => lookup_isSome_iff_mem.mpr ((h c.1).mp (List.mem_map_of_mem hc)),
      fun k hk => lookup_isSome_iff_mem.mpr ((h k.1).mpr (List.mem_map_of_mem hk))⟩

/-- The loop over the connections: every name is keyed or not in SawStat, as ALINKS says. -/
theorem buildLinks_eq_ok {alinks : List (String × Alink)} {keyed : List (String × Bool)}
    {connections : List (String × ConnectionStatus)} {links : List DirectLink} :
    buildLinks alinks keyed connections = .ok links ↔
      (∀ c ∈ connections, ∃ k, keyed.lookup c.1 = some k ∧
        ∀ a ∈ alinks.lookup c.1, a.keyed = k) ∧ links = connections.map (linkOf alinks keyed) := by
  induction connections generalizing links with
  | nil =>
    rw [buildLinks, Except.ok.injEq, List.map_nil]
    simp only [List.not_mem_nil, false_implies, implies_true, true_and]
    exact eq_comm
  | cons c connections ih =>
    obtain ⟨name, status⟩ := c
    rw [buildLinks, List.forall_mem_cons, List.map_cons]
    cases hk : keyed.lookup name with
    | none => simp
    | some k =>
      dsimp only
      have hany : ((alinks.lookup name).any fun a => a.keyed ≠ k) = true ↔
          ¬ ∀ a ∈ alinks.lookup name, a.keyed = k := by
        cases alinks.lookup name <;> simp
      by_cases ha : ((alinks.lookup name).any fun a => a.keyed ≠ k) = true
      · rw [if_pos ha]
        simp only [reduceCtorEq, false_iff]
        rintro ⟨⟨⟨k', hk', hall⟩, -⟩, -⟩
        cases hk'
        exact hany.mp ha hall
      · rw [if_neg ha]
        have hall : ∀ a ∈ alinks.lookup name, a.keyed = k := not_not.mp (mt hany.mpr ha)
        have hlink : linkOf alinks keyed (name, status) =
            ⟨name, if isNode name then some name else none,
              ((alinks.lookup name).map Alink.mode).getD .unknown, k, status⟩ := by
          simp [linkOf, hk]
        rw [hlink]
        cases hb : buildLinks alinks keyed connections with
        | error e =>
          simp only [reduceCtorEq, false_iff]
          rintro ⟨⟨-, hrest⟩, -⟩
          have := ih.mpr ⟨hrest, rfl⟩
          rw [hb] at this
          cases this
        | ok rest =>
          obtain ⟨hrest, rfl⟩ := ih.mp hb
          simp only [Except.ok.injEq]
          constructor
          · rintro rfl
            exact ⟨⟨⟨k, rfl, hall⟩, hrest⟩, rfl⟩
          · rintro ⟨-, rfl⟩
            rfl

/-! ## The whole parser -/

theorem binary_iff {vars : List (String × String)} (hn : (vars.map Prod.fst).Nodup) {key : String} :
    binary vars key = true ↔ ∃ b, (key, bit b) ∈ vars := by
  unfold binary
  rw [Bool.or_eq_true, decide_eq_true_eq, decide_eq_true_eq, lookup_eq_some_iff_mem hn,
    lookup_eq_some_iff_mem hn, Bool.exists_bool]
  rfl

/-- A variable has the text of one keyed state. -/
theorem bit_of_mem {vars : List (String × String)} (hn : (vars.map Prod.fst).Nodup) {key : String}
    {b : Bool} (h : (key, bit b) ∈ vars) : decide (vars.lookup key = some "1") = b := by
  rw [(lookup_eq_some_iff_mem hn).mpr h]
  cases b <;> decide

/-- A reply that answers is a mapping. -/
theorem Reply.Answers.mapping {reply : Reply} {node : String} (h : reply.Answers node) :
    ∃ m, reply = .mapping m := by
  cases reply with
  | mapping m => exact ⟨m, rfl⟩
  | other => cases h.response

variable {xstat sawstat : Reply} {node epoch now : String}

/-- What the parser has read of the replies is the evidence. -/
theorem combine_eq_ok {state : NodeState} :
    combine xstat sawstat node epoch now = .ok state ↔
      ∃ E : Evidence xstat sawstat node, state = E.snapshot epoch now := by
  constructor
  · intro h
    unfold combine at h
    split at h
    · rename_i xs saw
      simp only [bind_eq_ok, check_eq_ok, parseXstat_iff, parseSawstat_iff, buildLinks_eq_ok,
        Bool.not_eq_false, sameNames_eq_true] at h
      obtain ⟨x, hx, keyed, ⟨hans, hrows, hnames⟩, hsame, links, ⟨hagree, rfl⟩, h⟩ := h
      obtain ⟨rx, hrx⟩ := (binary_iff hx.var_keys).mp hx.rx
      obtain ⟨tx, htx⟩ := (binary_iff hx.var_keys).mp hx.tx
      obtain ⟨v, c, hv, hc, htext⟩ := hx.alinks
      rw [lookup_eq_some_iff_mem hx.var_keys] at hv hc
      refine ⟨⟨x.vars, rx, tx, x.connections, x.alinks, keyed, hx.answers, hans, hx.var_rows,
        hx.var_keys, hrx, htx, ?_, ⟨v, c, hv, hc, htext⟩, hx.conn_rows, hx.conn_names, hrows, hnames,
        hsame, hx.listed, ?_⟩, ?_⟩
      · intro value hm
        have hl := hx.links
        rw [(lookup_eq_some_iff_mem hx.var_keys).mpr hm] at hl
        exact hl
      · rintro ⟨name, a⟩ ha k hk
        obtain ⟨⟨_, status⟩, hmem, rfl⟩ := List.mem_map.mp (hx.listed _ ha)
        obtain ⟨k', hk', hall⟩ := hagree _ hmem
        rw [(lookup_eq_some_iff_mem hnames).mpr hk] at hk'
        cases hk'
        exact (hall a ((lookup_eq_some_iff_mem htext.names).mpr ha)).symm
      · cases h
        simp only [bit_of_mem hx.var_keys hrx, bit_of_mem hx.var_keys htx]
        rfl
    · cases h
  · rintro ⟨E, rfl⟩
    obtain ⟨xs, rfl⟩ := E.xstat_answers.mapping
    obtain ⟨saw, rfl⟩ := E.sawstat_answers.mapping
    have hx : parseXstat xs node = .ok ⟨E.vars, E.connections, E.alinks⟩ := by
      obtain ⟨v, c, hv, hc, htext⟩ := E.alinks_var
      refine parseXstat_iff.mpr ⟨E.xstat_answers, E.var_rows, E.var_keys,
        (binary_iff E.var_keys).mpr ⟨_, E.rx_var⟩, (binary_iff E.var_keys).mpr ⟨_, E.tx_var⟩, ?_,
        E.conn_rows, E.conn_names, ⟨v, c, ?_, ?_, htext⟩, E.listed⟩
      · cases hl : E.vars.lookup "RPT_LINKS" with
        | none => decide
        | some value => exact E.links_var value ((lookup_eq_some_iff_mem E.var_keys).mp hl)
      · exact (lookup_eq_some_iff_mem E.var_keys).mpr hv
      · exact (lookup_eq_some_iff_mem E.var_keys).mpr hc
    have hk : parseSawstat saw node = .ok E.keyed :=
      parseSawstat_iff.mpr ⟨E.sawstat_answers, E.saw_rows, E.saw_names⟩
    have hl : buildLinks E.alinks E.keyed E.connections = .ok E.links := by
      refine buildLinks_eq_ok.mpr ⟨fun c hc => ?_, rfl⟩
      obtain ⟨k, hk⟩ := Option.isSome_iff_exists.mp
        (lookup_isSome_iff_mem.mpr ((E.same_names c.1).mp (List.mem_map_of_mem hc)))
      refine ⟨k, hk, fun a ha => ?_⟩
      obtain ⟨v, n, -, -, htext⟩ := E.alinks_var
      exact (E.agree (c.1, a) ((lookup_eq_some_iff_mem htext.names).mp ha) k
        ((lookup_eq_some_iff_mem E.saw_names).mp hk)).symm
    unfold combine
    simp only [bind_eq_ok, check_eq_ok, Bool.not_eq_false]
    refine ⟨_, hx, _, hk, sameNames_eq_true.mpr E.same_names, _, hl, ?_⟩
    simp only [bit_of_mem E.var_keys E.rx_var, bit_of_mem E.var_keys E.tx_var]
    rfl

/-! ## Errors -/

/-- `KeyError`, `TypeError` and `ValueError`. -/
inductive Caught : PyError → Prop where
  | value (text : String) : Caught (.valueError text)
  | type (text : String) : Caught (.typeError text)
  | key (key : String) : Caught (.keyError key)

/-- A computation that raises nothing else. -/
def Guarded {α : Type} (x : Except PyError α) : Prop := ∀ e, x = .error e → Caught e

section

variable {α β : Type}

theorem Guarded.ok {a : α} : Guarded (.ok a : Except PyError α) := nofun

theorem Guarded.error {e : PyError} (h : Caught e) : Guarded (.error e : Except PyError α) :=
  OnlyRaises.error h

theorem Guarded.bind {x : Except PyError α} {f : α → Except PyError β} (hx : Guarded x)
    (hf : ∀ a, Guarded (f a)) : Guarded (x >>= f) := OnlyRaises.bind hx hf

theorem Guarded.check {p : Prop} [Decidable p] {e : PyError} {x : Except PyError β} (he : Caught e)
    (hx : Guarded x) : Guarded (if p then throw e else x) := by
  split
  · exact .error he
  · exact hx

theorem Guarded.collect {entry : α → Except PyError (String × β)} {duplicate : PyError}
    (hentry : ∀ row, Guarded (entry row)) (hd : Caught duplicate) (rows : List α)
    (d : List (String × β)) : Guarded (Py.collect entry duplicate d rows) := by
  intro e h
  obtain rfl | ⟨row, -, hr⟩ := collect_eq_error h
  · exact hd
  · exact hentry row e hr

end

theorem Refuses.guarded {α : Type} {x : Except PyError α} (h : Refuses x) : Guarded x := by
  intro e he
  obtain ⟨text, rfl⟩ := h e he
  exact .value text

theorem safeName_guarded (name : String) : Guarded (safeName name) := (safeName_refuses name).guarded

theorem varEntry_guarded (row : String) : Guarded (varEntry row) := by
  unfold varEntry
  dsimp only
  split_ifs
  · exact .error (.value _)
  · exact .ok

theorem xstatEntry_guarded (row : String) : Guarded (xstatEntry row) := by
  unfold xstatEntry
  split
  · exact .error (.value _)
  · split
    · rename_i e h
      exact .error (safeName_guarded _ e h)
    · exact .ok

theorem sawstatEntry_guarded (row : String) : Guarded (sawstatEntry row) := by
  unfold sawstatEntry
  split
  · exact .error (.value _)
  · split
    · rename_i e h
      exact .error (safeName_guarded _ e h)
    · exact .ok

theorem parseAlinks_guarded (value count : Option String) : Guarded (parseAlinks value count) := by
  cases value with
  | none => exact .error (.type _)
  | some value => cases count with
    | none => exact .error (.type _)
    | some count => exact (parseAlinks_refuses value count).guarded

theorem fieldScalar_guarded (message : Message) (key : String) : Guarded (fieldScalar message key) := by
  unfold fieldScalar
  split
  · exact .ok
  · exact .error (.value _)

theorem checkReply_guarded (fields : Message) (node text : String) :
    Guarded (checkReply fields node text) := by
  unfold checkReply
  refine (fieldScalar_guarded _ _).bind fun response => ?_
  simp only [throw_bind]
  exact .check (.value _) ((fieldScalar_guarded _ _).bind fun name => .check (.value _) .ok)

theorem parseXstat_guarded (response : Message) (node : String) :
    Guarded (parseXstat response node) := by
  unfold parseXstat
  refine (checkReply_guarded _ _ _).bind fun _ => ?_
  refine (Guarded.collect varEntry_guarded (.value _) _ _).bind fun vars => ?_
  refine .check (.value _) (.check (.value _) (.check (.value _) ?_))
  refine (Guarded.collect xstatEntry_guarded (.value _) _ _).bind fun connections => ?_
  exact (parseAlinks_guarded _ _).bind fun alinks => .check (.value _) .ok

theorem parseSawstat_guarded (response : Message) (node : String) :
    Guarded (parseSawstat response node) := by
  unfold parseSawstat
  refine (checkReply_guarded _ _ _).bind fun _ => ?_
  exact .collect sawstatEntry_guarded (.value _) _ _

theorem buildLinks_guarded (alinks : List (String × Alink)) (keyed : List (String × Bool))
    (connections : List (String × ConnectionStatus)) :
    Guarded (buildLinks alinks keyed connections) := by
  induction connections with
  | nil => exact .ok
  | cons c connections ih =>
    rw [buildLinks]
    split
    · exact .error (.key _)
    · dsimp only
      split
      · exact .error (.value _)
      · split
        · rename_i e h
          exact .error (ih e h)
        · exact .ok

theorem combine_guarded (xstat sawstat : Reply) (node epoch now : String) :
    Guarded (combine xstat sawstat node epoch now) := by
  unfold combine
  split
  · refine (parseXstat_guarded _ _).bind fun x => (parseSawstat_guarded _ _).bind fun keyed => ?_
    exact .check (.value _) ((buildLinks_guarded _ _ _).bind fun links => .ok)
  · exact .error (.type _)

/-! ## What `parse_snapshot` returns -/

theorem parseSnapshot_cases (xstat sawstat : Reply) (node epoch now : String) :
    (∃ E : Evidence xstat sawstat node,
        parseSnapshot xstat sawstat node epoch now = .ok (E.snapshot epoch now)) ∨
      IsEmpty (Evidence xstat sawstat node) ∧ ∃ reason,
        parseSnapshot xstat sawstat node epoch now =
          .ok (unknownState node (some epoch) reason now) := by
  unfold parseSnapshot
  cases h : combine xstat sawstat node epoch now with
  | ok state =>
    obtain ⟨E, rfl⟩ := combine_eq_ok.mp h
    exact Or.inl ⟨E, rfl⟩
  | error e =>
    refine Or.inr ⟨⟨fun E => ?_⟩, ?_⟩
    · rw [combine_eq_ok.mpr ⟨E, rfl⟩] at h
      cases h
    · cases combine_guarded xstat sawstat node epoch now e h with
      | value text => exact ⟨_, rfl⟩
      | type text => exact ⟨_, rfl⟩
      | key key => exact ⟨_, rfl⟩

/-- The readings of a pair of replies show one state. -/
theorem Evidence.snapshot_unique {xstat sawstat : Reply} {node : String}
    (E E' : Evidence xstat sawstat node) (epoch now : String) :
    E.snapshot epoch now = E'.snapshot epoch now := by
  have h : combine xstat sawstat node epoch now = .ok (E.snapshot epoch now) :=
    combine_eq_ok.mpr ⟨E, rfl⟩
  rw [combine_eq_ok.mpr ⟨E', rfl⟩] at h
  exact (Except.ok.inj h).symm

/-- **What `parse_snapshot` makes of any pair of values.** It returns a state, and this is complete
exactly when the pair has a consistent reading; it is then the one that the reading shows, and
otherwise unknown. -/
theorem parse_snapshot_exact (xstat sawstat : Reply) (node epoch now : String) :
    ∃ state, parseSnapshot xstat sawstat node epoch now = .ok state ∧
      (state.complete = true ↔ Nonempty (Evidence xstat sawstat node)) ∧
      (∀ E : Evidence xstat sawstat node, state = E.snapshot epoch now) ∧
      (state.complete = false → ∃ reason, state = unknownState node (some epoch) reason now) := by
  rcases parseSnapshot_cases xstat sawstat node epoch now with ⟨E, h⟩ | ⟨hE, reason, h⟩
  · exact ⟨_, h, iff_of_true rfl ⟨E⟩, fun E' => E.snapshot_unique E' epoch now, nofun⟩
  · refine ⟨_, h, iff_of_false nofun ?_, fun E => (hE.false E).elim, fun _ => ⟨reason, rfl⟩⟩
    exact fun ⟨E⟩ => hE.false E

end Asl3
