import Asl3Api.Lib.Interleave
import Asl3Api.Vnext.Isolation
import Asl3Api.Runs.Invariant

/-!
# Several nodes on one ledger file

* `Shared`, `Shared.step`: one table, and for every node the process that owns its lock;
* `Life.Of`: a process is configured for its node;
* `sysStep_local`, `output_local`: a step of a node is local to its rows;
* `DistinctIds`: the ids two nodes take are distinct;
* **`node_isolation`**: to each node a run of all of them is a run of its own.
-/

set_option autoImplicit false

namespace Asl3

open Py Ledger

/-! ## One step -/

/-- The process is configured for the node. -/
def Life.Of (node : String) : Life → Prop
  | .down => True
  | .starting cfg _ => cfg.nodeNumber = node
  | .up p => p.node = node

/-- The id a step would give to a new operation. -/
def Label.newId : Label → Option String
  | .request _ _ _ _ env => some env.uuid
  | _ => none

variable {node : String} {t : Table} {life : Life} {l : Label}

/-- The step that a node takes from its own rows is the one it takes from the whole table, which changes
none of the other rows. -/
def SysLocal (node : String) (t : Table) (newId : Option String) (own all : Option Sys) : Prop :=
  own = all.map (fun s => ⟨restrict node s.table, s.life⟩) ∧
    ∀ s', all = some s' → Confined node newId t s'.table ∧ s'.life.Of node

theorem SysLocal.stuck {newId : Option String} : SysLocal node t newId none none := by
  refine ⟨rfl, fun s' hs => ?_⟩
  cases hs

theorem SysLocal.goes {newId : Option String} {t' : Table} (hc : Confined node newId t t')
    (ho : life.Of node) :
    SysLocal node t newId (some ⟨restrict node t', life⟩) (some ⟨t', life⟩) := by
  refine ⟨rfl, fun s' hs => ?_⟩
  cases hs
  exact ⟨hc, ho⟩

/-- **A step of a node is local to its rows.** -/
theorem sysStep_local (ho : life.Of node) (hf : ∀ u, l.newId = some u → FreshId node t u) :
    SysLocal node t l.newId (Sys.step node ⟨restrict node t, life⟩ l)
      (Sys.step node ⟨t, life⟩ l) := by
  cases l with
  | start cfg env =>
    simp only [Sys.step, documents_restrict]
    have hlock : Sys.locked ⟨restrict node t, life⟩ = Sys.locked ⟨t, life⟩ := rfl
    rw [hlock]
    by_cases hg : cfg.Valid ∧ cfg.nodeNumber = node ∧ Sys.locked ⟨t, life⟩ = false
    · by_cases hr : env.readOk = false
      · simp only [if_pos hg, if_pos hr]
        exact .goes .refl ho
      · simp only [if_pos hg, if_neg hr]
        exact .goes .refl hg.2.1
    · simp only [if_neg hg]
      exact .stuck
  | recover env =>
    cases life with
    | down => exact .stuck
    | up p => exact .stuck
    | starting cfg todo =>
      cases todo with
      | nil => exact .goes .refl ho
      | cons op todo =>
        obtain ⟨r, t', h, h', hc⟩ : Local node none t fun t => recoverRow t node op env :=
          recoverRow_local op env
        dsimp only at h h'
        simp only [Sys.step, h, h']
        cases r with
        | ok u => exact .goes hc ho
        | error e => exact .goes hc trivial
  | request kind request credential key env =>
    cases life with
    | down => exact .stuck
    | starting cfg todo => exact .stuck
    | up p =>
      have hn : p.node = node := ho
      subst hn
      obtain ⟨r, p', t', h, h', hc, hcfg⟩ : LocalCall p (some env.uuid) t fun t =>
        p.admitOperation t kind request credential key env := admit_local (hf env.uuid rfl)
      dsimp only at h h'
      simp only [Sys.step, h, h']
      by_cases hq : p.quiet = true
      · simp only [if_pos hq]
        exact .goes hc (congrArg Config.nodeNumber hcfg)
      · simp only [if_neg hq]
        exact .stuck
  | worker id i =>
    cases life with
    | down => exact .stuck
    | starting cfg todo => exact .stuck
    | up p =>
      have hn : p.node = node := ho
      subst hn
      simp only [Sys.step]
      cases p.runnable id with
      | none => exact .stuck
      | some w =>
        have hl : LocalStep p none t fun t => Execute.step p t w i := execute_local i
        rcases hl with ⟨h, h'⟩ | ⟨g, hg, p', t', n, h, h', hc, hcfg⟩
        · dsimp only at h h' ⊢
          rw [h, h']
          exact .stuck
        · have e := congrFun hg
          dsimp only at e ⊢
          rw [e, e, h, h']
          exact .goes hc ((congrArg Config.nodeNumber (settle_config ..)).trans
            (congrArg Config.nodeNumber hcfg))
  | close =>
    cases life with
    | down => exact .stuck
    | starting cfg todo => exact .stuck
    | up p =>
      simp only [Sys.step]
      by_cases hq : p.quiet = true
      · simp only [if_pos hq]
        exact .goes .refl ho
      · simp only [if_neg hq]
        exact .stuck
  | closed =>
    cases life with
    | down => exact .stuck
    | starting cfg todo => exact .stuck
    | up p =>
      simp only [Sys.step]
      by_cases hq : p.closing ∧ p.tasks.isEmpty
      · simp only [if_pos hq]
        exact .goes .refl ho
      · simp only [if_neg hq]
        exact .stuck
  | crash => exact .goes .refl trivial

/-- What a step of a node is observed to do depends only on its rows. -/
theorem output_local (ho : life.Of node) :
    Sys.output ⟨restrict node t, life⟩ l = Sys.output ⟨t, life⟩ l := by
  cases l with
  | worker id i =>
    cases life with
    | down => rfl
    | starting cfg todo => rfl
    | up p =>
      have hn : p.node = node := ho
      subst hn
      simp only [Sys.output]
      cases p.runnable id with
      | none => rfl
      | some w =>
        have hl : LocalStep p none t fun t => Execute.step p t w i := execute_local i
        rcases hl with ⟨h, h'⟩ | ⟨g, hg, p', t', n, h, h', -, -⟩
        · dsimp only at h h' ⊢
          rw [h, h']
        · have e := congrFun hg
          dsimp only at e ⊢
          rw [e, e, h, h']
  | _ => rfl

/-! ## Runs -/

/-- One ledger file, and for every node the process that owns its lock. -/
abbrev Shared := Table × (String → Life)

/-- A step of one node, on the shared table. -/
def nodeStep (node : String) (c : Table × Life) (l : Label) : Option (Table × Life) :=
  (Sys.step node ⟨c.1, c.2⟩ l).map fun s => (s.table, s.life)

/-- What it is observed to do. -/
def nodeOutput (_ : String) (c : Table × Life) (l : Label) : List Event := Sys.output ⟨c.1, c.2⟩ l

/-- One step of the node that the label names. -/
def Shared.step : Shared → String × Label → Option Shared := Lts.interleave nodeStep

/-- The events of a run of all nodes, each with its node. -/
def Shared.events (S : Shared) (ls : List (String × Label)) : List (String × Event) :=
  Lts.trace Shared.step (Lts.tagged nodeOutput) S ls

/-- A table, and no process yet. -/
def Shared.open (t : Table) : Shared := (t, fun _ => .down)

/-- `uuid4` gives a node no id that another node has, or takes later. -/
structure DistinctIds (t : Table) (ls : List (String × Label)) : Prop where
  old : ∀ x ∈ ls, ∀ u, x.2.newId = some u → FreshId x.1 t u
  new : ∀ x ∈ ls, ∀ y ∈ ls, x.1 ≠ y.1 → ∀ u, x.2.newId = some u → y.2.newId ≠ some u

variable {ls : List (String × Label)} {S S' : Shared}

/-- Every process is configured for its node, and an id that was not there at the start was taken by
a step of the row's own node. -/
structure Kept (t : Table) (pre : List (String × Label)) (S : Shared) : Prop where
  config : ∀ m, (S.2 m).Of m
  ids : ∀ r ∈ S.1, (∃ q ∈ t, q.node = r.node ∧ q.id = r.id) ∨
    ∃ y ∈ pre, y.1 = r.node ∧ y.2.newId = some r.id

theorem Kept.fresh {pre post : List (String × Label)} {x : String × Label} (h : Kept t pre S)
    (hd : DistinctIds t (pre ++ x :: post)) :
    ∀ u, x.2.newId = some u → FreshId x.1 S.1 u := by
  intro u hu r hr hn he
  have hx : x ∈ pre ++ x :: post := List.mem_append_right _ List.mem_cons_self
  rcases h.ids r hr with ⟨q, hq, hqn, hqi⟩ | ⟨y, hy, hyn, hyi⟩
  · exact hd.old x hx u hu q hq (by rw [hqn]; exact hn) (hqi.trans he)
  · refine hd.new x hx y (List.mem_append_left _ hy) (fun e => hn ?_) u hu (by rw [hyi, he])
    rw [← hyn, e]

theorem Kept.step {pre post : List (String × Label)} {x : String × Label} (h : Kept t pre S)
    (hd : DistinctIds t (pre ++ x :: post)) (hs : Shared.step S x = some S') :
    Kept t (pre ++ [x]) S' := by
  obtain ⟨c, hc, rfl⟩ := Option.map_eq_some_iff.mp hs
  obtain ⟨s', hs', rfl⟩ := Option.map_eq_some_iff.mp hc
  obtain ⟨hconf, hof⟩ := (sysStep_local (h.config x.1) (h.fresh hd)).2 s' hs'
  refine ⟨fun m => ?_, fun r hr => ?_⟩
  · by_cases hm : m = x.1
    · subst hm
      simpa using hof
    · simpa [Function.update_of_ne hm] using h.config m
  · have hold : ∀ q ∈ S.1, q.node = r.node → q.id = r.id →
        (∃ q ∈ t, q.node = r.node ∧ q.id = r.id) ∨
          ∃ y ∈ pre ++ [x], y.1 = r.node ∧ y.2.newId = some r.id := by
      intro q hq hqn hqi
      rcases h.ids q hq with ⟨q', hq', hn, hi⟩ | ⟨y, hy, hn, hi⟩
      · exact Or.inl ⟨q', hq', hn.trans hqn, hi.trans hqi⟩
      · exact Or.inr ⟨y, List.mem_append_left _ hy, hn.trans hqn, by rw [hi, hqi]⟩
    by_cases hn : r.node = x.1
    · rcases hconf.ids r hr hn with ⟨q, hq, hqn, hqi⟩ | hnew
      · exact hold q hq (hqn.trans hn.symm) hqi
      · exact Or.inr ⟨x, List.mem_append_right _ (List.mem_singleton_self x), hn.symm, hnew⟩
    · -- a row of another node was there before
      have hmem : r ∈ restrict r.node S.1 := by
        rw [← hconf.others r.node hn]
        exact mem_restrict.mpr ⟨hr, rfl⟩
      exact hold r (mem_restrict.mp hmem).1 rfl rfl

theorem kept_of_exec {pre post : List (String × Label)} (hd : DistinctIds t (pre ++ post))
    (h : Lts.exec Shared.step (Shared.open t) pre = some S) : Kept t pre S := by
  refine Lts.exec_induction (fun pre' S => ∀ post', pre' ++ post' = pre ++ post → Kept t pre' S)
    ?_ ?_ h post rfl
  · intro _ _
    exact ⟨fun _ => trivial, fun r hr => Or.inl ⟨r, hr, rfl, rfl⟩⟩
  · intro pre' S x S' _ ih hs post' he
    have he' : pre' ++ x :: post' = pre ++ post := by
      rw [← he, List.append_assoc, List.singleton_append]
    exact (ih (x :: post') he').step (by rw [he']; exact hd) hs

theorem localAt_of_kept {pre post : List (String × Label)} {x : String × Label} (h : Kept t pre S)
    (hd : DistinctIds t (pre ++ x :: post)) : Lts.LocalAt nodeStep restrict S x := by
  obtain ⟨hreads, hwrites⟩ := sysStep_local (h.config x.1) (h.fresh hd)
  refine ⟨?_, fun m hm j hj => ?_⟩
  · unfold nodeStep Lts.seen
    dsimp only
    rw [hreads, Option.map_map, Option.map_map]
    rfl
  · obtain ⟨s', hs', rfl⟩ := Option.map_eq_some_iff.mp hm
    exact (hwrites s' hs').1.others j hj

theorem localRun_of_exec (hd : DistinctIds t ls) :
    Lts.LocalRun nodeStep restrict (Shared.open t) ls := by
  rintro pre x post m rfl hm
  exact localAt_of_kept (kept_of_exec hd hm) hd

theorem localTrace_of_exec (hd : DistinctIds t ls) :
    Lts.LocalTrace nodeStep restrict nodeOutput (Shared.open t) ls := by
  rintro pre x post m rfl hm
  exact output_local ((kept_of_exec hd hm).config x.1)

/-- To a node, the run is the run of its own steps on its own rows. -/
theorem exec_own (h : Lts.exec Shared.step (Shared.open t) ls = some S) (hd : DistinctIds t ls)
    (node : String) : Lts.exec (Sys.step node) ⟨restrict node t, .down⟩ (Lts.own node ls) =
      some ⟨restrict node S.1, S.2 node⟩ := by
  have hseen := Lts.exec_seen (localRun_of_exec hd) h node
  have hmap : Lts.exec (nodeStep node) (restrict node t, .down) (Lts.own node ls) =
      (Lts.exec (Sys.step node) ⟨restrict node t, .down⟩ (Lts.own node ls)).map
        fun s => (s.table, s.life) :=
    Lts.exec_map (fun s : Sys => (s.table, s.life)) (fun _ _ => rfl)
      (⟨restrict node t, .down⟩ : Sys) _
  rw [show Lts.seen restrict node (Shared.open t) = (restrict node t, Life.down) from rfl, hmap]
    at hseen
  obtain ⟨s, hs, he⟩ := Option.map_eq_some_iff.mp hseen
  rw [hs]
  obtain ⟨h1, h2⟩ := Prod.mk.inj he
  obtain ⟨tab, life⟩ := s
  dsimp only at h1 h2
  rw [h1, h2]

/-- Its events are those of that run. -/
theorem events_own (h : Lts.exec Shared.step (Shared.open t) ls = some S) (hd : DistinctIds t ls)
    (node : String) : eventsFrom node ⟨restrict node t, .down⟩ (Lts.own node ls) =
      Lts.own node (Shared.events (Shared.open t) ls) := by
  have hseen := Lts.trace_seen (localRun_of_exec hd) (localTrace_of_exec hd) h node
  have hmap : Lts.trace (nodeStep node) (nodeOutput node) (restrict node t, .down)
        (Lts.own node ls) =
      Lts.trace (Sys.step node) Sys.output ⟨restrict node t, .down⟩ (Lts.own node ls) :=
    Lts.trace_map (fun s : Sys => (s.table, s.life)) (fun _ _ => rfl) (fun _ _ => rfl)
      (⟨restrict node t, .down⟩ : Sys) _
  unfold Shared.events Shared.step eventsFrom
  rw [hseen]
  exact hmap.symm

/-- **Isolation.** In every run of several nodes on one ledger file:
to each node the run is the run of its own steps on its own rows, with the same events;
a step of one node leaves the rows and the process of every other node as they are;
and every read, and every answer to a request, is what it would be without the rows of the others. -/
theorem node_isolation (h : Lts.exec Shared.step (Shared.open t) ls = some S)
    (hd : DistinctIds t ls) :
    (∀ node, Lts.exec (Sys.step node) ⟨restrict node t, .down⟩ (Lts.own node ls) =
        some ⟨restrict node S.1, S.2 node⟩ ∧
      eventsFrom node ⟨restrict node t, .down⟩ (Lts.own node ls) =
        Lts.own node (Shared.events (Shared.open t) ls)) ∧
    (∀ pre x post m m', ls = pre ++ x :: post →
      Lts.exec Shared.step (Shared.open t) pre = some m → Shared.step m x = some m' →
      ∀ node ≠ x.1, restrict node m'.1 = restrict node m.1 ∧ m'.2 node = m.2 node) ∧
    ∀ node,
      (∀ id, Ledger.get S.1 node id = Ledger.get (restrict node S.1) node id) ∧
      (∀ limit offset, list S.1 node limit offset = list (restrict node S.1) node limit offset) ∧
      documents S.1 node = documents (restrict node S.1) node ∧
      (∀ kind request credential key readOk,
        findIdempotent S.1 node kind request credential key readOk =
          findIdempotent (restrict node S.1) node kind request credential key readOk) ∧
      ∀ p, S.2 node = .up p → ∀ kind request credential key env, FreshId node S.1 env.uuid →
        (p.admitOperation (restrict node S.1) kind request credential key env).1 =
          (p.admitOperation S.1 kind request credential key env).1 := by
  have hkept : Kept t ls S := kept_of_exec (by rw [List.append_nil]; exact hd) h
  refine ⟨fun node => ⟨exec_own h hd node, events_own h hd node⟩, ?_,
    fun node => ⟨fun id => (get_restrict id).symm,
    fun limit offset => (list_restrict limit offset).symm, documents_restrict.symm,
    fun kind request credential key readOk => (findIdempotent_restrict ..).symm, ?_⟩⟩
  · rintro pre x post m m' rfl hm hs node hn
    have hx := localAt_of_kept (kept_of_exec hd hm) hd
    have hseen := hx.seen_other hs hn
    exact ⟨congrArg Prod.fst hseen, congrArg Prod.snd hseen⟩
  · intro p hp kind request credential key env hf
    have hn : p.node = node := by
      have hof := hkept.config node
      rw [hp] at hof
      exact hof
    subst hn
    obtain ⟨r, p', t', h₁, h₂, -, -⟩ : LocalCall p (some env.uuid) S.1 fun t =>
      p.admitOperation t kind request credential key env := admit_local hf
    dsimp only at h₁ h₂
    rw [h₁, h₂]

/-! ## Two nodes -/

/-- The configuration of another node. -/
def otherConfig : Config :=
  ⟨.dict [("node", .dict [("number", .int 2000), ("callsign", .str "KJ5IRQ")]),
    ("ami", .dict [("password", .str "secret")]), ("api", .dict [("api_key", .str "key")])]⟩

/-- Both nodes admit an announcement under one key of one credential, then the process of the other
node dies and starts again. -/
def twoNodesRun : List (String × Label) :=
  admitRun.map (fun l => ("546051", l)) ++
    [.start otherConfig {}, .recover {},
      .request "announce" (.dict [("kind", .str "status")]) "operator" (some "first") { uuid := "b1" },
      .crash, .start otherConfig {}, .recover {}, .recover {}].map fun l => ("2000", l)

/-- The restart of the other node ends its own operation, and the announcement of the first node,
which has the same key, is still queued, as in the run of the first node alone. -/
theorem node_isolation_announced : ∃ S, Lts.exec Shared.step (Shared.open []) twoNodesRun = some S ∧
    S.1.map (fun r => (r.node, r.document.stage)) =
      [("546051", .queued, .pending, false), ("2000", .notDispatched, .notAttempted, true)] ∧
    Lts.exec (Sys.step "546051") ⟨[], .down⟩ admitRun = some ⟨restrict "546051" S.1, S.2 "546051"⟩ := by
  obtain ⟨S, hS, hf⟩ := Option.map_eq_some_iff.mp
    (show (Lts.exec Shared.step (Shared.open []) twoNodesRun).map
      (fun S => S.1.map fun r => (r.node, r.document.stage)) =
        some [("546051", .queued, .pending, false), ("2000", .notDispatched, .notAttempted, true)]
      by decide +kernel)
  have hd : DistinctIds [] twoNodesRun := by
    refine ⟨fun x _ u _ r hr => absurd hr List.not_mem_nil, fun x hx y hy hne u hu hv => ?_⟩
    have howner : ∀ x ∈ twoNodesRun, (x.2.newId.map fun _ => x.1) =
        x.2.newId.map fun u => if u = "a1" then "546051" else "2000" := by decide
    have hx' := howner x hx
    have hy' := howner y hy
    rw [hu] at hx'
    rw [hv] at hy'
    exact hne (Option.some.inj (hx'.trans hy'.symm))
  exact ⟨S, hS, hf, ((node_isolation hS hd).1 "546051").1⟩

end Asl3
