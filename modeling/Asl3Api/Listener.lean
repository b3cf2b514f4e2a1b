import Mathlib.Data.Finset.Basic
import Mathlib.Data.Finset.Lattice.Lemmas
import Mathlib.Data.Finset.Sort
import Mathlib.Data.String.Basic
import Mathlib.Data.List.Induction
import Asl3Api.Config
import Asl3Api.Subscribers
import Asl3Api.Vnext.Snapshot

/-!
# The legacy events (`ami_event_listener.py`)

* `Poll`: what the environment decides in one poll;
* `AMIEventListener.pollOnce`: the events of one poll, and what is remembered of it;
* `after_snoc`: what is remembered is the last snapshot, or nothing;
* `count_links`, `count_keyed`: the events of a complete snapshot;
* `Client.receive`, `receive_poll`: a client that folds the events;
* **`link_events_replay`**: the events between two snapshots, and what they add up to;
* **`unkey_evidence`**: when an event carries `false`.
-/

set_option autoImplicit false

namespace Asl3

open Py

/-! ## Polls -/

/-- An order in which a set of names is iterated. -/
structure SetOrder where
  list : Finset String → List String
  nodup : ∀ s, (list s).Nodup
  mem : ∀ s n, n ∈ list s ↔ n ∈ s

/-- The sorted order. -/
def SetOrder.sorted : SetOrder where
  list s := s.sort (· ≤ ·)
  nodup s := s.sort_nodup _
  mem _ _ := Finset.mem_sort _

theorem SetOrder.toFinset (order : SetOrder) (s : Finset String) : (order.list s).toFinset = s := by
  ext n
  rw [List.mem_toFinset, order.mem]

/-- What the environment decides in one poll. -/
structure Poll (node : String) where
  /-- What `snapshot()` returns. -/
  state : NodeState
  sampled : ∃ o now uuid, Observer.snapshot node o now uuid = .ok state
  order : SetOrder
  /-- The times of the events of the poll. -/
  stamp : ℕ → String

/-- The two keyed values. -/
inductive KeyedField where
  | rx
  | tx
  deriving DecidableEq, Repr

/-- The value of a field in a snapshot. -/
def NodeState.keyed (s : NodeState) : KeyedField → Option Bool
  | .rx => s.rxKeyed
  | .tx => s.txKeyed

/-- The names of the direct links, `{link.node for link in state.direct_links}`; a complete snapshot has
its links. -/
def NodeState.linkNames (s : NodeState) : Finset String :=
  ((s.directLinks.getD []).map DirectLink.node).toFinset

/-- The direct links and the keyed values. -/
structure View where
  links : Finset String
  rxKeyed : Option Bool
  txKeyed : Option Bool
  deriving DecidableEq

/-- What a snapshot shows of them. -/
def NodeState.view (s : NodeState) : Option View :=
  if s.complete then some ⟨s.linkNames, s.rxKeyed, s.txKeyed⟩ else none

namespace AMIEventListener

/-! ## Events -/

/-- The `variables` of a snapshot event. -/
structure Variables where
  rxkeyed : Option Bool
  txkeyed : Option Bool
  complete : Bool
  stateStatus : StateStatus
  directLinks : Option (List DirectLink)
  deriving DecidableEq, Repr

/-- The kind of an event with its own fields. -/
inductive Body where
  | snapshot (vars : Variables)
  | keyed (field : KeyedField) (value : Option Bool) (nodeNumber : String)
  | connected (connectedNode : String)
  | disconnected (disconnectedNode : String)
  deriving DecidableEq, Repr

/-- `type`. -/
def Body.type : Body → String
  | .snapshot _ => "node.variables.snapshot"
  | .keyed .rx _ _ => "node.rxkeyed"
  | .keyed .tx _ _ => "node.txkeyed"
  | .connected _ => "link.connected"
  | .disconnected _ => "link.disconnected"

/-- An event. -/
structure Event where
  body : Body
  timestamp : String
  node : String
  callsign : PyValue

/-- `_make_event`. -/
def makeEvent (cfg : Config) (now : String) (body : Body) : Event :=
  ⟨body, now, cfg.nodeNumber, cfg.nodeCallsign⟩

/-! ## One poll -/

/-- What is remembered between two polls. -/
structure Memory where
  knownNodes : Option (Finset String) := none
  rxkeyed : Option Bool := none
  txkeyed : Option Bool := none

/-- `getattr(self, f"_{field}")`. -/
def Memory.keyed (m : Memory) : KeyedField → Option Bool
  | .rx => m.rxkeyed
  | .tx => m.txkeyed

variable {node : String}

/-- The body of the loop over the two fields. -/
def keyedEvents (m : Memory) (s : NodeState) (field : KeyedField) : List Body :=
  if s.keyed field ≠ m.keyed field then [.keyed field (s.keyed field) s.node] else []

/-- The events for the links. -/
def linkEvents (m : Memory) (p : Poll node) : List Body :=
  match m.knownNodes with
  | none => []
  | some known =>
    (p.order.list (p.state.linkNames \ known)).map .connected ++
      (p.order.list (known \ p.state.linkNames)).map .disconnected

/-- What `_poll_once` broadcasts, and what it remembers. -/
def poll (m : Memory) (p : Poll node) : List Body × Memory :=
  let s := p.state
  let snapshot := Body.snapshot ⟨s.rxKeyed, s.txKeyed, s.complete, s.stateStatus, s.directLinks⟩
  if s.complete = false then ([snapshot], {})
  -- a value is stored where it differs, so afterwards both are the new ones
  else (snapshot :: (keyedEvents m s .rx ++ keyedEvents m s .tx ++ linkEvents m p),
    ⟨some s.linkNames, s.rxKeyed, s.txKeyed⟩)

/-- `_poll_once`. -/
def pollOnce (cfg : Config) (m : Memory) (p : Poll node) : List Event × Memory :=
  ((poll m p).1.mapIdx fun i body => makeEvent cfg (p.stamp i) body, (poll m p).2)

/-- What is remembered after some polls. -/
def after (cfg : Config) (ps : List (Poll node)) : Memory :=
  ps.foldl (fun m p => (pollOnce cfg m p).2) {}

/-- The events of the poll `p` after the polls `ps`. -/
def events (cfg : Config) (ps : List (Poll node)) (p : Poll node) : List Event :=
  (pollOnce cfg (after cfg ps) p).1

/-- The events of the polls `qs` after the polls `ps`, in order. -/
def eventsOf (cfg : Config) (ps : List (Poll node)) : List (Poll node) → List Event
  | [] => []
  | q :: qs => events cfg ps q ++ eventsOf cfg (ps ++ [q]) qs

/-! ## What is remembered -/

/-- A complete snapshot has its values and its links. -/
theorem complete_fields (p : Poll node) (h : p.state.complete = true) :
    (∃ b, p.state.rxKeyed = some b) ∧ (∃ b, p.state.txKeyed = some b) ∧
      ∃ links, p.state.directLinks = some links := by
  obtain ⟨o, now, uuid, ho⟩ := p.sampled
  cases o with
  | failed e =>
    unfold Observer.snapshot at ho
    dsimp only at ho
    split_ifs at ho
    rw [← Except.ok.inj ho] at h
    cases h
  | replies xstat sawstat epoch stale =>
    unfold Observer.snapshot at ho
    dsimp only at ho
    split_ifs at ho
    · rw [← Except.ok.inj ho] at h
      cases h
    · rcases parseSnapshot_cases (.mapping xstat) (.mapping sawstat) node epoch now with
        ⟨E, hE⟩ | ⟨-, reason, hE⟩
      · rw [hE] at ho
        rw [← Except.ok.inj ho]
        exact ⟨⟨_, rfl⟩, ⟨_, rfl⟩, _, rfl⟩
      · rw [hE] at ho
        rw [← Except.ok.inj ho] at h
        cases h

/-- What is remembered of one snapshot. -/
def remember (s : NodeState) : Memory :=
  if s.complete = false then {} else ⟨some s.linkNames, s.rxKeyed, s.txKeyed⟩

@[simp] theorem pollOnce_memory (cfg : Config) (m : Memory) (p : Poll node) :
    (pollOnce cfg m p).2 = remember p.state := by
  unfold pollOnce poll remember
  dsimp only
  split_ifs <;> rfl

/-- **What is remembered** is the last snapshot, or nothing. -/
@[simp] theorem after_snoc (cfg : Config) (ps : List (Poll node)) (p : Poll node) :
    after cfg (ps ++ [p]) = remember p.state := by
  rw [after, List.foldl_append]
  exact pollOnce_memory cfg _ p

/-- The bodies of the events of a poll. -/
theorem bodies_events (cfg : Config) (ps : List (Poll node)) (p : Poll node) :
    (events cfg ps p).map Event.body = (poll (after cfg ps) p).1 := by
  rw [events, pollOnce]
  refine List.ext_getElem? fun i => ?_
  rw [List.getElem?_map, List.getElem?_mapIdx]
  cases (poll (after cfg ps) p).1[i]? <;> rfl

/-- The bodies of the events of some polls. -/
def bodiesOf (m : Memory) : List (Poll node) → List Body
  | [] => []
  | q :: qs => (poll m q).1 ++ bodiesOf (remember q.state) qs

theorem bodies_eventsOf (cfg : Config) (ps qs : List (Poll node)) :
    (eventsOf cfg ps qs).map Event.body = bodiesOf (after cfg ps) qs := by
  induction qs generalizing ps with
  | nil => rfl
  | cons q qs ih => rw [eventsOf, List.map_append, bodies_events, ih, after_snoc, bodiesOf]

/-! ## The events between two snapshots -/

/-- An event of a link. -/
def Body.isLink : Body → Bool
  | .connected _ => true
  | .disconnected _ => true
  | _ => false

theorem poll_incomplete (m : Memory) (p : Poll node) (h : p.state.complete = false) :
    (poll m p).1 = [.snapshot ⟨p.state.rxKeyed, p.state.txKeyed, false, p.state.stateStatus,
      p.state.directLinks⟩] := by
  rw [poll, if_pos h, h]

theorem poll_complete (m : Memory) (p : Poll node) (h : p.state.complete = true) :
    (poll m p).1 = .snapshot ⟨p.state.rxKeyed, p.state.txKeyed, true, p.state.stateStatus,
      p.state.directLinks⟩ ::
        (keyedEvents m p.state .rx ++ keyedEvents m p.state .tx ++ linkEvents m p) := by
  rw [poll, if_neg (by rw [h]; exact Bool.noConfusion), h]

/-- Without a complete snapshot before it, a poll has no event of a link. -/
theorem linkEvents_gap {m : Memory} (hm : m.knownNodes = none) (p : Poll node) :
    linkEvents m p = [] := by
  rw [linkEvents, hm]

theorem not_isLink_of_gap {m : Memory} {p : Poll node}
    (h : p.state.complete = false ∨ m.knownNodes = none) :
    ∀ b ∈ (poll m p).1, b.isLink = false := by
  have keyed : ∀ f, ∀ b ∈ keyedEvents m p.state f, b.isLink = false := by
    intro f b hb
    rw [keyedEvents] at hb
    split_ifs at hb
    · rw [List.mem_singleton.mp hb]
      rfl
    · cases hb
  intro b hb
  cases hc : p.state.complete with
  | false =>
    rw [poll_incomplete m p hc] at hb
    rw [List.mem_singleton.mp hb]
    rfl
  | true =>
    have hm := h.resolve_left (by rw [hc]; exact Bool.noConfusion)
    rw [poll_complete m p hc, linkEvents_gap hm, List.append_nil, List.mem_cons,
      List.mem_append] at hb
    rcases hb with rfl | hb | hb
    · rfl
    · exact keyed .rx b hb
    · exact keyed .tx b hb

theorem linkEvents_eq {m : Memory} {known : Finset String} (hm : m.knownNodes = some known)
    (p : Poll node) : linkEvents m p = (p.order.list (p.state.linkNames \ known)).map .connected ++
      (p.order.list (known \ p.state.linkNames)).map .disconnected := by
  rw [linkEvents, hm]

/-- Every new link has one event, and so has every link that is gone. -/
theorem count_linkEvents {m : Memory} {known : Finset String} (hm : m.knownNodes = some known)
    (p : Poll node) (n : String) :
    (linkEvents m p).count (.connected n) = (if n ∈ p.state.linkNames \ known then 1 else 0) ∧
    (linkEvents m p).count (.disconnected n) = (if n ∈ known \ p.state.linkNames then 1 else 0) := by
  have one : ∀ (f : String → Body), Function.Injective f → ∀ names : Finset String,
      ((p.order.list names).map f).count (f n) = if n ∈ names then 1 else 0 := by
    intro f hf names
    rw [List.count_map_of_injective _ f hf, (p.order.nodup names).count]
    simp only [p.order.mem]
  have none : ∀ (f : String → Body) (b : Body), (∀ n, f n ≠ b) → ∀ names : Finset String,
      ((p.order.list names).map f).count b = 0 := by
    intro f b hf names
    refine List.count_eq_zero.mpr fun hb => ?_
    obtain ⟨n, -, hn⟩ := List.mem_map.mp hb
    exact hf n hn
  rw [linkEvents_eq hm, List.count_append, List.count_append,
    one .connected (fun _ _ h => by injection h), one .disconnected (fun _ _ h => by injection h),
    none .disconnected (.connected n) (fun _ h => by cases h),
    none .connected (.disconnected n) (fun _ h => by cases h)]
  exact ⟨rfl, Nat.zero_add _⟩

/-- A field has one event when its value changed, and no other. -/
theorem count_keyedEvents (m : Memory) (s : NodeState) (f g : KeyedField) (value : Option Bool)
    (n : String) : (keyedEvents m s g).count (.keyed f value n) =
      if f = g ∧ s.keyed f ≠ m.keyed f ∧ value = s.keyed f ∧ n = s.node then 1 else 0 := by
  by_cases hg : s.keyed g ≠ m.keyed g
  · rw [keyedEvents, if_pos hg, List.count_singleton]
    refine if_congr ?_ rfl rfl
    rw [beq_iff_eq, Body.keyed.injEq]
    constructor
    · rintro ⟨rfl, rfl, rfl⟩
      exact ⟨rfl, hg, rfl, rfl⟩
    · rintro ⟨rfl, -, rfl, rfl⟩
      exact ⟨rfl, rfl, rfl⟩
  · rw [keyedEvents, if_neg hg, List.count_nil, if_neg]
    rintro ⟨rfl, hc, -⟩
    exact hg hc

theorem keyedEvents_count_zero (m : Memory) (s : NodeState) (g : KeyedField) {b : Body}
    (hb : ∀ f v n, b ≠ .keyed f v n) : (keyedEvents m s g).count b = 0 := by
  refine List.count_eq_zero.mpr fun h => ?_
  rw [keyedEvents] at h
  split_ifs at h
  · exact hb _ _ _ (List.mem_singleton.mp h)
  · cases h

theorem keyed_notMem_linkEvents (m : Memory) (p : Poll node) (f : KeyedField) (value : Option Bool)
    (n : String) : .keyed f value n ∉ linkEvents m p := by
  intro h
  cases hm : m.knownNodes with
  | none =>
    rw [linkEvents_gap hm] at h
    cases h
  | some known =>
    rw [linkEvents_eq hm, List.mem_append, List.mem_map, List.mem_map] at h
    rcases h with ⟨_, -, h⟩ | ⟨_, -, h⟩ <;> cases h

/-- A complete snapshot has one event for a field whose value is not the remembered one. -/
theorem count_keyed (m : Memory) {p : Poll node} (hp : p.state.complete = true) (f : KeyedField)
    (value : Option Bool) (n : String) : (poll m p).1.count (.keyed f value n) =
      if p.state.keyed f ≠ m.keyed f ∧ value = p.state.keyed f ∧ n = p.state.node then 1 else 0 := by
  rw [poll_complete m p hp, List.count_cons_of_ne Body.noConfusion, List.count_append,
    List.count_append, List.count_eq_zero.mpr (keyed_notMem_linkEvents m p f value n),
    count_keyedEvents, count_keyedEvents, Nat.add_zero]
  cases f <;> simp only [reduceCtorEq, false_and, true_and, if_false, Nat.add_zero, Nat.zero_add]

/-- **The events of the links** of a complete snapshot after another one. -/
theorem count_links {m : Memory} {known : Finset String} (hm : m.knownNodes = some known)
    {p : Poll node} (hp : p.state.complete = true) (n : String) :
    (poll m p).1.count (.connected n) = (if n ∈ p.state.linkNames \ known then 1 else 0) ∧
    (poll m p).1.count (.disconnected n) = (if n ∈ known \ p.state.linkNames then 1 else 0) := by
  have zero : ∀ b, (∀ f v n, b ≠ .keyed f v n) → (∀ vars, b ≠ .snapshot vars) →
      (poll m p).1.count b = (linkEvents m p).count b := by
    intro b hk hs
    rw [poll_complete m p hp, List.count_cons_of_ne (hs _).symm, List.count_append, List.count_append,
      keyedEvents_count_zero _ _ _ hk, keyedEvents_count_zero _ _ _ hk, Nat.zero_add]
  rw [zero _ (fun _ _ _ => Body.noConfusion) fun _ => Body.noConfusion,
    zero _ (fun _ _ _ => Body.noConfusion) fun _ => Body.noConfusion]
  exact count_linkEvents hm p n

/-! ## A client -/

/-- What a client makes of an event: it forgets all at a gap, takes the next complete snapshot, and
applies the events after that. -/
def Client.receive (view : Option View) (body : Body) : Option View :=
  match body, view with
  | .snapshot vars, view =>
    if vars.complete = false then none
    else some (view.getD ⟨((vars.directLinks.getD []).map DirectLink.node).toFinset, vars.rxkeyed,
      vars.txkeyed⟩)
  | .keyed .rx value _, view => view.map fun v => { v with rxKeyed := value }
  | .keyed .tx value _, view => view.map fun v => { v with txKeyed := value }
  | .connected n, view => view.map fun v => { v with links := insert n v.links }
  | .disconnected n, view => view.map fun v => { v with links := v.links.erase n }

/-- What is remembered, as a view. -/
def Memory.view (m : Memory) : Option View := m.knownNodes.map fun known => ⟨known, m.rxkeyed, m.txkeyed⟩

theorem remember_view (s : NodeState) : (remember s).view = s.view := by
  unfold remember NodeState.view
  cases s.complete <;> rfl

theorem receive_connected (v : View) (names : List String) :
    (names.map Body.connected).foldl Client.receive (some v) =
      some { v with links := v.links ∪ names.toFinset } := by
  induction names generalizing v with
  | nil => rw [List.map_nil, List.foldl_nil, List.toFinset_nil, Finset.union_empty]
  | cons n names ih =>
    rw [List.map_cons, List.foldl_cons, Client.receive, Option.map_some, ih, List.toFinset_cons,
      Finset.insert_union_comm]

theorem receive_disconnected (v : View) (names : List String) :
    (names.map Body.disconnected).foldl Client.receive (some v) =
      some { v with links := v.links \ names.toFinset } := by
  induction names generalizing v with
  | nil => rw [List.map_nil, List.foldl_nil, List.toFinset_nil, Finset.sdiff_empty]
  | cons n names ih =>
    rw [List.map_cons, List.foldl_cons, Client.receive, Option.map_some, ih, List.toFinset_cons,
      Finset.erase_sdiff_comm, ← Finset.sdiff_insert]

/-- The events of a field, when its event leads from one view to the other and no event is needed where
they are equal. -/
theorem receive_keyedEvents {m : Memory} {s : NodeState} {f : KeyedField} {v w : View}
    (hset : Client.receive (some v) (.keyed f (s.keyed f) s.node) = some w)
    (hsame : s.keyed f = m.keyed f → v = w) :
    (keyedEvents m s f).foldl Client.receive (some v) = some w := by
  by_cases h : s.keyed f ≠ m.keyed f
  · rw [keyedEvents, if_pos h, List.foldl_cons, hset, List.foldl_nil]
  · rw [keyedEvents, if_neg h, List.foldl_nil, hsame (not_ne_iff.mp h)]

theorem receive_rxEvents {m : Memory} {s : NodeState} {v : View}
    (hv : v.rxKeyed = s.rxKeyed ∨ v.rxKeyed = m.rxkeyed) :
    (keyedEvents m s .rx).foldl Client.receive (some v) = some { v with rxKeyed := s.rxKeyed } := by
  refine receive_keyedEvents rfl fun h => ?_
  have hx : v.rxKeyed = s.rxKeyed := hv.elim id fun hm => hm.trans h.symm
  rw [← hx]

theorem receive_txEvents {m : Memory} {s : NodeState} {v : View}
    (hv : v.txKeyed = s.txKeyed ∨ v.txKeyed = m.txkeyed) :
    (keyedEvents m s .tx).foldl Client.receive (some v) = some { v with txKeyed := s.txKeyed } := by
  refine receive_keyedEvents rfl fun h => ?_
  have hx : v.txKeyed = s.txKeyed := hv.elim id fun hm => hm.trans h.symm
  rw [← hx]

/-- The events of the links bring the set up to date. -/
theorem receive_linkEvents (m : Memory) (p : Poll node) (v : View)
    (hv : v.links = p.state.linkNames ∨ m.knownNodes = some v.links) :
    (linkEvents m p).foldl Client.receive (some v) = some { v with links := p.state.linkNames } := by
  cases hm : m.knownNodes with
  | none =>
    have hx : v.links = p.state.linkNames := hv.resolve_right (hm ▸ (Option.some_ne_none _).symm)
    rw [linkEvents_gap hm, List.foldl_nil, ← hx]
  | some known =>
    have hlinks : (v.links ∪ p.state.linkNames \ known) \ (known \ p.state.linkNames) =
        p.state.linkNames := by
      ext n
      rcases hv with hv | hv
      · rw [hv]
        simp only [Finset.mem_sdiff, Finset.mem_union]
        tauto
      · obtain rfl : known = v.links := Option.some.inj (hm.symm.trans hv)
        simp only [Finset.mem_sdiff, Finset.mem_union]
        tauto
    rw [linkEvents_eq hm, List.foldl_append, receive_connected, receive_disconnected,
      p.order.toFinset, p.order.toFinset, hlinks]

/-- **One poll**: a client that holds nothing, or what the listener remembers, holds what the snapshot
shows. -/
theorem receive_poll {m : Memory} {view : Option View} (hv : view = none ∨ view = m.view)
    (p : Poll node) : (poll m p).1.foldl Client.receive view = p.state.view := by
  cases hc : p.state.complete with
  | false =>
    rw [poll_incomplete m p hc, NodeState.view, hc]
    rfl
  | true =>
    -- what the client holds after the snapshot event is the snapshot or what is remembered
    obtain ⟨v, hsnap, hl, hr, ht⟩ : ∃ v, Client.receive view (.snapshot ⟨p.state.rxKeyed,
        p.state.txKeyed, true, p.state.stateStatus, p.state.directLinks⟩) = some v ∧
        (v.links = p.state.linkNames ∨ m.knownNodes = some v.links) ∧
        (v.rxKeyed = p.state.rxKeyed ∨ v.rxKeyed = m.rxkeyed) ∧
        (v.txKeyed = p.state.txKeyed ∨ v.txKeyed = m.txkeyed) := by
      cases view with
      | none => exact ⟨_, rfl, .inl rfl, .inl rfl, .inl rfl⟩
      | some w =>
        have hw := (hv.resolve_left (Option.some_ne_none w)).symm
        obtain ⟨known, hk, rfl⟩ := Option.map_eq_some_iff.mp hw
        exact ⟨_, rfl, .inr hk, .inr rfl, .inr rfl⟩
    rw [poll_complete m p hc, List.foldl_cons, hsnap, List.foldl_append, List.foldl_append,
      receive_rxEvents hr, @receive_txEvents m p.state { v with rxKeyed := p.state.rxKeyed } ht,
      receive_linkEvents m p ⟨v.links, p.state.rxKeyed, p.state.txKeyed⟩ hl, NodeState.view, hc]
    rfl

/-- **A client follows the polls**: from nothing on, it holds what the last snapshot shows. -/
theorem receive_bodiesOf (m : Memory) (qs : List (Poll node)) :
    (bodiesOf m qs).foldl Client.receive none = qs.getLast?.bind fun q => q.state.view := by
  suffices h : ∀ (qs : List (Poll node)) (m : Memory) (view : Option View),
      (view = none ∨ view = m.view) → qs ≠ [] →
      (bodiesOf m qs).foldl Client.receive view = qs.getLast?.bind fun q => q.state.view by
    cases qs with
    | nil => rfl
    | cons q qs => exact h _ m none (.inl rfl) (List.cons_ne_nil _ _)
  intro qs
  induction qs with
  | nil => exact fun _ _ _ h => (h rfl).elim
  | cons q qs ih =>
    intro m view hv _
    rw [bodiesOf, List.foldl_append, receive_poll hv]
    cases qs with
    | nil => rfl
    | cons r rs =>
      rw [ih _ _ (.inr (remember_view q.state).symm) (List.cons_ne_nil _ _), List.getLast?_cons_cons]

/-- **The events replay to the truth.** Two complete snapshots in a row have one event for every link that
is new, one for every link that is gone and one for every value that changed; without a complete snapshot
just before it, a poll has no event of a link; a client that folds the events from any poll on holds what
the last snapshot shows; and one whose queue never overflows has all of them, read or queued. -/
theorem link_events_replay {ι : Type} [DecidableEq ι] (cfg : Config) (pre : List (Poll node)) :
    (∀ p q : Poll node, p.state.complete = true → q.state.complete = true →
      (∀ n, ((events cfg (pre ++ [p]) q).map Event.body).count (.connected n) =
        if n ∈ q.state.linkNames \ p.state.linkNames then 1 else 0) ∧
      (∀ n, ((events cfg (pre ++ [p]) q).map Event.body).count (.disconnected n) =
        if n ∈ p.state.linkNames \ q.state.linkNames then 1 else 0) ∧
      ∀ f value n, ((events cfg (pre ++ [p]) q).map Event.body).count (.keyed f value n) =
        if q.state.keyed f ≠ p.state.keyed f ∧ value = q.state.keyed f ∧ n = q.state.node then 1
        else 0) ∧
    (∀ q : Poll node, (q.state.complete = false ∨ ∀ p ∈ pre.getLast?, p.state.complete = false) →
      ∀ e ∈ events cfg pre q, e.body.isLink = false) ∧
    (∀ post, (eventsOf cfg pre post).foldl (fun view e => Client.receive view e.body) none =
      post.getLast?.bind fun q => q.state.view) ∧
    ∀ post (id : ι) ls s, Lts.exec Subscribers.step Subscribers.init ls = some s →
      Lts.trace Subscribers.step (Subscribers.sent id) Subscribers.init ls = eventsOf cfg pre post →
      Lts.trace Subscribers.step (Subscribers.dropped id) Subscribers.init ls = [] →
      Lts.trace Subscribers.step (Subscribers.received id) Subscribers.init ls ++ (s.queue id).items =
        eventsOf cfg pre post := by
  refine ⟨fun p q hp hq => ?_, fun q hq e he => ?_, fun post => ?_, fun post id ls s h hs hd => ?_⟩
  · have hm : after cfg (pre ++ [p]) = ⟨some p.state.linkNames, p.state.rxKeyed, p.state.txKeyed⟩ := by
      rw [after_snoc, remember, hp, if_neg Bool.noConfusion]
    rw [bodies_events, hm]
    refine ⟨fun n => (count_links rfl hq n).1, fun n => (count_links rfl hq n).2, fun f value n => ?_⟩
    rw [count_keyed _ hq]
    cases f <;> rfl
  · have hb : e.body ∈ (poll (after cfg pre) q).1 := by
      rw [← bodies_events]
      exact List.mem_map_of_mem he
    refine not_isLink_of_gap (hq.imp_right fun hlast => ?_) _ hb
    rcases List.eq_nil_or_concat pre with rfl | ⟨pre, p, rfl⟩
    · rfl
    · rw [List.concat_eq_append] at hlast ⊢
      rw [after_snoc, remember, if_pos (hlast p List.getLast?_concat)]
  · rw [← receive_bodiesOf (after cfg pre) post, ← bodies_eventsOf, List.foldl_map]
  · obtain ⟨taken, lost, next, hA, -⟩ := Subscribers.run_account h id
    rw [hd, hs] at hA
    exact hA.complete

/-! ## Samples -/

/-- An idle node without links, with or without a signal. -/
def sampleState (rx : Bool) : NodeState where
  node := "546051"
  observedAt := ""
  connectionEpoch := some ""
  stateStatus := .complete
  trafficState := if rx then .active else .clear
  complete := true
  rxKeyed := some rx
  txKeyed := some false
  directLinks := some []

/-- The same node with a link. -/
def sampleLinked (name : String) : NodeState :=
  { sampleState false with directLinks := some [⟨name, some name, .T, false, .established⟩] }

/-- A poll of that node. -/
def samplePoll (rx : Bool) : Poll "546051" where
  state := sampleState rx
  sampled := by
    refine ⟨.replies [("response", .one "Success"), ("node", .one "546051"), ("var", .many
      ["RPT_RXKEYED=" ++ bit rx, "RPT_TXKEYED=0", "RPT_NUMALINKS=0", "RPT_ALINKS="])]
      [("response", .one "Success"), ("node", .one "546051")] "" false, "", "", ?_⟩
    cases rx <;> decide +kernel
  order := .sorted
  stamp _ := ""

/-- A signal appears: one event of `rx`, and a client of both polls holds it. -/
theorem link_events_replay_signal :
    ((events ⟨.dict []⟩ [samplePoll false] (samplePoll true)).map Event.body).count
      (.keyed .rx (some true) "546051") = 1 ∧
    (eventsOf ⟨.dict []⟩ [] [samplePoll false, samplePoll true]).foldl
      (fun view e => Client.receive view e.body) none = some ⟨∅, some true, some false⟩ := by
  obtain ⟨hbetween, -, hclient, -⟩ := @link_events_replay "546051" ℕ _ ⟨.dict []⟩ []
  refine ⟨?_, hclient [samplePoll false, samplePoll true]⟩
  rw [← List.nil_append [samplePoll false]]
  rw [(hbetween (samplePoll false) (samplePoll true) rfl rfl).2.2 .rx (some true) "546051"]
  exact if_pos ⟨by decide, rfl, rfl⟩

/-! ## Unkeying -/

/-- A poll has an event of the field with `false`. -/
def Unkeys (cfg : Config) (f : KeyedField) (pre : List (Poll node)) (p : Poll node) : Prop :=
  ∃ n, .keyed f (some false) n ∈ (events cfg pre p).map Event.body

/-- The last complete snapshot showed the field `true`. -/
def WasKeyed (f : KeyedField) (pre : List (Poll node)) : Prop :=
  ∃ s, ((pre.map Poll.state).filter NodeState.complete).getLast? = some s ∧ s.keyed f = some true

theorem unkeys_iff (cfg : Config) (f : KeyedField) (pre : List (Poll node)) (p : Poll node) :
    Unkeys cfg f pre p ↔ p.state.complete = true ∧ p.state.keyed f = some false ∧
      (after cfg pre).keyed f ≠ some false := by
  unfold Unkeys
  rw [bodies_events]
  cases hc : p.state.complete with
  | false =>
    rw [poll_incomplete _ p hc]
    constructor
    · rintro ⟨n, hn⟩
      cases List.mem_singleton.mp hn
    · rintro ⟨h, -⟩
      cases h
  | true =>
    simp only [← List.count_pos_iff, count_keyed _ hc, true_and]
    constructor
    · rintro ⟨n, hn⟩
      split_ifs at hn with h
      · obtain ⟨hne, hv, -⟩ := h
        exact ⟨hv.symm, fun hm => hne (hv.symm.trans hm.symm)⟩
      · cases hn
    · rintro ⟨hv, hm⟩
      refine ⟨p.state.node, ?_⟩
      rw [if_pos ⟨fun h => hm (h.symm.trans hv), hv.symm, rfl⟩]
      exact Nat.one_pos

/-- What is remembered of a field, after a gap and after a complete snapshot. -/
theorem after_keyed (cfg : Config) (f : KeyedField) (pre : List (Poll node)) :
    ((∀ q ∈ pre.getLast?, q.state.complete = false) ∧ (after cfg pre).keyed f = none) ∨
    ∃ ps q, pre = ps ++ [q] ∧ q.state.complete = true ∧ (after cfg pre).keyed f = q.state.keyed f := by
  rcases List.eq_nil_or_concat pre with rfl | ⟨ps, q, rfl⟩
  · refine .inl ⟨fun q hq => ?_, by cases f <;> rfl⟩
    cases hq
  · rw [List.concat_eq_append, after_snoc, remember]
    cases hc : q.state.complete with
    | false =>
      refine .inl ⟨fun x hx => ?_, by cases f <;> rfl⟩
      rw [List.getLast?_concat] at hx
      obtain rfl := Option.some.inj hx
      exact hc
    | true => exact .inr ⟨ps, q, rfl, hc, by cases f <;> rfl⟩

/-- **When an unkey has evidence.** In a run, whatever unkeys a field was preceded by a last complete
snapshot that showed it keyed, exactly when that holds of every complete snapshot that comes first or after
a gap and shows the field `false`. -/
theorem unkey_evidence (cfg : Config) (f : KeyedField) (ps : List (Poll node)) :
    (∀ pre p post, ps = pre ++ p :: post → Unkeys cfg f pre p → WasKeyed f pre) ↔
      ∀ pre p post, ps = pre ++ p :: post → (∀ q ∈ pre.getLast?, q.state.complete = false) →
        p.state.complete = true → p.state.keyed f = some false → WasKeyed f pre := by
  refine ⟨fun h pre p post hps hgap hp hf => ?_, fun h pre p post hps hu => ?_⟩
  · refine h pre p post hps ((unkeys_iff cfg f pre p).mpr ⟨hp, hf, ?_⟩)
    rcases after_keyed cfg f pre with ⟨-, hm⟩ | ⟨qs, q, rfl, hq, -⟩
    · rw [hm]
      exact (Option.some_ne_none _).symm
    · have hfalse := hgap q List.getLast?_concat
      rw [hq] at hfalse
      cases hfalse
  · obtain ⟨hp, hf, hm⟩ := (unkeys_iff cfg f pre p).mp hu
    rcases after_keyed cfg f pre with ⟨hgap, -⟩ | ⟨qs, q, rfl, hq, hk⟩
    · exact h pre p post hps hgap hp hf
    · -- the poll before it was complete, so the value that it changes from was shown there
      rw [hk] at hm
      have htrue : q.state.keyed f = some true := by
        obtain ⟨⟨r, hr⟩, ⟨t, ht⟩, -⟩ := complete_fields q hq
        cases f with
        | rx => cases r with
          | true => exact hr
          | false => exact (hm hr).elim
        | tx => cases t with
          | true => exact ht
          | false => exact (hm ht).elim
      refine ⟨q.state, ?_, htrue⟩
      rw [List.map_append, List.filter_append, List.map_singleton, List.filter_singleton, hq]
      exact List.getLast?_concat

/-- The first snapshot of an idle node unkeys it. -/
theorem unkey_first : ¬ ∀ (cfg : Config) (f : KeyedField) (pre : List (Poll "546051"))
    (p : Poll "546051"), Unkeys cfg f pre p → WasKeyed f pre := by
  intro h
  have hu : Unkeys ⟨.dict []⟩ .rx [] (samplePoll false) :=
    (unkeys_iff _ _ _ _).mpr ⟨rfl, rfl, (Option.some_ne_none _).symm⟩
  obtain ⟨s, hs, -⟩ := h _ _ _ _ hu
  cases hs

end AMIEventListener

end Asl3
