import Asl3Api.AmiClient.View
import Asl3Api.Lib.EventStream
import Asl3Api.Lib.JsonText
import Asl3Api.Listener

/-!
# The generators of the event streams (`event_stream` of `asl_agent.py`)

Every client of the legacy `/events` has a queue of the listener and a generator that writes what the
queue brings. The clients, the broadcasts of the listener and the ends of the clients come in any order.

* `Event.dump`, `snapshotDump`: the dicts that are written;
* `generator`: the generator of one client, one place for every `yield` and `await`;
* `Streams.step`: the clients and the listener;
* `generator_cases`, `generator_forward`: what one stretch of a generator does;
* `operations`, **`exec_operations`**: what the streams do to the queues is a run of the listener;
* `yields_eq`, `clean_event`: what is yielded is the text of frames that can be read back.
-/

set_option autoImplicit false

namespace Asl3

open Py

/-- `bool(self.get("events.enabled", True))`. -/
def Config.eventsEnabled (cfg : Config) : Bool := (cfg.get "events.enabled" (.bool true)).truthy

/-! ## Dicts -/

/-- `None` or a value. -/
def optional {α : Type} (f : α → PyValue) : Option α → PyValue
  | none => .none
  | some a => f a

/-- The text of a status. -/
def StateStatus.text : StateStatus → String
  | .complete => "COMPLETE"
  | .stateUnknown => "STATE_UNKNOWN"

/-- `link.model_dump()`. -/
def DirectLink.dump (link : DirectLink) : PyValue :=
  .dict [("node", .str link.node), ("allstar_node", optional .str link.allstarNode),
    ("mode", .str link.mode.name), ("keyed", .bool link.keyed),
    ("connection_status", .str link.connectionStatus.text)]

namespace AMIEventListener

/-- The `variables` of a snapshot event. -/
def Variables.dump (v : Variables) : PyValue :=
  .dict [("rxkeyed", optional .bool v.rxkeyed), ("txkeyed", optional .bool v.txkeyed),
    ("complete", .bool v.complete), ("state_status", .str v.stateStatus.text),
    ("direct_links", optional (fun links => .list (links.map DirectLink.dump)) v.directLinks)]

/-- The own fields of an event. -/
def Body.fields : Body → List (String × PyValue)
  | .snapshot vars => [("variables", vars.dump)]
  | .keyed .rx value nodeNumber => [("rxkeyed", optional .bool value), ("node_number", .str nodeNumber)]
  | .keyed .tx value nodeNumber => [("txkeyed", optional .bool value), ("node_number", .str nodeNumber)]
  | .connected node => [("connected_node", .str node)]
  | .disconnected node => [("disconnected_node", .str node)]

/-- The dict that `_make_event` returns. -/
def Event.dump (e : Event) : PyValue :=
  .dict ([("type", .str e.body.type), ("timestamp", .str e.timestamp), ("node", .str e.node),
    ("callsign", e.callsign)] ++ e.body.fields)

end AMIEventListener

namespace AMIClient

/-- The dict that `get_node_variables` returns. -/
def NodeVariables.dump (v : NodeVariables) : PyValue :=
  .dict [("rxkeyed", optional .bool v.rxkeyed), ("txkeyed", optional .bool v.txkeyed),
    ("ext_txkeyed", optional .bool v.extTxkeyed), ("autopatch_up", optional .bool v.autopatchUp),
    ("num_links", optional (fun n : ℕ => .int n) v.numLinks), ("links", optional .str v.links),
    ("num_active_links", optional (fun n : ℕ => .int n) v.numActiveLinks),
    ("active_links", optional .str v.activeLinks), ("complete", .bool v.complete),
    ("state_status", .str v.stateStatus.text)]

end AMIClient

namespace Streams

open AMIEventListener (Body makeEvent)

/-- `snapshot` of the generator. -/
def snapshotDump (cfg : Config) (now : String) (vars : AMIClient.NodeVariables) : PyValue :=
  .dict [("type", .str "node.variables.snapshot"), ("timestamp", .str now),
    ("node", .str cfg.nodeNumber), ("callsign", cfg.nodeCallsign), ("variables", vars.dump)]

/-- `f"event: {event_type}\ndata: {json.dumps(event)}\n\n"`. -/
def eventChunk (type : String) (event : PyValue) : String :=
  "event: " ++ type ++ "\ndata: " ++ String.ofList (dumpsSpaced event) ++ "\n\n"

/-- The comment that keeps a connection open. -/
def keepalive : String := ": keepalive\n\n"

/-! ## The generator -/

/-- Where the generator of a client stands. -/
inductive Place where
  /-- There is no client. -/
  | absent
  /-- The response is made, and the generator was not entered. -/
  | made
  /-- `await ami_client.get_node_variables()`. -/
  | reading
  /-- The `yield` of the first snapshot. -/
  | snapshot
  /-- `await request.is_disconnected()`. -/
  | asking
  /-- `await asyncio.wait_for(queue.get(), timeout=15.0)`. -/
  | waiting
  /-- A `yield` in the loop. -/
  | sent
  /-- It has ended. -/
  | ended
  deriving DecidableEq, Repr

/-- The generator has yielded nothing. -/
def Place.blank : Place → Bool
  | .absent => true
  | .made => true
  | .reading => true
  | _ => false

/-- The generator has not come to the `try` of its loop. -/
def Place.early (p : Place) : Bool := p.blank || p = .snapshot

/-- What a generator goes on with. -/
inductive Input where
  /-- The response asks for the first chunk. -/
  | enter
  /-- `get_node_variables` returns, or raises an `Exception`. -/
  | read (now : String) (result : Except Error NodeState)
  /-- The chunk is sent, and the next one asked for. -/
  | resume
  /-- The answer of `is_disconnected`. -/
  | disconnected (answer : Bool)
  /-- `wait_for` returns an event, or times out. -/
  | event (e : Option AMIEventListener.Event)
  /-- `CancelledError`, `GeneratorExit` or another exception where the generator stands. -/
  | stop

/-- What a generator does. -/
inductive Action where
  | yield (chunk : String)
  /-- `ami_event_listener.unsubscribe(queue)`. -/
  | unsubscribe
  deriving DecidableEq, Repr

/-- One stretch of the generator. -/
def generator (cfg : Config) : Place → Input → Option (Place × List Action)
  | .made, .enter => some (.reading, [])
  | .reading, .read now (.ok state) =>
    some (.snapshot, [.yield (eventChunk "node.variables.snapshot"
      (snapshotDump cfg now (AMIClient.getNodeVariables state)))])
  | .reading, .read _ (.error _) => some (.asking, [])
  | .snapshot, .resume => some (.asking, [])
  | .asking, .disconnected true => some (.ended, [.unsubscribe])
  | .asking, .disconnected false => some (.waiting, [])
  | .waiting, .event (some e) => some (.sent, [.yield (eventChunk e.body.type e.dump)])
  | .waiting, .event none => some (.sent, [.yield keepalive])
  | .sent, .resume => some (.asking, [])
  -- the `finally` belongs to the `try` of the loop
  | .made, .stop => some (.ended, [])
  | .reading, .stop => some (.ended, [])
  | .snapshot, .stop => some (.ended, [])
  | .asking, .stop => some (.ended, [.unsubscribe])
  | .waiting, .stop => some (.ended, [.unsubscribe])
  | .sent, .stop => some (.ended, [.unsubscribe])
  | _, _ => none

/-! ## The clients and the listener -/

variable {ι : Type} [DecidableEq ι]

/-- The queues, the generators and the audit of the streams. -/
structure State (ι : Type) where
  queues : Subscribers.State ι AMIEventListener.Event
  place : ι → Place
  /-- The calls of `audit_log`. A call whose write fails only logs that, so the file may have fewer. -/
  audit : List (String × String)

/-- No client. -/
def init : State ι := ⟨Subscribers.init, fun _ => .absent, []⟩

/-- What happens next. -/
inductive Label (ι : Type) where
  /-- `event_stream` is called. -/
  | connect (id : ι)
  /-- The generator of a client goes on, where it does not wait for its queue. -/
  | client (id : ι) (i : Input)
  /-- It goes on with what its queue brings. -/
  | wake (id : ι)
  /-- The listener broadcasts an event. -/
  | broadcast (body : Body) (now : String) (order : List ι)

/-- `f"clients={ami_event_listener.subscriber_count}"`. -/
def clients (queues : Subscribers.State ι AMIEventListener.Event) : String :=
  "clients=" ++ toString queues.queues.card

/-- An action of the generator of `id`. -/
def State.act (s : State ι) (id : ι) : Action → State ι
  | .yield _ => s
  | .unsubscribe =>
    let queues := Subscribers.unsubscribe s.queues id
    { s with queues, audit := s.audit ++ [("events/disconnect", clients queues)] }

/-- The generator of `id` goes on. -/
def State.move (cfg : Config) (s : State ι) (id : ι) (i : Input) : Option (State ι) :=
  (generator cfg (s.place id) i).map fun (place, actions) =>
    actions.foldl (fun s a => s.act id a) { s with place := Function.update s.place id place }

variable (cfg : Config)

/-- One step. -/
def step (s : State ι) : Label ι → Option (State ι)
  | .connect id =>
    if cfg.eventsEnabled = false ∨ id ∈ s.queues.made then none
    else
      let queues := Subscribers.subscribe s.queues id
      some ⟨queues, Function.update s.place id .made, s.audit ++ [("events/connect", clients queues)]⟩
  -- the event of a queue comes with `wake`
  | .client _ (.event _) => none
  | .client id i => s.move cfg id i
  | .wake id =>
    let (event, queues) := Subscribers.receive s.queues id
    { s with queues }.move cfg id (.event event)
  | .broadcast body now order =>
    (Subscribers.step s.queues (.broadcast (makeEvent cfg now body) order)).map fun queues =>
      { s with queues }

/-- What a step does to the queues. -/
def operation (s : State ι) : Label ι → List (Subscribers.Label ι AMIEventListener.Event)
  | .connect id => [.subscribe id]
  | .client id i => match generator cfg (s.place id) i with
    | some (_, actions) => if .unsubscribe ∈ actions then [.unsubscribe id] else []
    | none => []
  | .wake id => [.receive id]
  | .broadcast body now order => [.broadcast (makeEvent cfg now body) order]

/-- The chunk of an action. -/
def Action.chunk? : Action → Option String
  | .yield chunk => some chunk
  | .unsubscribe => none

/-- What a stretch yields. -/
def chunks (p : Place) (i : Input) : List String :=
  match generator cfg p i with
  | some (_, actions) => actions.filterMap Action.chunk?
  | none => []

/-- What a step yields to the client `id`. -/
def yields (id : ι) (s : State ι) : Label ι → List String
  | .client x i => if x = id then chunks cfg (s.place x) i else []
  | .wake x =>
    if x = id then chunks cfg (s.place x) (.event (Subscribers.receive s.queues x).1) else []
  | _ => []

/-- The clients whose generator ends in a step before it came to its loop. -/
def leaked (s : State ι) : Label ι → List ι
  | .client id .stop => if (s.place id).early then [id] else []
  | _ => []

/-- What the streams of a run do to the queues, in order. -/
def operations (ls : List (Label ι)) : List (Subscribers.Label ι AMIEventListener.Event) :=
  Lts.trace (step cfg) (operation cfg) init ls

/-! ## One stretch -/

variable {cfg} {s s' : State ι} {id : ι}

/-- What a stretch does: nothing, one chunk, or the end of the subscription. It ends the generator
without the last only before the loop. -/
theorem generator_cases {p p' : Place} {i : Input} {actions : List Action}
    (h : generator cfg p i = some (p', actions)) :
    (actions = [] ∧ (p' = .ended ↔ i = .stop) ∧ (i = .stop → p.early = true)) ∨
      (∃ chunk, actions = [.yield chunk] ∧ p' ≠ .ended ∧ i ≠ .stop) ∨
      actions = [.unsubscribe] ∧ p' = .ended ∧ p.early = false := by
  unfold generator at h
  split at h <;> cases h <;> simp [Place.early, Place.blank]

/-- A generator does not go back. -/
theorem generator_forward {p p' : Place} {i : Input} {actions : List Action}
    (h : generator cfg p i = some (p', actions)) : p ≠ .absent ∧ p' ≠ .absent ∧ p ≠ .ended ∧
      (p'.early = true → p.early = true) ∧ (p'.blank = true → p.blank = true) := by
  unfold generator at h
  split at h <;> cases h <;> simp [Place.early, Place.blank]

/-- A step of a generator, on the whole state. -/
theorem move_cases {i : Input} (h : s.move cfg id i = some s') : ∃ p actions,
    generator cfg (s.place id) i = some (p, actions) ∧ s'.place = Function.update s.place id p ∧
      ((.unsubscribe ∉ actions ∧ s'.queues = s.queues ∧ s'.audit = s.audit) ∨
        actions = [.unsubscribe] ∧ s'.queues = Subscribers.unsubscribe s.queues id ∧
          s'.audit = s.audit ++ [("events/disconnect", clients s'.queues)]) := by
  obtain ⟨⟨p, actions⟩, hg, rfl⟩ := Option.map_eq_some_iff.mp h
  obtain ⟨rfl, -, -⟩ | ⟨chunk, rfl, -, -⟩ | ⟨rfl, -, -⟩ := generator_cases hg
  · exact ⟨p, [], hg, rfl, .inl ⟨List.not_mem_nil, rfl, rfl⟩⟩
  · exact ⟨p, [.yield chunk], hg, rfl, .inl ⟨by simp, rfl, rfl⟩⟩
  · exact ⟨p, [.unsubscribe], hg, rfl, .inr ⟨rfl, rfl, rfl⟩⟩

/-- Only `wake` brings an event. -/
theorem step_client {i : Input} (h : step cfg s (.client id i) = some s') :
    s.move cfg id i = some s' ∧ ∀ e, i ≠ .event e := by
  cases i with
  | event e => cases h
  | _ => exact ⟨h, nofun⟩

/-- What the queue brings is written in the loop. -/
theorem generator_event {p p' : Place} {e : Option AMIEventListener.Event} {actions : List Action}
    (h : generator cfg p (.event e) = some (p', actions)) :
    p = .waiting ∧ p' = .sent ∧ ∃ chunk, actions = [.yield chunk] := by
  cases p with
  | waiting => cases e <;> cases h <;> exact ⟨rfl, rfl, _, rfl⟩
  | _ => cases h

/-- `wake` takes the next event out of the queue. -/
theorem step_wake (h : step cfg s (.wake id) = some s') : s.place id = .waiting ∧
    s'.place = Function.update s.place id .sent ∧
      s'.queues = (Subscribers.receive s.queues id).2 ∧ s'.audit = s.audit := by
  obtain ⟨⟨p, actions⟩, hg, rfl⟩ := Option.map_eq_some_iff.mp h
  obtain ⟨hp, rfl, chunk, rfl⟩ := generator_event hg
  exact ⟨hp, rfl, rfl, rfl⟩

/-- What a step does to the queues, they do. -/
theorem exec_operation {l : Label ι} (h : step cfg s l = some s') :
    Lts.exec Subscribers.step s.queues (operation cfg s l) = some s'.queues := by
  cases l with
  | connect id =>
    rw [step] at h
    split_ifs at h with hc
    obtain rfl := Option.some.inj h
    rw [not_or] at hc
    exact Lts.exec_cons.mpr ⟨_, if_neg hc.2, rfl⟩
  | client id i =>
    obtain ⟨p, actions, hg, -, ⟨hn, hq, -⟩ | ⟨rfl, hq, -⟩⟩ := move_cases (step_client h).1
    · rw [operation, hg, hq]
      dsimp only
      rw [if_neg hn]
      rfl
    · rw [operation, hg, hq]
      rfl
  | wake id =>
    obtain ⟨-, -, hq, -⟩ := step_wake h
    rw [hq]
    rfl
  | broadcast body now order =>
    obtain ⟨queues, hq, rfl⟩ := Option.map_eq_some_iff.mp h
    exact Lts.exec_cons.mpr ⟨queues, hq, rfl⟩

variable {ls : List (Label ι)}

theorem operations_snoc (h : Lts.exec (step cfg) init ls = some s) (l : Label ι) :
    operations cfg (ls ++ [l]) = operations cfg ls ++ operation cfg s l :=
  Lts.trace_snoc h

/-- **The queues of a run** are those of a run of the listener. -/
theorem exec_operations (h : Lts.exec (step cfg) init ls = some s) :
    Lts.exec Subscribers.step Subscribers.init (operations cfg ls) = some s.queues := by
  refine Lts.exec_induction (fun ls s =>
    Lts.exec Subscribers.step Subscribers.init (operations cfg ls) = some s.queues) rfl ?_ h
  intro ls s l s' hr hq hstep
  rw [operations_snoc hr]
  exact Lts.exec_append.mpr ⟨_, hq, exec_operation hstep⟩

/-! ## Frames -/

/-- The message of an event. -/
def message (e : AMIEventListener.Event) : EventStream.Message :=
  ⟨e.body.type.toList, dumpsSpaced e.dump⟩

/-- The message of a first snapshot. -/
def snapshotMessage (cfg : Config) (now : String) (state : NodeState) : EventStream.Message :=
  ⟨"node.variables.snapshot".toList,
    dumpsSpaced (snapshotDump cfg now (AMIClient.getNodeVariables state))⟩

/-- The frame of an event, or of a timeout. -/
def eventFrame : Option AMIEventListener.Event → EventStream.Frame
  | some e => .event (message e)
  | none => .comment "keepalive".toList

/-- The frames of a stretch. -/
def framesAt (cfg : Config) : Place → Input → List EventStream.Frame
  | .reading, .read now (.ok state) => [.event (snapshotMessage cfg now state)]
  | .waiting, .event e => [eventFrame e]
  | _, _ => []

/-- The frames that a step writes to the client `id`. -/
def frames (cfg : Config) (id : ι) (s : State ι) : Label ι → List EventStream.Frame
  | .client x i => if x = id then framesAt cfg (s.place x) i else []
  | .wake x =>
    if x = id then framesAt cfg (s.place x) (.event (Subscribers.receive s.queues x).1) else []
  | _ => []

/-- A chunk is the text of its frame. -/
theorem eventChunk_eq (type : String) (event : PyValue) :
    (eventChunk type event).toList = (EventStream.Frame.event ⟨type.toList, dumpsSpaced event⟩).text := by
  have h : ("event: ".toList = "event".toList ++ [':', ' ']) ∧
      ("\ndata: ".toList = '\n' :: ("data".toList ++ [':', ' '])) ∧ "\n\n".toList = ['\n', '\n'] := by
    decide +kernel
  obtain ⟨hevent, hdata, hend⟩ := h
  simp only [eventChunk, String.toList_append, String.toList_ofList, hevent, hdata, hend,
    EventStream.Frame.text, EventStream.fieldLine, List.append_assoc, List.cons_append,
    List.nil_append]

theorem keepalive_eq : keepalive.toList = (EventStream.Frame.comment "keepalive".toList).text := by
  decide +kernel

/-- **What is yielded** is the text of the frames. -/
theorem chunks_eq (p : Place) (i : Input) :
    (chunks cfg p i).map String.toList = (framesAt cfg p i).map EventStream.Frame.text := by
  cases p with
  | reading =>
    cases i with
    | read now result =>
      cases result with
      | ok state => exact congrArg (fun text => [text]) (eventChunk_eq _ _)
      | error e => rfl
    | _ => rfl
  | waiting =>
    cases i with
    | event e =>
      cases e with
      | some e => exact congrArg (fun text => [text]) (eventChunk_eq _ _)
      | none => exact congrArg (fun text => [text]) keepalive_eq
    | _ => rfl
  | asking =>
    cases i with
    | disconnected answer => cases answer <;> rfl
    | _ => rfl
  | _ => cases i <;> rfl

theorem yields_eq (id : ι) (s : State ι) (l : Label ι) :
    (yields cfg id s l).map String.toList = (frames cfg id s l).map EventStream.Frame.text := by
  cases l with
  | client x i =>
    rw [yields, frames]
    split_ifs
    · exact chunks_eq _ _
    · rfl
  | wake x =>
    rw [yields, frames]
    split_ifs
    · exact chunks_eq _ _
    · rfl
  | connect x => rfl
  | broadcast body now order => rfl

/-! ## Floats -/

theorem floatTexts_optional {α : Type} {f : α → PyValue} (hf : ∀ a, (f a).floatTexts = [])
    (o : Option α) : (optional f o).floatTexts = [] := by
  cases o with
  | none => rfl
  | some a => exact hf a

/-- No link holds a float. -/
theorem floatTexts_links (links : List DirectLink) :
    PyValue.floatTexts (.list (links.map DirectLink.dump)) = [] := by
  rw [PyValue.floatTexts]
  induction links with
  | nil => rfl
  | cons link links ih =>
    have hlink : link.dump.floatTexts = [] := by
      have hallstar := floatTexts_optional (f := .str) (fun _ => rfl) link.allstarNode
      simp [DirectLink.dump, PyValue.floatTexts, PyValue.floatTextsEntries, hallstar]
    rw [List.map_cons, PyValue.floatTextsList, hlink, ih, List.nil_append]

/-- The floats of an event are those of the callsign. -/
theorem floatTexts_event (e : AMIEventListener.Event) :
    e.dump.floatTexts = e.callsign.floatTexts := by
  have hbool : ∀ o : Option Bool, (optional .bool o).floatTexts = [] :=
    floatTexts_optional fun _ => rfl
  have hlinks : ∀ o : Option (List DirectLink),
      (optional (fun links => .list (links.map DirectLink.dump)) o).floatTexts = [] :=
    floatTexts_optional floatTexts_links
  obtain ⟨body, timestamp, node, callsign⟩ := e
  rcases body with vars | ⟨_ | _, value, nodeNumber⟩ | node | node <;>
    simp [AMIEventListener.Event.dump, Body.fields, AMIEventListener.Variables.dump, PyValue.floatTexts,
      PyValue.floatTextsEntries, hbool, hlinks]

theorem floatTexts_snapshot (cfg : Config) (now : String) (vars : AMIClient.NodeVariables) :
    (snapshotDump cfg now vars).floatTexts = cfg.nodeCallsign.floatTexts := by
  have hbool : ∀ o : Option Bool, (optional .bool o).floatTexts = [] :=
    floatTexts_optional fun _ => rfl
  have hint : ∀ o : Option ℕ, (optional (fun n : ℕ => .int n) o).floatTexts = [] :=
    floatTexts_optional fun _ => rfl
  have hstr : ∀ o : Option String, (optional .str o).floatTexts = [] :=
    floatTexts_optional fun _ => rfl
  simp [snapshotDump, AMIClient.NodeVariables.dump, PyValue.floatTexts, PyValue.floatTextsEntries,
    hbool, hint, hstr]

/-! ## Clean frames -/

/-- The callsign has a text in printable ASCII. -/
def PlainCallsign (cfg : Config) : Prop :=
  ∀ r ∈ cfg.nodeCallsign.floatTexts, ∀ c ∈ r.toList, Printable c

theorem oneLine_printable {text : List Char} (h : ∀ c ∈ text, Printable c) :
    EventStream.OneLine text :=
  ⟨fun hc => absurd (h _ hc) (by decide), fun hc => absurd (h _ hc) (by decide)⟩

theorem clean_snapshot (hcfg : PlainCallsign cfg) (now : String) (state : NodeState) :
    (EventStream.Frame.event (snapshotMessage cfg now state)).Clean := by
  have htype : "node.variables.snapshot".toList ≠ [] ∧
      EventStream.OneLine "node.variables.snapshot".toList := by decide +kernel
  refine ⟨htype.1, htype.2, oneLine_printable (printable_dumpsSpaced _ ?_)⟩
  rwa [floatTexts_snapshot]

/-- The types of the events. -/
def eventTypes : List String :=
  ["node.variables.snapshot", "node.rxkeyed", "node.txkeyed", "link.connected", "link.disconnected"]

theorem type_mem (body : Body) : body.type ∈ eventTypes := by
  rcases body with _ | ⟨_ | _⟩ | _ | _ <;> simp [Body.type, eventTypes]

theorem clean_event (hcfg : PlainCallsign cfg) {e : AMIEventListener.Event}
    (he : e.callsign = cfg.nodeCallsign) : (EventStream.Frame.event (message e)).Clean := by
  have htype : ∀ type ∈ eventTypes, type.toList ≠ [] ∧ EventStream.OneLine type.toList := by
    decide +kernel
  refine ⟨(htype _ (type_mem e.body)).1, (htype _ (type_mem e.body)).2,
    oneLine_printable (printable_dumpsSpaced _ ?_)⟩
  rwa [floatTexts_event, he]

end Streams

end Asl3
