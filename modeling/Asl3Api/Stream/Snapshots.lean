import Asl3Api.Stream.Generator

/-!
# The stream of snapshots (`events` of `vnext/api.py`)

* `NodeState.dump`: a snapshot as it is written;
* `SnapshotStream.generator`: the generator of `/v1/events`;
* `run_snapshots`: what it has written in a run;
* `slept_between`: what lies between two snapshots;
* **`snapshot_stream`**: the client reads the snapshots that were taken, and there is a pause between any
  two of them.
-/

set_option autoImplicit false

namespace Asl3

open Py

/-- The text of a traffic state. -/
def TrafficState.text : TrafficState → String
  | .active => "ACTIVE"
  | .clear => "CLEAR"
  | .unknown => "UNKNOWN"

/-- `snapshot.model_dump(mode='json')`. -/
def NodeState.dump (s : NodeState) : PyValue :=
  .dict [("node", .str s.node), ("observed_at", .str s.observedAt),
    ("connection_epoch", optional .str s.connectionEpoch), ("state_status", .str s.stateStatus.text),
    ("traffic_state", .str s.trafficState.text), ("complete", .bool s.complete),
    ("rx_keyed", optional .bool s.rxKeyed), ("tx_keyed", optional .bool s.txKeyed),
    ("direct_links", optional (fun links => .list (links.map DirectLink.dump)) s.directLinks),
    ("reasons", .list (s.reasons.map .str)), ("source", .str s.source)]

namespace SnapshotStream

/-! ## The generator -/

/-- Where the generator stands. -/
inductive Place where
  /-- It was not entered. -/
  | made
  /-- `await request.is_disconnected()`. -/
  | asking
  /-- `await runtime.observer.snapshot()`. -/
  | sampling
  /-- Its `yield`. -/
  | sent
  /-- `await asyncio.sleep(…)`. -/
  | sleeping
  | ended
  deriving DecidableEq, Repr

/-- What it goes on with. -/
inductive Input where
  | enter
  | disconnected (answer : Bool)
  | snapshot (result : Except Error NodeState)
  | resume
  | slept
  /-- `CancelledError` or `GeneratorExit` where it stands. -/
  | stop

/-- The generator. An exception of `snapshot` ends it. -/
def generator : Place → Input → Option Place
  | .made, .enter => some .asking
  | .asking, .disconnected answer => some (if answer then .ended else .sampling)
  | .sampling, .snapshot (.ok _) => some .sent
  | .sampling, .snapshot (.error _) => some .ended
  | .sent, .resume => some .sleeping
  | .sleeping, .slept => some .asking
  | .ended, _ => none
  | _, .stop => some .ended
  | _, _ => none

/-- What it yields. -/
def yields : Place → Input → List String
  | .sampling, .snapshot (.ok state) => [Streams.eventChunk "node.state" state.dump]
  | _, _ => []

/-- The snapshot that is taken. -/
def snapshot? : Input → Option NodeState
  | .snapshot (.ok state) => some state
  | _ => none

/-- The text that was sent in a run. -/
def text (is : List Input) : List Char :=
  (Lts.trace generator yields .made is).flatMap String.toList

/-- The message of a snapshot. -/
def message (state : NodeState) : EventStream.Message :=
  ⟨"node.state".toList, dumpsSpaced state.dump⟩

/-! ## Runs -/

/-- A snapshot holds no float. -/
theorem floatTexts_state (s : NodeState) : s.dump.floatTexts = [] := by
  have hbool : ∀ o : Option Bool, (optional .bool o).floatTexts = [] :=
    Streams.floatTexts_optional fun _ => rfl
  have hstr : ∀ o : Option String, (optional .str o).floatTexts = [] :=
    Streams.floatTexts_optional fun _ => rfl
  have hlinks : ∀ o : Option (List DirectLink),
      (optional (fun links => .list (links.map DirectLink.dump)) o).floatTexts = [] :=
    Streams.floatTexts_optional Streams.floatTexts_links
  have hreasons : ∀ xs : List String, PyValue.floatTextsList (xs.map .str) = [] := by
    intro xs
    induction xs with
    | nil => rfl
    | cons x xs ih => rw [List.map_cons, PyValue.floatTextsList, ih]; rfl
  simp [NodeState.dump, PyValue.floatTexts, PyValue.floatTextsEntries, hbool, hstr, hlinks, hreasons]

theorem clean_message (s : NodeState) : (EventStream.Frame.event (message s)).Clean := by
  have htype : "node.state".toList ≠ [] ∧ EventStream.OneLine "node.state".toList := by decide +kernel
  refine ⟨htype.1, htype.2, Streams.oneLine_printable (printable_dumpsSpaced _ ?_)⟩
  rw [floatTexts_state]
  exact nofun

/-- A pause is due: a snapshot was taken since the last one. -/
def Place.owes : Place → ℕ
  | .sent => 1
  | .sleeping => 1
  | .ended => 1
  | _ => 0

/-- One stretch: a snapshot is taken and written, a pause ends, or neither. -/
theorem generator_cases {p p' : Place} {i : Input} (h : generator p i = some p') :
    (∃ state, snapshot? i = some state ∧ p.owes = 0 ∧ p'.owes = 1 ∧
      yields p i = [Streams.eventChunk "node.state" state.dump]) ∨
    snapshot? i = none ∧ yields p i = [] ∧ (i = .slept ∧ p.owes = 1 ∨ p.owes ≤ p'.owes) := by
  cases p with
  | made => cases i <;> cases h <;> exact Or.inr ⟨rfl, rfl, Or.inr (Nat.zero_le _)⟩
  | asking => cases i <;> cases h <;> exact Or.inr ⟨rfl, rfl, Or.inr (Nat.zero_le _)⟩
  | sampling =>
    cases i with
    | snapshot result =>
      cases result with
      | ok state =>
        cases h
        exact Or.inl ⟨state, rfl, rfl, rfl, rfl⟩
      | error e =>
        cases h
        exact Or.inr ⟨rfl, rfl, Or.inr (Nat.zero_le _)⟩
    | stop =>
      cases h
      exact Or.inr ⟨rfl, rfl, Or.inr (Nat.zero_le _)⟩
    | _ => cases h
  | sent => cases i <;> cases h <;> exact Or.inr ⟨rfl, rfl, Or.inr (le_refl 1)⟩
  | sleeping =>
    cases i with
    | slept =>
      cases h
      exact Or.inr ⟨rfl, rfl, Or.inl ⟨rfl, rfl⟩⟩
    | stop =>
      cases h
      exact Or.inr ⟨rfl, rfl, Or.inr (le_refl 1)⟩
    | _ => cases h
  | ended => cases i <;> cases h

/-- **What was written in a run**: the snapshots that were taken. -/
theorem run_snapshots {is : List Input} {p : Place} (h : Lts.exec generator .made is = some p) :
    text is = ((is.filterMap snapshot?).map fun s => EventStream.Frame.event (message s)).flatMap
      EventStream.Frame.text := by
  refine Lts.exec_induction (fun is _ =>
    text is = ((is.filterMap snapshot?).map fun s => EventStream.Frame.event (message s)).flatMap
      EventStream.Frame.text) rfl ?_ h
  intro is p i p' hr htext hstep
  have hnext : text (is ++ [i]) = text is ++ (yields p i).flatMap String.toList := by
    rw [text, Lts.trace_snoc hr, List.flatMap_append, text]
  rw [hnext, htext, List.filterMap_append, List.map_append, List.flatMap_append]
  rcases generator_cases hstep with ⟨state, hs, -, -, hy⟩ | ⟨hs, hy, -⟩
  · rw [hy, List.filterMap_cons_some hs]
    simp only [List.flatMap_cons, List.flatMap_nil, List.filterMap_nil, List.map_cons, List.map_nil,
      List.append_nil, Streams.eventChunk_eq]
    rfl
  · rw [hy, List.filterMap_cons_none hs]
    rfl

/-- A pause that is due stays due until one has ended. -/
theorem owes_kept {is : List Input} {p p' : Place} (h : Lts.exec generator p is = some p')
    (hp : p.owes = 1) (hno : .slept ∉ is) : p'.owes = 1 := by
  refine Lts.exec_invariant_of (fun i => i ≠ .slept) (fun p => p.owes = 1) hp ?_
    (fun i hi => ne_of_mem_of_not_mem hi hno) h
  intro p i p' hi hp hstep
  rcases generator_cases hstep with ⟨state, -, hfree, -, -⟩ | ⟨-, -, ho⟩
  · rw [hp] at hfree
    cases hfree
  · rcases ho with ⟨rfl, -⟩ | hle
    · exact absurd rfl hi
    · have hone : p'.owes ≤ 1 := by cases p' <;> decide
      omega

/-- **Between two snapshots** a pause has ended. -/
theorem slept_between {pre mid post : List Input} {a b : NodeState} {p : Place}
    (h : Lts.exec generator .made
      (pre ++ .snapshot (.ok a) :: (mid ++ .snapshot (.ok b) :: post)) = some p) : .slept ∈ mid := by
  obtain ⟨p₀, -, h⟩ := Lts.exec_append.mp h
  obtain ⟨p₁, hfirst, h⟩ := Lts.exec_cons.mp h
  obtain ⟨p₂, hmid, h⟩ := Lts.exec_append.mp h
  obtain ⟨p₃, hsecond, -⟩ := Lts.exec_cons.mp h
  by_contra hno
  have hdue : p₁.owes = 1 := by
    rcases generator_cases hfirst with ⟨-, -, -, hdue, -⟩ | ⟨hs, -, -⟩
    · exact hdue
    · cases hs
  have hfree : p₂.owes = 0 := by
    rcases generator_cases hsecond with ⟨-, -, hfree, -, -⟩ | ⟨hs, -, -⟩
    · exact hfree
    · cases hs
  rw [owes_kept hmid hdue hno] at hfree
  cases hfree

/-- **The stream of snapshots.** In any run a client reads the snapshots that were taken, each of them
whole, once and in order; where its stream breaks off it has read the first of these; and between any two
of them a pause has ended. -/
theorem snapshot_stream (is : List Input) (p : Place) (h : Lts.exec generator .made is = some p) :
    EventStream.read (text is) = (is.filterMap snapshot?).map message ∧
      (∀ n, EventStream.read ((text is).take n) <+: (is.filterMap snapshot?).map message) ∧
      ∀ pre mid post a b, is = pre ++ .snapshot (.ok a) :: (mid ++ .snapshot (.ok b) :: post) →
        .slept ∈ mid := by
  have htext := run_snapshots h
  have hclean : ∀ f ∈ (is.filterMap snapshot?).map fun s => EventStream.Frame.event (message s),
      f.Clean := by
    intro f hf
    obtain ⟨state, -, rfl⟩ := List.mem_map.mp hf
    exact clean_message state
  have hmessages : ((is.filterMap snapshot?).map fun s => EventStream.Frame.event (message s)).filterMap
      EventStream.Frame.message? = (is.filterMap snapshot?).map message := by
    rw [List.filterMap_map]
    exact congrFun List.filterMap_eq_map' _
  refine ⟨?_, fun n => ?_, fun pre mid post a b he => slept_between (he ▸ h)⟩
  · rw [htext, EventStream.read, EventStream.feed_frames hclean, hmessages]
  · rw [htext, ← hmessages]
    exact EventStream.feed_cut hclean n

/-- Two snapshots with a pause between them. -/
theorem snapshot_stream_two : EventStream.read (text [.enter, .disconnected false,
    .snapshot (.ok AMIClient.viewState), .resume, .slept, .disconnected false,
    .snapshot (.ok AMIClient.viewState)]) =
      [message AMIClient.viewState, message AMIClient.viewState] ∧
    Input.slept ∈ [Input.resume, .slept, .disconnected false] := by
  obtain ⟨hread, -, hbetween⟩ := snapshot_stream [.enter, .disconnected false,
    .snapshot (.ok AMIClient.viewState), .resume, .slept, .disconnected false,
    .snapshot (.ok AMIClient.viewState)] .sent rfl
  exact ⟨hread, hbetween [.enter, .disconnected false] _ [] AMIClient.viewState AMIClient.viewState rfl⟩

end SnapshotStream

end Asl3
