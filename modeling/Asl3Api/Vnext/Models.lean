import Asl3Api.Lib.Pattern

/-!
# Public v1 types (`vnext/models.py`)

* `validateNode`, `LinkRequest`, `AnnouncementRequest`: the checks on request values;
* `DirectLink`, `NodeState`: one observation of the node;
* `Operation`: the stored document of a control operation, and `Operation.merge`, the change of
  some of its fields;
* `commandFor`: the fixed map from a semantic request to an app_rpt command.
-/

set_option autoImplicit false

namespace Asl3

open Py

/-- `ProblemError(status, code, detail)`. -/
structure ProblemError where
  status : Nat
  code : String
  detail : String
  deriving DecidableEq, Repr

/-- An `Exception` of the program: its own classes and the built-in ones. -/
inductive Error where
  | problem (e : ProblemError)
  | protocol (text : String)
  | py (e : PyError)
  deriving DecidableEq, Repr

/-- What leaves a call that does not return: `asyncio.CancelledError` or an `Exception`. -/
inductive Raised where
  | cancelled
  | error (e : Error)
  deriving DecidableEq, Repr

/-! ## Node numbers and requests -/

/-- `NODE_PATTERN = r"^[1-9][0-9]{0,5}$"`. -/
def nodePattern : List Piece :=
  [.run (fun c => '1' ≤ c && c ≤ '9') 1 (some 1), .run isDigit 0 (some 5)]

/-- Whether a string is a canonical node number. -/
def isNode (s : String) : Bool := (fullmatch nodePattern s.toList).isSome

/-- ASCII digits without a leading zero, of any length. -/
structure Numeric (name : String) : Prop where
  nonempty : name ≠ ""
  digits : ∀ c ∈ name.toList, isDigit c = true
  leading : name.toList.head? ≠ some '0'

/-- A canonical node is numeric. -/
theorem Numeric.of_isNode {name : String} (h : isNode name = true) : Numeric name := by
  obtain ⟨gs, hs, hf⟩ := fullmatch_isSome.mp h
  obtain ⟨g, gs₁, ⟨hg, hg1, -⟩, hf₁, rfl⟩ := List.forall₂_cons_left_iff.mp hf
  obtain ⟨g', gs₂, ⟨hg', -⟩, hf₂, rfl⟩ := List.forall₂_cons_left_iff.mp hf₁
  obtain rfl := List.forall₂_nil_left_iff.mp hf₂
  obtain ⟨c, cs, rfl⟩ := List.exists_cons_of_ne_nil (List.length_pos_iff.mp hg1)
  simp only [List.flatten_cons, List.flatten_nil, List.append_nil, List.cons_append] at hs
  refine ⟨?_, ?_, ?_⟩
  · rintro rfl
    cases hs
  · rw [hs]
    intro x hx
    rw [← List.cons_append, List.mem_append] at hx
    rcases hx with hx | hx
    · have := hg x hx
      simp only [Bool.and_eq_true, decide_eq_true_eq] at this
      simp only [isDigit, Bool.and_eq_true, decide_eq_true_eq]
      exact ⟨Char.le_trans (by decide : '0' ≤ '1') this.1, this.2⟩
    · exact hg' x hx
  · rw [hs]
    rintro h0
    cases h0
    exact absurd (hg '0' List.mem_cons_self) (by decide)

/-- `validate_node`. -/
def validateNode : PyValue → Except Error String
  | .str s =>
    if isNode s then .ok s
    else .error (.py (.valueError "Node must be 1-6 ASCII digits with no leading zero"))
  | _ => .error (.py (.valueError "Node must be 1-6 ASCII digits with no leading zero"))

/-- `SUPPORTED_ANNOUNCEMENTS`. -/
def supportedAnnouncements : List String := ["identify", "status"]

/-- `WITHDRAWN_ANNOUNCEMENTS`. -/
def withdrawnAnnouncements : List String := ["time", "version"]

/-- `unsupported_announcement_detail`. -/
def unsupportedAnnouncementDetail (kind : String) : String :=
  let supported := ", ".intercalate supportedAnnouncements
  if kind ∈ withdrawnAnnouncements then
    "Announcement kind " ++ String.ofList (reprStr kind) ++ " is withdrawn. app_rpt delivers it as " ++
      "link telemetry text, and whether it is spoken depends on the " ++
      "receiving node's telemetry policy, which this API cannot observe " ++
      "or control. Supported kinds: " ++ supported ++ "."
  else
    "Announcement kind " ++ String.ofList (reprStr kind) ++ " is not supported. Supported kinds: " ++
      supported ++ "."

/-- The two values of `LinkRequest.mode`. -/
inductive Mode where
  | transceive
  | monitor
  deriving DecidableEq, Repr

/-- The text of a mode. -/
def Mode.text : Mode → String
  | .transceive => "transceive"
  | .monitor => "monitor"

/-- `LinkRequest`. -/
structure LinkRequest where
  node : String
  mode : Mode
  deriving DecidableEq, Repr

/-- The `ValidationError` of pydantic, a `ValueError` whose report is not kept. -/
def validationError : Error := .py (.valueError "validation error")

/-- `LinkRequest(**request)`: no other keys, a strict node string, `mode` transceive by default. -/
def LinkRequest.make : PyValue → Except Error LinkRequest
  | .dict es =>
    if es.all fun e => e.1 = "node" || e.1 = "mode" then
      match es.lookup "node", es.lookup "mode" with
      | some (.str n), none =>
        if isNode n then .ok ⟨n, .transceive⟩ else .error validationError
      | some (.str n), some (.str m) =>
        if isNode n && m = "transceive" then .ok ⟨n, .transceive⟩
        else if isNode n && m = "monitor" then .ok ⟨n, .monitor⟩
        else .error validationError
      | _, _ => .error validationError
    else .error validationError
  | _ => .error (.py (.typeError "argument after ** must be a mapping"))

/-- `AnnouncementRequest(**request)`, as the value of its only field. -/
def announcementRequest : PyValue → Except Error String
  | .dict es =>
    if es.all fun e => e.1 = "kind" then
      match es.lookup "kind" with
      | some (.str k) => if k ∈ supportedAnnouncements then .ok k else .error validationError
      | _ => .error validationError
    else .error validationError
  | _ => .error (.py (.typeError "argument after ** must be a mapping"))

/-- `request['node']`. -/
def subscriptNode : PyValue → Except Error PyValue
  | .dict es =>
    match es.lookup "node" with
    | some v => .ok v
    | none => .error (.py (.keyError "node"))
  | _ => .error (.py (.typeError "indices must be integers"))

/-- `command_for`: the semantic v1 surface mapped to verified app_rpt commands. -/
def commandFor (node kind : String) (request : PyValue) : Except Error String :=
  match validateNode (.str node) with
  | .error e => .error e
  | .ok _ =>
    let command : Except Error String :=
      if kind = "link_node" then
        match LinkRequest.make request with
        | .error e => .error e
        | .ok body =>
          .ok ("ilink " ++ (if body.mode = .monitor then "2" else "3") ++ " " ++ body.node)
      else if kind = "unlink_node" then
        match subscriptNode request with
        | .error e => .error e
        | .ok v => match validateNode v with
          | .error e => .error e
          | .ok n => .ok ("ilink 11 " ++ n)
      else if kind = "unlink_all" ∧ request.truthy = false then .ok "ilink 6"
      else if kind = "announce" then
        let requested := match request with
          | .dict es => es.lookup "kind"
          | _ => none
        match requested with
        | some (.str k) =>
          if k ∉ supportedAnnouncements then
            .error (.problem ⟨422, "UNSUPPORTED_ANNOUNCEMENT", unsupportedAnnouncementDetail k⟩)
          else match announcementRequest request with
            | .error e => .error e
            | .ok k => .ok (if k = "identify" then "status 1" else "ilink 5")
        | _ => match announcementRequest request with
          | .error e => .error e
          | .ok k => .ok (if k = "identify" then "status 1" else "ilink 5")
      else .error (.py (.valueError "Unsupported operation"))
    match command with
    | .error e => .error e
    | .ok c => .ok ("rpt cmd " ++ node ++ " " ++ c)

/-! ### Which errors are shown to a client -/

theorem validateNode_problem {value : PyValue} {e : ProblemError} :
    validateNode value ≠ .error (.problem e) := by
  intro h
  unfold validateNode at h
  repeat' split at h
  all_goals cases h

theorem LinkRequest.make_problem {request : PyValue} {e : ProblemError} :
    LinkRequest.make request ≠ .error (.problem e) := by
  intro h
  unfold LinkRequest.make validationError at h
  repeat' split at h
  all_goals cases h

theorem announcementRequest_problem {request : PyValue} {e : ProblemError} :
    announcementRequest request ≠ .error (.problem e) := by
  intro h
  unfold announcementRequest validationError at h
  repeat' split at h
  all_goals cases h

theorem subscriptNode_problem {request : PyValue} {e : ProblemError} :
    subscriptNode request ≠ .error (.problem e) := by
  intro h
  unfold subscriptNode at h
  repeat' split at h
  all_goals cases h

/-- The only `ProblemError` of `command_for` is about an announcement. -/
theorem commandFor_problem {node kind : String} {request : PyValue} {e : ProblemError}
    (h : commandFor node kind request = .error (.problem e)) :
    e.code = "UNSUPPORTED_ANNOUNCEMENT" := by
  unfold commandFor at h
  cases hv : validateNode (.str node) with
  | error x =>
    simp only [hv] at h
    cases h
    exact absurd hv validateNode_problem
  | ok n =>
    simp only [hv] at h
    by_cases hlink : kind = "link_node"
    · rw [if_pos hlink] at h
      cases hl : LinkRequest.make request with
      | error x =>
        simp only [hl] at h
        cases h
        exact absurd hl LinkRequest.make_problem
      | ok body => simp [hl] at h
    rw [if_neg hlink] at h
    by_cases hunlink : kind = "unlink_node"
    · rw [if_pos hunlink] at h
      cases hs : subscriptNode request with
      | error x =>
        simp only [hs] at h
        cases h
        exact absurd hs subscriptNode_problem
      | ok v =>
        cases hn : validateNode v with
        | error x =>
          simp only [hs, hn] at h
          cases h
          exact absurd hn validateNode_problem
        | ok m => simp [hs, hn] at h
    rw [if_neg hunlink] at h
    by_cases hall : kind = "unlink_all" ∧ request.truthy = false
    · simp [if_pos hall] at h
    rw [if_neg hall] at h
    by_cases hann : kind = "announce"
    · rw [if_pos hann] at h
      -- the answer without a text to look at, and the one for a supported text
      have hrest : ∀ c : Except Error String, c = (match announcementRequest request with
          | .error x => .error x
          | .ok k => .ok (if k = "identify" then "status 1" else "ilink 5")) →
          c ≠ .error (.problem e) := by
        rintro c rfl hc
        cases ha : announcementRequest request with
        | error x =>
          simp only [ha] at hc
          cases hc
          exact absurd ha announcementRequest_problem
        | ok k => simp [ha] at hc
      split at h
      · rename_i x hx
        cases h
        split at hx
        · split_ifs at hx with hk
          · exact absurd hx (hrest _ rfl)
          · cases hx
            rfl
        · exact absurd hx (hrest _ rfl)
      · cases h
    · simp [if_neg hann] at h

/-! ## Observations -/

/-- `DirectLink.mode`. -/
inductive LinkMode where
  | T | R | L | C
  | unknown
  deriving DecidableEq, Repr

/-- `DirectLink.connection_status`. -/
inductive ConnectionStatus where
  | established
  | connecting
  deriving DecidableEq, Repr

/-- `DirectLink`: one adjacent app_rpt connection. -/
structure DirectLink where
  node : String
  allstarNode : Option String
  mode : LinkMode
  keyed : Bool
  connectionStatus : ConnectionStatus
  deriving DecidableEq, Repr

/-- `NodeState.state_status`. -/
inductive StateStatus where
  | complete
  | stateUnknown
  deriving DecidableEq, Repr

/-- `NodeState.traffic_state`. -/
inductive TrafficState where
  | active
  | clear
  | unknown
  deriving DecidableEq, Repr

/-- `NodeState`. -/
structure NodeState where
  node : String
  observedAt : String
  connectionEpoch : Option String
  stateStatus : StateStatus
  trafficState : TrafficState
  complete : Bool
  rxKeyed : Option Bool := none
  txKeyed : Option Bool := none
  directLinks : Option (List DirectLink) := none
  reasons : List String := []
  source : String := "app_rpt/RptStatus/XStat+SawStat"
  deriving DecidableEq, Repr

/-! ## Operations -/

/-- `Operation.kind`. -/
inductive Kind where
  | linkNode
  | unlinkNode
  | unlinkAll
  | announce
  deriving DecidableEq, Repr

/-- The text of a kind. -/
def Kind.name : Kind → String
  | .linkNode => "link_node"
  | .unlinkNode => "unlink_node"
  | .unlinkAll => "unlink_all"
  | .announce => "announce"

/-- The kind of a text. -/
def Kind.ofName? (s : String) : Option Kind :=
  if s = "link_node" then some .linkNode
  else if s = "unlink_node" then some .unlinkNode
  else if s = "unlink_all" then some .unlinkAll
  else if s = "announce" then some .announce
  else none

theorem Kind.ofName?_eq_some {s : String} {k : Kind} : Kind.ofName? s = some k ↔ s = k.name := by
  unfold Kind.ofName?
  constructor
  · split_ifs with h1 h2 h3 h4
    · rintro ⟨⟩; exact h1
    · rintro ⟨⟩; exact h2
    · rintro ⟨⟩; exact h3
    · rintro ⟨⟩; exact h4
    · rintro ⟨⟩
  · rintro rfl
    cases k <;> rfl

/-- `Operation.dispatch_status`. -/
inductive DispatchStatus where
  | queued
  | dispatchStarted
  | acknowledged
  | rejected
  | notDispatched
  | outcomeUnknown
  deriving DecidableEq, Repr

/-- `Operation.effect_status`. -/
inductive EffectStatus where
  | pending
  | notAttempted
  | observedSatisfied
  | observedPartial
  | observedUnsatisfied
  | notApplicable
  | unknown
  deriving DecidableEq, Repr

/-- The `OBSERVED_` values of `effect_status`. -/
def EffectStatus.observed : EffectStatus → Bool
  | .observedSatisfied => true
  | .observedPartial => true
  | .observedUnsatisfied => true
  | _ => false

/-- `Operation`. -/
structure Operation where
  id : String
  node : String
  kind : Kind
  request : List (String × PyValue)
  credential : String
  createdAt : String
  updatedAt : String
  dispatchStatus : DispatchStatus
  effectStatus : EffectStatus
  terminal : Bool
  semanticError : Option String := none
  evidence : Option NodeState := none

/-- The keyword arguments of an update; a field that is `none` is not given. -/
structure Changes where
  dispatchStatus : Option DispatchStatus := none
  effectStatus : Option EffectStatus := none
  terminal : Option Bool := none
  semanticError : Option String := none
  evidence : Option NodeState := none
  deriving DecidableEq, Repr

/-- `{**operation.model_dump(), **changes, "updated_at": now()}`. -/
def Operation.merge (op : Operation) (c : Changes) (now : String) : Operation :=
  { op with
    updatedAt := now
    dispatchStatus := c.dispatchStatus.getD op.dispatchStatus
    effectStatus := c.effectStatus.getD op.effectStatus
    terminal := c.terminal.getD op.terminal
    semanticError := c.semanticError.or op.semanticError
    evidence := c.evidence.or op.evidence }

section

variable (op : Operation) (c : Changes) (now : String)

@[simp] theorem merge_id : (op.merge c now).id = op.id := rfl
@[simp] theorem merge_node : (op.merge c now).node = op.node := rfl
@[simp] theorem merge_kind : (op.merge c now).kind = op.kind := rfl
@[simp] theorem merge_request : (op.merge c now).request = op.request := rfl
@[simp] theorem merge_credential : (op.merge c now).credential = op.credential := rfl
@[simp] theorem merge_createdAt : (op.merge c now).createdAt = op.createdAt := rfl

@[simp] theorem merge_dispatchStatus :
    (op.merge c now).dispatchStatus = c.dispatchStatus.getD op.dispatchStatus := rfl

@[simp] theorem merge_effectStatus :
    (op.merge c now).effectStatus = c.effectStatus.getD op.effectStatus := rfl

@[simp] theorem merge_terminal : (op.merge c now).terminal = c.terminal.getD op.terminal := rfl

@[simp] theorem merge_evidence : (op.merge c now).evidence = c.evidence.or op.evidence := rfl

end

end Asl3
