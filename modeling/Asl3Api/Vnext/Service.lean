import Asl3Api.Vnext.Ledger
import Asl3Api.Vnext.Observation
import Asl3Api.Vnext.Policy

/-!
# The control runtime (`vnext/service.py`)

* `effectStatus`: what a snapshot says about an operation;
* `Worker`, `Pc`: the coroutine `execute`, one program counter for every place where it can be
  interrupted;
* `Platform`: the attributes of the runtime, with `requireLedger`, `save`, `admitOperation` and
  `close`;
* `Execute.step`: one stretch of a worker, up to its next `await` or its next durable effect.

A stretch makes at most one durable effect: a ledger transaction or a control write. Where the
source makes two without an `await` between them, the program counter between the two is one of
`Pc.atomic`, at which no other coroutine runs and only the process can die.
-/

set_option autoImplicit false

namespace Asl3

open Py

/-! ## Effects -/

/-- `_ascii_numeric_link`. -/
def asciiNumericLink (name : String) : Bool :=
  match name.toList with
  | [] => false
  | c :: cs => c ≠ '0' && (c :: cs).all fun d => '0' ≤ d && d ≤ '9'

/-- `operation.request["mode"] == "monitor"`, with the `KeyError` of a request without a mode. -/
def requestsMonitor (op : Operation) : Except Error Bool :=
  match op.request.lookup "mode" with
  | none => .error (.py (.keyError "mode"))
  | some (.str m) => .ok (m = "monitor")
  | some _ => .ok false

/-- `link.allstar_node == target` for the target `operation.request.get("node")`. -/
def isTarget (op : Operation) (link : DirectLink) : Bool :=
  match op.request.lookup "node", link.allstarNode with
  | some (.str n), some m => n = m
  | some .none, none => true
  | none, none => true
  | _, _ => false

/-- `effect_status`. -/
def effectStatus (op : Operation) (state : NodeState) : Except Error EffectStatus :=
  if state.complete = false then .ok .unknown
  else
    let links := state.directLinks.getD []
    match op.kind with
    | .unlinkNode =>
      .ok (if links.all fun link => !isTarget op link then .observedSatisfied
        else .observedUnsatisfied)
    | .unlinkAll =>
      .ok (if (links.filter fun link => asciiNumericLink link.node).isEmpty then .observedSatisfied
        else .observedUnsatisfied)
    | .linkNode =>
      match links.find? (isTarget op) with
      | none => .ok .observedUnsatisfied
      | some link => match requestsMonitor op with
        | .error e => .error e
        | .ok monitor =>
          let desiredMode := if monitor then LinkMode.R else LinkMode.T
          .ok (if link.mode = desiredMode ∧ link.connectionStatus = .established then
            .observedSatisfied else .observedPartial)
    | .announce => .ok .notApplicable

/-! ## Workers -/

/-- Where a worker is in `execute`. -/
inductive Pc where
  /-- The task is created; the body is not entered. -/
  | created
  /-- `before = await self.observer.snapshot()`. -/
  | observing (op : Operation)
  /-- `await asyncio.wait_for(self.transport.dispatch(command, barrier), …)`. -/
  | dispatching (op : Operation) (command : String) (d : Dispatch)
  /-- An announcement is saved as acknowledged; its second save comes next. -/
  | acknowledged (op : Operation)
  /-- `last_state = await self.observer.snapshot()` in `verify_effect`. -/
  | verifying (op : Operation) (deadline : Rat)
  /-- `await asyncio.sleep(…)` in `verify_effect`. -/
  | sleeping (op : Operation) (deadline : Rat)
  /-- An exception has left the `try` body; its handler comes next. -/
  | handler (e : Raised)

/-- The places between two effects of one stretch: nothing else runs there. -/
def Pc.atomic : Pc → Bool
  | .dispatching _ _ (.committed _ _) => true
  | .acknowledged _ => true
  | .handler _ => true
  | _ => false

/-- A task that runs `execute(id)`. -/
structure Worker where
  id : String
  pc : Pc
  /-- The local `started`. -/
  started : Bool := false
  /-- `task.cancel()` was called. -/
  cancelling : Bool := false

/-- What resumes a worker. -/
inductive Input where
  /-- The body goes on without a value. -/
  | run (env : Env)
  /-- `CancelledError` is thrown in. -/
  | cancel
  /-- The awaited call raises. -/
  | error (e : Error)
  /-- `observer.snapshot()` has its sample. -/
  | snapshot (o : Observation) (env : Env)
  /-- The peer answers the session of `dispatch`. -/
  | receive (r : Received)
  /-- The control action begins, up to the return of the barrier. -/
  | action (actionId : String) (env : Env)
  /-- `writer.write(payload)` of the control action. -/
  | write
  deriving DecidableEq, Repr

/-- How a stretch ends: at a further place of the body, through its `finally`, or with the body
never entered. -/
inductive Next where
  | goes (w : Worker)
  | ended
  | dropped

/-! ## The runtime -/

/-- The attributes of `Platform`. -/
structure Platform where
  config : Config
  /-- `owner` holds its lock. -/
  owner : Bool
  /-- `ledger` is open. -/
  ledger : Bool
  /-- The tasks that have not ended. -/
  tasks : List Worker
  busyOperationId : Option String
  healthy : Bool
  closing : Bool

namespace Platform

/-- The attributes after `start`. -/
def fresh (cfg : Config) : Platform :=
  { config := cfg, owner := true, ledger := true, tasks := [], busyOperationId := none,
    healthy := true, closing := false }

/-- `self.node`. -/
def node (p : Platform) : String := p.config.nodeNumber

/-- The error of a runtime that has no ledger, no lock or is closing. -/
def controlUnavailable : ProblemError :=
  ⟨503, "CONTROL_UNAVAILABLE", "The local control runtime is not available."⟩

/-- The error of a runtime that could not save a result. -/
def ledgerUnavailable : ProblemError :=
  ⟨503, "LEDGER_UNAVAILABLE", "Operation persistence requires service recovery."⟩

/-- `Platform.require_ledger`. -/
def requireLedger (p : Platform) : Except ProblemError Unit :=
  if p.ledger = false ∨ p.owner = false ∨ p.closing then .error controlUnavailable
  else if p.healthy = false then .error ledgerUnavailable
  else .ok ()

/-- The new worker of an admission. -/
def newWorker (id : String) : Worker := { id, pc := .created }

/-- `Platform.admit`: the answer, and the runtime and the table after the call. -/
def admitOperation (p : Platform) (t : Table) (kind : String) (request : PyValue)
    (credential : String) (key : Option String) (env : Env) :
    Except Error Operation × Platform × Table :=
  match p.requireLedger with
  | .error e => (.error (.problem e), p, t)
  | .ok () => match commandFor p.node kind request with
    | .error e => (.error e, p, t)
    | .ok _ =>
      if p.healthy = false then (.error (.problem ledgerUnavailable), p, t)
      else match Ledger.findIdempotent t p.node kind request credential key env.readOk with
        | .error e => (.error e, p, t)
        | .ok (some op) => (.ok op, p, t)
        | .ok none =>
          if p.busyOperationId.isSome then
            (.error (.problem ⟨409, "NODE_BUSY",
              "Another control operation owns the node control slot."⟩), p, t)
          else
            -- the slot holds a placeholder from here to the end of the call
            match Ledger.admitOperation t p.node kind request credential key env with
            | (.error e, t') => (.error e, { p with busyOperationId := none }, t')
            | (.ok (op, false), t') => (.ok op, { p with busyOperationId := none }, t')
            | (.ok (op, true), t') =>
              (.ok op, { p with busyOperationId := some op.id,
                                tasks := p.tasks ++ [newWorker op.id] }, t')

/-- `Platform.save`: a failed transaction stops further admission. -/
def save (p : Platform) (t : Table) (id : String) (c : Changes) (env : Env) :
    Except Error (Option Operation) × Platform × Table :=
  if p.ledger then
    match Ledger.update t p.node id c env with
    | (.ok op, t') => (.ok (some op), p, t')
    | (.error e, t') =>
      if e = Ledger.sqliteError then (.ok none, { p with healthy := false }, t')
      else (.error e, p, t')
  else (.error (.py .attributeError), p, t)

/-- `self.ledger.get(operation_id)`. -/
def getOperation (p : Platform) (t : Table) (id : String) (env : Env) :
    Except Error (Option Operation) :=
  if p.ledger = false then .error (.py .attributeError)
  else if env.readOk = false then .error Ledger.sqliteError
  else .ok (Ledger.get t p.node id)

/-- The closure `barrier`. -/
def barrier (p : Platform) (t : Table) (id : String) (env : Env) :
    Except Error Unit × Table :=
  match p.requireLedger with
  | .error e => (.error (.problem e), t)
  | .ok () => match Ledger.startDispatch t p.node id env with
    | (.ok _, t') => (.ok (), t')
    | (.error e, t') => (.error e, t')

/-- The synchronous part of `close`: every task is cancelled. -/
def close (p : Platform) : Platform :=
  { p with closing := true, tasks := p.tasks.map fun w => { w with cancelling := true } }

/-- The end of `close`, when every task has ended. -/
def closed (p : Platform) : Platform :=
  { p with busyOperationId := none, ledger := false, owner := false }

/-- The runtime after a stretch of one of its workers. -/
def settle (p : Platform) (w : Worker) : Next → Platform
  | .goes w' => { p with tasks := p.tasks.map fun v => if v.id = w.id then w' else v }
  | .ended =>
    { p with tasks := p.tasks.filter fun v => v.id ≠ w.id
             busyOperationId := if p.busyOperationId = some w.id then none else p.busyOperationId }
  | .dropped => { p with tasks := p.tasks.filter fun v => v.id ≠ w.id }

end Platform

/-! ## `execute` -/

namespace Execute

variable (p : Platform) (t : Table) (w : Worker)

/-- An exception leaves the `try` body. -/
def raises (e : Raised) : Platform × Table × Next := (p, t, .goes { w with pc := .handler e })

/-- The worker goes on. -/
def goesOn (pc : Pc) : Platform × Table × Next := (p, t, .goes { w with pc := pc })

/-- `self.save(id, …)` followed by `return`. -/
def saveAndReturn (id : String) (c : Changes) (env : Env) : Platform × Table × Next :=
  match p.save t id c env with
  | (.ok _, p', t') => (p', t', .ended)
  | (.error e, p', t') => raises p' t' w (.error e)

/-- From the first line to the snapshot. -/
def enter (env : Env) : Platform × Table × Next :=
  if p.closing ∨ p.healthy = false then
    saveAndReturn p t w w.id
      { dispatchStatus := some .notDispatched, effectStatus := some .notAttempted,
        terminal := some true, semanticError := some "CONTROL_UNAVAILABLE" } env
  else match p.getOperation t w.id env with
    | .error e => raises p t w (.error e)
    | .ok none => (p, t, .ended)
    | .ok (some op) =>
      if op.terminal ∨ op.dispatchStatus ≠ .queued then (p, t, .ended)
      else goesOn p t w (.observing op)

/-- From the snapshot to the dispatch: the effect that holds already, the traffic policy and the
command. -/
def observed (op : Operation) (before : NodeState) (env : Env) : Platform × Table × Next :=
  let current := if op.kind ≠ .announce then effectStatus op before else .ok .notApplicable
  match current with
  | .error e => raises p t w (.error e)
  | .ok current =>
    if op.kind ≠ .announce ∧ current = .observedSatisfied then
      saveAndReturn p t w w.id
        { dispatchStatus := some .notDispatched, effectStatus := some current, terminal := some true,
          semanticError := some "ALREADY_SATISFIED", evidence := some before } env
    else match TrafficPolicy.enforce p.config op.kind.name before with
      | .error (.problem e) =>
        saveAndReturn p t w w.id
          { dispatchStatus := some .notDispatched, effectStatus := some .notAttempted,
            terminal := some true, semanticError := some e.code, evidence := some before } env
      | .error e => raises p t w (.error e)
      | .ok () => match commandFor p.node op.kind.name (.dict op.request) with
        | .error e => raises p t w (.error e)
        | .ok command => goesOn p t w (.dispatching op command .connecting)

/-- The control action up to the return of the barrier. -/
def control (op : Operation) (command : String) (attempted : Bool) (actionId : String)
    (env : Env) : Platform × Table × Next :=
  match AMISession.beginControl attempted (Dispatch.controlFields command) actionId with
  | .error e => goesOn p t w (.dispatching op command (.abort e))
  | .ok payload => match p.barrier t w.id env with
    | (.error e, t') => goesOn p t' w (.dispatching op command (.abort e))
    | (.ok (), t') =>
      (p, t', .goes { w with pc := .dispatching op command (.committed actionId payload)
                             started := true })

/-- From the reply to the end, or to the effect check. -/
def replied (op : Operation) (response : Message) (env : Env) : Platform × Table × Next :=
  if w.started = false then
    raises p t w (.error (.protocol "Transport did not cross durable dispatch boundary"))
  else match commandRejected response with
    | .error e => raises p t w (.error e)
    | .ok true =>
      saveAndReturn p t w w.id
        { dispatchStatus := some .rejected, effectStatus := some .notAttempted, terminal := some true,
          semanticError := some "COMMAND_REJECTED" } env
    | .ok false =>
      if response.lookup "response" ≠ some (.one "Success") then
        raises p t w (.error (.protocol "Missing or malformed AMI acknowledgment"))
      else match p.save t w.id { dispatchStatus := some .acknowledged } env with
        | (.error e, p', t') => raises p' t' w (.error e)
        | (.ok none, p', t') => (p', t', .ended)
        | (.ok (some _), p', t') =>
          if op.kind = .announce then goesOn p' t' w (.acknowledged op)
          else goesOn p' t' w (.verifying op (env.time + p.config.effectTimeout))

/-- The second save of an acknowledged announcement. -/
def announced (env : Env) : Platform × Table × Next :=
  saveAndReturn p t w w.id
    { effectStatus := some .unknown, terminal := some true,
      semanticError := some "PLAYBACK_EFFECT_NOT_OBSERVABLE" } env

/-- One turn of the loop of `verify_effect`. -/
def verified (op : Operation) (deadline : Rat) (lastState : NodeState) (env : Env) :
    Platform × Table × Next :=
  match effectStatus op lastState with
  | .error e => raises p t w (.error e)
  | .ok lastEffect =>
    if lastEffect = .observedSatisfied then
      saveAndReturn p t w op.id
        { effectStatus := some lastEffect, terminal := some true, evidence := some lastState } env
    else if deadline ≤ env.time then
      saveAndReturn p t w op.id
        { effectStatus := some lastEffect, terminal := some true, evidence := some lastState,
          semanticError := some (if lastEffect ≠ .unknown then
            "EFFECT_NOT_CONFIRMED_WITHIN_OBSERVATION_WINDOW" else "POST_DISPATCH_STATE_UNKNOWN") }
        env
    else goesOn p t w (.sleeping op deadline)

/-- The change the handlers of `execute` save. -/
def handlerChange (started : Bool) (e : Raised) : Changes :=
  { dispatchStatus := some (if started then .outcomeUnknown else .notDispatched)
    effectStatus := some (if started then .unknown else .notAttempted)
    terminal := some true
    semanticError := some (match e with
      | .cancelled => if started then "WORKER_CANCELLED_AFTER_POSSIBLE_DISPATCH"
          else "WORKER_CANCELLED_BEFORE_DISPATCH"
      | .error _ => if started then "DISPATCH_OUTCOME_UNCERTAIN" else "DISPATCH_NOT_ATTEMPTED") }

/-- The handlers of `execute` and its `finally`; what the save raises leaves through the `finally`
as well. -/
def handled (e : Raised) (env : Env) : Platform × Table × Next :=
  match p.save t w.id (handlerChange w.started e) env with
  | (_, p', t') => (p', t', .ended)

/-- An exception is thrown in where the worker waits. -/
def thrown (e : Raised) : Option (Platform × Table × Next) :=
  match w.pc with
  | .observing _ => some (raises p t w e)
  | .verifying _ _ => some (raises p t w e)
  | .sleeping _ _ => some (raises p t w e)
  | .dispatching op command d => match d.throw e with
    | none => none
    | some (.inl d') => some (goesOn p t w (.dispatching op command d'))
    | some (.inr e') => some (raises p t w e')
  | _ => none

/-- One stretch of a worker. `none`: the input does not fit the place where the worker is. -/
def step : Input → Option (Platform × Table × Next)
  | .cancel =>
    -- a task cancelled before its first step never enters the body
    if w.cancelling = false then none
    else match w.pc with
      | .created => some (p, t, .dropped)
      | _ => thrown p t w .cancelled
  | .error e => thrown p t w (.error e)
  | .run env => match w.pc with
    | .created => if w.cancelling then none else some (enter p t w env)
    | .dispatching _ _ (.closing (.error e)) => some (raises p t w e)
    | .dispatching op _ (.closing (.ok response)) => some (replied p t w op response env)
    | .acknowledged _ => some (announced p t w env)
    | .sleeping op deadline => some (goesOn p t w (.verifying op deadline))
    | .handler e => some (handled p t w e env)
    | _ => none
  | .snapshot o env => match w.pc with
    | .observing op => match Observer.snapshot p.node o env.now env.uuid with
      | .error e => some (raises p t w (.error e))
      | .ok before => some (observed p t w op before env)
    | .verifying op deadline => match Observer.snapshot p.node o env.now env.uuid with
      | .error e => some (raises p t w (.error e))
      | .ok lastState => some (verified p t w op deadline lastState env)
    | _ => none
  | .receive r => match w.pc with
    | .dispatching op command d =>
      (d.receive p.config r).map fun d' => goesOn p t w (.dispatching op command d')
    | _ => none
  | .action actionId env => match w.pc with
    | .dispatching op command (.ready attempted) =>
      some (control p t w op command attempted actionId env)
    | _ => none
  | .write => match w.pc with
    | .dispatching op command (.committed actionId _) =>
      some (goesOn p t w (.dispatching op command (.replying actionId 0)))
    | _ => none

end Execute

end Asl3
