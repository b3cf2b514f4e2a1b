import Asl3Api.Lib.Transition
import Asl3Api.Vnext.Service

/-!
# Runs of the service over one ledger file

One state is the table of the ledger file and the life of the process that owns its node's lock.
A step is what happens between two places where a coroutine can be interrupted, one transaction of
`recover`, or the death of the process; the label carries what the environment decides.

* `Life`, `Sys`, `Label`, `Sys.step`: the system, for the rows and the lock of one node;
* `Event`, `Sys.output`: what a step does that the claims about a whole history speak of;
* `Reaches`, `history`: runs from the empty ledger, and their events.
-/

set_option autoImplicit false

namespace Asl3

open Py

/-- The process that owns the lock of the node, if there is one. -/
inductive Life where
  /-- No process has the lock. -/
  | down
  /-- `start` has opened the ledger; `recover` still has these fetched documents before it. -/
  | starting (cfg : Config) (todo : List Operation)
  /-- `start` has returned. -/
  | up (p : Platform)

/-- The ledger file and the process. -/
structure Sys where
  table : Table
  life : Life

/-- What happens next. -/
inductive Label where
  /-- A process runs `start` up to the `SELECT` of `recover`. -/
  | start (cfg : Config) (env : Env)
  /-- The loop of `recover` takes one turn, or ends. -/
  | recover (env : Env)
  /-- A client calls `admit`. -/
  | request (kind : String) (request : PyValue) (credential : String) (key : Option String)
      (env : Env)
  /-- The worker of an operation goes on. -/
  | worker (id : String) (i : Input)
  /-- `close` is called, up to its `await`. -/
  | close
  /-- `close` returns. -/
  | closed
  /-- The process dies. -/
  | crash

/-- What a run is observed to do. -/
inductive Event where
  /-- The body of `execute` is entered. -/
  | entered (id : String)
  /-- The observation of `execute` before the dispatch. -/
  | sampled (id : String) (o : Observation) (before : NodeState)
  /-- The barrier has committed. -/
  | crossed (id : String)
  /-- The payload of the control action is passed to `writer.write`. -/
  | wrote (id actionId payload : String)
  /-- A frame is read for the control action. -/
  | answered (id : String) (response : Message)
  /-- The worker has ended. -/
  | ended (id : String)
  /-- The process has died, and its workers with it. -/
  | died
  deriving DecidableEq, Repr

namespace Platform

/-- No worker is between two effects of one stretch. -/
def quiet (p : Platform) : Bool := p.tasks.all fun w => !w.pc.atomic

/-- The worker of an operation, when no other one is between two effects of one stretch. -/
def runnable (p : Platform) (id : String) : Option Worker :=
  if p.tasks.all fun v => v.id = id || !v.pc.atomic then p.tasks.find? fun v => v.id = id else none

end Platform

namespace Execute

/-- What a stretch is observed to begin with. -/
def opening (p : Platform) (w : Worker) (i : Input) : List Event :=
  match i, w.pc with
  | .run _, .created => [.entered w.id]
  | .snapshot o env, .observing _ => match Observer.snapshot p.node o env.now env.uuid with
    | .ok before => [.sampled w.id o before]
    | .error _ => []
  | .write, .dispatching _ _ (.committed actionId payload) => [.wrote w.id actionId payload]
  | .receive (.frame f), .dispatching _ _ (.replying _ _) => [.answered w.id f]
  | _, _ => []

/-- What a stretch is observed to end with. -/
def ending (w : Worker) : Next → List Event
  | .goes w' => if w.started = false ∧ w'.started then [.crossed w.id] else []
  | .ended => [.ended w.id]
  | .dropped => [.ended w.id]

/-- What one stretch is observed to do. -/
def output (p : Platform) (w : Worker) (i : Input) (n : Next) : List Event :=
  opening p w i ++ ending w n

end Execute

namespace Sys

/-- An empty ledger and no process. -/
def init : Sys := ⟨[], .down⟩

/-- A process holds the lock. -/
def locked (s : Sys) : Bool :=
  match s.life with
  | .down => false
  | .starting _ _ => true
  | .up p => p.owner

variable (node : String) (s : Sys)

/-- One step of the service for `node`. -/
def step : Label → Option Sys
  | .start cfg env =>
    -- a process that `flock` refuses takes no step
    if cfg.Valid ∧ cfg.nodeNumber = node ∧ s.locked = false then
      -- a `SELECT` that fails gives the lock back
      if env.readOk = false then some s
      else some { s with life := .starting cfg (Ledger.documents s.table node) }
    else none
  | .recover env => match s.life with
    | .starting cfg [] => some { s with life := .up (.fresh cfg) }
    | .starting cfg (op :: todo) => match Ledger.recoverRow s.table node op env with
      | (.ok (), t) => some ⟨t, .starting cfg todo⟩
      | (.error _, t) => some ⟨t, .down⟩
    | _ => none
  | .request kind request credential key env => match s.life with
    | .up p =>
      if p.quiet then match p.admitOperation s.table kind request credential key env with
        | (_, p', t) => some ⟨t, .up p'⟩
      else none
    | _ => none
  | .worker id i => match s.life with
    | .up p => match p.runnable id with
      | none => none
      | some w => match Execute.step p s.table w i with
        | none => none
        | some (p', t, n) => some ⟨t, .up (p'.settle w n)⟩
    | _ => none
  | .close => match s.life with
    | .up p => if p.quiet then some { s with life := .up p.close } else none
    | _ => none
  | .closed => match s.life with
    | .up p => if p.closing ∧ p.tasks.isEmpty then some { s with life := .up p.closed } else none
    | _ => none
  | .crash => some { s with life := .down }

/-- What a step is observed to do. -/
def output (s : Sys) : Label → List Event
  | .worker id i => match s.life with
    | .up p => match p.runnable id with
      | none => []
      | some w => match Execute.step p s.table w i with
        | none => []
        | some (_, _, n) => Execute.output p w i n
    | _ => []
  | .crash => [.died]
  | _ => []

end Sys

/-- The labels `ls` lead from the empty ledger to `s`. -/
def Reaches (node : String) (ls : List Label) (s : Sys) : Prop :=
  Lts.exec (Sys.step node) Sys.init ls = some s

/-- The events of a run from `s`. -/
def eventsFrom (node : String) (s : Sys) (ls : List Label) : List Event :=
  Lts.trace (Sys.step node) Sys.output s ls

/-- The events of a run from the empty ledger. -/
def history (node : String) (ls : List Label) : List Event := eventsFrom node Sys.init ls

/-! ## A run -/

/-- A configuration with every required setting, and the default of every other one. -/
def sampleConfig : Config :=
  ⟨.dict [("node", .dict [("number", .int 546051), ("callsign", .str "KJ5IRQ")]),
    ("ami", .dict [("password", .str "secret")]), ("api", .dict [("api_key", .str "key")])]⟩

/-- The replies of an idle node without links, or with a keyed receiver. -/
def sampleReplies (rxKeyed : String) : Observation :=
  .replies
    [("response", .one "Success"), ("node", .one "546051"),
      ("var", .many ["RPT_RXKEYED=" ++ rxKeyed, "RPT_TXKEYED=0", "RPT_NUMALINKS=0", "RPT_ALINKS="])]
    [("response", .one "Success"), ("node", .one "546051")] "epoch" false

/-- A process starts on the empty ledger, and an announcement is admitted. -/
def admitRun : List Label :=
  [.start sampleConfig {}, .recover {},
    .request "announce" (.dict [("kind", .str "identify")]) "operator" (some "first") { uuid := "a1" }]

/-- The worker takes its snapshot, logs in and commits the barrier. -/
def commitRun : List Label :=
  admitRun ++ [.worker "a1" (.run {}), .worker "a1" (.snapshot (sampleReplies "0") {}),
    .worker "a1" (.receive .connected),
    .worker "a1" (.receive (.line "Asterisk Call Manager/9" "l1")),
    .worker "a1" (.receive (.frame [("response", .one "Success"), ("actionid", .one "l1")])),
    .worker "a1" (.action "c1" {})]

/-- The control action of the announcement. -/
def samplePayload : String :=
  "Action: Command\r\nCommand: rpt cmd 546051 status 1\r\nActionID: c1\r\n\r\n"

/-- The control action is written. -/
def writeRun : List Label := commitRun ++ [.worker "a1" .write]

/-- The reply is a success, and the announcement is acknowledged. -/
def announceRun : List Label :=
  writeRun ++ [.worker "a1" (.receive (.frame [("response", .one "Success"), ("actionid", .one "c1")])),
    .worker "a1" (.run {}), .worker "a1" (.run {})]

/-- The process dies, and another one starts. -/
def restartRun : List Label := [.crash, .start sampleConfig {}, .recover {}, .recover {}]

/-- A run that can be executed reaches a state, which can be looked at. -/
theorem exists_reaches {α : Type} (node : String) (ls : List Label) (f : Sys → α) (a : α)
    (h : (Lts.exec (Sys.step node) Sys.init ls).map f = some a) : ∃ s, Reaches node ls s ∧ f s = a :=
  Option.map_eq_some_iff.mp h

/-- The same with a state on the way. -/
theorem exists_reaches_append {α β : Type} (node : String) (ls ls' : List Label) (f : Sys → α)
    (g : Sys → β) (a : α) (b : β) (h : (Lts.exec (Sys.step node) Sys.init ls).map f = some a)
    (h' : (Lts.exec (Sys.step node) Sys.init (ls ++ ls')).map g = some b) :
    ∃ s s', Reaches node ls s ∧ Lts.exec (Sys.step node) s ls' = some s' ∧ f s = a ∧ g s' = b :=
  Lts.exists_exec_append f g h h'

/-- The process is up, and `f` holds of it. -/
def Sys.upWith (s : Sys) (f : Platform → Bool) : Bool :=
  match s.life with
  | .up p => f p
  | _ => false

theorem Sys.exists_up {s : Sys} {f : Platform → Bool} (h : s.upWith f = true) :
    ∃ p, s.life = .up p ∧ f p = true := by
  unfold Sys.upWith at h
  split at h
  · exact ⟨_, by assumption, h⟩
  · cases h

end Asl3
