import Asl3Api.Config
import Asl3Api.Vnext.Models

/-!
# AMI sessions (`vnext/transport.py`)

* `Message`: one decoded AMI frame;
* `AMISession.encode`, `AMISession.beginControl`, `AMISession.verdict`: the parts of `action`
  before the write, at the barrier and on every frame that comes back;
* `Dispatch`: `AMITransport.dispatch` as a machine, one state for every place where it waits;
* `commandRejected`: an explicit refusal in a reply.
-/

set_option autoImplicit false

namespace Asl3

open Py

/-- The value of a header: a text, or the texts of a repeated header. -/
inductive Field where
  | one (text : String)
  | many (texts : List String)
  deriving DecidableEq, Repr

/-- A decoded AMI frame, its keys in lower case. -/
abbrev Message := List (String × Field)

namespace AMISession

/-- `{**fields, "ActionID": action_id}`. -/
def withActionId (fields : List (String × String)) (actionId : String) : List (String × String) :=
  if fields.any fun f => f.1 = "ActionID" then
    fields.map fun f => if f.1 = "ActionID" then (f.1, actionId) else f
  else fields ++ [("ActionID", actionId)]

/-- The text of an action. -/
def payload (fields : List (String × String)) : String :=
  "\r\n".intercalate (fields.map fun f => f.1 ++ ": " ++ f.2) ++ "\r\n\r\n"

/-- The payload of `action`, unless a value could add a header. -/
def encode (fields : List (String × String)) (actionId : String) : Except Error String :=
  if (withActionId fields actionId).any fun f => '\r' ∈ f.2.toList ∨ '\n' ∈ f.2.toList then
    .error (.py (.valueError "AMI header injection refused"))
  else .ok (payload (withActionId fields actionId))

/-- The part of `action` with a `before_write` up to its call: one control for each session. -/
def beginControl (attempted : Bool) (fields : List (String × String)) (actionId : String) :
    Except Error String :=
  match encode fields actionId with
  | .error e => .error e
  | .ok p => if attempted then .error (.py (.runtimeError "A control session cannot be reused"))
    else .ok p

section

variable {fields : List (String × String)} {actionId p : String} {attempted : Bool}

/-- The payload is sent when no value of a field breaks a line. -/
theorem encode_eq_ok : encode fields actionId = .ok p ↔
    (∀ f ∈ withActionId fields actionId, '\r' ∉ f.2.toList ∧ '\n' ∉ f.2.toList) ∧
      p = payload (withActionId fields actionId) := by
  unfold encode
  split_ifs with h
  · simp only [false_iff, not_and]
    intro hall
    obtain ⟨f, hf, hv⟩ := List.any_eq_true.mp h
    rcases decide_eq_true_eq.mp hv with hv | hv
    · exact absurd hv (hall f hf).1
    · exact absurd hv (hall f hf).2
  · rw [Except.ok.injEq, eq_comm, and_iff_right]
    intro f hf
    rw [← not_or]
    exact fun hv => h (List.any_eq_true.mpr ⟨f, hf, decide_eq_true hv⟩)

theorem beginControl_eq_ok : beginControl attempted fields actionId = .ok p ↔
    encode fields actionId = .ok p ∧ attempted = false := by
  unfold beginControl
  cases encode fields actionId with
  | error e => simp
  | ok q => cases attempted <;> simp

end

/-- What `action` does with a frame. -/
inductive Verdict where
  | skip
  | reply
  | refuse (e : Error)
  deriving DecidableEq, Repr

/-- The body of the frame loop of `action`. -/
def verdict (actionId : String) (response : Message) : Verdict :=
  if (response.lookup "event").isSome ∧ (response.lookup "response").isNone then .skip
  else if response.lookup "actionid" ≠ some (.one actionId) then
    .refuse (.protocol "Stale or mismatched AMI ActionID")
  else .reply

/-- The number of frames `action` reads at most. -/
def frameBudget : Nat := 100

end AMISession

/-- The places where `AMITransport.dispatch` waits, and the one between the barrier and the write
where it does not. -/
inductive Dispatch where
  /-- `asyncio.open_connection`. -/
  | connecting
  /-- `reader.readline()`. -/
  | banner
  /-- The reply to the login, after `read` frames. -/
  | login (actionId : String) (read : Nat)
  /-- Logged in; the control action has not begun. -/
  | ready (attempted : Bool)
  /-- `before_write()` has returned; `writer.write(payload)` comes next. -/
  | committed (actionId payload : String)
  /-- The reply to the control action, after `read` frames. -/
  | replying (actionId : String) (read : Nat)
  /-- `writer.wait_closed()` in the `finally` of the session. -/
  | closing (outcome : Except Raised Message)

/-- What the peer sends. -/
inductive Received where
  | connected
  | line (text loginId : String)
  | frame (response : Message)
  deriving DecidableEq, Repr

namespace Dispatch

/-- The fields of the login action. -/
def loginFields (cfg : Config) : List (String × String) :=
  [("Action", "Login"), ("Username", cfg.amiUsername.pyStr), ("Secret", cfg.amiPassword.pyStr),
    ("Events", "off")]

/-- The fields of the control action. -/
def controlFields (command : String) : List (String × String) :=
  [("Action", "Command"), ("Command", command)]

/-- An exception inside the session closes it first. -/
def abort (e : Error) : Dispatch := .closing (.error (.error e))

/-- A frame for an action that waits for its reply. -/
def onFrame (actionId : String) (read : Nat) (response : Message)
    (wait : Nat → Dispatch) (done : Dispatch) : Dispatch :=
  match AMISession.verdict actionId response with
  | .skip =>
    if read + 1 < AMISession.frameBudget then wait (read + 1)
    else abort (.protocol "AMI response not received within frame budget")
  | .refuse e => abort e
  | .reply => done

/-- The next state when the peer answers. -/
def receive (cfg : Config) : Dispatch → Received → Option Dispatch
  | .connecting, .connected => some .banner
  | .banner, .line text loginId =>
    if "Asterisk Call Manager/".toList <+: text.toList then
      match AMISession.encode (loginFields cfg) loginId with
      | .error e => some (abort e)
      | .ok _ => some (.login loginId 0)
    else some (abort (.protocol "Invalid AMI banner"))
  | .login a n, .frame f =>
    some (onFrame a n f (.login a) (if f.lookup "response" = some (.one "Success") then .ready false
      else abort (.protocol "AMI authentication failed")))
  | .replying a n, .frame f => some (onFrame a n f (.replying a) (.closing (.ok f)))
  | _, _ => none

/-- An exception thrown in where `dispatch` waits: out of the call when no session is open or it is
closing already, to the `finally` of the session otherwise. -/
def throw (e : Raised) : Dispatch → Option (Dispatch ⊕ Raised)
  | .connecting => some (.inr e)
  | .banner => some (.inl (.closing (.error e)))
  | .login _ _ => some (.inl (.closing (.error e)))
  | .ready _ => some (.inl (.closing (.error e)))
  -- there is no `await` here, and a stream writer buffers what it cannot send instead of raising
  | .committed _ _ => none
  | .replying _ _ => some (.inl (.closing (.error e)))
  | .closing _ => some (.inr e)

/-- The states `dispatch` passes before it calls the barrier. -/
def beforeBarrier : Dispatch → Bool
  | .connecting => true
  | .banner => true
  | .login _ _ => true
  | .ready _ => true
  | .committed _ _ => false
  | .replying _ _ => false
  | .closing (.ok _) => false
  | .closing (.error _) => true

/-- The states `dispatch` passes after the barrier has returned. -/
def afterBarrier : Dispatch → Bool
  | .committed _ _ => true
  | .replying _ _ => true
  | .closing _ => true
  | _ => false

end Dispatch

/-- The refusal texts of app_rpt. -/
def rejectionMarkers : List String :=
  ["Unknown node number", "is not ready", "Unknown action name", "Usage: rpt cmd"]

/-- `command_rejected`: an explicit refusal by AMI or by the app_rpt command line. -/
def commandRejected (response : Message) : Except Error Bool :=
  match response.lookup "response" with
  | some (.many _) => .error (.py (.typeError "unhashable type: 'list'"))
  | code =>
    if code = some (.one "Error") ∨ code = some (.one "Failed") then .ok true
    else
      let output := match response.lookup "output" with
        | none => []
        | some (.one line) => [line]
        | some (.many lines) => lines
      .ok (output.any fun line => rejectionMarkers.any fun marker =>
        contains (lower line) (lower marker))

end Asl3
