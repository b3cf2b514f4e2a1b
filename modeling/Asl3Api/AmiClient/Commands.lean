import Asl3Api.AmiClient.Stats
import Asl3Api.Command
import Asl3Api.Lib.Transition

/-!
# The legacy connection (`ami_client.py`)

* `Helper.command`: the texts of the legacy control helpers;
* `sendCommand`: the gate in front of the connection;
* `Client`, `step`: the coroutines of the client, each interrupted at its `await`;
* `not_readable_of_cmd`: no control command passes the gate;
* `Step`, `step_cases`: what one step can do;
* **`legacy_client_observes`**: in every run, whatever the order of its coroutines, the connection
  carries pings and reads only, and `connected` is the last verdict.

The bodies of the helpers behind `send_command` are left out: no run enters them (`Client.Ok`).
-/

set_option autoImplicit false

namespace Asl3

namespace AMIClient

open Py

/-! ## The commands -/

/-- The prefixes that `send_command` lets pass. -/
def readPrefixes : List String := ["rpt show variables ", "rpt stats ", "rpt nodes ", "rpt lstats "]

/-- `command.startswith((…))`. -/
def readable (command : String) : Bool :=
  readPrefixes.any fun front => front.toList <+: command.toList

/-- The legacy control helpers. -/
inductive Helper where
  | connectNode (nodeNumber : String) (monitorOnly : Bool)
  | disconnectNode (nodeNumber : String)
  | disconnectAll
  | forceId
  | sayTime
  | sayVersion
  | sayStatus
  deriving DecidableEq, Repr

/-- The words behind the node. -/
def Helper.words : Helper → String
  | .connectNode nodeNumber monitorOnly =>
    " ilink " ++ (if monitorOnly then "2" else "3") ++ " " ++ nodeNumber
  | .disconnectNode nodeNumber => " ilink 11 " ++ nodeNumber
  | .disconnectAll => " ilink 6"
  | .forceId => " status 1"
  | .sayTime => " status 2"
  | .sayVersion => " status 3"
  | .sayStatus => " ilink 5"

/-- The command of a helper. -/
def Helper.command (cfg : Config) (h : Helper) : String := "rpt cmd " ++ cfg.nodeNumber ++ h.words

/-! ## The coroutines -/

/-- A call of a method. -/
inductive Method where
  /-- `connect`, with the `Manager(…)` that it makes, unless that raises. -/
  | connect (made : Option ℕ)
  | disconnect
  | checkAmiHealth
  | sendCommand (command : String)
  | getNodeStats (includeRaw : Bool)
  | control (h : Helper)
  deriving DecidableEq, Repr

/-- How a call ends. -/
inductive Answer where
  | done
  | health (ok : Bool)
  | response (output : Option Field)
  | stats (stats : Stats)
  | raised (e : Raised)

/-- What happens. -/
inductive Event where
  /-- `manager.send_action(fields)`. -/
  | sent (fields : List (String × String))
  | answered (id : String) (m : Method) (a : Answer)

/-- The client, with the calls that wait. -/
structure Client where
  manager : Option ℕ
  connected : Bool
  pending : List (String × Method)

/-- `__init__`. -/
def Client.init : Client := ⟨none, false, []⟩

/-- How an `await` ends. -/
inductive Resumed where
  | ok (output : Option Field)
  | error (e : Error)
  | cancelled

/-- A call begins, or goes on. -/
inductive Label where
  | call (id : String) (m : Method)
  | resume (id : String) (r : Resumed)

/-- The error in front of the connection. -/
def controlError : Error :=
  .py (.runtimeError "Control requires the durable v1 operation service")

def notConnected : Error := .py (.runtimeError "AMI is not connected")

/-- `{"Action": "Command", "Command": command}`. -/
def commandAction (command : String) : List (String × String) :=
  [("Action", "Command"), ("Command", command)]

def pingAction : List (String × String) := [("Action", "Ping")]

section

variable (d : Decimals) (cfg : Config)

/-- The beginning of `send_command`: the action that it sends, or what it raises. -/
def sendCommand (c : Client) (command : String) : Except Error (List (String × String)) :=
  if readable command = false then .error controlError
  else if c.connected = false ∨ c.manager = none then .error notConnected
  else .ok (commandAction command)

/-- A call waits. -/
def Client.wait (c : Client) (id : String) (m : Method) : Client :=
  { c with pending := c.pending ++ [(id, m)] }

/-- A call up to its first `await`, or to its end. -/
def start (c : Client) (id : String) (m : Method) : Client × List Event :=
  let command (text : String) : Client × List Event :=
    match sendCommand c text with
    | .ok action => (c.wait id m, [.sent action])
    | .error e => (c, [.answered id m (.raised (.error e))])
  match m with
  | .connect (some manager) => ({ c with manager := some manager }.wait id m, [])
  | .connect none =>
    ({ c with connected := false }, [.answered id m (.raised (.error (.py .other)))])
  | .disconnect => if c.manager.isSome then (c.wait id m, []) else (c, [.answered id m .done])
  | .checkAmiHealth =>
    if c.manager.isSome then (c.wait id m, [.sent pingAction])
    else ({ c with connected := false }, [.answered id m (.health false)])
  | .sendCommand text => command text
  | .getNodeStats _ => command ("rpt stats " ++ cfg.nodeNumber)
  | .control h => command (h.command cfg)

/-- `except TypeError` -/
def isTypeError : Error → Bool
  | .py (.typeError _) => true
  | _ => false

/-- The end of `get_node_stats`. -/
def nodeStats (includeRaw : Bool) (output : Option Field) : Answer :=
  match parseStatsResponse d cfg output with
  | .error e => .raised (.error (.py e))
  | .ok stats => .stats (if includeRaw then stats else stats.filter fun e => e.1 ≠ "raw_output")

/-- A call behind its `await`: what it assigns to `connected`, and how it ends. -/
def finish (m : Method) (r : Resumed) : Option (Option Bool × Answer) :=
  match m, r with
  | .control _, _ => none
  | _, .cancelled => some (none, .raised .cancelled)
  | .connect _, .ok _ => some (some true, .done)
  | .connect _, .error e => some (some false, .raised (.error e))
  | .disconnect, .ok _ => some (some false, .done)
  | .disconnect, .error e =>
    if isTypeError e then some (some false, .done) else some (none, .raised (.error e))
  | .checkAmiHealth, .ok _ => some (some true, .health true)
  | .checkAmiHealth, .error _ => some (some false, .health false)
  | .sendCommand _, .ok output => some (none, .response output)
  | .sendCommand _, .error e => some (none, .raised (.error e))
  | .getNodeStats includeRaw, .ok output => some (none, nodeStats d cfg includeRaw output)
  | .getNodeStats _, .error e => some (none, .raised (.error e))

/-- One step of the client, with what happens. -/
def stepWith (c : Client) : Label → Option (Client × List Event)
  | .call id m => if (c.pending.lookup id).isSome then none else some (start cfg c id m)
  | .resume id r => (c.pending.lookup id).bind fun m => (finish d cfg m r).map fun (verdict, a) =>
    ({ c with connected := verdict.getD c.connected
              pending := c.pending.filter fun e => e.1 ≠ id }, [.answered id m a])

def step (c : Client) (l : Label) : Option Client := (stepWith d cfg c l).map Prod.fst

def output (c : Client) (l : Label) : List Event :=
  match stepWith d cfg c l with
  | some (_, es) => es
  | none => []

/-- What happens in a run. -/
def events (ls : List Label) : List Event :=
  Lts.trace (step d cfg) (output d cfg) Client.init ls

end

/-! ## The gate -/

/-- The actions that only read. -/
def Reads (fields : List (String × String)) : Prop :=
  fields = pingAction ∨ ∃ command, readable command = true ∧ fields = commandAction command

/-- **No control command passes the gate.** -/
theorem readable_cmd (rest : String) : readable ("rpt cmd " ++ rest) = false := by
  rw [readable, List.any_eq_false]
  intro front hf
  rw [decide_eq_true_eq, String.toList_append]
  simp only [readPrefixes, List.mem_cons, List.not_mem_nil, or_false] at hf
  rcases hf with rfl | rfl | rfl | rfl <;> simp

theorem readable_helper (cfg : Config) (h : Helper) : readable (h.command cfg) = false := by
  rw [Helper.command, String.append_assoc]
  exact readable_cmd _

theorem readable_text (node : String) (command : Command) : readable (command.text node) = false := by
  rw [Command.text, String.append_assoc, String.append_assoc]
  exact readable_cmd _

/-! ## One step -/

section

variable {d : Decimals} {cfg : Config} {c c' : Client} {l : Label} {es : List Event}

/-- What an answer says about the connection. -/
def Method.verdict : Method → Answer → Option Bool
  | .connect _, .done => some true
  | .connect _, .raised (.error _) => some false
  | .disconnect, .done => some false
  | .checkAmiHealth, .health ok => some ok
  | _, _ => none

/-- A control helper. -/
def Method.isControl : Method → Bool
  | .control _ => true
  | _ => false

/-- A client that is connected, or has calls that wait, has a manager; no helper waits. -/
structure Client.Ok (c : Client) : Prop where
  manager : c.connected = true ∨ c.pending ≠ [] → c.manager.isSome
  noControl : ∀ e ∈ c.pending, e.2.isControl = false

/-- What one step can do. -/
inductive Step (c : Client) : Label → Client → List Event → Prop
  | makes {id : String} {manager : ℕ} :
      Step c (.call id (.connect (some manager)))
        ({ c with manager := some manager }.wait id (.connect (some manager))) []
  | waits {id : String} {m : Method} {es : List Event} (hm : c.manager.isSome)
      (hc : m.isControl = false) (hes : ∀ e ∈ es, ∃ fields, e = .sent fields ∧ Reads fields ∧
        (fields = pingAction ∨ c.connected = true)) :
      Step c (.call id m) (c.wait id m) es
  | ends (id : String) (m : Method) (a : Answer) (hv : m.verdict a ≠ some true) :
      Step c (.call id m) { c with connected := (m.verdict a).getD c.connected } [.answered id m a]
  | resumes {id : String} {r : Resumed} {m : Method} {a : Answer} (hm : c.manager.isSome) :
      Step c (.resume id r)
        { c with connected := (m.verdict a).getD c.connected
                 pending := c.pending.filter fun e => e.1 ≠ id } [.answered id m a]

theorem sendCommand_ok {text : String} {fields : List (String × String)}
    (h : sendCommand c text = .ok fields) :
    readable text = true ∧ c.connected = true ∧ c.manager.isSome ∧ fields = commandAction text := by
  rw [sendCommand] at h
  split_ifs at h with hr hc
  rw [not_or, Bool.not_eq_false] at hc
  cases h
  refine ⟨by simpa using hr, hc.1, ?_, rfl⟩
  exact Option.isSome_iff_ne_none.mpr hc.2

/-- The verdict of an answer is what is assigned. -/
theorem finish_verdict {m : Method} {r : Resumed} {v : Option Bool} {a : Answer}
    (h : finish d cfg m r = some (v, a)) : v = m.verdict a := by
  have hstats : ∀ raw output, Method.verdict (.getNodeStats raw) (nodeStats d cfg raw output) = none := by
    intro raw output
    rw [nodeStats]
    cases parseStatsResponse d cfg output <;> rfl
  cases m with
  | control _ => cases r <;> cases h
  | disconnect =>
    cases r with
    | error e =>
      rw [finish] at h
      split_ifs at h <;> cases h <;> rfl
    | _ => cases h; rfl
  | getNodeStats raw =>
    cases r with
    | ok output =>
      cases h
      exact (hstats raw output).symm
    | _ => cases h; rfl
  | _ => cases r <;> cases h <;> rfl

/-- The start of a call that sends a command. -/
theorem command_step {id : String} {m : Method} {text : String} (hm : m.isControl = false)
    (hv : ∀ e, m.verdict (.raised e) = none)
    (h : (match sendCommand c text with
      | .ok action => (c.wait id m, [Event.sent action])
      | .error e => (c, [Event.answered id m (.raised (.error e))])) = (c', es)) :
    Step c (.call id m) c' es := by
  cases hs : sendCommand c text with
  | ok fields =>
    obtain ⟨hr, hc, hmanager, rfl⟩ := sendCommand_ok hs
    rw [hs] at h
    cases h
    refine .waits hmanager hm fun e he => ?_
    rw [List.mem_singleton] at he
    exact ⟨_, he, Or.inr ⟨text, hr, rfl⟩, Or.inr hc⟩
  | error e =>
    rw [hs] at h
    cases h
    have := Step.ends (c := c) id m (.raised (.error e)) (by simp [hv])
    rwa [hv, Option.getD_none] at this

/-- **What one step can do.** -/
theorem step_cases (hok : c.Ok) (h : stepWith d cfg c l = some (c', es)) : Step c l c' es := by
  cases l with
  | call id m =>
    rw [stepWith] at h
    split_ifs at h with hid
    rw [Option.some.injEq] at h
    cases m with
    | connect made =>
      cases made with
      | some manager =>
        cases h
        exact .makes
      | none =>
        cases h
        exact .ends id _ (.raised (.error (.py .other))) (by simp [Method.verdict])
    | disconnect =>
      rw [start] at h
      split_ifs at h with hm
      · cases h
        exact .waits hm rfl fun e he => by cases he
      · cases h
        -- without a manager the client is not connected
        have hc : c.connected = false :=
          Bool.eq_false_iff.mpr fun hc => hm (hok.manager (Or.inl hc))
        have := Step.ends (c := c) id .disconnect .done (by simp [Method.verdict])
        rwa [Method.verdict, Option.getD_some, ← hc] at this
    | checkAmiHealth =>
      rw [start] at h
      split_ifs at h with hm
      · cases h
        refine .waits hm rfl fun e he => ?_
        rw [List.mem_singleton] at he
        exact ⟨_, he, Or.inl rfl, Or.inl rfl⟩
      · cases h
        exact .ends id _ (.health false) (by simp [Method.verdict])
    | sendCommand text => exact command_step rfl (fun e => rfl) h
    | getNodeStats raw => exact command_step rfl (fun e => rfl) h
    | control helper =>
      rw [start] at h
      dsimp only at h
      rw [sendCommand, readable_helper, if_pos rfl] at h
      cases h
      exact .ends id _ (.raised (.error controlError)) (by simp [Method.verdict])
  | resume id r =>
    rw [stepWith, Option.bind_eq_some_iff] at h
    obtain ⟨m, hm, h⟩ := h
    obtain ⟨⟨v, a⟩, hf, h⟩ := Option.map_eq_some_iff.mp h
    cases h
    obtain rfl := finish_verdict hf
    refine .resumes (hok.manager (Or.inr ?_))
    rintro hnil
    rw [hnil] at hm
    cases hm

theorem Step.ok (h : Step c l c' es) (hok : c.Ok) : c'.Ok := by
  have hwait : ∀ {m : Method} {id : String}, m.isControl = false →
      ∀ e ∈ c.pending ++ [(id, m)], e.2.isControl = false := by
    intro m id hm e he
    rw [List.mem_append, List.mem_singleton] at he
    rcases he with he | rfl
    · exact hok.noControl e he
    · exact hm
  cases h with
  | makes => exact ⟨fun _ => rfl, hwait rfl⟩
  | waits hm hc hes => exact ⟨fun _ => hm, hwait hc⟩
  | ends id m a hv =>
    refine ⟨fun h => hok.manager (h.imp_left fun hc => ?_), hok.noControl⟩
    cases hva : m.verdict a with
    | none => rwa [hva, Option.getD_none] at hc
    | some b =>
      rw [hva, Option.getD_some] at hc
      exact absurd (hva.trans (congrArg some hc)) hv
  | resumes hm =>
    exact ⟨fun _ => hm, fun e he => hok.noControl e (List.mem_of_mem_filter he)⟩

theorem stepWith_of_step (h : step d cfg c l = some c') :
    stepWith d cfg c l = some (c', output d cfg c l) := by
  obtain ⟨⟨c₁, es⟩, hs, rfl⟩ := Option.map_eq_some_iff.mp h
  rw [output, hs]

theorem stepWith_of_mem {e : Event} (h : e ∈ output d cfg c l) :
    ∃ c', stepWith d cfg c l = some (c', output d cfg c l) := by
  rw [output] at h ⊢
  cases hs : stepWith d cfg c l with
  | none =>
    rw [hs] at h
    cases h
  | some r => exact ⟨r.1, rfl⟩

theorem ok_init : Client.init.Ok := ⟨by simp [Client.init], by simp [Client.init]⟩

/-- What an event says about the connection. -/
def Event.verdict : Event → Option Bool
  | .sent _ => none
  | .answered _ m a => m.verdict a

/-- The last verdict of a run; a client that has none is not connected. -/
def lastVerdict (es : List Event) : Bool := (es.filterMap Event.verdict).getLast?.getD false

theorem lastVerdict_append {before : List Event} :
    lastVerdict (before ++ es) =
      (es.filterMap Event.verdict).getLast?.getD (lastVerdict before) := by
  rw [lastVerdict, List.filterMap_append, List.getLast?_append, lastVerdict]
  cases (es.filterMap Event.verdict).getLast? <;> rfl

theorem lastVerdict_answered {before : List Event} {id : String} {m : Method} {a : Answer} :
    lastVerdict (before ++ [.answered id m a]) = (m.verdict a).getD (lastVerdict before) := by
  rw [lastVerdict_append]
  cases hv : m.verdict a <;> simp [Event.verdict, hv]

/-- The verdicts of a step are what it assigns. -/
theorem Step.connected (h : Step c l c' es) {before : List Event}
    (hb : c.connected = lastVerdict before) : c'.connected = lastVerdict (before ++ es) := by
  cases h with
  | makes => rwa [List.append_nil]
  | waits hm hc hes =>
    have hnil : es.filterMap Event.verdict = [] := List.filterMap_eq_nil_iff.mpr fun e he => by
      obtain ⟨fields, rfl, -⟩ := hes e he
      rfl
    rw [lastVerdict_append, hnil]
    exact hb
  | ends id m a hv => rw [lastVerdict_answered, ← hb]
  | resumes hm => rw [lastVerdict_answered, ← hb]

/-- What a step sends only reads, and a command is sent by a client that is connected. -/
theorem Step.sent (h : Step c l c' es) {fields : List (String × String)} (he : .sent fields ∈ es) :
    Reads fields ∧ (fields = pingAction ∨ c.connected = true) := by
  cases h with
  | makes => cases he
  | waits hm hc hes =>
    obtain ⟨_, ⟨⟩, h⟩ := hes _ he
    exact h
  | ends id m a hv => simp at he
  | resumes hm => simp at he

/-! ## Runs -/

variable {ls : List Label}

/-- What holds after a run. -/
theorem exec_ok (h : Lts.exec (step d cfg) Client.init ls = some c) :
    c.Ok ∧ c.connected = lastVerdict (events d cfg ls) := by
  refine Lts.exec_induction (fun ls c => c.Ok ∧ c.connected = lastVerdict (events d cfg ls))
    ⟨ok_init, rfl⟩ ?_ h
  rintro ls c l c' hc ⟨hok, hv⟩ hl
  have hstep := step_cases hok (stepWith_of_step hl)
  refine ⟨hstep.ok hok, ?_⟩
  rw [events, Lts.trace_snoc hc, ← events]
  exact hstep.connected hv

/-- **The legacy connection observes.** In every run of the client, with its coroutines in any order and
every answer of the node: an action that is sent is a ping or a read command, so that it carries no
text of a control; a command is sent only while the last verdict about the connection is good; every
control helper fails at once and changes nothing; `connected` is the last verdict. -/
theorem legacy_client_observes (h : Lts.exec (step d cfg) Client.init ls = some c) :
    (∀ fields, .sent fields ∈ events d cfg ls → Reads fields ∧
      ∀ node command, fields ≠ commandAction (Command.text node command)) ∧
    (∀ pre l post text, ls = pre ++ l :: post → ∀ b, Lts.exec (step d cfg) Client.init pre = some b →
      .sent (commandAction text) ∈ output d cfg b l → lastVerdict (events d cfg pre) = true) ∧
    (∀ id helper, c.pending.lookup id = none → stepWith d cfg c (.call id (.control helper)) =
      some (c, [.answered id (.control helper) (.raised (.error controlError))])) ∧
    (∀ e ∈ c.pending, e.2.isControl = false) ∧
    c.connected = lastVerdict (events d cfg ls) := by
  obtain ⟨hok, hv⟩ := exec_ok h
  refine ⟨fun fields hs => ?_, fun pre l post text hls b hb hs => ?_, fun id helper hid => ?_,
    hok.noControl, hv⟩
  · obtain ⟨pre, l, post, b, rfl, hb, ho⟩ := Lts.mem_trace h hs
    obtain ⟨c', hl⟩ := stepWith_of_mem ho
    have hr := ((step_cases (exec_ok hb).1 hl).sent ho).1
    refine ⟨hr, fun node command hf => ?_⟩
    rcases hr with rfl | ⟨text, hread, rfl⟩
    · simp [pingAction, commandAction] at hf
    · obtain rfl : text = command.text node := by simpa [commandAction] using hf
      rw [readable_text] at hread
      cases hread
  · obtain ⟨c', hl⟩ := stepWith_of_mem hs
    obtain ⟨hok', hv'⟩ := exec_ok hb
    rcases ((step_cases hok' hl).sent hs).2 with hping | hc
    · simp [pingAction, commandAction] at hping
    · rw [← hv', hc]
  · rw [stepWith, hid, if_neg (by simp), start]
    dsimp only
    rw [sendCommand, readable_helper, if_pos rfl]

/-- A client connects, reads the statistics while it is asked for its health, and refuses an
announcement. -/
theorem legacy_client_observes_stats :
    let ls : List Label := [.call "c" (.connect (some 1)), .resume "c" (.ok none),
      .call "s" (.getNodeStats false), .call "p" .checkAmiHealth, .call "i" (.control .forceId),
      .resume "p" (.error (.py .osError))]
    ∃ c, Lts.exec (step .ofAscii sampleConfig) Client.init ls = some c ∧
      c.connected = lastVerdict (events .ofAscii sampleConfig ls) ∧
      (∀ fields, .sent fields ∈ events .ofAscii sampleConfig ls → Reads fields) := by
  intro ls
  obtain ⟨c, hc⟩ : ∃ c, Lts.exec (step .ofAscii sampleConfig) Client.init ls = some c :=
    Option.isSome_iff_exists.mp (by decide +kernel)
  have h := legacy_client_observes hc
  exact ⟨c, hc, h.2.2.2.2, fun fields hf => (h.1 fields hf).1⟩

end

end AMIClient

end Asl3
