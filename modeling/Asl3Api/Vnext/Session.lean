import Mathlib.Data.List.Chain
import Asl3Api.Vnext.Transport

/-!
# Action calls on one session (`vnext/transport.py`)

* `AMISession.action`: one call of `action`, with all it does in order;
* `AMISession.turns`: a sequence of calls on one session;
* `readReply_spec`: on which frame a call decides;
* `Correlated`, `Written`, `Gated`: what a call returns, what it writes, and when it writes;
* `receive_readReply`, `receive_action`: the machine of `dispatch` waits for its reply in the same
  way;
* **`correlated_sessions`**: all this of every call of a session, at most one of which is a control.
-/

set_option autoImplicit false

namespace Asl3

open Py

namespace AMISession

/-- One call of `action`: its fields, the fresh id, what `before_write` does when there is one, and
what `writer.drain` does. -/
structure Call where
  fields : List (String × String)
  actionId : String
  beforeWrite : Option (Except Raised Unit)
  drain : Except Raised Unit

/-- What a call does. -/
inductive Event where
  /-- `before_write()` -/
  | beforeWrite
  /-- `self.writer.write(payload)` -/
  | write (payload : String)
  /-- `await self.writer.drain()` -/
  | drain
  /-- `await self.frame()`, the call of this number. -/
  | read (index : Nat)
  deriving DecidableEq, Repr

/-- The call number of a read. -/
def Event.index? : Event → Option Nat
  | .read i => some i
  | _ => none

/-- Whether a payload goes out. -/
def Event.isWrite : Event → Bool
  | .write _ => true
  | _ => false

/-- A session: its flag, and how often `frame` was called. -/
structure Session where
  controlAttempted : Bool := false
  position : Nat := 0
  deriving DecidableEq, Repr

/-- A call with the session before and after it. -/
structure Turn where
  before : Session
  call : Call
  result : Except Raised Message
  events : List Event
  after : Session

section

variable (frames : Nat → Except Raised Message)

/-- The frame loop of `action`, from call number `position` of `frame` on: the result, and how many
frames it took. -/
def readReply (actionId : String) : Nat → Nat → Except Raised Message × Nat
  | 0, _ => (.error (.error (.protocol "AMI response not received within frame budget")), 0)
  | budget + 1, position => match frames position with
    | .error e => (.error e, 1)
    | .ok response => match verdict actionId response with
      | .skip =>
        let (result, count) := readReply actionId budget (position + 1)
        (result, count + 1)
      | .refuse e => (.error (.error e), 1)
      | .reply => (.ok response, 1)

/-- From the write to the end. -/
def exchange (s : Session) (call : Call) (events : List Event) (attempted : Bool)
    (payload : String) : Turn :=
  match call.drain with
  | .error e => ⟨s, call, .error e, events ++ [.write payload, .drain], ⟨attempted, s.position⟩⟩
  | .ok () =>
    let (result, count) := readReply frames call.actionId frameBudget s.position
    ⟨s, call, result, events ++ [.write payload, .drain] ++
      (List.range' s.position count).map .read, ⟨attempted, s.position + count⟩⟩

/-- `action`. -/
def action (s : Session) (call : Call) : Turn :=
  match call.beforeWrite with
  | none => match encode call.fields call.actionId with
    | .error e => ⟨s, call, .error (.error e), [], s⟩
    | .ok payload => exchange frames s call [] s.controlAttempted payload
  | some outcome => match beginControl s.controlAttempted call.fields call.actionId with
    | .error e => ⟨s, call, .error (.error e), [], s⟩
    | .ok payload => match outcome with
      | .error e => ⟨s, call, .error e, [.beforeWrite], { s with controlAttempted := true }⟩
      | .ok () => exchange frames s call [.beforeWrite] true payload

/-- The calls of a session, one after another. -/
def turns : Session → List Call → List Turn
  | _, [] => []
  | s, call :: calls => action frames s call :: turns (action frames s call).after calls

end

/-! ## The deciding frame -/

/-- A frame with an `Event` header and no `Response` header. -/
def PureEvent (m : Message) : Prop :=
  (m.lookup "event").isSome = true ∧ (m.lookup "response").isNone = true

/-- The next `n` frames are pure events. -/
def Events (frames : Nat → Except Raised Message) (position n : Nat) : Prop :=
  ∀ i < n, ∃ m, frames (position + i) = .ok m ∧ PureEvent m

/-- What a call makes of a frame that is no pure event. -/
def decision (actionId : String) (m : Message) : Except Raised Message :=
  if m.lookup "actionid" = some (.one actionId) then .ok m
  else .error (.error (.protocol "Stale or mismatched AMI ActionID"))

variable {frames : Nat → Except Raised Message} {actionId : String}

theorem verdict_skip {m : Message} (h : PureEvent m) : verdict actionId m = .skip := if_pos h

/-- A frame that is no pure event ends the call. -/
theorem verdict_cases {m : Message} (h : ¬ PureEvent m) :
    verdict actionId m = .reply ∧ decision actionId m = .ok m ∨
      ∃ e, verdict actionId m = .refuse e ∧ decision actionId m = .error (.error e) := by
  have hv : verdict actionId m = if m.lookup "actionid" ≠ some (.one actionId) then
      .refuse (.protocol "Stale or mismatched AMI ActionID") else .reply := if_neg h
  unfold decision
  by_cases hid : m.lookup "actionid" = some (.one actionId)
  · rw [hv, if_neg (not_not.mpr hid), if_pos hid]
    exact Or.inl ⟨rfl, rfl⟩
  · rw [hv, if_pos hid, if_neg hid]
    exact Or.inr ⟨_, rfl, rfl⟩

theorem Events.succ {position n : Nat} {m : Message} (hm : frames position = .ok m)
    (he : PureEvent m) (h : Events frames (position + 1) n) : Events frames position (n + 1) := by
  intro i hi
  cases i with
  | zero => exact ⟨m, hm, he⟩
  | succ i =>
    rw [Nat.add_comm i 1, ← Nat.add_assoc]
    exact h i (Nat.lt_of_succ_lt_succ hi)

/-- The call that the frame loop decides on: the first frame that is no pure event, or that cannot be
read, when it comes within the budget. -/
inductive Decided (frames : Nat → Except Raised Message) (actionId : String)
    (budget position : Nat) : Except Raised Message × Nat → Prop
  | exhausted (events : Events frames position budget) :
    Decided frames actionId budget position
      (.error (.error (.protocol "AMI response not received within frame budget")), budget)
  | failed (n : Nat) (hn : n < budget) (events : Events frames position n) (e : Raised)
    (frame : frames (position + n) = .error e) :
    Decided frames actionId budget position (.error e, n + 1)
  | frame (n : Nat) (hn : n < budget) (events : Events frames position n) (m : Message)
    (frame : frames (position + n) = .ok m) (reply : ¬ PureEvent m) (result : Except Raised Message)
    (decides : decision actionId m = result) :
    Decided frames actionId budget position (result, n + 1)

theorem Decided.succ {budget position : Nat} {m : Message} {r : Except Raised Message × Nat}
    (hm : frames position = .ok m) (he : PureEvent m)
    (h : Decided frames actionId budget (position + 1) r) :
    Decided frames actionId (budget + 1) position (r.1, r.2 + 1) := by
  have hnext : ∀ n, position + 1 + n = position + (n + 1) := fun n => by omega
  cases h with
  | exhausted events => exact .exhausted (events.succ hm he)
  | failed n hn events e frame =>
    exact .failed (n + 1) (Nat.succ_lt_succ hn) (events.succ hm he) e (hnext n ▸ frame)
  | frame n hn events m' frame reply result decides =>
    exact .frame (n + 1) (Nat.succ_lt_succ hn) (events.succ hm he) m' (hnext n ▸ frame) reply _
      decides

/-- **The frame on which a call decides.** -/
theorem readReply_spec (frames : Nat → Except Raised Message) (actionId : String)
    (budget position : Nat) : Decided frames actionId budget position
      (readReply frames actionId budget position) := by
  induction budget generalizing position with
  | zero => exact .exhausted fun i hi => absurd hi (Nat.not_lt_zero i)
  | succ budget ih =>
    have hnone : Events frames position 0 := fun i hi => absurd hi (Nat.not_lt_zero i)
    rw [readReply]
    cases hf : frames position with
    | error e => exact .failed 0 (Nat.succ_pos _) hnone e hf
    | ok m =>
      dsimp only
      by_cases he : PureEvent m
      · rw [verdict_skip he]
        exact (ih (position + 1)).succ hf he
      · rcases @verdict_cases actionId m he with ⟨hv, hd⟩ | ⟨e, hv, hd⟩
        · rw [hv]
          exact .frame 0 (Nat.succ_pos budget) hnone m hf he _ hd
        · rw [hv]
          exact .frame 0 (Nat.succ_pos budget) hnone m hf he _ hd

/-- The events before the first other frame are determined by the stream. -/
theorem Events.unique {position n n' : Nat} (h : Events frames position n)
    (h' : Events frames position n')
    (hf : ∀ m, frames (position + n) = .ok m → ¬ PureEvent m)
    (hf' : ∀ m, frames (position + n') = .ok m → ¬ PureEvent m) : n = n' := by
  rcases lt_trichotomy n n' with hlt | heq | hlt
  · obtain ⟨m, hm, he⟩ := h' n hlt
    exact absurd he (hf m hm)
  · exact heq
  · obtain ⟨m, hm, he⟩ := h n' hlt
    exact absurd he (hf' m hm)

/-- A decision is the frame itself or an error. -/
theorem decision_eq_ok {m m' : Message} (h : decision actionId m = .ok m') :
    m' = m ∧ m.lookup "actionid" = some (.one actionId) := by
  unfold decision at h
  split_ifs at h with hid
  exact ⟨(Except.ok.inj h).symm, hid⟩

section

variable {budget position : Nat} {r : Except Raised Message × Nat}

/-- What is returned is the first frame that is no pure event, and it has the id of the call. -/
theorem Decided.returned (h : Decided frames actionId budget position r) {m : Message}
    (hm : r.1 = .ok m) : ∃ n, n < budget ∧ Events frames position n ∧
      frames (position + n) = .ok m ∧ ¬ PureEvent m ∧
      m.lookup "actionid" = some (.one actionId) ∧ r.2 = n + 1 := by
  cases h with
  | exhausted events => cases hm
  | failed n hn events e frame => cases hm
  | frame n hn events m' frame reply result decides =>
    obtain ⟨rfl, hid⟩ := decision_eq_ok (decides.trans hm)
    exact ⟨n, hn, events, frame, reply, hid, rfl⟩

/-- The first frame that is no pure event is decided on. -/
theorem Decided.decided (h : Decided frames actionId budget position r) {n : Nat} {m : Message}
    (hn : n < budget) (hev : Events frames position n) (hf : frames (position + n) = .ok m)
    (he : ¬ PureEvent m) : r.2 = n + 1 ∧ r.1 = decision actionId m := by
  have hfirst : ∀ x, frames (position + n) = .ok x → ¬ PureEvent x := by
    intro x hx
    rwa [← Except.ok.inj (hf.symm.trans hx)]
  cases h with
  | exhausted events =>
    obtain ⟨x, hx, hex⟩ := events n hn
    exact absurd hex (hfirst x hx)
  | failed k hk events e frame =>
    obtain rfl := hev.unique events hfirst fun x hx => by rw [frame] at hx; cases hx
    rw [frame] at hf
    cases hf
  | frame k hk events m' frame reply result decides =>
    obtain rfl := hev.unique events hfirst fun x hx => by
      rwa [← Except.ok.inj (frame.symm.trans hx)]
    rw [frame] at hf
    cases hf
    exact ⟨rfl, decides.symm⟩

/-- When all the frames of the budget are pure events, it gives up. -/
theorem Decided.gives_up (h : Decided frames actionId budget position r)
    (hall : Events frames position budget) : r.2 = budget ∧
      r.1 = .error (.error (.protocol "AMI response not received within frame budget")) := by
  cases h with
  | exhausted events => exact ⟨rfl, rfl⟩
  | failed k hk events e frame =>
    obtain ⟨x, hx, -⟩ := hall k hk
    rw [frame] at hx
    cases hx
  | frame k hk events m frame reply result decides =>
    obtain ⟨x, hx, hex⟩ := hall k hk
    rw [frame] at hx
    cases hx
    exact absurd hex reply

end

/-! ## One call -/

/-- The call has written, and waits for its reply. -/
def Turn.Awaits (t : Turn) : Prop := Event.drain ∈ t.events ∧ t.call.drain = .ok ()

/-- The frames a call has read: those from where the session stood. -/
def Turn.reads (t : Turn) : List Nat := t.events.filterMap Event.index?

/-- What a call returns. -/
structure Correlated (frames : Nat → Except Raised Message) (t : Turn) : Prop where
  /-- It returns the first frame that is no pure event, and this has the id of the call. -/
  returned : ∀ m, t.result = .ok m → ∃ n, n < frameBudget ∧ Events frames t.before.position n ∧
    frames (t.before.position + n) = .ok m ∧ ¬ PureEvent m ∧
    m.lookup "actionid" = some (.one t.call.actionId) ∧
    t.after.position = t.before.position + n + 1
  /-- It decides on the first frame that is no pure event, and reads no other after it. -/
  decided : t.Awaits → ∀ n m, n < frameBudget → Events frames t.before.position n →
    frames (t.before.position + n) = .ok m → ¬ PureEvent m →
    t.after.position = t.before.position + n + 1 ∧ t.result = decision t.call.actionId m
  /-- It gives up after as many pure events as its budget. -/
  exhausted : t.Awaits → Events frames t.before.position frameBudget →
    t.after.position = t.before.position + frameBudget ∧
    t.result = .error (.error (.protocol "AMI response not received within frame budget"))
  /-- A call that does not wait for a reply reads nothing. -/
  silent : ¬ t.Awaits → t.after.position = t.before.position
  /-- The frames it reads are the next ones of the stream. -/
  reads : t.reads = List.range' t.before.position (t.after.position - t.before.position)

/-- What a call writes. -/
structure Written (t : Turn) : Prop where
  /-- It writes its own fields and its id, once. -/
  payload : ∀ p, Event.write p ∈ t.events → encode t.call.fields t.call.actionId = .ok p
  once : t.events.countP Event.isWrite ≤ 1
  /-- A control is written right after its barrier has returned, or not at all. -/
  barrier : ∀ outcome, t.call.beforeWrite = some outcome → ∀ p, Event.write p ∈ t.events →
    outcome = .ok () ∧ ∃ rest, t.events = .beforeWrite :: .write p :: rest
  /-- No value of the fields it sends can break a line. -/
  injection : (∃ f ∈ withActionId t.call.fields t.call.actionId,
    '\r' ∈ f.2.toList ∨ '\n' ∈ f.2.toList) → ∀ p, Event.write p ∉ t.events

/-- No value of the fields of the call can break a line. -/
def Turn.Clean (t : Turn) : Prop :=
  ∀ f ∈ withActionId t.call.fields t.call.actionId, '\r' ∉ f.2.toList ∧ '\n' ∉ f.2.toList

/-- The call is let through: its fields are clean, and a control is the first of its session and its
barrier returns. -/
def Turn.Accepted (t : Turn) : Prop :=
  t.Clean ∧ ∀ outcome, t.call.beforeWrite = some outcome →
    t.before.controlAttempted = false ∧ outcome = .ok ()

/-- When a call gets to its barrier, to its write and to its wait. -/
structure Gated (t : Turn) : Prop where
  /-- The barrier is called for the first control of a session with clean fields. -/
  barrier : Event.beforeWrite ∈ t.events ↔
    t.Clean ∧ t.call.beforeWrite ≠ none ∧ t.before.controlAttempted = false
  /-- The flag records that a barrier was called. -/
  flag : t.after.controlAttempted = true ↔
    t.before.controlAttempted = true ∨ Event.beforeWrite ∈ t.events
  /-- A call writes if and only if it is accepted. -/
  writes : (∃ p, Event.write p ∈ t.events) ↔ t.Accepted
  /-- An accepted call waits for its reply as soon as `drain` returns. -/
  awaits : t.Awaits ↔ t.Accepted ∧ t.call.drain = .ok ()

section

variable (s : Session) (call : Call) {events : List Event} (attempted : Bool) (p : String)

theorem reads_range (position n : Nat) :
    ((List.range' position n).map Event.read).filterMap Event.index? = List.range' position n := by
  rw [List.filterMap_map]
  exact List.filterMap_some

theorem correlated_exchange (hev : events = [] ∨ events = [.beforeWrite]) :
    Correlated frames (exchange frames s call events attempted p) := by
  have hindex : events.filterMap Event.index? = [] := by
    rcases hev with rfl | rfl <;> rfl
  cases hd : call.drain with
  | error e =>
    have hx : exchange frames s call events attempted p =
        ⟨s, call, .error e, events ++ [.write p, .drain], ⟨attempted, s.position⟩⟩ := by
      rw [exchange, hd]
    have hno : ¬ (exchange frames s call events attempted p).Awaits := by
      rw [hx]
      rintro ⟨-, h⟩
      exact absurd (hd.symm.trans h) nofun
    refine ⟨?_, fun ha => absurd ha hno, fun ha => absurd ha hno, fun _ => by rw [hx], ?_⟩
    · rw [hx]
      exact nofun
    · rw [hx, Turn.reads, List.filterMap_append, hindex]
      simp [Event.index?]
  | ok u =>
    rcases hr : readReply frames call.actionId frameBudget s.position with ⟨result, count⟩
    have hx : exchange frames s call events attempted p = ⟨s, call, result,
        events ++ [.write p, .drain] ++ (List.range' s.position count).map .read,
        ⟨attempted, s.position + count⟩⟩ := by
      rw [exchange, hd]
      simp only [hr]
    have hspec := readReply_spec frames call.actionId frameBudget s.position
    rw [hr] at hspec
    rw [hx]
    have hawaits : Turn.Awaits ⟨s, call, result,
        events ++ [.write p, .drain] ++ (List.range' s.position count).map .read,
        ⟨attempted, s.position + count⟩⟩ := ⟨by simp, hd⟩
    refine ⟨?_, ?_, ?_, fun h => absurd hawaits h, ?_⟩
    · rintro m hm
      obtain ⟨n, hn, hev', hf, he, hid, hcount⟩ := hspec.returned hm
      exact ⟨n, hn, hev', hf, he, hid, congrArg (s.position + ·) hcount⟩
    · rintro - n m hn hev' hf he
      obtain ⟨hcount, hresult⟩ := hspec.decided hn hev' hf he
      exact ⟨congrArg (s.position + ·) hcount, hresult⟩
    · rintro - hall
      obtain ⟨hcount, hresult⟩ := hspec.gives_up hall
      exact ⟨congrArg (s.position + ·) hcount, hresult⟩
    · rw [Turn.reads, List.filterMap_append, List.filterMap_append, hindex, reads_range]
      simp [Event.index?]

/-- A call that stops before its write. -/
theorem correlated_stop (e : Raised) (hev : events = [] ∨ events = [.beforeWrite]) :
    Correlated frames ⟨s, call, .error e, events, ⟨attempted, s.position⟩⟩ := by
  have hno : ¬ Turn.Awaits ⟨s, call, .error e, events, ⟨attempted, s.position⟩⟩ := by
    rintro ⟨h, -⟩
    rcases hev with rfl | rfl <;> simp at h
  refine ⟨nofun, fun ha => absurd ha hno, fun ha => absurd ha hno, fun _ => rfl, ?_⟩
  rcases hev with rfl | rfl <;> simp [Turn.reads, Event.index?]

theorem correlated_action (frames : Nat → Except Raised Message) :
    Correlated frames (action frames s call) := by
  unfold action
  cases call.beforeWrite with
  | none =>
    dsimp only
    cases encode call.fields call.actionId with
    | error e => exact correlated_stop s call s.controlAttempted _ (Or.inl rfl)
    | ok p => exact correlated_exchange s call _ p (Or.inl rfl)
  | some outcome =>
    dsimp only
    cases beginControl s.controlAttempted call.fields call.actionId with
    | error e => exact correlated_stop s call s.controlAttempted _ (Or.inl rfl)
    | ok p => cases outcome with
      | error e => exact correlated_stop s call true _ (Or.inr rfl)
      | ok u => exact correlated_exchange s call _ p (Or.inr rfl)

end

/-! ## What a call writes -/

/-- The events of an exchange: the payload goes out first, and once. -/
theorem exchange_events (frames : Nat → Except Raised Message) (s : Session) (call : Call)
    (events : List Event) (attempted : Bool) (p : String) :
    (exchange frames s call events attempted p).call = call ∧
      ∃ rest, (exchange frames s call events attempted p).events = events ++ .write p :: rest ∧
        ∀ e ∈ rest, e.isWrite = false := by
  unfold exchange
  cases call.drain with
  | error e => exact ⟨rfl, [.drain], rfl, by simp [Event.isWrite]⟩
  | ok u =>
    refine ⟨rfl, .drain :: (List.range' s.position
      (readReply frames call.actionId frameBudget s.position).2).map .read, by simp, ?_⟩
    intro e he
    rcases List.mem_cons.mp he with rfl | he
    · rfl
    · obtain ⟨i, -, rfl⟩ := List.mem_map.mp he
      rfl

theorem written_exchange (frames : Nat → Except Raised Message) (s : Session) (call : Call)
    {events : List Event} (attempted : Bool) {p : String}
    (hp : encode call.fields call.actionId = .ok p)
    (hev : events = [] ∧ call.beforeWrite = none ∨
      events = [.beforeWrite] ∧ call.beforeWrite = some (.ok ())) :
    Written (exchange frames s call events attempted p) := by
  obtain ⟨hcall, rest, hrest, hno⟩ := exchange_events frames s call events attempted p
  have hevents : ∀ e ∈ events, e.isWrite = false := by
    rcases hev with ⟨rfl, -⟩ | ⟨rfl, -⟩ <;> simp [Event.isWrite]
  have hmem : ∀ q, Event.write q ∈ (exchange frames s call events attempted p).events → q = p := by
    intro q hq
    rw [hrest, List.mem_append, List.mem_cons] at hq
    rcases hq with hq | hq | hq
    · cases hevents _ hq
    · exact Event.write.inj hq
    · cases hno _ hq
  refine ⟨fun q hq => ?_, ?_, fun outcome ho q hq => ?_, fun hbad q hq => ?_⟩
  · rw [hcall, hmem q hq]
    exact hp
  · rw [hrest, List.countP_append, List.countP_cons, List.countP_eq_zero.mpr, List.countP_eq_zero.mpr]
    · simp [Event.isWrite]
    · simpa using hno
    · simpa using hevents
  · rw [hcall] at ho
    rcases hev with ⟨-, hb⟩ | ⟨rfl, hb⟩
    · rw [hb] at ho
      cases ho
    · rw [hb] at ho
      refine ⟨(Option.some.inj ho).symm, rest, ?_⟩
      rw [hrest, hmem q hq]
      rfl
  · rw [hcall] at hbad
    obtain ⟨f, hf, hv⟩ := hbad
    have hgood := (encode_eq_ok.mp hp).1 f hf
    exact hv.elim hgood.1 hgood.2

/-- A call that stops before its write writes nothing. -/
theorem written_stop (t : Turn) (h : ∀ e ∈ t.events, e.isWrite = false) : Written t := by
  have hno : ∀ q, Event.write q ∉ t.events := fun q hq => by cases h _ hq
  refine ⟨fun q hq => absurd hq (hno q), ?_, fun _ _ q hq => absurd hq (hno q), fun _ q => hno q⟩
  rw [List.countP_eq_zero.mpr]
  · exact Nat.zero_le 1
  · simpa using h

theorem written_action (frames : Nat → Except Raised Message) (s : Session) (call : Call) :
    Written (action frames s call) := by
  unfold action
  cases hb : call.beforeWrite with
  | none =>
    dsimp only
    cases hp : encode call.fields call.actionId with
    | error e => exact written_stop _ nofun
    | ok p => exact written_exchange frames s call _ hp (Or.inl ⟨rfl, hb⟩)
  | some outcome =>
    dsimp only
    cases hp : beginControl s.controlAttempted call.fields call.actionId with
    | error e => exact written_stop _ nofun
    | ok p =>
      cases outcome with
      | error e => exact written_stop _ (by simp [Event.isWrite])
      | ok u =>
        exact written_exchange frames s call _ (beginControl_eq_ok.mp hp).1 (Or.inr ⟨rfl, hb⟩)

/-! ## The whole session -/

/-- The session after an exchange. -/
theorem exchange_after (frames : Nat → Except Raised Message) (s : Session) (call : Call)
    (events : List Event) (attempted : Bool) (p : String) :
    (exchange frames s call events attempted p).before = s ∧
      (exchange frames s call events attempted p).after.controlAttempted = attempted ∧
      s.position ≤ (exchange frames s call events attempted p).after.position ∧
      (Event.beforeWrite ∈ (exchange frames s call events attempted p).events →
        Event.beforeWrite ∈ events) := by
  unfold exchange
  cases call.drain with
  | error e => exact ⟨rfl, rfl, le_refl _, by simp⟩
  | ok u => exact ⟨rfl, rfl, Nat.le_add_right _ _, by simp⟩

/-- A barrier is called when the flag is not set, and sets it. -/
structure Advances (s : Session) (t : Turn) : Prop where
  before : t.before = s
  position : s.position ≤ t.after.position
  attempted : s.controlAttempted = true → t.after.controlAttempted = true
  barrier : Event.beforeWrite ∈ t.events →
    s.controlAttempted = false ∧ t.after.controlAttempted = true

theorem action_call (frames : Nat → Except Raised Message) (s : Session) (call : Call) :
    (action frames s call).call = call := by
  unfold action
  cases call.beforeWrite with
  | none =>
    cases encode call.fields call.actionId with
    | error e => rfl
    | ok p => exact (exchange_events frames s call _ _ p).1
  | some outcome =>
    cases beginControl s.controlAttempted call.fields call.actionId with
    | error e => rfl
    | ok p => cases outcome with
      | error e => rfl
      | ok u => exact (exchange_events frames s call _ _ p).1

theorem action_advances (frames : Nat → Except Raised Message) (s : Session) (call : Call) :
    Advances s (action frames s call) := by
  unfold action
  cases call.beforeWrite with
  | none =>
    dsimp only
    cases encode call.fields call.actionId with
    | error e => exact ⟨rfl, le_refl _, id, nofun⟩
    | ok p =>
      obtain ⟨hb, ha, hpos, hev⟩ := exchange_after frames s call [] s.controlAttempted p
      exact ⟨hb, hpos, fun h => ha.trans h, fun h => absurd (hev h) List.not_mem_nil⟩
  | some outcome =>
    dsimp only
    cases hp : beginControl s.controlAttempted call.fields call.actionId with
    | error e => exact ⟨rfl, le_refl _, id, nofun⟩
    | ok p =>
      have hfree := (beginControl_eq_ok.mp hp).2
      cases outcome with
      | error e => exact ⟨rfl, le_refl _, fun _ => rfl, fun _ => ⟨hfree, rfl⟩⟩
      | ok u =>
        obtain ⟨hb, ha, hpos, -⟩ := exchange_after frames s call [.beforeWrite] true p
        exact ⟨hb, hpos, fun _ => ha, fun _ => ⟨hfree, ha⟩⟩

/-! ## When a call writes -/

theorem encode_clean {fields : List (String × String)} {actionId : String} :
    (∃ p, encode fields actionId = .ok p) ↔
      ∀ f ∈ withActionId fields actionId, '\r' ∉ f.2.toList ∧ '\n' ∉ f.2.toList :=
  ⟨fun ⟨_, h⟩ => (encode_eq_ok.mp h).1, fun h => ⟨_, encode_eq_ok.mpr ⟨h, rfl⟩⟩⟩

/-- An exchange is the rest of an accepted call. -/
theorem gated_exchange (frames : Nat → Except Raised Message) {s : Session} {call : Call}
    {events : List Event} {attempted : Bool} {p : String}
    (hp : encode call.fields call.actionId = .ok p)
    (hev : events = [] ∧ call.beforeWrite = none ∧ attempted = s.controlAttempted ∨
      events = [.beforeWrite] ∧ call.beforeWrite = some (.ok ()) ∧ s.controlAttempted = false ∧
        attempted = true) :
    Gated (exchange frames s call events attempted p) := by
  have hclean := (encode_eq_ok.mp hp).1
  obtain ⟨hbefore, hafter, -, hno⟩ := exchange_after frames s call events attempted p
  obtain ⟨hcall, rest, hrest, -⟩ := exchange_events frames s call events attempted p
  have hdrain : Event.drain ∈ (exchange frames s call events attempted p).events := by
    unfold exchange
    cases call.drain <;> simp
  generalize exchange frames s call events attempted p = t at *
  have hmem : Event.beforeWrite ∈ t.events ↔ Event.beforeWrite ∈ events :=
    ⟨hno, fun h => hrest ▸ List.mem_append_left _ h⟩
  have hc : t.Clean := by rwa [Turn.Clean, hcall]
  have haccepted : t.Accepted := by
    refine ⟨hc, fun outcome ho => ?_⟩
    rw [hcall] at ho
    rw [hbefore]
    rcases hev with ⟨-, hb, -⟩ | ⟨-, hb, hfree, -⟩
    · rw [hb] at ho
      cases ho
    · rw [hb] at ho
      exact ⟨hfree, (Option.some.inj ho).symm⟩
  refine ⟨?_, ?_, iff_of_true ⟨p, by rw [hrest]; simp⟩ haccepted, ?_⟩
  · rw [hmem, hcall, hbefore, and_iff_right hc]
    rcases hev with ⟨rfl, hb, -⟩ | ⟨rfl, hb, hfree, -⟩
    · simp [hb]
    · simp [hb, hfree]
  · rw [hmem, hafter, hbefore]
    rcases hev with ⟨rfl, -, ha⟩ | ⟨rfl, -, -, ha⟩
    · simp [ha]
    · simp [ha]
  · exact ⟨fun h => ⟨haccepted, h.2⟩, fun h => ⟨hdrain, h.2⟩⟩

/-- A call that is not accepted ends before its write. -/
theorem gated_stop {t : Turn} (hev : t.events = [] ∨ t.events = [.beforeWrite])
    (hno : ¬ t.Accepted)
    (hbarrier : t.events = [.beforeWrite] ↔
      t.Clean ∧ t.call.beforeWrite ≠ none ∧ t.before.controlAttempted = false)
    (hflag : t.after.controlAttempted = true ↔
      t.before.controlAttempted = true ∨ t.events = [.beforeWrite]) : Gated t := by
  have hmem : Event.beforeWrite ∈ t.events ↔ t.events = [.beforeWrite] := by
    rcases hev with h | h <;> simp [h]
  refine ⟨hmem.trans hbarrier, by rw [hflag, hmem], iff_of_false ?_ hno, iff_of_false ?_ ?_⟩
  · rintro ⟨p, hp⟩
    rcases hev with h | h <;> simp [h] at hp
  · rintro ⟨hd, -⟩
    rcases hev with h | h <;> simp [h] at hd
  · exact fun h => hno h.1

theorem gated_action (frames : Nat → Except Raised Message) (s : Session) (call : Call) :
    Gated (action frames s call) := by
  unfold action
  cases hb : call.beforeWrite with
  | none =>
    dsimp only
    cases hp : encode call.fields call.actionId with
    | ok p => exact gated_exchange frames hp (Or.inl ⟨rfl, hb, rfl⟩)
    | error e =>
      have hdirty : ¬ Turn.Clean ⟨s, call, .error (.error e), [], s⟩ := fun h => by
        obtain ⟨p, hq⟩ := encode_clean.mpr h
        cases hp.symm.trans hq
      exact gated_stop (Or.inl rfl) (fun h => hdirty h.1) (iff_of_false nofun fun h => hdirty h.1)
        (by simp)
  | some outcome =>
    dsimp only
    cases hp : beginControl s.controlAttempted call.fields call.actionId with
    | error e =>
      have hrefused : ¬ (Turn.Clean ⟨s, call, .error (.error e), [], s⟩ ∧
          s.controlAttempted = false) := by
        rintro ⟨hc, hfree⟩
        obtain ⟨p, hq⟩ := encode_clean.mpr hc
        cases hp.symm.trans (beginControl_eq_ok.mpr ⟨hq, hfree⟩)
      exact gated_stop (Or.inl rfl) (fun h => hrefused ⟨h.1, (h.2 outcome hb).1⟩)
        (iff_of_false nofun fun h => hrefused ⟨h.1, h.2.2⟩) (by simp)
    | ok p =>
      obtain ⟨hencode, hfree⟩ := beginControl_eq_ok.mp hp
      cases outcome with
      | ok u => exact gated_exchange frames hencode (Or.inr ⟨rfl, hb, hfree, rfl⟩)
      | error e =>
        refine gated_stop (Or.inr rfl) (fun h => ?_) ?_ (by simp)
        · cases (h.2 _ hb).2
        · exact iff_of_true rfl ⟨encode_clean.mp ⟨p, hencode⟩, by simp [hb], hfree⟩

/-! ## A sequence of calls -/

theorem turns_mem {frames : Nat → Except Raised Message} {s : Session} {calls : List Call} {t : Turn}
    (h : t ∈ turns frames s calls) : ∃ s' call, t = action frames s' call := by
  induction calls generalizing s with
  | nil => cases h
  | cons call calls ih =>
    rcases List.mem_cons.mp h with rfl | h
    · exact ⟨s, call, rfl⟩
    · exact ih h

/-- Over a session at most one barrier is called, and none when the flag is set. -/
theorem turns_barriers (frames : Nat → Except Raised Message) (s : Session) (calls : List Call) :
    (turns frames s calls).countP (fun t => Event.beforeWrite ∈ t.events) ≤
      if s.controlAttempted then 0 else 1 := by
  induction calls generalizing s with
  | nil => exact Nat.zero_le _
  | cons call calls ih =>
    have hadv := action_advances frames s call
    have hrest := ih (action frames s call).after
    rw [turns, List.countP_cons]
    by_cases hb : Event.beforeWrite ∈ (action frames s call).events
    · obtain ⟨hfree, hset⟩ := hadv.barrier hb
      rw [hset] at hrest
      simp only [hb, hfree, decide_true, if_true, if_false, Bool.false_eq_true] at hrest ⊢
      omega
    · simp only [hb, decide_false, if_false, Bool.false_eq_true, Nat.add_zero]
      refine hrest.trans ?_
      cases hs : s.controlAttempted with
      | true => rw [hadv.attempted hs]
      | false => split <;> simp

theorem turns_calls (frames : Nat → Except Raised Message) (s : Session) (calls : List Call) :
    (turns frames s calls).map Turn.call = calls := by
  induction calls generalizing s with
  | nil => rfl
  | cons call calls ih => rw [turns, List.map_cons, action_call, ih]

/-- The session starts with the first call, and every call leaves it to the next one. -/
theorem turns_chain (frames : Nat → Except Raised Message) (s : Session) (calls : List Call) :
    (∀ t ∈ (turns frames s calls).head?, t.before = s) ∧
      (turns frames s calls).IsChain fun t t' => t'.before = t.after := by
  induction calls generalizing s with
  | nil => simp [turns]
  | cons call calls ih =>
    obtain ⟨hfirst, hchain⟩ := ih (action frames s call).after
    rw [turns]
    refine ⟨fun t ht => ?_, List.isChain_cons.mpr ⟨hfirst, hchain⟩⟩
    rw [List.head?_cons, Option.mem_def, Option.some.injEq] at ht
    rw [← ht]
    exact (action_advances frames s call).before

/-- The frames a session reads follow one another. -/
theorem turns_reads (frames : Nat → Except Raised Message) (s : Session) (calls : List Call) :
    ∃ n, (turns frames s calls).flatMap Turn.reads = List.range' s.position n := by
  induction calls generalizing s with
  | nil => exact ⟨0, rfl⟩
  | cons call calls ih =>
    have hadv := action_advances frames s call
    have hreads := (correlated_action s call frames).reads
    obtain ⟨n, hn⟩ := ih (action frames s call).after
    rw [hadv.before] at hreads
    refine ⟨(action frames s call).after.position - s.position + n, ?_⟩
    rw [turns, List.flatMap_cons, hreads, hn, ← List.range'_append_1]
    congr 2
    have := hadv.position
    omega

/-! ## The machine of `dispatch` -/

/-- **The machine reads its reply like a call**: the frames that the call takes bring the machine
from its wait to the end of the session, with the result of the call. -/
theorem receive_readReply (cfg : Config) {frames : Nat → Except Raised Message}
    {actionId : String} {ms : List Message} {read budget position : Nat}
    (hb : read + budget = frameBudget) (hpos : 0 < budget)
    (hf : ms.map .ok = (List.range' position ms.length).map frames)
    (hn : (readReply frames actionId budget position).2 = ms.length) :
    ms.foldlM (fun d m => Dispatch.receive cfg d (.frame m)) (.replying actionId read) =
      some (.closing (readReply frames actionId budget position).1) := by
  induction budget generalizing ms read position with
  | zero => exact absurd hpos (Nat.lt_irrefl 0)
  | succ budget ih =>
    have hnonempty : ms ≠ [] := by
      rintro rfl
      rw [List.length_nil] at hn
      have hspec := readReply_spec frames actionId (budget + 1) position
      rcases hr : readReply frames actionId (budget + 1) position with ⟨result, count⟩
      rw [hr] at hn hspec
      cases hn
      cases hspec
    obtain ⟨m, ms, rfl⟩ := List.exists_cons_of_ne_nil hnonempty
    rw [List.length_cons, List.range'_succ, List.map_cons, List.map_cons, List.cons.injEq] at hf
    obtain ⟨hm, hf⟩ := hf
    have hreceive : Dispatch.receive cfg (.replying actionId read) (.frame m) =
        some (Dispatch.onFrame actionId read m (.replying actionId) (.closing (.ok m))) := rfl
    rw [List.foldlM_cons, hreceive, Option.bind_eq_bind, Option.bind_some]
    rw [readReply, ← hm] at hn ⊢
    dsimp only at hn ⊢
    unfold Dispatch.onFrame
    cases hv : verdict actionId m with
    | skip =>
      rw [hv] at hn
      dsimp only at hn ⊢
      rw [List.length_cons, Nat.add_right_cancel_iff] at hn
      by_cases hlast : budget = 0
      · subst hlast
        obtain rfl := List.eq_nil_of_length_eq_zero hn.symm
        rw [if_neg (by omega)]
        rfl
      · rw [if_pos (by omega)]
        exact ih (by omega) (Nat.pos_of_ne_zero hlast) hf hn
    | refuse e =>
      rw [hv] at hn
      obtain rfl := List.eq_nil_of_length_eq_zero (Nat.succ.inj hn.symm)
      rfl
    | reply =>
      rw [hv] at hn
      obtain rfl := List.eq_nil_of_length_eq_zero (Nat.succ.inj hn.symm)
      rfl

theorem exchange_replies (frames : Nat → Except Raised Message) (s : Session) {call : Call}
    (events : List Event) (attempted : Bool) (p : String) (hd : call.drain = .ok ()) :
    (exchange frames s call events attempted p).result =
        (readReply frames call.actionId frameBudget s.position).1 ∧
      (exchange frames s call events attempted p).after.position =
        s.position + (readReply frames call.actionId frameBudget s.position).2 := by
  unfold exchange
  rw [hd]
  exact ⟨rfl, rfl⟩

/-- A call that waits for its reply has the result of the frame loop. -/
theorem action_replies {frames : Nat → Except Raised Message} {s : Session} {call : Call}
    (h : (action frames s call).Awaits) :
    (action frames s call).result = (readReply frames call.actionId frameBudget s.position).1 ∧
      (action frames s call).after.position =
        s.position + (readReply frames call.actionId frameBudget s.position).2 := by
  have hd : call.drain = .ok () := by
    have := h.2
    rwa [action_call] at this
  obtain ⟨⟨hclean, hgate⟩, -⟩ := (gated_action frames s call).awaits.mp h
  rw [Turn.Clean, action_call] at hclean
  rw [action_call, (action_advances frames s call).before] at hgate
  obtain ⟨p, hp⟩ := encode_clean.mpr hclean
  unfold action
  cases hb : call.beforeWrite with
  | none =>
    dsimp only
    rw [hp]
    exact exchange_replies frames s [] _ p hd
  | some outcome =>
    obtain ⟨hfree, rfl⟩ := hgate outcome hb
    dsimp only
    rw [beginControl_eq_ok.mpr ⟨hp, hfree⟩]
    exact exchange_replies frames s [.beforeWrite] true p hd

/-- **The machine of `dispatch` ends as a call on the same frames does.** -/
theorem receive_action (cfg : Config) {frames : Nat → Except Raised Message} {s : Session}
    {call : Call} (h : (action frames s call).Awaits) {ms : List Message}
    (hms : ms.map .ok = (action frames s call).reads.map frames) :
    ms.foldlM (fun d m => Dispatch.receive cfg d (.frame m)) (.replying call.actionId 0) =
      some (.closing (action frames s call).result) := by
  obtain ⟨hresult, hposition⟩ := action_replies h
  have hreads := (correlated_action s call frames).reads
  rw [(action_advances frames s call).before, hposition, Nat.add_sub_cancel_left] at hreads
  have hlength : (readReply frames call.actionId frameBudget s.position).2 = ms.length := by
    have := congrArg List.length hms
    rw [hreads] at this
    simpa using this.symm
  rw [hreads, hlength] at hms
  rw [hresult]
  exact receive_readReply cfg (Nat.zero_add _) (by decide) hms hlength

/-! ## Every session -/

/-- **Action calls on one session.** Each of them returns or refuses the first frame that is no pure
event, by the id it has sent, and reads no further; each writes its own fields once or not at all,
a control right after its barrier; it writes if and only if its fields are clean and, for a control,
the session has had none and the barrier returns; one control at most gets to its barrier; no frame
is read twice; and the machine of `dispatch` makes the same of the same frames. -/
theorem correlated_sessions (frames : Nat → Except Raised Message) (calls : List Call) :
    (turns frames {} calls).map Turn.call = calls ∧
    (∀ t ∈ (turns frames {} calls).head?, t.before = {}) ∧
    ((turns frames {} calls).IsChain fun t t' => t'.before = t.after) ∧
    (∀ t ∈ turns frames {} calls, Correlated frames t ∧ Written t ∧ Gated t) ∧
    (turns frames {} calls).countP (fun t => Event.beforeWrite ∈ t.events) ≤ 1 ∧
    (∃ n, (turns frames {} calls).flatMap Turn.reads = List.range n) ∧
    ∀ cfg, ∀ t ∈ turns frames {} calls, t.Awaits → ∀ ms : List Message,
      ms.map .ok = t.reads.map frames →
      ms.foldlM (fun d m => Dispatch.receive cfg d (.frame m)) (.replying t.call.actionId 0) =
        some (.closing t.result) := by
  obtain ⟨hfirst, hchain⟩ := turns_chain frames {} calls
  refine ⟨turns_calls frames {} calls, hfirst, hchain, fun t ht => ?_,
    turns_barriers frames {} calls, ?_, fun cfg t ht ha ms hms => ?_⟩
  · obtain ⟨s, call, rfl⟩ := turns_mem ht
    exact ⟨correlated_action s call frames, written_action frames s call,
      gated_action frames s call⟩
  · obtain ⟨n, hn⟩ := turns_reads frames {} calls
    exact ⟨n, hn.trans List.range_eq_range'.symm⟩
  · obtain ⟨s, call, rfl⟩ := turns_mem ht
    rw [action_call]
    exact receive_action cfg ha hms

/-- An event, the reply to the control of id `c1`, and the same reply once more. -/
def sampleFrames : Nat → Except Raised Message
  | 0 => .ok [("event", .one "Newchannel"), ("channel", .one "SIP/1")]
  | _ + 1 => .ok [("response", .one "Success"), ("actionid", .one "c1")]

/-- A control. -/
def sampleControl : Call :=
  ⟨[("Action", "Command"), ("Command", "rpt cmd 546051 status 1")], "c1", some (.ok ()), .ok ()⟩

/-- An action after it. -/
def samplePing : Call := ⟨[("Action", "Ping")], "p1", none, .ok ()⟩

/-- The control is written and has its reply behind the event; the action after it refuses the reply
of another id. -/
theorem correlated_sessions_control :
    ∃ t u, turns sampleFrames {} [sampleControl, samplePing] = [t, u] ∧
    (∃ p, Event.write p ∈ t.events) ∧ t.result = sampleFrames 1 ∧ t.reads = [0, 1] ∧
    (∃ p, Event.write p ∈ u.events) ∧
    u.result = .error (.error (.protocol "Stale or mismatched AMI ActionID")) := by
  obtain ⟨-, -, -, hall, -⟩ := correlated_sessions sampleFrames [sampleControl, samplePing]
  obtain ⟨hc, -, hg⟩ := hall _ (List.mem_cons_self ..)
  obtain ⟨hc', -, hg'⟩ := hall _ (List.mem_cons_of_mem _ (List.mem_cons_self ..))
  have hcall := action_call sampleFrames {} sampleControl
  have hbefore := (action_advances sampleFrames {} sampleControl).before
  generalize htu : action sampleFrames {} sampleControl = t at *
  have hcall' := action_call sampleFrames t.after samplePing
  have hbefore' := (action_advances sampleFrames t.after samplePing).before
  generalize hu : action sampleFrames t.after samplePing = u at *
  have hplain : ¬ PureEvent [("response", .one "Success"), ("actionid", .one "c1")] := fun h => by
    cases h.1
  have haccepted : t.Accepted := by
    rw [Turn.Accepted, Turn.Clean, hcall, hbefore]
    refine ⟨by decide +kernel, ?_⟩
    rintro _ ⟨⟩
    exact ⟨rfl, rfl⟩
  have haccepted' : u.Accepted := by
    rw [Turn.Accepted, Turn.Clean, hcall']
    exact ⟨by decide +kernel, nofun⟩
  have hevent : Events sampleFrames t.before.position 1 := fun i hi => by
    obtain rfl := Nat.lt_one_iff.mp hi
    rw [hbefore]
    exact ⟨_, rfl, rfl, rfl⟩
  obtain ⟨hpos, hresult⟩ := hc.decided (hg.awaits.mpr ⟨haccepted, by rw [hcall]; rfl⟩) 1 _
    (by decide) hevent (by rw [hbefore]; rfl) hplain
  have hnext : t.after.position = 2 := by rw [hpos, hbefore]
  obtain ⟨-, hresult'⟩ := hc'.decided (hg'.awaits.mpr ⟨haccepted', by rw [hcall']; rfl⟩) 0 _
    (by decide) (fun i hi => absurd hi (Nat.not_lt_zero i)) (by rw [hbefore', hnext]; rfl) hplain
  refine ⟨t, u, ?_, hg.writes.mpr haccepted, ?_, ?_, hg'.writes.mpr haccepted', ?_⟩
  · rw [turns, turns, turns, htu, hu]
  · rw [hresult, hcall]
    rfl
  · rw [hc.reads, hnext, hbefore]
    rfl
  · rw [hresult', hcall']
    rfl

end AMISession

end Asl3
