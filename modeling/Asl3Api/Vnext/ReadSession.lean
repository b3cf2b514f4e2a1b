import Asl3Api.Vnext.Framing
import Asl3Api.Vnext.Session

/-!
# Sessions that read (`vnext/transport.py`)

A session that only reads logs in and makes two actions, none of them with a barrier.

* `Peer`: what the other side and the system do in one session;
* `AMITransport.session`, `AMITransport.reads`: the context manager, and a body with two actions;
* `action_answers`, `action_raises`: a call without a barrier;
* **`readSession_iff`**: when such a session returns, and what;
* `readSession_calls`, `readSession_raises`: what it writes, and what it raises.
-/

set_option autoImplicit false

namespace Asl3

open Py AMISession

/-- What the peer and the system do in one session; a deadline shows as what the `await` it falls in
raises. -/
structure Peer where
  /-- `asyncio.open_connection` -/
  connect : Except Raised Unit
  /-- `reader.readline()` -/
  banner : Except Raised String
  /-- `uuid4().hex`, for the session. -/
  epoch : String
  /-- The ids of the actions. -/
  actionId : ℕ → String
  /-- `writer.drain()` of the actions. -/
  drain : ℕ → Except Raised Unit
  /-- The calls of `frame`. -/
  frames : ℕ → Except Raised Message
  /-- `writer.wait_closed()` -/
  closed : Except Raised Unit
  /-- The deadline of the `wait_for` around the whole session falls in `wait_closed`. -/
  deadline : Bool := false

/-- What the peer or the system raises in a session. -/
def Peer.Raises (peer : Peer) (e : Raised) : Prop :=
  peer.connect = .error e ∨ peer.banner = .error e ∨ (∃ n, peer.drain n = .error e) ∨
    (∃ i, peer.frames i = .error e) ∨ peer.closed = .error e ∨
    peer.deadline = true ∧ e = .error (.py .timeoutError)

namespace AMITransport

/-- The call of `action` of this number, without a barrier. -/
def call (peer : Peer) (n : ℕ) (fields : List (String × String)) : AMISession.Call :=
  { fields, actionId := peer.actionId n, beforeWrite := none, drain := peer.drain n }

/-- What `wait_closed` raises in the `finally` of the session, but for `OSError` and `TimeoutError`. The
deadline of the caller comes to it as a `CancelledError`, which that `except` lets through and the
`wait_for` of the caller makes a `TimeoutError`. -/
def closing (peer : Peer) : Option Raised :=
  if peer.deadline then some (.error (.py .timeoutError))
  else match peer.closed with
    | .ok () => none
    | .error (.error (.py .osError)) => none
    | .error (.error (.py .timeoutError)) => none
    | .error e => some e

section

variable {α : Type} (cfg : Config) (peer : Peer) (body : Session → Except Raised α × List Turn)

/-- The login, and the body when it succeeds. -/
def loggedIn : Except Raised α × List Turn :=
  let login := action peer.frames {} (call peer 0 (Dispatch.loginFields cfg))
  match login.result with
  | .error e => (.error e, [login])
  | .ok reply =>
    if reply.lookup "response" ≠ some (.one "Success") then
      (.error (.error (.protocol "AMI authentication failed")), [login])
    else
      let (result, turns) := body login.after
      (result, login :: turns)

/-- `async with self.session() as session: body`, with its calls of `action`. -/
def session : Except Raised α × List Turn :=
  match peer.connect with
  | .error e => (.error e, [])
  | .ok () =>
    let (result, turns) := match peer.banner with
      | .error e => (.error e, [])
      | .ok text =>
        if "Asterisk Call Manager/".toList <+: text.toList then loggedIn cfg peer body
        else (.error (.error (.protocol "Invalid AMI banner")), [])
    match closing peer with
    | some e => (.error e, turns)
    | none => (result, turns)

end

/-- Two actions, one after another. -/
def reads (peer : Peer) (first second : List (String × String)) (s : Session) :
    Except Raised (Message × Message) × List Turn :=
  let turn := action peer.frames s (call peer 1 first)
  match turn.result with
  | .error e => (.error e, [turn])
  | .ok m =>
    let turn' := action peer.frames turn.after (call peer 2 second)
    (turn'.result.map fun m' => (m, m'), [turn, turn'])

/-- A session with two actions. -/
def readSession (cfg : Config) (peer : Peer) (first second : List (String × String)) :
    Except Raised (Message × Message) × List Turn :=
  session cfg peer (reads peer first second)

/-- The calls of such a session. -/
def calls (cfg : Config) (peer : Peer) (first second : List (String × String)) :
    List AMISession.Call :=
  [call peer 0 (Dispatch.loginFields cfg), call peer 1 first, call peer 2 second]

end AMITransport

/-! ## A call without a barrier -/

namespace AMISession

/-- The reply to a call that begins at `position`, when the next one begins at `next`: the first frame
that is no pure event. -/
def Answers (frames : ℕ → Except Raised Message) (position : ℕ) (actionId : String) (m : Message)
    (next : ℕ) : Prop :=
  ∃ n < frameBudget, Events frames position n ∧ frames (position + n) = .ok m ∧ ¬PureEvent m ∧
    m.lookup "actionid" = some (.one actionId) ∧ next = position + n + 1

section

variable {frames : ℕ → Except Raised Message} {s : Session} {call : AMISession.Call}

/-- What such a call sends. -/
theorem action_sends (hb : call.beforeWrite = none) {p : String}
    (hp : encode call.fields call.actionId = .ok p) :
    action frames s call = exchange frames s call [] s.controlAttempted p := by
  simp only [action, hb, hp]

/-- **When such a call returns.** -/
theorem action_answers (hb : call.beforeWrite = none) {m : Message} {next : ℕ} :
    (action frames s call).result = .ok m ∧ (action frames s call).after.position = next ↔
      (∃ p, encode call.fields call.actionId = .ok p) ∧ call.drain = .ok () ∧
        Answers frames s.position call.actionId m next := by
  cases hp : encode call.fields call.actionId with
  | error e =>
    have hx : action frames s call = ⟨s, call, .error (.error e), [], s⟩ := by
      simp only [action, hb, hp]
    rw [hx]
    refine iff_of_false ?_ ?_
    · rintro ⟨⟨⟩, -⟩
    · rintro ⟨⟨p, ⟨⟩⟩, -⟩
  | ok p =>
    have hx : action frames s call = exchange frames s call [] s.controlAttempted p :=
      action_sends hb hp
    have hcorrelated := correlated_action s call frames
    have hcall : (action frames s call).call = call := action_call frames s call
    have hbefore : (action frames s call).before = s := (action_advances frames s call).before
    cases hd : call.drain with
    | error e =>
      have hr : (action frames s call).result = .error e := by
        rw [hx, exchange, hd]
      rw [hr]
      refine iff_of_false ?_ ?_
      · rintro ⟨⟨⟩, -⟩
      · rintro ⟨-, ⟨⟩, -⟩
    | ok u =>
      have hawaits : (action frames s call).Awaits := by
        refine ⟨?_, by rw [hcall]; exact hd⟩
        rw [hx, exchange, hd]
        simp
      constructor
      · rintro ⟨hr, hnext⟩
        obtain ⟨n, hn, hev, hf, he, hid, hpos⟩ := hcorrelated.returned m hr
        rw [hbefore] at hev hf hpos
        rw [hcall] at hid
        exact ⟨⟨p, rfl⟩, rfl, n, hn, hev, hf, he, hid, hnext.symm.trans hpos⟩
      · rintro ⟨-, -, n, hn, hev, hf, he, hid, rfl⟩
        have hdecided := hcorrelated.decided hawaits n m hn
        rw [hbefore, hcall] at hdecided
        obtain ⟨hpos, hr⟩ := hdecided hev hf he
        exact ⟨hr.trans (if_pos hid), hpos⟩

/-- Such a call has no barrier. -/
theorem no_barrier (hb : call.beforeWrite = none) :
    AMISession.Event.beforeWrite ∉ (action frames s call).events := by
  cases hp : encode call.fields call.actionId with
  | error x =>
    simp only [action, hb, hp]
    exact List.not_mem_nil
  | ok p =>
    rw [action_sends hb hp]
    exact fun hm => absurd ((exchange_after frames s call [] _ p).2.2.2 hm) List.not_mem_nil

/-- **What such a call raises** is the program's own refusal, or what the stream raises. -/
theorem action_raises (hb : call.beforeWrite = none) {e : Raised}
    (h : (action frames s call).result = .error e) :
    (∃ text, e = .error (.py (.valueError text)) ∨ e = .error (.protocol text)) ∨
      call.drain = .error e ∨ ∃ i, frames i = .error e := by
  cases hp : encode call.fields call.actionId with
  | error x =>
    have hr : (action frames s call).result = .error (.error x) := by
      simp only [action, hb, hp]
    have hx : x = .py (.valueError "AMI header injection refused") := by
      unfold encode at hp
      split_ifs at hp
      exact (Except.error.inj hp).symm
    rw [hr, hx] at h
    exact .inl ⟨_, .inl (Except.error.inj h).symm⟩
  | ok p =>
    have hx : action frames s call = exchange frames s call [] s.controlAttempted p :=
      action_sends hb hp
    cases hd : call.drain with
    | error x =>
      have hr : (action frames s call).result = .error x := by
        rw [hx, exchange, hd]
      rw [hr] at h
      cases h
      exact .inr (.inl rfl)
    | ok u =>
      rcases hreply : readReply frames call.actionId frameBudget s.position with ⟨result, count⟩
      have hr : (action frames s call).result = result := by
        rw [hx, exchange, hd]
        simp only [hreply]
      have hspec := readReply_spec frames call.actionId frameBudget s.position
      rw [hreply, ← hr, h] at hspec
      cases hspec with
      | exhausted events => exact .inl ⟨_, .inr rfl⟩
      | failed n hn events e frame => exact .inr (.inr ⟨_, frame⟩)
      | frame n hn events m frame reply result decides =>
        unfold decision at decides
        split_ifs at decides
        exact .inl ⟨_, .inr (Except.error.inj decides).symm⟩

end

end AMISession

/-! ## A session as a whole -/

namespace AMITransport

/-- Both actions are answered. -/
structure Answered (cfg : Config) (peer : Peer) (first second : List (String × String))
    (m m' : Message) : Prop where
  connect : peer.connect = .ok ()
  banner : ∃ text, peer.banner = .ok text ∧ "Asterisk Call Manager/".toList <+: text.toList
  closed : closing peer = none
  sent : ∀ c ∈ calls cfg peer first second,
    (∃ p, encode c.fields c.actionId = .ok p) ∧ c.drain = .ok ()
  replies : ∃ login p q r, Answers peer.frames 0 (peer.actionId 0) login p ∧
    login.lookup "response" = some (.one "Success") ∧
    Answers peer.frames p (peer.actionId 1) m q ∧ Answers peer.frames q (peer.actionId 2) m' r

section

variable {α : Type} {cfg : Config} {peer : Peer} {body : Session → Except Raised α × List Turn}

theorem loggedIn_eq_ok {a : α} : (loggedIn cfg peer body).1 = .ok a ↔
    ∃ login s, action peer.frames {} (call peer 0 (Dispatch.loginFields cfg)) = s ∧
      s.result = .ok login ∧ login.lookup "response" = some (.one "Success") ∧
      (body s.after).1 = .ok a := by
  unfold loggedIn
  dsimp only
  generalize action peer.frames {} (call peer 0 (Dispatch.loginFields cfg)) = s
  cases hs : s.result with
  | error e =>
    refine iff_of_false ?_ ?_
    · rintro ⟨⟩
    · rintro ⟨login, _, rfl, h, -⟩
      cases hs.symm.trans h
  | ok login =>
    dsimp only
    split_ifs with hl
    · refine iff_of_false ?_ ?_
      · rintro ⟨⟩
      · rintro ⟨m, _, rfl, h, hm, -⟩
        obtain rfl := Except.ok.inj (hs.symm.trans h)
        exact hl hm
    · constructor
      · exact fun h => ⟨login, s, rfl, hs, not_not.mp hl, h⟩
      · rintro ⟨m, _, rfl, -, -, h⟩
        exact h

/-- **When a session returns.** -/
theorem session_eq_ok {a : α} : (session cfg peer body).1 = .ok a ↔ peer.connect = .ok () ∧
    (∃ text, peer.banner = .ok text ∧ "Asterisk Call Manager/".toList <+: text.toList) ∧
    closing peer = none ∧ (loggedIn cfg peer body).1 = .ok a := by
  unfold session
  cases hc : peer.connect with
  | error e =>
    refine iff_of_false ?_ ?_
    · rintro ⟨⟩
    · rintro ⟨⟨⟩, -⟩
  | ok u =>
    rw [and_iff_right rfl]
    cases hcl : closing peer with
    | some e =>
      refine iff_of_false ?_ ?_
      · rintro ⟨⟩
      · rintro ⟨-, ⟨⟩, -⟩
    | none =>
      rw [and_iff_right rfl]
      cases hb : peer.banner with
      | error e =>
        refine iff_of_false ?_ ?_
        · rintro ⟨⟩
        · rintro ⟨⟨text, ⟨⟩, -⟩, -⟩
      | ok text =>
        dsimp only
        split_ifs with ht
        · rw [and_iff_right ⟨text, rfl, ht⟩]
        · refine iff_of_false ?_ ?_
          · rintro ⟨⟩
          · rintro ⟨⟨x, hx, hp⟩, -⟩
            exact ht (Except.ok.inj hx ▸ hp)

theorem closing_eq_some {e : Raised} (h : closing peer = some e) :
    peer.closed = .error e ∨ peer.deadline = true ∧ e = .error (.py .timeoutError) := by
  unfold closing at h
  split_ifs at h with hd
  · exact .inr ⟨hd, (Option.some.inj h).symm⟩
  · split at h
    · cases h
    · cases h
    · cases h
    · rename_i x _ _ hx
      exact .inl (hx.trans (congrArg Except.error (Option.some.inj h)))

/-- **A deadline in the `finally`** raises, whatever the session came to. -/
theorem session_deadline (hc : peer.connect = .ok ()) (hd : peer.deadline = true) :
    (session cfg peer body).1 = .error (.error (.py .timeoutError)) := by
  have hclosing : closing peer = some (.error (.py .timeoutError)) := if_pos hd
  unfold session
  rw [hc, hclosing]

/-- A call raises the program's own refusal, or what the peer or the system raises. -/
theorem call_raises {s : Session} {n : ℕ} {fields : List (String × String)} {e : Raised}
    (h : (action peer.frames s (call peer n fields)).result = .error e) :
    (∃ text, e = .error (.py (.valueError text)) ∨ e = .error (.protocol text)) ∨ peer.Raises e := by
  rcases action_raises rfl h with hown | hdrain | hframe
  · exact .inl hown
  · exact .inr (.inr (.inr (.inl ⟨n, hdrain⟩)))
  · exact .inr (.inr (.inr (.inr (.inl hframe))))

/-- **What a session raises** is the program's own refusal, what the peer or the system raises, or what
its body raises. -/
theorem session_raises {e : Raised} (h : (session cfg peer body).1 = .error e) :
    ((∃ text, e = .error (.py (.valueError text)) ∨ e = .error (.protocol text)) ∨ peer.Raises e) ∨
      ∃ s, (body s).1 = .error e := by
  have hlogged : (loggedIn cfg peer body).1 = .error e →
      ((∃ text, e = .error (.py (.valueError text)) ∨ e = .error (.protocol text)) ∨
        peer.Raises e) ∨ ∃ s, (body s).1 = .error e := by
    intro hp
    unfold loggedIn at hp
    dsimp only at hp
    split at hp
    · rename_i x hx
      cases hp
      exact .inl (call_raises hx)
    · split_ifs at hp
      · exact .inl (.inl ⟨_, .inr (Except.error.inj hp).symm⟩)
      · exact .inr ⟨_, hp⟩
  unfold session at h
  cases hc : peer.connect with
  | error x =>
    rw [hc] at h
    cases h
    exact .inl (.inr (.inl hc))
  | ok u =>
    rw [hc] at h
    cases hcl : closing peer with
    | some x =>
      rw [hcl] at h
      cases h
      exact .inl (.inr (.inr (.inr (.inr (.inr (closing_eq_some hcl))))))
    | none =>
      rw [hcl] at h
      cases hb : peer.banner with
      | error x =>
        rw [hb] at h
        cases h
        exact .inl (.inr (.inr (.inl hb)))
      | ok text =>
        rw [hb] at h
        dsimp only at h
        split_ifs at h
        · exact hlogged h
        · exact .inl (.inl ⟨_, .inr (Except.error.inj h).symm⟩)

/-- The turns of a session are none, the login, or the login and those of its body. -/
theorem session_turns (cfg : Config) (peer : Peer) (body : Session → Except Raised α × List Turn) :
    (session cfg peer body).2 = [] ∨ ∃ login,
      login = action peer.frames {} (call peer 0 (Dispatch.loginFields cfg)) ∧
        ((session cfg peer body).2 = [login] ∨
          (session cfg peer body).2 = login :: (body login.after).2) := by
  have hlogged : ∃ login, login = action peer.frames {} (call peer 0 (Dispatch.loginFields cfg)) ∧
      ((loggedIn cfg peer body).2 = [login] ∨
        (loggedIn cfg peer body).2 = login :: (body login.after).2) := by
    refine ⟨_, rfl, ?_⟩
    unfold loggedIn
    dsimp only
    split
    · exact .inl rfl
    · split_ifs
      · exact .inl rfl
      · exact .inr rfl
  unfold session
  cases peer.connect with
  | error e => exact .inl rfl
  | ok u =>
    cases peer.banner with
    | error e => cases closing peer <;> exact .inl rfl
    | ok text =>
      dsimp only
      split_ifs
      · cases closing peer <;> exact .inr hlogged
      · cases closing peer <;> exact .inl rfl

end

section

variable {cfg : Config} {peer : Peer} {first second : List (String × String)}

theorem reads_eq_ok {s : Session} {m m' : Message} :
    (reads peer first second s).1 = .ok (m, m') ↔ ∃ t, action peer.frames s (call peer 1 first) = t ∧
      t.result = .ok m ∧ (action peer.frames t.after (call peer 2 second)).result = .ok m' := by
  unfold reads
  dsimp only
  generalize action peer.frames s (call peer 1 first) = t
  cases ht : t.result with
  | error e =>
    refine iff_of_false ?_ ?_
    · rintro ⟨⟩
    · rintro ⟨_, rfl, h, -⟩
      cases ht.symm.trans h
  | ok x =>
    dsimp only
    cases ht' : (action peer.frames t.after (call peer 2 second)).result with
    | error e =>
      refine iff_of_false ?_ ?_
      · rintro ⟨⟩
      · rintro ⟨_, rfl, -, h⟩
        cases ht'.symm.trans h
    | ok x' =>
      constructor
      · intro h
        obtain ⟨rfl, rfl⟩ := Prod.mk.inj (Except.ok.inj h)
        exact ⟨t, rfl, ht, ht'⟩
      · rintro ⟨_, rfl, h, h'⟩
        rw [← Except.ok.inj (ht.symm.trans h), ← Except.ok.inj (ht'.symm.trans h')]
        rfl

/-- **When a session with two actions returns.** -/
theorem readSession_iff {m m' : Message} :
    (readSession cfg peer first second).1 = .ok (m, m') ↔
      Answered cfg peer first second m m' := by
  unfold readSession
  rw [session_eq_ok, loggedIn_eq_ok]
  constructor
  · rintro ⟨hc, hb, hcl, login, s, hs, h0, hl, hr⟩
    obtain ⟨t, ht, h1, h2⟩ := reads_eq_ok.mp hr
    obtain ⟨e0, d0, a0⟩ := (action_answers rfl).mp ⟨hs ▸ h0, rfl⟩
    obtain ⟨e1, d1, a1⟩ := (action_answers rfl).mp ⟨ht ▸ h1, rfl⟩
    obtain ⟨e2, d2, a2⟩ := (action_answers rfl).mp ⟨h2, rfl⟩
    refine ⟨hc, hb, hcl, ?_, login, _, _, _, a0, hl, ?_, a2⟩
    · exact List.forall_mem_cons.mpr ⟨⟨e0, d0⟩, List.forall_mem_cons.mpr ⟨⟨e1, d1⟩,
        List.forall_mem_singleton.mpr ⟨e2, d2⟩⟩⟩
    · rw [hs, ← ht]
      exact a1
  · rintro ⟨hc, hb, hcl, hsent, login, p, q, r, a0, hl, a1, a2⟩
    obtain ⟨⟨e0, d0⟩, hsent⟩ := List.forall_mem_cons.mp hsent
    obtain ⟨⟨e1, d1⟩, hsent⟩ := List.forall_mem_cons.mp hsent
    obtain ⟨e2, d2⟩ := List.forall_mem_singleton.mp hsent
    obtain ⟨h0, hp⟩ := (action_answers (s := {}) rfl).mpr ⟨e0, d0, a0⟩
    obtain ⟨h1, hq⟩ := (action_answers rfl).mpr ⟨e1, d1, hp ▸ a1⟩
    obtain ⟨h2, -⟩ := (action_answers rfl).mpr ⟨e2, d2, hq ▸ a2⟩
    exact ⟨hc, hb, hcl, login, _, rfl, h0, hl, reads_eq_ok.mpr ⟨_, rfl, h1, h2⟩⟩

/-- Two sessions of one peer have one answer. -/
theorem Answered.unique {m m' x x' : Message} (h : Answered cfg peer first second m m')
    (h' : Answered cfg peer first second x x') : x = m ∧ x' = m' :=
  Prod.mk.inj (Except.ok.inj ((readSession_iff.mpr h').symm.trans (readSession_iff.mpr h)))

/-- The calls of such a session are the first ones of the three, each of them made as it stands. -/
theorem readSession_calls (cfg : Config) (peer : Peer) (first second : List (String × String)) :
    (readSession cfg peer first second).2.map Turn.call <+: calls cfg peer first second ∧
      ∀ t ∈ (readSession cfg peer first second).2, ∃ s, t = action peer.frames s t.call := by
  have hcall : ∀ s c, ∃ s', action peer.frames s c =
      action peer.frames s' (action peer.frames s c).call := fun s c => ⟨s, by rw [action_call]⟩
  have hreads : ∀ s, (reads peer first second s).2.map Turn.call <+:
      [call peer 1 first, call peer 2 second] ∧
      ∀ t ∈ (reads peer first second s).2, ∃ s, t = action peer.frames s t.call := by
    intro s
    unfold reads
    dsimp only
    split
    · rw [List.map_singleton, action_call]
      exact ⟨⟨_, rfl⟩, List.forall_mem_singleton.mpr (hcall _ _)⟩
    · simp only [List.map_cons, List.map_nil, action_call]
      exact ⟨⟨[], rfl⟩, List.forall_mem_cons.mpr ⟨hcall _ _,
        List.forall_mem_singleton.mpr (hcall _ _)⟩⟩
  unfold readSession
  rcases session_turns cfg peer (reads peer first second) with h | ⟨login, rfl, h | h⟩
  · rw [h]
    exact ⟨List.nil_prefix, fun t ht => absurd ht List.not_mem_nil⟩
  · rw [h, List.map_singleton, action_call]
    exact ⟨⟨_, rfl⟩, List.forall_mem_singleton.mpr (hcall _ _)⟩
  · rw [h, List.map_cons, action_call]
    exact ⟨List.cons_prefix_cons.mpr ⟨rfl, (hreads _).1⟩,
      List.forall_mem_cons.mpr ⟨hcall _ _, (hreads _).2⟩⟩

/-- **Such a session writes its actions and nothing else**, each of them once and none of them behind
a barrier. -/
theorem readSession_writes {t : Turn} (ht : t ∈ (readSession cfg peer first second).2) :
    AMISession.Event.beforeWrite ∉ t.events ∧ t.events.countP AMISession.Event.isWrite ≤ 1 ∧
      ∀ p, AMISession.Event.write p ∈ t.events → encode t.call.fields t.call.actionId = .ok p := by
  obtain ⟨hfront, hmade⟩ := readSession_calls cfg peer first second
  obtain ⟨s, hs⟩ := hmade t ht
  have hnone : t.call.beforeWrite = none := by
    have hmem := hfront.subset (List.mem_map_of_mem ht)
    simp only [calls, List.mem_cons, List.not_mem_nil, or_false] at hmem
    rcases hmem with h | h | h <;> rw [h] <;> rfl
  have hw := written_action peer.frames s t.call
  rw [← hs] at hw
  refine ⟨fun hb => ?_, hw.once, hw.payload⟩
  rw [hs] at hb
  exact no_barrier hnone hb

/-- **What such a session raises** is the program's own refusal, or what the peer or the system
raises. -/
theorem readSession_raises {e : Raised} (h : (readSession cfg peer first second).1 = .error e) :
    (∃ text, e = .error (.py (.valueError text)) ∨ e = .error (.protocol text)) ∨ peer.Raises e := by
  rcases session_raises h with h | ⟨s, h⟩
  · exact h
  · unfold reads at h
    dsimp only at h
    split at h
    · rename_i x hx
      cases h
      exact call_raises hx
    · generalize hr : action peer.frames _ (call peer 2 second) = t at h
      cases ht : t.result with
      | error x =>
        rw [ht] at h
        cases h
        exact call_raises (hr ▸ ht)
      | ok m =>
        rw [ht] at h
        cases h

end

end AMITransport

end Asl3
