import Asl3Api.Vnext.ReadSession
import Asl3Api.Vnext.Snapshot

/-!
# Observations over a session (`vnext/transport.py`, `vnext/observation.py`)

`Vnext/Observation` takes the two replies of an observation as they are. Here they come out of one
session, for all that the peer and the system can do in it.

* `AMITransport.observe`, `Observer.observed`: the two reads, and `snapshot` over them;
* **`observation_session`**: what an observation writes, what it raises, and when its state is complete.
-/

set_option autoImplicit false

namespace Asl3

open Py AMISession AMITransport

namespace AMITransport

/-- The fields of an `RptStatus` action. -/
def rptStatus (command node : String) : List (String × String) :=
  [("Action", "RptStatus"), ("Command", command), ("Node", node)]

/-- `observe` -/
def observe (cfg : Config) (peer : Peer) (node : String) :
    Except Raised (Message × Message × String) × List Turn :=
  let (result, turns) := readSession cfg peer (rptStatus "XStat" node) (rptStatus "SawStat" node)
  (result.map fun replies => (replies.1, replies.2, peer.epoch), turns)

end AMITransport

namespace Observer

/-- What `observe` brings to the observer, which a cancellation leaves; `stale` is whether the observer
was invalidated meanwhile. -/
def observation (stale : Bool) :
    Except Raised (Message × Message × String) → Except Raised Observation
  | .ok (xstat, sawstat, epoch) => .ok (.replies xstat sawstat epoch stale)
  | .error (.error e) => .ok (.failed e)
  | .error .cancelled => .error .cancelled

/-- `snapshot`, with the calls of `action` in its session. -/
def observed (cfg : Config) (peer : Peer) (node : String) (stale : Bool) (now uuid : String) :
    Except Raised NodeState × List Turn :=
  let (result, turns) := AMITransport.observe cfg peer node
  match observation stale result with
  | .error e => (.error e, turns)
  | .ok o => ((Observer.snapshot node o now uuid).mapError .error, turns)

end Observer

section

variable {cfg : Config} {peer : Peer} {node now uuid : String} {stale : Bool}

/-- Both reads of an observation are answered. -/
def Observed (cfg : Config) (peer : Peer) (node : String) (xstat sawstat : Message) : Prop :=
  AMITransport.Answered cfg peer (rptStatus "XStat" node) (rptStatus "SawStat" node) xstat sawstat

/-- An observation whose reads are answered. -/
theorem observed_of_answered {xstat sawstat : Message} (h : Observed cfg peer node xstat sawstat) :
    (Observer.observed cfg peer node stale now uuid).1 =
      (Observer.snapshot node (.replies xstat sawstat peer.epoch stale) now uuid).mapError .error := by
  have hr := readSession_iff.mpr h
  unfold Observer.observed AMITransport.observe
  rcases hs : readSession cfg peer (rptStatus "XStat" node) (rptStatus "SawStat" node) with ⟨r, turns⟩
  rw [hs] at hr
  cases hr
  rfl

/-- An observation whose session is cancelled. -/
theorem observed_of_cancelled
    (h : (readSession cfg peer (rptStatus "XStat" node) (rptStatus "SawStat" node)).1 =
      .error .cancelled) :
    (Observer.observed cfg peer node stale now uuid).1 = .error .cancelled := by
  unfold Observer.observed AMITransport.observe
  rcases hs : readSession cfg peer (rptStatus "XStat" node) (rptStatus "SawStat" node) with ⟨r, turns⟩
  rw [hs] at h
  cases h
  rfl

/-- An observation whose session raises. -/
theorem observed_of_raised {x : Error}
    (h : (readSession cfg peer (rptStatus "XStat" node) (rptStatus "SawStat" node)).1 =
      .error (.error x)) :
    (Observer.observed cfg peer node stale now uuid).1 =
      (Observer.snapshot node (.failed x) now uuid).mapError .error := by
  unfold Observer.observed AMITransport.observe
  rcases hs : readSession cfg peer (rptStatus "XStat" node) (rptStatus "SawStat" node) with ⟨r, turns⟩
  rw [hs] at h
  cases h
  rfl

/-- What an observation writes is what its session writes. -/
theorem observed_turns : (Observer.observed cfg peer node stale now uuid).2 =
    (readSession cfg peer (rptStatus "XStat" node) (rptStatus "SawStat" node)).2 := by
  unfold Observer.observed AMITransport.observe
  rcases readSession cfg peer (rptStatus "XStat" node) (rptStatus "SawStat" node) with ⟨r, turns⟩
  dsimp only
  split <;> rfl

/-- The state over two replies. -/
theorem snapshot_replies (node : String) (xstat sawstat : Message) (epoch : String) (stale : Bool)
    (now uuid : String) : ∃ state,
      Observer.snapshot node (.replies xstat sawstat epoch stale) now uuid = .ok state ∧
        ((∃ E : Evidence (.mapping xstat) (.mapping sawstat) node,
            stale = false ∧ state = E.snapshot epoch now) ∨
          (stale = false → IsEmpty (Evidence (.mapping xstat) (.mapping sawstat) node)) ∧
            ∃ reason, state = unknownState node (some epoch) reason now) := by
  cases stale with
  | true => exact ⟨_, rfl, .inr ⟨fun h => absurd h (by decide), _, rfl⟩⟩
  | false =>
    unfold Observer.snapshot
    rcases parseSnapshot_cases (.mapping xstat) (.mapping sawstat) node epoch now with
      ⟨E, h⟩ | ⟨hE, reason, h⟩
    · simp only [h]
      exact ⟨_, rfl, .inl ⟨E, trivial, rfl⟩⟩
    · simp only [h]
      exact ⟨_, rfl, .inr ⟨fun _ => hE, reason, rfl⟩⟩

end

/-- **An observation is one session with two reads.** It writes the first of the login and the two
`RptStatus` actions for the node, each of them once and none behind a barrier. It raises only what the
peer or the system raises, and no error that it should catch. Its state is complete exactly when both
reads are answered in that session, the observer was not invalidated and the replies have a consistent
reading, which it then shows; it is unknown otherwise, also when its deadline falls in the closing of
the session. -/
theorem observation_session (cfg : Config) (peer : Peer) (node : String) (stale : Bool)
    (now uuid : String) :
    ((Observer.observed cfg peer node stale now uuid).2.map Turn.call <+:
        calls cfg peer (rptStatus "XStat" node) (rptStatus "SawStat" node) ∧
      ∀ t ∈ (Observer.observed cfg peer node stale now uuid).2,
        AMISession.Event.beforeWrite ∉ t.events ∧ t.events.countP AMISession.Event.isWrite ≤ 1 ∧
        ∀ p, AMISession.Event.write p ∈ t.events → encode t.call.fields t.call.actionId = .ok p) ∧
    (∀ e, (Observer.observed cfg peer node stale now uuid).1 = .error e →
      peer.Raises e ∧ ∀ x, e = .error x → observationError x = false) ∧
    (peer.connect = .ok () → peer.deadline = true →
      (Observer.observed cfg peer node stale now uuid).1 =
        .ok (unknownState node (some uuid) "AMI_OBSERVATION_UNAVAILABLE" now)) ∧
    ∀ state, (Observer.observed cfg peer node stale now uuid).1 = .ok state →
      (state.complete = true ↔ stale = false ∧ ∃ xstat sawstat, Observed cfg peer node xstat sawstat ∧
        Nonempty (Evidence (.mapping xstat) (.mapping sawstat) node)) ∧
      (∀ xstat sawstat, Observed cfg peer node xstat sawstat → stale = false →
        ∀ E : Evidence (.mapping xstat) (.mapping sawstat) node, state = E.snapshot peer.epoch now) ∧
      (state.complete = false → ∃ epoch reason, (epoch = peer.epoch ∨ epoch = uuid) ∧
        state = unknownState node (some epoch) reason now) := by
  have hlate : peer.connect = .ok () → peer.deadline = true →
      (Observer.observed cfg peer node stale now uuid).1 =
        .ok (unknownState node (some uuid) "AMI_OBSERVATION_UNAVAILABLE" now) := fun hc hd =>
    observed_of_raised (session_deadline hc hd)
  refine ⟨?_, ?_⟩
  · rw [observed_turns]
    exact ⟨(readSession_calls cfg peer _ _).1, fun t ht => readSession_writes ht⟩
  rw [and_iff_right hlate]
  rcases hs : (readSession cfg peer (rptStatus "XStat" node) (rptStatus "SawStat" node)).1 with
    e | ⟨xstat, sawstat⟩
  · -- nothing is answered, so nothing is complete
    have hnone : ∀ xstat sawstat, ¬Observed cfg peer node xstat sawstat := by
      intro xstat sawstat h
      cases hs.symm.trans (readSession_iff.mpr h)
    cases e with
    | cancelled =>
      rw [observed_of_cancelled hs]
      refine ⟨?_, ?_⟩
      · rintro _ ⟨⟩
        refine ⟨?_, ?_⟩
        · rcases readSession_raises hs with ⟨text, h | h⟩ | h
          · cases h
          · cases h
          · exact h
        · rintro x ⟨⟩
      · rintro _ ⟨⟩
    | error x =>
      rw [observed_of_raised hs, Observer.snapshot]
      split_ifs with hx
      · refine ⟨?_, ?_⟩
        · rintro _ ⟨⟩
        · rintro _ ⟨⟩
          refine ⟨iff_of_false Bool.false_ne_true ?_, ?_, fun _ => ⟨uuid, _, .inr rfl, rfl⟩⟩
          · rintro ⟨-, xstat, sawstat, h, -⟩
            exact hnone xstat sawstat h
          · exact fun xstat sawstat h => absurd h (hnone xstat sawstat)
      · refine ⟨?_, ?_⟩
        · rintro _ ⟨⟩
          refine ⟨?_, ?_⟩
          · rcases readSession_raises hs with ⟨text, h | h⟩ | h
            · cases h
              exact absurd rfl hx
            · cases h
              exact absurd rfl hx
            · exact h
          · rintro y ⟨⟩
            exact Bool.eq_false_iff.mpr hx
        · rintro _ ⟨⟩
  · have hobserved : Observed cfg peer node xstat sawstat := readSession_iff.mp hs
    obtain ⟨state, hstate, hcases⟩ :=
      snapshot_replies node xstat sawstat peer.epoch stale now uuid
    rw [observed_of_answered hobserved, hstate]
    refine ⟨?_, ?_⟩
    · rintro _ ⟨⟩
    rintro _ ⟨⟩
    rcases hcases with ⟨E, hfresh, rfl⟩ | ⟨hempty, reason, rfl⟩
    · refine ⟨iff_of_true rfl ⟨hfresh, xstat, sawstat, hobserved, ⟨E⟩⟩, ?_, ?_⟩
      · intro x y hxy _ E'
        obtain ⟨rfl, rfl⟩ := hobserved.unique hxy
        exact E.snapshot_unique E' peer.epoch now
      · rintro ⟨⟩
    · refine ⟨iff_of_false Bool.false_ne_true ?_, ?_, fun _ => ⟨peer.epoch, reason, .inl rfl, rfl⟩⟩
      · rintro ⟨hfresh, x, y, hxy, ⟨E⟩⟩
        obtain ⟨rfl, rfl⟩ := hobserved.unique hxy
        exact (hempty hfresh).false E
      · intro x y hxy hfresh E
        obtain ⟨rfl, rfl⟩ := hobserved.unique hxy
        exact ((hempty hfresh).false E).elim

end Asl3
