import Asl3Api.Runs.Lifecycle

/-!
# One stretch of a worker

* `Pc.Agrees`, `Fits`: the row of a worker, for every place where the worker can be;
* `Finish`: the changes a worker ends with, and where it ends with them;
* `Stretch`, **`stretch_of_step`**: everything one stretch can do. Every later proof about workers
  goes through these cases.
-/

set_option autoImplicit false

namespace Asl3

open Py Ledger

/-! ## The row of a worker -/

/-- The document a worker holds and its own flag agree with its row. -/
def Pc.Agrees (started : Bool) (doc : Operation) : Pc → Prop
  | .created => started = false ∧ doc.dispatchStatus = .queued
  | .observing op => SameIdentity op doc ∧ started = false ∧ doc.dispatchStatus = .queued
  | .dispatching op command d => SameIdentity op doc ∧
      commandFor doc.node doc.kind.name (.dict doc.request) = .ok command ∧
      (started = false ∧ doc.dispatchStatus = .queued ∧ d.beforeBarrier = true ∨
        started = true ∧ doc.dispatchStatus = .dispatchStarted ∧ d.afterBarrier = true)
  | .acknowledged op => SameIdentity op doc ∧ started = true ∧ op.kind = .announce ∧
      doc.dispatchStatus = .acknowledged
  | .verifying op _ => SameIdentity op doc ∧ started = true ∧ op.kind ≠ .announce ∧
      doc.dispatchStatus = .acknowledged
  | .sleeping op _ => SameIdentity op doc ∧ started = true ∧ op.kind ≠ .announce ∧
      doc.dispatchStatus = .acknowledged
  | .handler _ => started = false ∧ doc.dispatchStatus = .queued ∨
      started = true ∧ (doc.dispatchStatus = .dispatchStarted ∨ doc.dispatchStatus = .acknowledged)

/-- The row of a worker is not terminal and agrees with the place where the worker is. -/
structure Fits (node : String) (w : Worker) (doc : Operation) : Prop where
  id : doc.id = w.id
  node : doc.node = node
  terminal : doc.terminal = false
  agrees : w.pc.Agrees w.started doc

/-- Wherever an exception leaves the body, the handler finds a row that agrees with the flag. -/
theorem Pc.Agrees.handler {pc : Pc} {started : Bool} {doc : Operation} (h : pc.Agrees started doc)
    (e : Raised) : (Pc.handler e).Agrees started doc := by
  cases pc with
  | created => exact Or.inl h
  | observing op => exact Or.inl h.2
  | dispatching op command d =>
    rcases h.2.2 with ⟨hs, hq, -⟩ | ⟨hs, hq, -⟩
    · exact Or.inl ⟨hs, hq⟩
    · exact Or.inr ⟨hs, Or.inl hq⟩
  | acknowledged op => exact Or.inr ⟨h.2.1, Or.inr h.2.2.2⟩
  | verifying op deadline => exact Or.inr ⟨h.2.1, Or.inr h.2.2.2⟩
  | sleeping op deadline => exact Or.inr ⟨h.2.1, Or.inr h.2.2.2⟩
  | handler e' => exact h

/-! ## The cases of a stretch -/

/-- No ledger transaction of a stretch fails. -/
def Input.commits : Input → Bool
  | .run env => env.commitOk
  | .snapshot _ env => env.commitOk
  | .action _ env => env.commitOk
  | _ => true

/-- A move of the AMI session that is neither the barrier nor the control write. -/
structure SessionMove (d : Dispatch) (i : Input) (d' : Dispatch) : Prop where
  input : i ≠ .write
  before : d.beforeBarrier = true → d'.beforeBarrier = true
  after : d.afterBarrier = true → d'.afterBarrier = true
  notCommitted : ∀ actionId payload, d' ≠ .committed actionId payload
  replying : ∀ actionId n, d' = .replying actionId n → ∃ m, d = .replying actionId m
  reply : ∀ response, d' = .closing (.ok response) → ∃ actionId n, d = .replying actionId n ∧
    i = .receive (.frame response) ∧ response.lookup "actionid" = some (.one actionId)

/-- The changes of the last save of a worker. -/
inductive Finish (p : Platform) (w : Worker) : Changes → Prop
  | unavailable (hpc : w.pc = .created) :
      Finish p w { dispatchStatus := some .notDispatched, effectStatus := some .notAttempted,
                   terminal := some true, semanticError := some "CONTROL_UNAVAILABLE" }
  | satisfied {op : Operation} {before : NodeState} (hpc : w.pc = .observing op)
      (hk : op.kind ≠ .announce) (he : effectStatus op before = .ok .observedSatisfied) :
      Finish p w { dispatchStatus := some .notDispatched, effectStatus := some .observedSatisfied,
                   terminal := some true, semanticError := some "ALREADY_SATISFIED",
                   evidence := some before }
  | refused {op : Operation} {before : NodeState} {code : String} (hpc : w.pc = .observing op) :
      Finish p w { dispatchStatus := some .notDispatched, effectStatus := some .notAttempted,
                   terminal := some true, semanticError := some code, evidence := some before }
  | rejected {op : Operation} {command : String} {response : Message}
      (hpc : w.pc = .dispatching op command (.closing (.ok response))) (hs : w.started = true)
      (hr : commandRejected response = .ok true) :
      Finish p w { dispatchStatus := some .rejected, effectStatus := some .notAttempted,
                   terminal := some true, semanticError := some "COMMAND_REJECTED" }
  | announced {op : Operation} (hpc : w.pc = .acknowledged op) :
      Finish p w { effectStatus := some .unknown, terminal := some true,
                   semanticError := some "PLAYBACK_EFFECT_NOT_OBSERVABLE" }
  | verified {op : Operation} {deadline : Rat} {lastState : NodeState} {e : EffectStatus}
      {code : Option String} (hpc : w.pc = .verifying op deadline)
      (he : effectStatus op lastState = .ok e) :
      Finish p w { effectStatus := some e, terminal := some true, evidence := some lastState,
                   semanticError := code }
  | handled {e : Raised} (hpc : w.pc = .handler e) : Finish p w (Execute.handlerChange w.started e)

/-- What one stretch of `w`, whose row holds `doc`, can do. -/
inductive Stretch (p : Platform) (t : Table) (w : Worker) (doc : Operation) :
    Input → Platform → Table → Next → Prop
  | dropped (hpc : w.pc = .created) (hc : w.cancelling = true) :
      Stretch p t w doc .cancel p t .dropped
  | entered {env : Env} (hpc : w.pc = .created) (hc : w.cancelling = false) :
      Stretch p t w doc (.run env) p t (.goes { w with pc := .observing doc })
  | gated {op : Operation} {o : Observation} {env : Env} {before : NodeState} {command : String}
      (hpc : w.pc = .observing op) (hs : Observer.snapshot p.node o env.now env.uuid = .ok before)
      (he : op.kind ≠ .announce → effectStatus op before ≠ .ok .observedSatisfied)
      (hp : TrafficPolicy.Eligible p.config op.kind before)
      (hcmd : commandFor p.node op.kind.name (.dict op.request) = .ok command) :
      Stretch p t w doc (.snapshot o env) p t
        (.goes { w with pc := .dispatching op command .connecting })
  | session {op : Operation} {command : String} {d d' : Dispatch} {i : Input}
      (hpc : w.pc = .dispatching op command d) (hd : SessionMove d i d') :
      Stretch p t w doc i p t (.goes { w with pc := .dispatching op command d' })
  | crossed {op : Operation} {command actionId payload : String} {env : Env}
      (hpc : w.pc = .dispatching op command (.ready false)) (hs : w.started = false)
      (hr : p.requireLedger = .ok ())
      (he : AMISession.encode (Dispatch.controlFields command) actionId = .ok payload)
      (hq : doc.dispatchStatus = .queued) :
      Stretch p t w doc (.action actionId env) p
        (setDocument t p.node w.id (doc.merge { dispatchStatus := some .dispatchStarted } env.now))
        (.goes { w with pc := .dispatching op command (.committed actionId payload)
                        started := true })
  | wrote {op : Operation} {command actionId payload : String}
      (hpc : w.pc = .dispatching op command (.committed actionId payload)) :
      Stretch p t w doc .write p t
        (.goes { w with pc := .dispatching op command (.replying actionId 0) })
  | acked {op : Operation} {command : String} {response : Message} {env : Env} {deadline : Rat}
      (hpc : w.pc = .dispatching op command (.closing (.ok response))) (hs : w.started = true)
      (hrej : commandRejected response = .ok false)
      (hok : response.lookup "response" = some (.one "Success")) :
      Stretch p t w doc (.run env) p
        (setDocument t p.node w.id (doc.merge { dispatchStatus := some .acknowledged } env.now))
        (.goes { w with pc := if op.kind = .announce then .acknowledged op
                              else .verifying op deadline })
  | woke {op : Operation} {deadline : Rat} {env : Env} (hpc : w.pc = .sleeping op deadline) :
      Stretch p t w doc (.run env) p t (.goes { w with pc := .verifying op deadline })
  | slept {op : Operation} {deadline : Rat} {o : Observation} {env : Env}
      (hpc : w.pc = .verifying op deadline) :
      Stretch p t w doc (.snapshot o env) p t (.goes { w with pc := .sleeping op deadline })
  | raised {i : Input} {e : Raised} (hi : i ≠ .write) :
      Stretch p t w doc i p t (.goes { w with pc := .handler e })
  | saved {i : Input} {c : Changes} {now : String} (hi : i ≠ .write) (hf : Finish p w c) :
      Stretch p t w doc i p (setDocument t p.node w.id (doc.merge c now)) .ended
  | lost {i : Input} (hi : i ≠ .write) (hc : i.commits = false) :
      Stretch p t w doc i { p with healthy := false } t .ended

/-! ## Every stretch is one of the cases -/

section

variable {p : Platform} {t : Table} {w : Worker} {doc : Operation}

theorem save_eq (hl : p.ledger = true) (hd : get t p.node w.id = some doc) (c : Changes)
    (env : Env) :
    p.save t w.id c env =
      if env.commitOk then
        (.ok (some (doc.merge c env.now)), p, setDocument t p.node w.id (doc.merge c env.now))
      else (.ok none, { p with healthy := false }, t) := by
  unfold Platform.save
  rw [if_pos hl, update_of_get hd]
  cases env.commitOk <;> rfl

/-- The last save of a worker, when it does what `Finish` allows. -/
theorem stretch_saveAndReturn (hl : p.ledger = true) (hd : get t p.node w.id = some doc)
    {c : Changes} (hf : Finish p w c) {i : Input} {env : Env} (hw : i ≠ .write)
    (hi : i.commits = env.commitOk) {p' : Platform} {t' : Table} {n : Next}
    (h : Execute.saveAndReturn p t w w.id c env = (p', t', n)) : Stretch p t w doc i p' t' n := by
  unfold Execute.saveAndReturn at h
  rw [save_eq hl hd] at h
  by_cases hc : env.commitOk = true
  · rw [if_pos hc] at h
    cases h
    exact .saved hw hf
  · rw [if_neg hc] at h
    cases h
    exact .lost hw (by rw [hi]; simpa using hc)

/-- An exception leaves the body. -/
theorem stretch_raises {i : Input} {e : Raised} {p' : Platform} {t' : Table} {n : Next}
    (hi : i ≠ .write) (h : Execute.raises p t w e = (p', t', n)) : Stretch p t w doc i p' t' n := by
  cases h
  exact .raised hi

theorem stretch_enter (hl : p.ledger = true) (hd : get t p.node w.id = some doc)
    (hf : Fits p.node w doc) (hpc : w.pc = .created) (hc : w.cancelling = false) {env : Env}
    {p' : Platform} {t' : Table} {n : Next} (h : Execute.enter p t w env = (p', t', n)) :
    Stretch p t w doc (.run env) p' t' n := by
  unfold Execute.enter at h
  by_cases hx : p.closing = true ∨ p.healthy = false
  · rw [if_pos hx] at h
    exact stretch_saveAndReturn hl hd (.unavailable hpc) (by nofun) rfl h
  rw [if_neg hx] at h
  have hq : doc.dispatchStatus = .queued := by
    have ha := hf.agrees
    rw [hpc] at ha
    exact ha.2
  unfold Platform.getOperation at h
  rw [if_neg (by simp [hl]), hd] at h
  by_cases hr : env.readOk = false
  · rw [if_pos hr] at h
    exact stretch_raises nofun h
  · rw [if_neg hr] at h
    simp only [hf.terminal, hq, Execute.goesOn, Bool.false_eq_true, ne_eq, not_true_eq_false, or_self,
      if_false] at h
    cases h
    exact .entered hpc hc

theorem stretch_observed (hl : p.ledger = true) (hd : get t p.node w.id = some doc)
    {op : Operation} (hpc : w.pc = .observing op) {o : Observation} {env : Env}
    {before : NodeState} (hs : Observer.snapshot p.node o env.now env.uuid = .ok before)
    {p' : Platform} {t' : Table} {n : Next}
    (h : Execute.observed p t w op before env = (p', t', n)) :
    Stretch p t w doc (.snapshot o env) p' t' n := by
  unfold Execute.observed at h
  cases hcur : (if op.kind ≠ .announce then effectStatus op before else .ok .notApplicable) with
  | error e => simp only [hcur] at h; exact stretch_raises nofun h
  | ok current =>
    simp only [hcur] at h
    by_cases hsat : op.kind ≠ .announce ∧ current = .observedSatisfied
    · rw [if_pos hsat] at h
      rw [if_pos hsat.1, hsat.2] at hcur
      rw [hsat.2] at h
      exact stretch_saveAndReturn hl hd (.satisfied hpc hsat.1 hcur) (by nofun) rfl h
    rw [if_neg hsat] at h
    cases hpol : TrafficPolicy.enforce p.config op.kind.name before with
    | error e =>
      obtain ⟨problem, rfl⟩ := TrafficPolicy.enforce_error hpol
      simp only [hpol] at h
      exact stretch_saveAndReturn hl hd (.refused hpc) (by nofun) rfl h
    | ok u =>
      simp only [hpol] at h
      cases hcmd : commandFor p.node op.kind.name (.dict op.request) with
      | error e => simp only [hcmd] at h; exact stretch_raises nofun h
      | ok command =>
        simp only [hcmd, Execute.goesOn] at h
        cases h
        refine .gated hpc hs (fun hk he => hsat ⟨hk, ?_⟩) (TrafficPolicy.enforce_eq_ok.mp hpol) hcmd
        rw [if_pos hk, he] at hcur
        exact (Except.ok.inj hcur).symm

theorem stretch_control (hd : get t p.node w.id = some doc) (hf : Fits p.node w doc)
    {op : Operation} {command : String} {attempted : Bool}
    (hpc : w.pc = .dispatching op command (.ready attempted)) {actionId : String} {env : Env}
    {p' : Platform} {t' : Table} {n : Next}
    (h : Execute.control p t w op command attempted actionId env = (p', t', n)) :
    Stretch p t w doc (.action actionId env) p' t' n := by
  have aborted : ∀ e, SessionMove (.ready attempted) (.action actionId env) (.abort e) := fun e =>
    ⟨nofun, fun _ => rfl, fun _ => rfl, nofun, nofun, nofun⟩
  unfold Execute.control at h
  cases hb : AMISession.beginControl attempted (Dispatch.controlFields command) actionId with
  | error e =>
    simp only [hb, Execute.goesOn] at h
    cases h
    exact .session hpc (aborted e)
  | ok payload =>
    simp only [hb] at h
    -- the session has not been used, and the payload is the encoded action
    obtain ⟨he, rfl⟩ := AMISession.beginControl_eq_ok.mp hb
    unfold Platform.barrier at h
    cases hr : p.requireLedger with
    | error e =>
      simp only [hr, Execute.goesOn] at h
      cases h
      exact .session hpc (aborted _)
    | ok u =>
      cases hst : startDispatch t p.node w.id env with
      | mk r t₁ =>
        simp only [hr, hst] at h
        cases r with
        | error e =>
          have e₁ := startDispatch_error hst
          subst e₁
          simp only [Execute.goesOn] at h
          cases h
          exact .session hpc (aborted _)
        | ok op' =>
          obtain ⟨doc', hd', -, hq, -, rfl, rfl⟩ := startDispatch_eq_ok hst
          rw [hd] at hd'
          cases hd'
          cases h
          have ha := hf.agrees
          rw [hpc] at ha
          rcases ha.2.2 with ⟨hs, -, -⟩ | ⟨-, hq', -⟩
          · exact .crossed hpc hs hr he hq
          · rw [hq] at hq'
            cases hq'

theorem stretch_replied (hl : p.ledger = true) (hd : get t p.node w.id = some doc)
    {op : Operation} {command : String} {response : Message}
    (hpc : w.pc = .dispatching op command (.closing (.ok response))) {env : Env}
    {p' : Platform} {t' : Table} {n : Next}
    (h : Execute.replied p t w op response env = (p', t', n)) :
    Stretch p t w doc (.run env) p' t' n := by
  unfold Execute.replied at h
  by_cases hs : w.started = false
  · rw [if_pos hs] at h
    exact stretch_raises nofun h
  rw [if_neg hs] at h
  rw [Bool.not_eq_false] at hs
  cases hrej : commandRejected response with
  | error e => simp only [hrej] at h; exact stretch_raises nofun h
  | ok b =>
    cases b with
    | true =>
      simp only [hrej] at h
      exact stretch_saveAndReturn hl hd (.rejected hpc hs hrej) (by nofun) rfl h
    | false =>
      simp only [hrej] at h
      by_cases hok : response.lookup "response" = some (.one "Success")
      · rw [if_neg (not_not.mpr hok), save_eq hl hd] at h
        by_cases hc : env.commitOk = true
        · simp only [if_pos hc] at h
          by_cases hk : op.kind = .announce
          · rw [if_pos hk] at h
            cases h
            have hst := @Stretch.acked p t w doc op command response env 0 hpc hs hrej hok
            rwa [if_pos hk] at hst
          · rw [if_neg hk] at h
            cases h
            have hst := @Stretch.acked p t w doc op command response env
              (env.time + p.config.effectTimeout) hpc hs hrej hok
            rwa [if_neg hk] at hst
        · simp only [if_neg hc] at h
          cases h
          exact .lost nofun (by simpa [Input.commits] using hc)
      · rw [if_pos hok] at h
        exact stretch_raises nofun h

theorem stretch_verified (hl : p.ledger = true) (hd : get t p.node w.id = some doc)
    (hf : Fits p.node w doc) {op : Operation} {deadline : Rat}
    (hpc : w.pc = .verifying op deadline) {o : Observation} {env : Env} {lastState : NodeState}
    {p' : Platform} {t' : Table} {n : Next}
    (h : Execute.verified p t w op deadline lastState env = (p', t', n)) :
    Stretch p t w doc (.snapshot o env) p' t' n := by
  have hid : op.id = w.id := by
    have ha := hf.agrees
    rw [hpc] at ha
    rw [← hf.id, ha.1.id]
  unfold Execute.verified at h
  cases he : effectStatus op lastState with
  | error e => simp only [he] at h; exact stretch_raises nofun h
  | ok lastEffect =>
    simp only [he, hid] at h
    by_cases hsat : lastEffect = .observedSatisfied
    · rw [if_pos hsat] at h
      exact stretch_saveAndReturn hl hd (.verified hpc he) (by nofun) rfl h
    rw [if_neg hsat] at h
    by_cases hdl : deadline ≤ env.time
    · rw [if_pos hdl] at h
      exact stretch_saveAndReturn hl hd (.verified hpc he) (by nofun) rfl h
    · rw [if_neg hdl] at h
      cases h
      exact .slept hpc

theorem stretch_handled (hl : p.ledger = true) (hd : get t p.node w.id = some doc) {e : Raised}
    (hpc : w.pc = .handler e) {env : Env} {p' : Platform} {t' : Table} {n : Next}
    (h : Execute.handled p t w e env = (p', t', n)) : Stretch p t w doc (.run env) p' t' n := by
  unfold Execute.handled at h
  rw [save_eq hl hd] at h
  by_cases hc : env.commitOk = true
  · rw [if_pos hc] at h
    cases h
    exact .saved nofun (.handled hpc)
  · rw [if_neg hc] at h
    cases h
    exact .lost nofun (by simpa [Input.commits] using hc)

/-! ### The AMI session -/

/-- A frame that is a reply carries the identity of the action. -/
theorem onFrame_cases {actionId : String} {read : Nat} {f : Message} {wait : Nat → Dispatch}
    {done d' : Dispatch} (h : Dispatch.onFrame actionId read f wait done = d') :
    d' = wait (read + 1) ∨ (∃ e, d' = .abort e) ∨
      d' = done ∧ f.lookup "actionid" = some (.one actionId) := by
  unfold Dispatch.onFrame AMISession.verdict at h
  by_cases he : (f.lookup "event").isSome = true ∧ (f.lookup "response").isNone = true
  · rw [if_pos he] at h
    by_cases hn : read + 1 < AMISession.frameBudget
    · simp only [if_pos hn] at h
      exact Or.inl h.symm
    · simp only [if_neg hn] at h
      exact Or.inr (Or.inl ⟨_, h.symm⟩)
  rw [if_neg he] at h
  by_cases ha : f.lookup "actionid" = some (.one actionId)
  · rw [if_neg (not_not.mpr ha)] at h
    exact Or.inr (Or.inr ⟨h.symm, ha⟩)
  · rw [if_pos ha] at h
    exact Or.inr (Or.inl ⟨_, h.symm⟩)

theorem sessionMove_receive {cfg : Config} {d d' : Dispatch} {r : Received}
    (h : d.receive cfg r = some d') : SessionMove d (.receive r) d' := by
  cases d with
  | connecting =>
    cases r with
    | connected => cases h; exact ⟨nofun, fun _ => rfl, nofun, nofun, nofun, nofun⟩
    | line text loginId => cases h
    | frame f => cases h
  | banner =>
    cases r with
    | connected => cases h
    | frame f => cases h
    | line text loginId =>
      by_cases hb : "Asterisk Call Manager/".toList <+: text.toList
      · simp only [Dispatch.receive, if_pos hb] at h
        cases he : AMISession.encode (Dispatch.loginFields cfg) loginId with
        | error e => simp only [he] at h; cases h; exact ⟨nofun, fun _ => rfl, nofun, nofun, nofun, nofun⟩
        | ok q => simp only [he] at h; cases h; exact ⟨nofun, fun _ => rfl, nofun, nofun, nofun, nofun⟩
      · simp only [Dispatch.receive, if_neg hb] at h
        cases h
        exact ⟨nofun, fun _ => rfl, nofun, nofun, nofun, nofun⟩
  | login a n =>
    cases r with
    | connected => cases h
    | line text loginId => cases h
    | frame f =>
      rcases onFrame_cases (Option.some.inj h) with rfl | ⟨e, rfl⟩ | ⟨rfl, -⟩
      · exact ⟨nofun, fun _ => rfl, nofun, nofun, nofun, nofun⟩
      · exact ⟨nofun, fun _ => rfl, nofun, nofun, nofun, nofun⟩
      · split_ifs with hok
        · exact ⟨nofun, fun _ => rfl, nofun, nofun, nofun, nofun⟩
        · exact ⟨nofun, fun _ => rfl, nofun, nofun, nofun, nofun⟩
  | replying a n =>
    cases r with
    | connected => cases h
    | line text loginId => cases h
    | frame f =>
      rcases onFrame_cases (Option.some.inj h) with rfl | ⟨e, rfl⟩ | ⟨rfl, ha⟩
      · refine ⟨nofun, nofun, fun _ => rfl, nofun, ?_, nofun⟩
        intro b m hb
        cases hb
        exact ⟨n, rfl⟩
      · exact ⟨nofun, nofun, fun _ => rfl, nofun, nofun, nofun⟩
      · refine ⟨nofun, nofun, fun _ => rfl, nofun, nofun, ?_⟩
        intro response hr
        cases hr
        exact ⟨a, n, rfl, rfl, ha⟩
  | ready b => cases r <;> cases h
  | committed a payload => cases r <;> cases h
  | closing outcome => cases r <;> cases h

theorem sessionMove_throw {d d' : Dispatch} {e : Raised} {i : Input} (hi : i ≠ .write)
    (h : d.throw e = some (.inl d')) : SessionMove d i d' := by
  cases d with
  | connecting => cases h
  | committed a payload => cases h
  | closing outcome => cases h
  | banner => cases h; exact ⟨hi, fun _ => rfl, fun _ => rfl, nofun, nofun, nofun⟩
  | login a n => cases h; exact ⟨hi, fun _ => rfl, fun _ => rfl, nofun, nofun, nofun⟩
  | ready b => cases h; exact ⟨hi, fun _ => rfl, fun _ => rfl, nofun, nofun, nofun⟩
  | replying a n => cases h; exact ⟨hi, fun _ => rfl, fun _ => rfl, nofun, nofun, nofun⟩

theorem stretch_thrown {e : Raised} {i : Input} {p' : Platform} {t' : Table} {n : Next}
    (hi : i ≠ .write) (h : Execute.thrown p t w e = some (p', t', n)) : Stretch p t w doc i p' t' n := by
  unfold Execute.thrown at h
  cases hpc : w.pc with
  | created => simp [hpc] at h
  | acknowledged op => simp [hpc] at h
  | handler e' => simp [hpc] at h
  | observing op =>
    simp only [hpc] at h
    exact stretch_raises hi (Option.some.inj h)
  | verifying op deadline =>
    simp only [hpc] at h
    exact stretch_raises hi (Option.some.inj h)
  | sleeping op deadline =>
    simp only [hpc] at h
    exact stretch_raises hi (Option.some.inj h)
  | dispatching op command d =>
    simp only [hpc] at h
    cases hd : d.throw e with
    | none => simp [hd] at h
    | some r =>
      cases r with
      | inr e' =>
        simp only [hd] at h
        exact stretch_raises hi (Option.some.inj h)
      | inl d' =>
        simp only [hd, Execute.goesOn] at h
        cases h
        exact .session hpc (sessionMove_throw hi hd)

/-- **Every stretch of a worker whose row fits is one of the cases.** -/
theorem stretch_of_step (hl : p.ledger = true) (hd : get t p.node w.id = some doc)
    (hf : Fits p.node w doc) {i : Input} {p' : Platform} {t' : Table} {n : Next}
    (h : Execute.step p t w i = some (p', t', n)) : Stretch p t w doc i p' t' n := by
  cases i with
  | error e => exact stretch_thrown nofun h
  | cancel =>
    unfold Execute.step at h
    by_cases hc : w.cancelling = false
    · simp [hc] at h
    simp only [if_neg hc] at h
    rw [Bool.not_eq_false] at hc
    cases hpc : w.pc with
    | created =>
      simp only [hpc] at h
      cases h
      exact .dropped hpc hc
    | _ =>
      simp only [hpc] at h
      exact stretch_thrown nofun h
  | run env =>
    unfold Execute.step at h
    cases hpc : w.pc with
    | created =>
      simp only [hpc] at h
      by_cases hc : w.cancelling = true
      · simp [hc] at h
      · rw [if_neg hc] at h
        rw [Bool.not_eq_true] at hc
        exact stretch_enter hl hd hf hpc hc (Option.some.inj h)
    | observing op => simp [hpc] at h
    | verifying op deadline => simp [hpc] at h
    | acknowledged op =>
      simp only [hpc] at h
      exact stretch_saveAndReturn hl hd (.announced hpc) (by nofun) rfl (Option.some.inj h)
    | sleeping op deadline =>
      simp only [hpc, Execute.goesOn] at h
      cases h
      exact .woke hpc
    | handler e =>
      simp only [hpc] at h
      exact stretch_handled hl hd hpc (Option.some.inj h)
    | dispatching op command d =>
      cases d with
      | closing outcome =>
        cases outcome with
        | error e =>
          simp only [hpc] at h
          exact stretch_raises nofun (Option.some.inj h)
        | ok response =>
          simp only [hpc] at h
          exact stretch_replied hl hd hpc (Option.some.inj h)
      | _ => simp [hpc] at h
  | snapshot o env =>
    unfold Execute.step at h
    cases hs : Observer.snapshot p.node o env.now env.uuid with
    | error e =>
      cases hpc : w.pc with
      | observing op => simp only [hpc, hs] at h; exact stretch_raises nofun (Option.some.inj h)
      | verifying op deadline => simp only [hpc, hs] at h; exact stretch_raises nofun (Option.some.inj h)
      | _ => simp [hpc] at h
    | ok state =>
      cases hpc : w.pc with
      | observing op =>
        simp only [hpc, hs] at h
        exact stretch_observed hl hd hpc hs (Option.some.inj h)
      | verifying op deadline =>
        simp only [hpc, hs] at h
        exact stretch_verified hl hd hf hpc (Option.some.inj h)
      | _ => simp [hpc] at h
  | receive r =>
    unfold Execute.step at h
    cases hpc : w.pc with
    | dispatching op command d =>
      simp only [hpc] at h
      obtain ⟨d', hd', h'⟩ := Option.map_eq_some_iff.mp h
      cases h'
      exact .session hpc (sessionMove_receive hd')
    | _ => simp [hpc] at h
  | action actionId env =>
    unfold Execute.step at h
    cases hpc : w.pc with
    | dispatching op command d =>
      cases d with
      | ready attempted =>
        simp only [hpc] at h
        exact stretch_control hd hf hpc (Option.some.inj h)
      | _ => simp [hpc] at h
    | _ => simp [hpc] at h
  | write =>
    unfold Execute.step at h
    cases hpc : w.pc with
    | dispatching op command d =>
      cases d with
      | committed actionId payload =>
        simp only [hpc, Execute.goesOn] at h
        cases h
        exact .wrote hpc
      | _ => simp [hpc] at h
    | _ => simp [hpc] at h

end

/-! ## What a stretch does to the table and to its own row -/

section

variable {p p' : Platform} {t t' : Table} {w : Worker} {doc : Operation} {i : Input} {n : Next}

/-- **The last save of a worker is the last step of its row.** -/
theorem Finish.moves {c : Changes} (h : Finish p w c) {node : String} (hf : Fits node w doc)
    (hc : Consistent doc) (now : String) :
    Moves doc (doc.merge c now) ∧ Consistent (doc.merge c now) := by
  have hopen : doc.effectStatus = .pending ∧ doc.terminal = false :=
    ⟨(hc.open_stage hf.terminal).1, hf.terminal⟩
  have ha := hf.agrees
  cases h with
  | unavailable hpc =>
    rw [hpc] at ha
    have hs : Finishes doc.dispatchStatus .notDispatched := by rw [ha.2]; exact .notDispatched
    exact ⟨.finish hopen rfl hs,
      @consistent_of_stage _ .notDispatched .notAttempted true rfl (by decide) rfl⟩
  | @satisfied op before hpc hk he =>
    rw [hpc] at ha
    have hs : Finishes doc.dispatchStatus .notDispatched := by rw [ha.2.2]; exact .notDispatched
    refine ⟨.finish hopen rfl hs, ?_, fun hk' => ?_, fun _ => ?_⟩
    · show (DispatchStatus.notDispatched, EffectStatus.observedSatisfied, true) ∈ stages
      decide
    · exact absurd (ha.1.kind ▸ hk') hk
    · refine ⟨before, rfl, complete_of_effectStatus he (by decide), ?_⟩
      rw [effectStatus_congr (ha.1.trans (.merge doc _ now))]
      exact he
  | refused hpc =>
    rw [hpc] at ha
    have hs : Finishes doc.dispatchStatus .notDispatched := by rw [ha.2.2]; exact .notDispatched
    exact ⟨.finish hopen rfl hs,
      @consistent_of_stage _ .notDispatched .notAttempted true rfl (by decide) rfl⟩
  | rejected hpc hst hr =>
    rw [hpc, hst] at ha
    have hq : doc.dispatchStatus = .dispatchStarted := by
      rcases ha.2.2 with ⟨h, -⟩ | ⟨-, h, -⟩
      · cases h
      · exact h
    have hs : Finishes doc.dispatchStatus .rejected := by rw [hq]; exact .rejected
    exact ⟨.finish hopen rfl hs,
      @consistent_of_stage _ .rejected .notAttempted true rfl (by decide) rfl⟩
  | announced hpc =>
    rw [hpc] at ha
    have hq := ha.2.2.2
    have hs : Finishes doc.dispatchStatus doc.dispatchStatus := by rw [hq]; exact .acknowledged
    refine ⟨.finish hopen rfl hs, @consistent_of_stage _ .acknowledged .unknown true ?_ (by decide) rfl⟩
    show (doc.dispatchStatus, _, true) = _
    rw [hq]
    rfl
  | @verified op deadline lastState e code hpc he =>
    rw [hpc] at ha
    have hq := ha.2.2.2
    have hs : Finishes doc.dispatchStatus doc.dispatchStatus := by rw [hq]; exact .acknowledged
    refine ⟨.finish hopen rfl hs, ?_, fun hk => ?_, fun ho => ?_⟩
    · show (doc.dispatchStatus, e, true) ∈ stages
      rw [hq]
      rcases effectStatus_cases he ha.2.2.1 with rfl | rfl | rfl | rfl <;> decide
    · exact absurd (ha.1.kind ▸ hk) ha.2.2.1
    · have hu : e ≠ .unknown := by
        rintro rfl
        cases ho
      refine ⟨lastState, rfl, complete_of_effectStatus he hu, ?_⟩
      rw [effectStatus_congr (ha.1.trans (.merge doc _ now))]
      exact he
  | @handled e hpc =>
    rw [hpc] at ha
    unfold Execute.handlerChange
    rcases ha with ⟨hst, hq⟩ | ⟨hst, hq⟩
    · rw [hst]
      have hs : Finishes doc.dispatchStatus .notDispatched := by rw [hq]; exact .notDispatched
      exact ⟨.finish hopen rfl hs,
        @consistent_of_stage _ .notDispatched .notAttempted true rfl (by decide) rfl⟩
    · rw [hst]
      have hs : Finishes doc.dispatchStatus .outcomeUnknown := by
        rcases hq with hq | hq
        · rw [hq]; exact .unknownStarted
        · rw [hq]; exact .unknownAcknowledged
      exact ⟨.finish hopen rfl hs,
        @consistent_of_stage _ .outcomeUnknown .unknown true rfl (by decide) rfl⟩

/-- A save of a dispatch status alone leaves the document open. -/
theorem stage_merge (he : doc.effectStatus = .pending) (ht : doc.terminal = false)
    (d : DispatchStatus) (now : String) :
    (doc.merge { dispatchStatus := some d } now).stage = (d, .pending, false) := by
  show (d, doc.effectStatus, doc.terminal) = _
  rw [he, ht]

/-- A stretch takes at most one step of one row, its own. -/
theorem Stretch.tableStep (h : Stretch p t w doc i p' t' n) (hd : get t p.node w.id = some doc)
    (hf : Fits p.node w doc) (hc : Consistent doc) : TableStep p.node t t' := by
  have ha := hf.agrees
  have hpend := (hc.open_stage hf.terminal).1
  cases h with
  | @crossed op command actionId payload env hpc hs hr he hq =>
    have hs' := stage_merge hpend hf.terminal .dispatchStarted env.now
    refine .update hd (.merge _ _ _) (.cross ?_ hs') (consistent_of_stage hs' (by decide) rfl)
    unfold Operation.stage
    rw [hq, hpend, hf.terminal]
  | @acked op command response env deadline hpc hs hrej hok =>
    rw [hpc, hs] at ha
    have hq : doc.dispatchStatus = .dispatchStarted := by
      rcases ha.2.2 with ⟨h, -⟩ | ⟨-, h, -⟩
      · cases h
      · exact h
    have hs' := stage_merge hpend hf.terminal .acknowledged env.now
    refine .update hd (.merge _ _ _) (.acknowledge ?_ hs') (consistent_of_stage hs' (by decide) rfl)
    unfold Operation.stage
    rw [hq, hpend, hf.terminal]
  | saved hi hfin =>
    have hm := hfin.moves hf hc
    exact .update hd (.merge _ _ _) (hm _).1 (hm _).2
  | _ => exact .same

/-- **A worker that goes on has a row that fits the place where it is.** -/
theorem Stretch.fits {w' : Worker} (h : Stretch p t w doc i p' t' (.goes w'))
    (hd : get t p.node w.id = some doc) (hf : Fits p.node w doc) :
    w'.id = w.id ∧ ∃ doc', get t' p.node w.id = some doc' ∧ Fits p.node w' doc' := by
  have ha := hf.agrees
  cases h with
  | entered hpc hc =>
    rw [hpc] at ha
    exact ⟨rfl, doc, hd, hf.id, hf.node, hf.terminal, .refl doc, ha.1, ha.2⟩
  | gated hpc hs he hp hcmd =>
    rw [hpc] at ha
    refine ⟨rfl, doc, hd, hf.id, hf.node, hf.terminal, ha.1, ?_, Or.inl ⟨ha.2.1, ha.2.2, rfl⟩⟩
    rw [hf.node, ha.1.kind, ha.1.request]
    exact hcmd
  | session hpc hm =>
    rw [hpc] at ha
    refine ⟨rfl, doc, hd, hf.id, hf.node, hf.terminal, ha.1, ha.2.1, ?_⟩
    rcases ha.2.2 with ⟨hs, hq, hb⟩ | ⟨hs, hq, hb⟩
    · exact Or.inl ⟨hs, hq, hm.before hb⟩
    · exact Or.inr ⟨hs, hq, hm.after hb⟩
  | crossed hpc hs hr he hq =>
    rw [hpc] at ha
    exact ⟨rfl, _, get_setDocument_self hd, hf.id, hf.node, hf.terminal,
      ha.1.trans (.merge _ _ _), ha.2.1, Or.inr ⟨rfl, rfl, rfl⟩⟩
  | wrote hpc =>
    rw [hpc] at ha
    refine ⟨rfl, doc, hd, hf.id, hf.node, hf.terminal, ha.1, ha.2.1, ?_⟩
    rcases ha.2.2 with ⟨-, -, hb⟩ | ⟨hs, hq, -⟩
    · cases hb
    · exact Or.inr ⟨hs, hq, rfl⟩
  | @acked op command response env deadline hpc hs hrej hok =>
    rw [hpc] at ha
    refine ⟨rfl, _, get_setDocument_self hd, hf.id, hf.node, hf.terminal, ?_⟩
    by_cases hk : op.kind = .announce
    · simp only [if_pos hk]
      exact ⟨ha.1.trans (.merge _ _ _), hs, hk, rfl⟩
    · simp only [if_neg hk]
      exact ⟨ha.1.trans (.merge _ _ _), hs, hk, rfl⟩
  | woke hpc =>
    rw [hpc] at ha
    exact ⟨rfl, doc, hd, hf.id, hf.node, hf.terminal, ha⟩
  | slept hpc =>
    rw [hpc] at ha
    exact ⟨rfl, doc, hd, hf.id, hf.node, hf.terminal, ha⟩
  | raised hi => exact ⟨rfl, doc, hd, hf.id, hf.node, hf.terminal, ha.handler _⟩

end

end Asl3
