import Mathlib.Data.Rat.Floor
import Asl3Api.Lib.Deadline
import Asl3Api.Lib.Transition
import Asl3Api.AslAgent
import Asl3Api.Vnext.Service

/-!
# The effect check (`Platform.verify_effect`)

* `turn`, `verifyEffect`: one turn of the loop, and the loop with what it does in order;
* `verified_eq`, **`exec_verify`**: the worker of `execute` takes the same turns;
* `Course`: the snapshots and the clock around one call;
* `Settled`, **`verify_effect_settles`**: when the loop ends, and what it saves then.
-/

set_option autoImplicit false

namespace Asl3

open Py

namespace Verify

/-! ## The loop -/

/-- How a turn of the loop ends: in a save and `return`, or asleep. -/
inductive Turn where
  | save (c : Changes)
  | sleep (seconds : Rat)

/-- One turn of the loop, from its snapshot on. -/
def turn (op : Operation) (deadline : Rat) (lastState : NodeState) (currentTime : Rat) :
    Except Error Turn :=
  match effectStatus op lastState with
  | .error e => .error e
  | .ok lastEffect =>
    if lastEffect = .observedSatisfied then
      .ok (.save { effectStatus := some lastEffect, terminal := some true, evidence := some lastState })
    else if deadline ≤ currentTime then
      .ok (.save { effectStatus := some lastEffect, terminal := some true, evidence := some lastState,
                   semanticError := some (if lastEffect ≠ .unknown then
                     "EFFECT_NOT_CONFIRMED_WITHIN_OBSERVATION_WINDOW"
                     else "POST_DISPATCH_STATE_UNKNOWN") })
    else .ok (.sleep (min (1 / 2) (max 0 (deadline - currentTime))))

/-- What the loop does. -/
inductive Action where
  /-- `self.observer.snapshot()` has returned its snapshot with this number. -/
  | sampled (i : ℕ)
  /-- `asyncio.sleep`. -/
  | slept (seconds : Rat)
  /-- `self.save`. -/
  | saved (c : Changes)

/-- The `while` loop from its snapshot `i` on; nothing when the fuel runs out. -/
def loop (op : Operation) (deadline : Rat) (state : ℕ → NodeState) (time : ℕ → Rat) :
    ℕ → ℕ → Option (Except Error (List Action))
  | 0, _ => none
  | fuel + 1, i => match turn op deadline (state i) (time i) with
    | .error e => some (.error e)
    | .ok (.save c) => some (.ok [.sampled i, .saved c])
    | .ok (.sleep seconds) =>
      (loop op deadline state time fuel (i + 1)).map fun r =>
        r.map fun log => .sampled i :: .slept seconds :: log

end Verify

open Verify

/-- `verify_effect`, called at the time `start`. The snapshot `i` is there at `time i`; nothing is awaited
between that and the reading of the clock. -/
def verifyEffect (cfg : Config) (op : Operation) (start : Rat) (state : ℕ → NodeState)
    (time : ℕ → Rat) (fuel : ℕ) : Option (Except Error (List Action)) :=
  loop op (start + cfg.effectTimeout) state time fuel 0

namespace Verify

/-- The snapshots of a log, and its saves. -/
def samples (log : List Action) : List ℕ :=
  log.filterMap fun
    | .sampled i => some i
    | _ => none

def saves (log : List Action) : List Changes :=
  log.filterMap fun
    | .saved c => some c
    | _ => none

/-- The change saved for an effect and its snapshot. -/
def change (e : EffectStatus) (s : NodeState) : Changes where
  effectStatus := some e
  terminal := some true
  evidence := some s
  semanticError := if e = .observedSatisfied then none else some (if e ≠ .unknown then
    "EFFECT_NOT_CONFIRMED_WITHIN_OBSERVATION_WINDOW" else "POST_DISPATCH_STATE_UNKNOWN")

section

variable {op : Operation} {deadline now : Rat} {s : NodeState} {c : Changes} {seconds : Rat}

theorem turn_eq_save : turn op deadline s now = .ok (.save c) ↔ ∃ e, effectStatus op s = .ok e ∧
    (e = .observedSatisfied ∨ deadline ≤ now) ∧ c = change e s := by
  unfold turn
  cases he : effectStatus op s with
  | error e => simp
  | ok e =>
    dsimp only
    by_cases hs : e = .observedSatisfied
    · rw [if_pos hs]
      simp only [Except.ok.injEq, Turn.save.injEq, exists_eq_left', hs, true_or, true_and, change,
        if_true]
      exact eq_comm
    rw [if_neg hs]
    by_cases hd : deadline ≤ now
    · rw [if_pos hd]
      simp only [Except.ok.injEq, Turn.save.injEq, exists_eq_left', hd, or_true, true_and, change,
        if_neg hs]
      exact eq_comm
    · simp [hs, hd]

theorem turn_eq_sleep : turn op deadline s now = .ok (.sleep seconds) ↔
    ∃ e, effectStatus op s = .ok e ∧ e ≠ .observedSatisfied ∧ now < deadline ∧
      seconds = min (1 / 2) (deadline - now) := by
  unfold turn
  cases he : effectStatus op s with
  | error e => simp
  | ok e =>
    dsimp only
    by_cases hs : e = .observedSatisfied
    · simp [hs]
    rw [if_neg hs]
    by_cases hd : deadline ≤ now
    · simp [hd, not_lt.mpr hd]
    · have hlt := not_le.mp hd
      rw [if_neg hd, max_eq_right (by linarith)]
      simp only [Except.ok.injEq, Turn.sleep.injEq, exists_eq_left', ne_eq, hs, not_false_eq_true, hlt,
        true_and]
      exact eq_comm

end

/-! ## The worker -/

/-- **The worker takes the turns of the loop.** -/
theorem verified_eq (p : Platform) (t : Table) (w : Worker) (op : Operation) (deadline : Rat)
    (s : NodeState) (env : Env) : Execute.verified p t w op deadline s env =
      match turn op deadline s env.time with
      | .error e => Execute.raises p t w (.error e)
      | .ok (.save c) => Execute.saveAndReturn p t w op.id c env
      | .ok (.sleep _) => Execute.goesOn p t w (.sleeping op deadline) := by
  unfold Execute.verified turn
  cases effectStatus op s with
  | error e => rfl
  | ok e =>
    dsimp only
    split_ifs <;> rfl

/-- The worker alone, with the runtime and the table. -/
def workerStep (x : Platform × Table × Next) (i : Input) : Option (Platform × Table × Next) :=
  match x with
  | (p, t, .goes w) => Execute.step p t w i
  | _ => none

/-- What resumes the worker in `n` turns that sleep and the turn `i + n`. -/
def inputs (o : ℕ → Observation) (env : ℕ → Env) (i : ℕ) : ℕ → List Input
  | 0 => [.snapshot (o i) (env i)]
  | n + 1 => .snapshot (o i) (env i) :: .run (env i) :: inputs o env (i + 1) n

/-- **A worker in the effect check** ends with the save of the loop. -/
theorem exec_verify {p : Platform} {t : Table} {w : Worker} {op : Operation} {deadline : Rat}
    {o : ℕ → Observation} {env : ℕ → Env} {state : ℕ → NodeState} {n : ℕ} {c : Changes}
    (hsnap : ∀ i, Observer.snapshot p.node (o i) (env i).now (env i).uuid = .ok (state i)) (i : ℕ)
    (hsleep : ∀ k < n, ∃ d, turn op deadline (state (i + k)) (env (i + k)).time = .ok (.sleep d))
    (hsave : turn op deadline (state (i + n)) (env (i + n)).time = .ok (.save c)) :
    Lts.exec workerStep (p, t, .goes { w with pc := .verifying op deadline }) (inputs o env i n) =
      some (Execute.saveAndReturn p t { w with pc := .verifying op deadline } op.id c (env (i + n))) := by
  induction n generalizing i w with
  | zero =>
    refine Lts.exec_cons.mpr ⟨_, ?_, rfl⟩
    simp only [workerStep, Execute.step, hsnap, verified_eq]
    rw [show turn op deadline (state i) (env i).time = _ from hsave]
    rfl
  | succ n ih =>
    obtain ⟨d, hd⟩ := hsleep 0 (Nat.succ_pos n)
    refine Lts.exec_cons.mpr ⟨(p, t, .goes { w with pc := .sleeping op deadline }), ?_, ?_⟩
    · simp only [workerStep, Execute.step, hsnap, verified_eq]
      rw [show turn op deadline (state i) (env i).time = _ from hd]
      rfl
    refine Lts.exec_cons.mpr ⟨(p, t, .goes { w with pc := .verifying op deadline }), rfl, ?_⟩
    have h := ih (w := w) (i + 1) (fun k hk => by
      rw [show i + 1 + k = i + (k + 1) by omega]
      exact hsleep (k + 1) (by omega)) (by
      rw [show i + 1 + n = i + (n + 1) by omega]
      exact hsave)
    rw [show i + 1 + n = i + (n + 1) by omega] at h
    exact h

/-! ## A call -/

/-- What happens around a call: the snapshots, and a clock that does not go back and that a sleep
advances by its seconds at least. -/
structure Course (cfg : Config) (op : Operation) where
  state : ℕ → NodeState
  /-- The clock when `verify_effect` is entered, after the acknowledgement is saved. -/
  start : Rat
  /-- The clock when a snapshot is asked for. -/
  asked : ℕ → Rat
  /-- The clock when a snapshot is there. -/
  time : ℕ → Rat
  first : start ≤ asked 0
  takes : ∀ i, asked i ≤ time i
  sleeps : ∀ i seconds, turn op (start + cfg.effectTimeout) (state i) (time i) = .ok (.sleep seconds) →
    time i + seconds ≤ asked (i + 1)

variable {cfg : Config} {op : Operation}

namespace Course

/-- The time the loop gives up at. -/
def deadline (x : Course cfg op) : Rat := x.start + cfg.effectTimeout

/-- The snapshot `i` shows what the operation asks for. -/
def Satisfies (x : Course cfg op) (i : ℕ) : Prop :=
  effectStatus op (x.state i) = .ok .observedSatisfied

/-- The call saves `c` after the snapshot `n`. -/
structure Saves (x : Course cfg op) (n : ℕ) (c : Changes) : Prop where
  terminal : c.terminal = some true
  evidence : c.evidence = some (x.state n)
  /-- The effect and the error are those of the evidence. -/
  effect : ∃ e, effectStatus op (x.state n) = .ok e ∧ c = change e (x.state n)
  /-- The evidence is no older than the acknowledgement. -/
  fresh : x.start ≤ x.asked n
  /-- The loop goes on before the deadline. -/
  patient : ∀ i < n, x.time i < x.deadline
  /-- The evidence is the first snapshot that satisfies the operation, if one was taken. -/
  satisfied : (∃ i ≤ n, x.Satisfies i) →
    c.effectStatus = some .observedSatisfied ∧ x.Satisfies n ∧ ∀ i < n, ¬ x.Satisfies i
  /-- If none was, the last one has come at the deadline or later. -/
  unsatisfied : (∀ i ≤ n, ¬ x.Satisfies i) → x.deadline ≤ x.time n

end Course

/-- A link request of the routes has a mode. -/
theorem requestsMonitor_built {kind : String} (hkind : kind = "link_node")
    (hb : Built kind (.dict op.request)) : ∃ monitor, requestsMonitor op = .ok monitor := by
  generalize hr : PyValue.dict op.request = request at hb
  cases hb with
  | link body _ =>
    refine ⟨decide (body.mode.text = "monitor"), ?_⟩
    unfold requestsMonitor
    rw [PyValue.dict.inj hr]
    rfl
  | _ => exact absurd hkind (by decide)

/-- The effect of an operation that comes from the routes is decided on every snapshot. -/
theorem effectStatus_built (hb : Built op.kind.name (.dict op.request)) (s : NodeState) :
    ∃ e, effectStatus op s = .ok e := by
  unfold effectStatus
  by_cases hc : s.complete = false
  · exact ⟨_, if_pos hc⟩
  rw [if_neg hc]
  cases hk : op.kind with
  | linkNode =>
    obtain ⟨m, hm⟩ := requestsMonitor_built (by rw [hk]; rfl) hb
    dsimp only
    cases (s.directLinks.getD []).find? (isTarget op) with
    | none => exact ⟨_, rfl⟩
    | some link =>
      simp only [hm]
      exact ⟨_, rfl⟩
  | _ => exact ⟨_, rfl⟩

/-- A turn saves or sleeps. -/
theorem turn_cases (hb : Built op.kind.name (.dict op.request)) (deadline now : Rat) (s : NodeState) :
    (∃ c, turn op deadline s now = .ok (.save c)) ∨
      ∃ seconds, turn op deadline s now = .ok (.sleep seconds) := by
  obtain ⟨e, he⟩ := effectStatus_built hb s
  by_cases h : e = .observedSatisfied ∨ deadline ≤ now
  · exact .inl ⟨_, turn_eq_save.mpr ⟨e, he, h, rfl⟩⟩
  · obtain ⟨h1, h2⟩ := not_or.mp h
    exact .inr ⟨_, turn_eq_sleep.mpr ⟨e, he, h1, not_le.mp h2, rfl⟩⟩

/-- The log of the loop, when it sleeps in `n` turns and saves in the next one. -/
theorem loop_eq {deadline : Rat} {state : ℕ → NodeState} {time : ℕ → Rat} {n : ℕ} {c : Changes} (i : ℕ)
    (hsleep : ∀ k < n, ∃ d, turn op deadline (state (i + k)) (time (i + k)) = .ok (.sleep d))
    (hsave : turn op deadline (state (i + n)) (time (i + n)) = .ok (.save c)) :
    ∃ log, (∀ fuel, n < fuel → loop op deadline state time fuel i = some (.ok log)) ∧
      samples log = List.range' i (n + 1) ∧ saves log = [c] ∧ log.getLast? = some (.saved c) := by
  induction n generalizing i with
  | zero =>
    refine ⟨[.sampled i, .saved c], fun fuel hf => ?_, rfl, rfl, rfl⟩
    obtain ⟨fuel, rfl⟩ := Nat.exists_eq_succ_of_ne_zero (Nat.ne_of_gt hf)
    rw [loop, show turn op deadline (state i) (time i) = _ from hsave]
  | succ n ih =>
    have hshift : ∀ k, i + 1 + k = i + (k + 1) := fun k => by omega
    obtain ⟨d, hd⟩ := hsleep 0 (Nat.succ_pos n)
    obtain ⟨log, hlog, hsamples, hsaves, hlast⟩ := ih (i + 1)
      (fun k hk => by rw [hshift]; exact hsleep (k + 1) (by omega)) (by rw [hshift]; exact hsave)
    refine ⟨.sampled i :: .slept d :: log, fun fuel hf => ?_, ?_, ?_, ?_⟩
    · obtain ⟨fuel, rfl⟩ := Nat.exists_eq_succ_of_ne_zero (Nat.ne_of_gt (Nat.zero_lt_of_lt hf))
      rw [loop, show turn op deadline (state i) (time i) = _ from hd]
      simp only [hlog fuel (by omega), Option.map_some, Except.map]
    · rw [List.range'_succ, ← hsamples]
      rfl
    · exact hsaves
    · rw [List.getLast?_cons, List.getLast?_cons, hlast]
      rfl

namespace Course

variable (x : Course cfg op) {n : ℕ}

/-- The turn `i` does not end the loop. -/
def Sleeps (i : ℕ) : Prop := ∃ seconds, turn op x.deadline (x.state i) (x.time i) = .ok (.sleep seconds)

/-- No clock goes back while the loop sleeps. -/
theorem start_le_asked (h : ∀ i < n, x.Sleeps i) : x.start ≤ x.asked n := by
  induction n with
  | zero => exact x.first
  | succ n ih =>
    obtain ⟨seconds, hs⟩ := h n (Nat.lt_succ_self n)
    obtain ⟨-, -, -, hlt, hsec⟩ := turn_eq_sleep.mp hs
    have hpos : 0 ≤ seconds := by
      rw [hsec]
      exact le_min (by norm_num) (by linarith)
    calc x.start ≤ x.asked n := ih fun i hi => h i (by omega)
      _ ≤ x.time n := x.takes n
      _ ≤ x.time n + seconds := by linarith
      _ ≤ x.asked (n + 1) := x.sleeps n seconds hs

/-- The turns that sleep are polls before the deadline. -/
theorem paced (h : ∀ i < n, x.Sleeps i) : Polling.Paced (1 / 2) x.deadline x.time n := by
  refine ⟨fun i hi => ?_, fun i hi => ?_⟩
  · obtain ⟨_, hs⟩ := h i hi
    exact (turn_eq_sleep.mp hs).choose_spec.2.2.1
  · obtain ⟨seconds, hs⟩ := h i hi
    obtain ⟨-, -, -, -, hsec⟩ := turn_eq_sleep.mp hs
    calc min (x.time i + 1 / 2) x.deadline = x.time i + seconds := by
          rw [hsec, ← min_add_add_left, add_sub_cancel]
      _ ≤ x.asked (i + 1) := x.sleeps i seconds hs
      _ ≤ x.time (i + 1) := x.takes (i + 1)

/-- **The number of turns that sleep.** -/
theorem sleeps_le (h : ∀ i < n, x.Sleeps i) : n ≤ ⌈2 * cfg.effectTimeout⌉₊ := by
  refine ((x.paced h).count_le (by norm_num)).trans (Nat.ceil_mono ?_)
  have h0 : x.start ≤ x.time 0 := x.first.trans (x.takes 0)
  rw [div_div_eq_mul_div, div_one, deadline]
  linarith

/-- Some turn saves, after turns that sleep. -/
theorem exists_save (hb : Built op.kind.name (.dict op.request)) : ∃ n c, (∀ i < n, x.Sleeps i) ∧
    turn op x.deadline (x.state n) (x.time n) = .ok (.save c) := by
  classical
  have hex : ∃ n, ∃ c, turn op x.deadline (x.state n) (x.time n) = .ok (.save c) := by
    by_contra hno
    have hall : ∀ i, x.Sleeps i := fun i =>
      (turn_cases hb x.deadline (x.time i) (x.state i)).resolve_left fun h => hno ⟨i, h⟩
    exact absurd (x.sleeps_le (n := ⌈2 * cfg.effectTimeout⌉₊ + 1) fun i _ => hall i) (by omega)
  obtain ⟨c, hc⟩ := Nat.find_spec hex
  refine ⟨Nat.find hex, c, fun i hi => ?_, hc⟩
  exact (turn_cases hb x.deadline (x.time i) (x.state i)).resolve_left (Nat.find_min hex hi)

/-- What a turn saves after turns that sleep. -/
theorem saves_of_turn {c : Changes} (h : ∀ i < n, x.Sleeps i)
    (hc : turn op x.deadline (x.state n) (x.time n) = .ok (.save c)) : x.Saves n c := by
  obtain ⟨e, he, hend, rfl⟩ := turn_eq_save.mp hc
  have hno : ∀ i < n, ¬ x.Satisfies i := by
    intro i hi hsat
    obtain ⟨_, hs⟩ := h i hi
    obtain ⟨e', he', hne, -⟩ := turn_eq_sleep.mp hs
    rw [Satisfies, he'] at hsat
    exact hne (Except.ok.inj hsat)
  refine ⟨rfl, rfl, ⟨e, he, rfl⟩, x.start_le_asked h, (x.paced h).ahead, ?_, ?_⟩
  · rintro ⟨i, hi, hsat⟩
    obtain rfl : i = n := by
      by_contra hne
      exact hno i (by omega) hsat
    rw [Satisfies, he] at hsat
    exact ⟨congrArg some (Except.ok.inj hsat), by rw [Satisfies, he, hsat], hno⟩
  · intro hnone
    refine hend.resolve_left fun hsat => hnone n (le_refl n) ?_
    rw [Satisfies, he, hsat]

end Course

/-- **The effect check settles.** Whatever the snapshots are and whatever the clock does, the loop ends
after `⌈2T⌉ + 1` snapshots at most, with one save at its end. -/
theorem verify_effect_settles (hb : Built op.kind.name (.dict op.request)) (x : Course cfg op) :
    ∃ n log c, n + 1 ≤ ⌈2 * cfg.effectTimeout⌉₊ + 1 ∧
      (∀ fuel, ⌈2 * cfg.effectTimeout⌉₊ < fuel →
        verifyEffect cfg op x.start x.state x.time fuel = some (.ok log)) ∧
      samples log = List.range (n + 1) ∧ saves log = [c] ∧ log.getLast? = some (.saved c) ∧
      x.Saves n c := by
  obtain ⟨n, c, hsleep, hsave⟩ := x.exists_save hb
  have hn := x.sleeps_le hsleep
  have hturns : ∀ k < n, ∃ d, turn op x.deadline (x.state (0 + k)) (x.time (0 + k)) = .ok (.sleep d) := by
    intro k hk
    rw [Nat.zero_add]
    exact hsleep k hk
  obtain ⟨log, hlog, hsamples, hsaves, hlast⟩ := loop_eq 0 hturns (by rw [Nat.zero_add]; exact hsave)
  refine ⟨n, log, c, by omega, fun fuel hf => hlog fuel (by omega), ?_, hsaves, hlast,
    x.saves_of_turn hsleep hsave⟩
  rw [hsamples, List.range_eq_range']

/-- A link that is never seen: every snapshot is unknown, and each takes no time. -/
def sampleLink : Operation where
  id := "a1"
  node := "546051"
  kind := .linkNode
  request := [("node", .str "2000"), ("mode", .str "transceive")]
  credential := "operator"
  createdAt := ""
  updatedAt := ""
  dispatchStatus := .acknowledged
  effectStatus := .pending
  terminal := false

/-- The clock of that call, with the default of 8 seconds. -/
def sampleCourse : Course ⟨.dict []⟩ sampleLink where
  state _ := unknownState "546051" none "AMI_OBSERVATION_UNAVAILABLE" ""
  start := 0
  asked i := i / 2
  time i := i / 2
  first := by simp
  takes i := le_refl _
  sleeps i seconds h := by
    obtain ⟨-, -, -, -, hs⟩ := turn_eq_sleep.mp h
    have : seconds ≤ 1 / 2 := hs ▸ min_le_left _ _
    push_cast
    linarith

/-- It is given up after 17 snapshots at most. -/
theorem verify_effect_sample : ∃ n log c, n + 1 ≤ 17 ∧
    (∀ fuel, 16 < fuel → verifyEffect ⟨.dict []⟩ sampleLink 0 sampleCourse.state sampleCourse.time fuel =
      some (.ok log)) ∧ saves log = [c] ∧ sampleCourse.Saves n c := by
  have hb : Built sampleLink.kind.name (.dict sampleLink.request) :=
    .link ⟨"2000", .transceive⟩ (by decide)
  obtain ⟨n, log, c, hn, hlog, -, hsaves, -, hc⟩ := verify_effect_settles hb sampleCourse
  have hceil : ⌈2 * (Config.mk (.dict [])).effectTimeout⌉₊ = 16 := by
    rw [show (Config.mk (.dict [])).effectTimeout = 8 from rfl]
    norm_num
  rw [hceil] at hn hlog
  exact ⟨n, log, c, hn, hlog, hsaves, hc⟩

end Verify

end Asl3
