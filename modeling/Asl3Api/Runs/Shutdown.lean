import Asl3Api.Runs.FailStop

/-!
# Shutdown

`close` cancels every worker and waits for it. The outcome of an operation is recorded by the
handlers inside `execute`, so a worker that is cancelled before its first step records nothing.

* `Shutdown`: a process that starts, runs, is closed, and of which no save fails;
* `Draining`, `Does.draining`: a closed runtime whose workers have all entered `execute`;
* `Forgotten`, `step_forgotten`: a closed runtime whose workers have not;
* `close_forgets`: an operation that `close` leaves queued;
* **`shutdown_records`**: `close` records every outcome exactly when no worker is before its first
  step.
-/

set_option autoImplicit false

namespace Asl3

open Py Ledger

/-- No save of a worker fails in this step. -/
def Label.saves : Label → Bool
  | .worker _ i => i.commits
  | _ => true

/-- A process comes up in `s₀`, is running in `s₁`, where `close` is called, and `close` returns in
`s₂`. -/
structure Shutdown (node : String) (pre mid post : List Label) (s₀ s₁ s₂ : Sys) : Prop where
  reaches : Reaches node pre s₀
  fresh : ∃ cfg, s₀.life = .up (.fresh cfg)
  running : Lts.exec (Sys.step node) s₀ mid = some s₁
  opened : ∃ p, s₁.life = .up p ∧ p.closing = false
  returned : Lts.exec (Sys.step node) s₁ (.close :: (post ++ [.closed])) = some s₂
  alive : ∀ l ∈ mid ++ post, l.sameProcess = true ∧ l.saves = true

/-- The outcome of a row is recorded: an operation that crossed the barrier has the result of its
reply or an unknown outcome, and one that did not was not dispatched. -/
structure Recorded (es : List Event) (r : Row) : Prop where
  terminal : r.document.terminal = true
  before : .crossed r.id ∉ es → r.document.dispatchStatus = .notDispatched
  after : .crossed r.id ∈ es → r.document.dispatchStatus = .outcomeUnknown ∨
    (r.document.dispatchStatus = .rejected ∨ r.document.dispatchStatus = .acknowledged) ∧
      ∃ response, Replied es r.id response

variable {node : String} {s s' : Sys} {out : List Event} {l : Label}

/-! ## Workers that have entered `execute` -/

section

variable {p p' : Platform} {t t' : Table} {w : Worker} {doc : Operation} {i : Input} {n : Next}

theorem Stretch.entered_of_goes {w' : Worker} (h : Stretch p t w doc i p' t' (.goes w')) :
    w'.pc ≠ .created := by
  intro hpc'
  cases h with
  | acked hpc hs hrej hok =>
    dsimp only at hpc'
    split_ifs at hpc'
  | _ => cases hpc'

/-- A stretch leaves the other rows alone. -/
theorem Stretch.mem_of_ne (h : Stretch p t w doc i p' t' n) (hw : WF p.node t) {r : Row}
    (hr : r ∈ t') (hne : r.id ≠ w.id) : r ∈ t := by
  have hset : ∀ op, r ∈ setDocument t p.node w.id op → r ∈ t := by
    intro op hm
    rcases hw.setDocument_cases hm with ⟨hrt, -⟩ | ⟨q, -, hid, rfl⟩
    · exact hrt
    · exact absurd hid hne
  cases h with
  | crossed hpc hs hr' he hq => exact hset _ hr
  | acked hpc hs hrej hok => exact hset _ hr
  | saved hi hf => exact hset _ hr
  | _ => exact hr

end

/-- A closing runtime whose saves have not failed, and whose workers have entered `execute`: they
hold every open row. -/
def Draining (s : Sys) : Prop :=
  ∃ p, s.life = .up p ∧ p.closing = true ∧ p.healthy = true ∧ (∀ w ∈ p.tasks, w.pc ≠ .created) ∧
    ∀ r ∈ s.table, r.document.terminal = false → ∃ w ∈ p.tasks, w.id = r.id

/-- **A draining runtime goes on draining.** -/
theorem Does.draining (hdo : Does node s l s' out) (hi : Inv node s) (hl : l.sameProcess = true)
    (hsv : l.saves = true) (h : Draining s) : Draining s' := by
  obtain ⟨p, hp, hc, hh, hent, hcov⟩ := h
  have hrun := hi.life
  rw [hp] at hrun
  have hwf := hi.sound.wf
  obtain ⟨p₂, hp₂, hup⟩ := hdo.up hl hp
  refine ⟨p₂, hp₂, ?_⟩
  generalize s.table = t at hup hcov hrun hwf
  generalize s'.table = t₂ at hup ⊢
  cases hup with
  | idle => exact ⟨hc, hh, hent, hcov⟩
  | admitted hr =>
    rw [(requireLedger_eq_ok.mp hr).2.2.1] at hc
    cases hc
  | close hq =>
    refine ⟨rfl, hh, ?_, fun r hr hrt => ?_⟩
    · intro v hv
      obtain ⟨w, hw, rfl⟩ := List.mem_map.mp hv
      exact hent w hw
    · obtain ⟨w, hw, hid⟩ := hcov r hr hrt
      exact ⟨_, List.mem_map_of_mem hw, hid⟩
  | closed ht => exact ⟨hc, hh, hent, hcov⟩
  | @worked p' w doc i t' n ht hst =>
    have hn : p.node = node := hrun.number
    have hw : WF p.node t := hn ▸ hwf
    -- the worker holds the only row that can be open
    have honly : ∀ r ∈ t₂, r.id ≠ w.id → r.document.terminal = true := by
      intro r hr hne
      by_contra hnt
      rw [Bool.not_eq_true] at hnt
      obtain ⟨v, hv, hid⟩ := hcov r (hst.mem_of_ne hw hr hne) hnt
      rw [ht, List.mem_singleton] at hv
      exact hne (by rw [← hid, hv])
    cases n with
    | goes w' =>
      obtain ⟨rfl, hid, -, -⟩ := hst.goes
      have hts := settle_goes ht w'
      refine ⟨by rw [settle_closing, hc], by rw [settle_healthy, hh], ?_, fun r hr hrt => ?_⟩
      · intro v hv
        rw [hts, List.mem_singleton] at hv
        rw [hv]
        exact hst.entered_of_goes
      · refine ⟨w', mem_of_tasks hts, ?_⟩
        by_contra hne
        rw [honly r hr fun e => hne (hid.trans e.symm)] at hrt
        cases hrt
    | ended =>
      cases hst with
      | saved hni hfin =>
        refine ⟨by rw [settle_closing, hc], by rw [settle_healthy, hh], ?_, fun r hr hrt => ?_⟩
        · rw [settle_ended ht]
          exact fun _ hv => absurd hv List.not_mem_nil
        · rcases hw.setDocument_cases hr with ⟨-, hne⟩ | ⟨q, -, -, rfl⟩
          · rw [honly r hr hne] at hrt
            cases hrt
          · rw [show (doc.merge _ _).terminal = true by rw [merge_terminal, hfin.terminal]; rfl] at hrt
            cases hrt
      | lost hni hlost =>
        rw [show i.commits = true from hsv] at hlost
        cases hlost
    | dropped =>
      cases hst with
      | dropped hpc hcan => exact absurd hpc (hent w (mem_of_tasks ht))

/-- A runtime stays healthy while its saves do not fail. -/
theorem Does.healthy (hdo : Does node s l s' out) (hl : l.sameProcess = true)
    (hsv : l.saves = true) (h : ∃ p, s.life = .up p ∧ p.healthy = true) :
    ∃ p, s'.life = .up p ∧ p.healthy = true := by
  obtain ⟨p, hp, hh⟩ := h
  obtain ⟨p₂, hp₂, hup⟩ := hdo.up hl hp
  refine ⟨p₂, hp₂, ?_⟩
  generalize s'.table = t₂ at hup
  cases hup with
  | idle => exact hh
  | admitted hr => exact hh
  | close hq => exact hh
  | closed ht => exact hh
  | worked ht hst =>
    rcases hst.platform with rfl | ⟨-, -, hlost⟩
    · rw [settle_healthy, hh]
    · rw [show Input.commits _ = true from hsv] at hlost
      cases hlost

/-! ## Workers that have not -/

/-- A closing runtime whose workers have not entered `execute`, over the table `t`. -/
def Forgotten (t : Table) (s : Sys) : Prop :=
  s.table = t ∧ ∃ p, s.life = .up p ∧ p.closing = true ∧
    ∀ w ∈ p.tasks, w.pc = .created ∧ w.cancelling = true

/-- A worker that is cancelled before its first step takes no other step. -/
theorem step_created {p p' : Platform} {t t' : Table} {w : Worker} {i : Input} {n : Next}
    (hpc : w.pc = .created) (hc : w.cancelling = true)
    (h : Execute.step p t w i = some (p', t', n)) : p' = p ∧ t' = t ∧ n = .dropped := by
  cases i with
  | cancel =>
    simp only [Execute.step, hc, hpc] at h
    cases h
    exact ⟨rfl, rfl, rfl⟩
  | error e =>
    simp only [Execute.step, Execute.thrown, hpc] at h
    cases h
  | run env =>
    simp only [Execute.step, hc, hpc] at h
    cases h
  | snapshot o env =>
    simp only [Execute.step, hpc] at h
    cases h
  | receive r =>
    simp only [Execute.step, hpc] at h
    cases h
  | action actionId env =>
    simp only [Execute.step, hpc] at h
    cases h
  | write =>
    simp only [Execute.step, hpc] at h
    cases h

/-- **A worker that is cancelled before its first step leaves the table as it is.** -/
theorem step_forgotten {t : Table} (hl : l.sameProcess = true) (hs : s.step node l = some s')
    (h : Forgotten t s) : Forgotten t s' := by
  obtain ⟨tab, life⟩ := s
  obtain ⟨rfl, p, rfl, hc, hw⟩ := h
  cases l with
  | start cfg env => cases hl
  | crash => cases hl
  | recover env => cases hs
  | request kind request credential key env =>
    have hreq := requireLedger_stopped (Or.inr hc : p.stopped)
    have hadm : p.admitOperation tab kind request credential key env =
        (.error (.problem (if p.ledger = false ∨ p.owner = false ∨ p.closing then
          Platform.controlUnavailable else Platform.ledgerUnavailable)), p, tab) := by
      unfold Platform.admitOperation
      rw [hreq]
    simp only [Sys.step, hadm] at hs
    split_ifs at hs
    cases hs
    exact ⟨rfl, p, rfl, hc, hw⟩
  | worker id i =>
    simp only [Sys.step] at hs
    cases hrun : p.runnable id with
    | none => rw [hrun] at hs; cases hs
    | some w =>
      simp only [hrun] at hs
      have hmem : w ∈ p.tasks := by
        unfold Platform.runnable at hrun
        split_ifs at hrun
        exact List.mem_of_find?_eq_some hrun
      cases hst : Execute.step p tab w i with
      | none => rw [hst] at hs; cases hs
      | some x =>
        obtain ⟨p', t', n⟩ := x
        obtain ⟨rfl, rfl, rfl⟩ := step_created (hw w hmem).1 (hw w hmem).2 hst
        simp only [hst] at hs
        cases hs
        exact ⟨rfl, _, rfl, hc, fun v hv => hw v (List.mem_filter.mp hv).1⟩
  | close =>
    simp only [Sys.step] at hs
    split_ifs at hs
    cases hs
    refine ⟨rfl, _, rfl, rfl, fun v hv => ?_⟩
    obtain ⟨w, hmem, rfl⟩ := List.mem_map.mp hv
    exact ⟨(hw w hmem).1, rfl⟩
  | closed =>
    simp only [Sys.step] at hs
    split_ifs at hs
    cases hs
    exact ⟨rfl, _, rfl, hc, hw⟩

/-! ## The outcomes that `close` records -/

/-- A terminal row holds the outcome of its operation. -/
theorem recorded_of_terminal {ls : List Label} (h : Reaches node ls s) {r : Row} (hr : r ∈ s.table)
    (ht : r.document.terminal = true) : Recorded (history node ls) r := by
  have hsound := (reaches_inv h).sound
  have hseen := (reaches_seen h).rows r.id r.document (hsound.wf.get_row hr)
  obtain ⟨hnq, hns⟩ := (hsound.consistent r hr).closed_stage ht
  refine ⟨ht, fun hn => ?_, fun hx => ?_⟩
  · rw [hseen.crossed] at hn
    cases hd : r.document.dispatchStatus with
    | notDispatched => rfl
    | queued => exact absurd hd hnq
    | _ => rw [hd] at hn; exact absurd rfl hn
  · rw [hseen.crossed] at hx
    cases hd : r.document.dispatchStatus with
    | outcomeUnknown => exact Or.inl rfl
    | rejected =>
      obtain ⟨response, hrep, -⟩ := hseen.rejected hd
      exact Or.inr ⟨Or.inl rfl, response, hrep⟩
    | acknowledged =>
      obtain ⟨response, hrep, -⟩ := hseen.acknowledged hd
      exact Or.inr ⟨Or.inr rfl, response, hrep⟩
    | dispatchStarted => exact absurd hd hns
    | _ => rw [hd] at hx; cases hx

namespace Shutdown

variable {pre mid post : List Label} {s₀ s₁ s₂ : Sys}

theorem labels (h : Shutdown node pre mid post s₀ s₁ s₂) :
    ∀ l ∈ post ++ [.closed], l.sameProcess = true ∧ l.saves = true := by
  intro l hl
  rcases List.mem_append.mp hl with hl | hl
  · exact h.alive l (List.mem_append_right _ hl)
  · rw [List.mem_singleton.mp hl]
    exact ⟨rfl, rfl⟩

theorem reaches_running (h : Shutdown node pre mid post s₀ s₁ s₂) : Reaches node (pre ++ mid) s₁ :=
  Lts.exec_append.mpr ⟨s₀, h.reaches, h.running⟩

theorem reaches_returned (h : Shutdown node pre mid post s₀ s₁ s₂) :
    Reaches node (pre ++ mid ++ .close :: (post ++ [.closed])) s₂ :=
  Lts.exec_append.mpr ⟨s₁, h.reaches_running, h.returned⟩

/-- No save has failed when `close` is called. -/
theorem healthy (h : Shutdown node pre mid post s₀ s₁ s₂) {p : Platform} (hp : s₁.life = .up p) :
    p.healthy = true := by
  obtain ⟨cfg, hcfg⟩ := h.fresh
  obtain ⟨q, hq, hh⟩ := (Lts.exec_invariant_of (fun l => l.sameProcess = true ∧ l.saves = true)
    (fun s => Inv node s ∧ ∃ p, s.life = .up p ∧ p.healthy = true)
    ⟨reaches_inv h.reaches, _, hcfg, rfl⟩
    (fun s l s' hl hI hs => ⟨hI.1.step hs, (hI.1.does hs).healthy hl.1 hl.2 hI.2⟩)
    (fun l hl => h.alive l (List.mem_append_left _ hl)) h.running).2
  rw [hp] at hq
  cases hq
  exact hh

/-- The rows a process finds when it comes up are terminal, and stay as they are. -/
theorem terminal_of_old (h : Shutdown node pre mid post s₀ s₁ s₂) {q : Row} (hq : q ∈ s₀.table)
    {r : Row} (hr : r ∈ s₁.table) (hid : q.id = r.id) : r.document.terminal = true := by
  obtain ⟨cfg, hcfg⟩ := h.fresh
  have hi := reaches_inv h.reaches
  have hrun := hi.life
  rw [hcfg] at hrun
  have hterm := hrun.terminal rfl rfl rfl q hq
  obtain ⟨q', hq', hrow, -, hm⟩ := exec_grows hi h.running q hq
  have hsame : q' = r := by
    refine (reaches_inv h.reaches_running).sound.wf.eq_of_id hq' hr ?_
    rw [hrow]
    exact hid
  rw [← hsame, eq_of_terminal hm hterm, hterm]

/-- When every worker has entered `execute`, `close` leaves only terminal rows. -/
theorem terminal (h : Shutdown node pre mid post s₀ s₁ s₂)
    (hent : ∀ p, s₁.life = .up p → ∀ w ∈ p.tasks, w.pc ≠ .created) :
    ∀ r ∈ s₂.table, r.document.terminal = true := by
  obtain ⟨p, hp, hc⟩ := h.opened
  have hi := reaches_inv h.reaches_running
  obtain ⟨m, hclose, hpost⟩ := Lts.exec_cons.mp h.returned
  have hdrain : Draining m := by
    have hrun := hi.life
    rw [hp] at hrun
    have hcov := hrun.covered hc (h.healthy hp)
    have hh := h.healthy hp
    simp only [Sys.step, hp] at hclose
    split_ifs at hclose
    cases hclose
    refine ⟨_, rfl, rfl, hh, fun v hv => ?_, fun r hr hrt => ?_⟩
    · obtain ⟨w, hw, rfl⟩ := List.mem_map.mp hv
      exact hent p hp w hw
    · obtain ⟨w, hw, hid⟩ := hcov r hr hrt
      exact ⟨_, List.mem_map_of_mem hw, hid⟩
  have hend : Draining s₂ := (Lts.exec_invariant_of
    (fun l => l.sameProcess = true ∧ l.saves = true) (fun s => Inv node s ∧ Draining s)
    ⟨hi.step hclose, hdrain⟩
    (fun s l s' hl hI hs => ⟨hI.1.step hs, (hI.1.does hs).draining hI.1 hl.1 hl.2 hI.2⟩)
    h.labels hpost).2
  -- `close` returns when no worker is left
  obtain ⟨k, -, hclosed⟩ := Lts.exec_snoc.mp hpost
  obtain ⟨q, hq, -, -, -, hcov⟩ := hend
  have hnil : q.tasks = [] := by
    simp only [Sys.step] at hclosed
    split at hclosed
    · split_ifs at hclosed with hcond
      cases hclosed
      cases hq
      exact List.isEmpty_iff.mp hcond.2
    · cases hclosed
  intro r hr
  by_contra hnt
  rw [Bool.not_eq_true] at hnt
  obtain ⟨w, hw, -⟩ := hcov r hr hnt
  rw [hnil] at hw
  cases hw

/-- When a worker is before its first step, `close` changes no row. -/
theorem table_of_created (h : Shutdown node pre mid post s₀ s₁ s₂) {p : Platform}
    (hp : s₁.life = .up p) {w : Worker} (hw : w ∈ p.tasks) (hpc : w.pc = .created) :
    s₂.table = s₁.table := by
  have hrun := (reaches_inv h.reaches_running).life
  rw [hp] at hrun
  obtain ⟨m, hclose, hpost⟩ := Lts.exec_cons.mp h.returned
  have hforgot : Forgotten s₁.table m := by
    simp only [Sys.step, hp] at hclose
    split_ifs at hclose
    cases hclose
    refine ⟨rfl, _, rfl, rfl, fun v hv => ?_⟩
    obtain ⟨u, hu, rfl⟩ := List.mem_map.mp hv
    have huw : u = w := by
      rcases hrun.single with ht | ⟨x, ht⟩
      · rw [ht] at hw
        cases hw
      · rw [ht, List.mem_singleton] at hu hw
        rw [hu, hw]
    rw [huw]
    exact ⟨hpc, rfl⟩
  exact (Lts.exec_invariant_of (fun l => l.sameProcess = true ∧ l.saves = true)
    (Forgotten s₁.table) hforgot (fun s l s' hl hI hs => step_forgotten hl.1 hs hI) h.labels hpost).1

end Shutdown

/-- **Shutdown.** When no save fails, `close` records the outcome of every operation the process has
admitted exactly when no worker is before its first step at the call. -/
theorem shutdown_records {pre mid post : List Label} {s₀ s₁ s₂ : Sys}
    (h : Shutdown node pre mid post s₀ s₁ s₂) :
    (∀ r ∈ s₂.table, (∀ q ∈ s₀.table, q.id ≠ r.id) →
      Recorded (history node (pre ++ mid ++ .close :: (post ++ [.closed]))) r) ↔
    ∀ p, s₁.life = .up p → ∀ w ∈ p.tasks, w.pc ≠ .created := by
  constructor
  · intro hrec p hp w hw hpc
    have hi := reaches_inv h.reaches_running
    have hrun := hi.life
    rw [hp] at hrun
    obtain ⟨doc, hd, hf⟩ := hrun.fits w hw
    obtain ⟨r, hr, hid, -, rfl⟩ := row_of_get hd
    have hopen := hf.terminal
    have hr₂ : r ∈ s₂.table := by
      rw [h.table_of_created hp hw hpc]
      exact hr
    have hnew : ∀ q ∈ s₀.table, q.id ≠ r.id := by
      intro q hq he
      rw [h.terminal_of_old hq hr he] at hopen
      cases hopen
    rw [(hrec r hr₂ hnew).terminal] at hopen
    cases hopen
  · intro hent r hr _
    exact recorded_of_terminal h.reaches_returned hr (h.terminal hent r hr)

/-! ## Two shutdowns -/

/-- A process starts on the empty ledger. -/
def startRun : List Label := [.start sampleConfig {}, .recover {}]

/-- The state of that process. -/
def sampleUp : Sys := ⟨[], .up (.fresh sampleConfig)⟩

theorem reaches_sampleUp : Reaches "546051" startRun sampleUp := by
  have hv : sampleConfig.Valid ∧ sampleConfig.nodeNumber = "546051" ∧ Sys.init.locked = false := by
    decide +kernel
  refine Lts.exec_cons.mpr ⟨⟨[], .starting sampleConfig []⟩, ?_, rfl⟩
  simp only [Sys.step, if_pos hv]
  rfl

/-- The body of `execute` is entered. -/
def Pc.entered : Pc → Bool
  | .created => false
  | _ => true

/-- A run of that process that can be executed, with or without a worker before its first step when
`close` is called. -/
theorem exists_shutdown (mid post : List Label) (b : Bool)
    (stages : List (DispatchStatus × EffectStatus × Bool))
    (hmid : (Lts.exec (Sys.step "546051") sampleUp mid).map (fun s => s.upWith fun p =>
      !p.closing && (p.tasks.all fun w => w.pc.entered) == b) = some true)
    (hall : (Lts.exec (Sys.step "546051") sampleUp (mid ++ .close :: (post ++ [.closed]))).map
      (fun s => s.table.map fun r => r.document.stage) = some stages)
    (halive : ∀ l ∈ mid ++ post, l.sameProcess = true ∧ l.saves = true) :
    ∃ s₁ s₂ p, Shutdown "546051" startRun mid post sampleUp s₁ s₂ ∧ s₁.life = .up p ∧
      (p.tasks.all fun w => w.pc.entered) = b ∧
      s₂.table.map (fun r => r.document.stage) = stages := by
  obtain ⟨s₁, s₂, h₁, hr, hup, hst⟩ := Lts.exists_exec_append _ _ hmid hall
  obtain ⟨p, hp, hf⟩ := Sys.exists_up hup
  simp only [Bool.and_eq_true, Bool.not_eq_true', beq_iff_eq] at hf
  exact ⟨s₁, s₂, p, ⟨reaches_sampleUp, ⟨sampleConfig, rfl⟩, h₁, ⟨p, hp, hf.1⟩, hr, halive⟩, hp, hf.2,
    hst⟩

/-- `close` is called before the worker of an admitted announcement has taken its first step: no save
fails, and the operation stays queued. -/
theorem close_forgets :
    ∃ s₁ s₂, Shutdown "546051" startRun (admitRun.drop 2) [.worker "a1" .cancel] sampleUp s₁ s₂ ∧
      s₂.table.map (fun r => r.document.stage) = [(.queued, .pending, false)] ∧
      ¬ ∀ r ∈ s₂.table, (∀ q ∈ sampleUp.table, q.id ≠ r.id) → Recorded
        (history "546051" (startRun ++ admitRun.drop 2 ++
          .close :: ([.worker "a1" .cancel] ++ [.closed]))) r := by
  obtain ⟨s₁, s₂, -, h, -, -, hst⟩ := exists_shutdown (admitRun.drop 2) [.worker "a1" .cancel] false
    [(.queued, .pending, false)] (by decide +kernel) (by decide +kernel) (by decide)
  refine ⟨s₁, s₂, h, hst, fun hrec => ?_⟩
  obtain ⟨r, hr, hrs⟩ := List.exists_of_mem_map (hst ▸ List.mem_singleton_self _)
  have ht := (hrec r hr fun q hq => absurd hq List.not_mem_nil).terminal
  rw [show r.document.terminal = false from congrArg (fun x => x.2.2) hrs] at ht
  cases ht

/-- `close` is called while the announcement waits for its reply: the outcome is recorded as
unknown. -/
theorem shutdown_records_written :
    ∃ s₁ s₂, Shutdown "546051" startRun (writeRun.drop 2)
        [.worker "a1" .cancel, .worker "a1" (.run {}), .worker "a1" (.run {})] sampleUp s₁ s₂ ∧
      s₂.table.map (fun r => r.document.stage) = [(.outcomeUnknown, .unknown, true)] ∧
      ∀ r ∈ s₂.table, Recorded (history "546051" (startRun ++ writeRun.drop 2 ++ .close ::
        ([.worker "a1" .cancel, .worker "a1" (.run {}), .worker "a1" (.run {})] ++ [.closed]))) r := by
  obtain ⟨s₁, s₂, q, h, hq, hb, hst⟩ := exists_shutdown (writeRun.drop 2)
    [.worker "a1" .cancel, .worker "a1" (.run {}), .worker "a1" (.run {})] true
    [(.outcomeUnknown, .unknown, true)] (by decide +kernel) (by decide +kernel) (by decide)
  refine ⟨s₁, s₂, h, hst, fun r hr =>
    (shutdown_records h).mpr (fun p hp w hw hpc => ?_) r hr fun q hq => absurd hq List.not_mem_nil⟩
  rw [hp] at hq
  cases hq
  have hent := List.all_eq_true.mp hb w hw
  rw [hpc] at hent
  cases hent

end Asl3
