import Asl3Api.Runs.Ownership

/-!
# Many processes as one service

The runs of `Runs/System` are of one process at a time. Here they are what any number of processes on
one lock file do together to one ledger file, whatever ledger files the others have: a process has its
ledger open only while it has the control, and after `close` it leaves the table alone.

* `Released`: a runtime whose `close` has returned;
* `Does.owned`, `step_released`: what a step does to the control, and what is left without it;
* `Amounts`: the state of the service that the processes of a ledger file amount to;
* **`processes_refine`**: every interleaving of the processes is a run of the service.
-/

set_option autoImplicit false

namespace Asl3

namespace Processes

/-- `close` has returned. -/
def Released (p : Platform) : Prop := p.owner = false ∧ p.ledger = false ∧ p.tasks = []

variable {node : String}

/-- A step inside the ledger keeps the lock, or ends with `recover` or `close`. -/
theorem Does.owned {u u' : Sys} {l : Asl3.Label} {es : List Event} (h : Does node u l u' es)
    (hl : insideLedger l = true) (hlock : u.locked = true) :
    u'.locked = true ∨ u'.life = .down ∨ ∃ p, u'.life = .up p ∧ Released p := by
  have hup : ∀ {p : Platform}, u.life = .up p → p.owner = true := by
    intro p hp
    unfold Sys.locked at hlock
    rwa [hp] at hlock
  cases h with
  | idle => exact .inl hlock
  | started => cases hl
  | recovered => exact .inl rfl
  | abandoned => exact .inr (.inl rfl)
  | ready => exact .inl rfl
  | admitted hs =>
    have hown := hup hs
    exact .inl hown
  | @worked p p' w doc i t' n hs ht hd hf hst =>
    refine .inl ?_
    change (p'.settle w n).owner = true
    have hown := hup hs
    rw [settle_owner]
    rcases hst.platform with rfl | ⟨rfl, -, -⟩
    · exact hown
    · exact hown
  | close hs =>
    have hown := hup hs
    exact .inl hown
  | closed hs hc ht => exact .inr (.inr ⟨_, rfl, rfl, rfl, ht⟩)
  | crashed => cases hl

/-- **Without the control**, a runtime changes nothing. -/
theorem step_released {p : Platform} (hp : Released p) {t : Table} {u' : Sys} {l : Asl3.Label}
    (hl : insideLedger l = true) (h : Sys.step node ⟨t, .up p⟩ l = some u') :
    ∃ p', u' = ⟨t, .up p'⟩ ∧ Released p' ∧ Sys.output ⟨t, .up p⟩ l = [] := by
  obtain ⟨howner, hledger, htasks⟩ := hp
  cases l with
  | start cfg env => cases hl
  | recover env => cases h
  | request kind request credential key env =>
    have hunavailable : p.requireLedger = .error Platform.controlUnavailable :=
      if_pos (Or.inl hledger)
    simp only [Sys.step, Platform.admitOperation, hunavailable] at h
    split_ifs at h
    cases h
    exact ⟨p, rfl, ⟨howner, hledger, htasks⟩, rfl⟩
  | worker id i =>
    have hnone : p.runnable id = none := by
      unfold Platform.runnable
      rw [htasks]
      rfl
    simp only [Sys.step, hnone] at h
    cases h
  | close =>
    simp only [Sys.step] at h
    split_ifs at h
    cases h
    refine ⟨_, rfl, ⟨howner, hledger, ?_⟩, rfl⟩
    change p.tasks.map _ = []
    rw [htasks]
    rfl
  | closed =>
    simp only [Sys.step] at h
    split_ifs at h
    cases h
    exact ⟨_, rfl, ⟨rfl, rfl, htasks⟩, rfl⟩
  | crash => cases hl

variable {δ : Type*} [DecidableEq δ] {entry : String × String → δ} {e d : δ}

/-- **The service that the processes of the ledger file at `d` amount to.** Its life is the one of the
process that has the control, when that has this ledger. -/
structure Amounts (entry : String × String → δ) (node : String) (e d : δ) (s : World δ) (u : Sys) :
    Prop where
  fds : Fds s
  names : Names entry e s
  held : ∀ pid cfg fd, (s.proc pid).held = some (cfg, fd) → cfg.Valid ∧ cfg.nodeNumber = node ∧
    ∃ path, ControlOwner.lockPath cfg = some path ∧ entry path = e
  inv : Inv node u
  table : u.table = s.table d
  life : ∀ pid cfg fd life, s.proc pid = .serving cfg (some fd) life →
    ledgerFile entry cfg = some d → u.life = life ∧ u.locked = true
  free : (∀ pid cfg fd life, s.proc pid = .serving cfg (some fd) life →
    ledgerFile entry cfg ≠ some d) → u.locked = false
  released : ∀ pid cfg life, s.proc pid = .serving cfg none life → ledgerFile entry cfg = some d →
    ∃ p, life = .up p ∧ Released p

omit [DecidableEq δ] in
theorem amounts_init : Amounts entry node e d World.init Sys.init where
  fds := fds_init
  names := names_init
  held := fun _ _ _ h => nomatch h
  inv := inv_init
  table := rfl
  life := fun _ _ _ _ h _ => nomatch h
  free := fun _ => rfl
  released := fun _ _ _ h _ => nomatch h

section

variable {s s' : World δ} {u : Sys} {pid : ℕ} {p : Proc}

omit [DecidableEq δ] in
/-- What the processes hold after a step of one of them. -/
theorem Amounts.held_set (h : Amounts entry node e d s u) (hs : s'.proc = s.set pid p)
    (hp : ∀ cfg fd, p.held = some (cfg, fd) → cfg.Valid ∧ cfg.nodeNumber = node ∧
      ∃ path, ControlOwner.lockPath cfg = some path ∧ entry path = e) (x : ℕ) (cfg : Config) (fd : ℕ)
    (hx : (s'.proc x).held = some (cfg, fd)) : cfg.Valid ∧ cfg.nodeNumber = node ∧
      ∃ path, ControlOwner.lockPath cfg = some path ∧ entry path = e := by
  by_cases hxp : x = pid
  · rw [hxp, set_self hs] at hx
    exact hp cfg fd hx
  · rw [set_ne hs hxp] at hx
    exact h.held x cfg fd hx

omit [DecidableEq δ] in
/-- Two processes with control are one. -/
theorem Amounts.single (h : Amounts entry node e d s u) {x y : ℕ} {cx cy : Config} {fx fy : ℕ}
    (hx : (s.proc x).held = some (cx, fx)) (hox : (s.proc x).owns = true)
    (hy : (s.proc y).held = some (cy, fy)) (hoy : (s.proc y).owns = true) : x = y := by
  obtain ⟨-, -, px, hpx, hex⟩ := h.held x cx fx hx
  obtain ⟨-, -, py, hpy, hey⟩ := h.held y cy fy hy
  exact h.names.controls_unique h.fds ⟨hox, cx, fx, px, hx, hpx, hex⟩ ⟨hoy, cy, fy, py, hy, hpy, hey⟩

omit [DecidableEq δ] in
/-- A process that has not this ledger open, before and after its step. -/
theorem Amounts.still (h : Amounts entry node e d s u) (hs : s'.proc = s.set pid p) (hfds : Fds s')
    (hnames : Names entry e s') (ht : s'.table d = s.table d)
    (hold : ∀ cfg fd life, s.proc pid = .serving cfg (some fd) life → ledgerFile entry cfg ≠ some d)
    (hnew : ∀ cfg fd life, p = .serving cfg (some fd) life → ledgerFile entry cfg ≠ some d)
    (hrel : ∀ cfg life, p = .serving cfg none life → ledgerFile entry cfg = some d →
      ∃ q, life = .up q ∧ Released q)
    (hp : ∀ cfg fd, p.held = some (cfg, fd) → cfg.Valid ∧ cfg.nodeNumber = node ∧
      ∃ path, ControlOwner.lockPath cfg = some path ∧ entry path = e) :
    Amounts entry node e d s' u := by
  refine ⟨hfds, hnames, h.held_set hs hp, h.inv, h.table.trans ht.symm,
    fun x cfg fd life hx hd => ?_, fun hfree => h.free fun x cfg fd life hx => ?_,
    fun x cfg life hx hd => ?_⟩
  · by_cases hxp : x = pid
    · rw [hxp, set_self hs] at hx
      exact absurd hd (hnew cfg fd life hx)
    · rw [set_ne hs hxp] at hx
      exact h.life x cfg fd life hx hd
  · by_cases hxp : x = pid
    · exact hold cfg fd life (hxp ▸ hx)
    · refine hfree x cfg fd life ?_
      rw [set_ne hs hxp]
      exact hx
  · by_cases hxp : x = pid
    · rw [hxp, set_self hs] at hx
      exact hrel cfg life hx hd
    · rw [set_ne hs hxp] at hx
      exact h.released x cfg life hx hd

omit [DecidableEq δ] in
/-- A step of the process that has the control and this ledger, as a step of the service. -/
theorem Amounts.moves (h : Amounts entry node e d s u) {u' : Sys} (hs : s'.proc = s.set pid p)
    (hfds : Fds s') (hnames : Names entry e s') (hinv : Inv node u') (ht : u'.table = s'.table d)
    {cfg : Config} {fd : ℕ} (hheld : (s.proc pid).held = some (cfg, fd))
    (howns : (s.proc pid).owns = true) (hd : ledgerFile entry cfg = some d)
    (hp : (∃ life, p = .serving cfg (some fd) life ∧ u'.life = life ∧ u'.locked = true) ∨
      u'.locked = false ∧ (p = .idle ∨ ∃ life q, p = .serving cfg none life ∧ life = .up q ∧
        Released q)) : Amounts entry node e d s' u' := by
  have hother : ∀ x cx fx life, x ≠ pid → s'.proc x ≠ .serving cx (some fx) life := by
    intro x cx fx life hxp hx
    rw [set_ne hs hxp] at hx
    exact hxp (h.single (by rw [hx]; rfl) (by rw [hx]; rfl) hheld howns)
  refine ⟨hfds, hnames, h.held_set hs fun cx fx hx => ?_, hinv, ht, fun x cx fx life hx _ => ?_,
    fun hfree => ?_, fun x cx life hx hdx => ?_⟩
  · rcases hp with ⟨life, rfl, -, -⟩ | ⟨-, rfl | ⟨life, q, rfl, -, -⟩⟩
    · cases hx
      exact h.held pid _ _ hheld
    · cases hx
    · cases hx
  · by_cases hxp : x = pid
    · rw [hxp, set_self hs] at hx
      rcases hp with ⟨life', rfl, hlife, hlock⟩ | ⟨-, rfl | ⟨life', q, rfl, -, -⟩⟩
      · cases hx
        exact ⟨hlife, hlock⟩
      · cases hx
      · cases hx
    · exact absurd hx (hother x cx fx life hxp)
  · rcases hp with ⟨life, rfl, -, -⟩ | ⟨hlock, -⟩
    · exact absurd hd (hfree pid cfg fd life (set_self hs))
    · exact hlock
  · by_cases hxp : x = pid
    · rw [hxp, set_self hs] at hx
      rcases hp with ⟨life', rfl, -, -⟩ | ⟨-, rfl | ⟨life', q, rfl, hq, hr⟩⟩
      · cases hx
      · cases hx
      · cases hx
        exact ⟨q, hq, hr⟩
    · rw [set_ne hs hxp] at hx
      exact h.released x cx life hx hdx

end

/-! ## The simulation -/

section

variable {s s' : World δ} {u : Sys}

/-- A step of a process with an open ledger. -/
theorem Amounts.acts (h : Amounts entry node e d s u) {pid : ℕ} {l : Asl3.Label}
    (hfds : Fds s') (hnames : Names entry e s') (hs : step entry node s (.acts pid l) = some s') :
    ∃ ls' u', Lts.exec (Sys.step node) u ls' = some u' ∧ Amounts entry node e d s' u' ∧
      Lts.trace (Sys.step node) Sys.output u ls' = output entry d s (.acts pid l) := by
  simp only [step] at hs
  split at hs
  · rename_i cfg fd life hp
    split at hs
    · cases hs
    · rename_i d' hd'
      split_ifs at hs with hl
      split at hs
      · cases hs
      · rename_i t hstep
        by_cases hd : d' = d
        · -- the process has this ledger
          subst hd
          have hout : output entry d' s (.acts pid l) = Sys.output ⟨s.table d', life⟩ l := by
            simp only [output, hp, if_pos hd']
          cases fd with
          | none =>
            -- after `close` the ledger is left alone
            obtain ⟨q, rfl, hq⟩ := h.released pid cfg life hp hd'
            obtain ⟨q', rfl, hq', hnone⟩ := step_released hq hl hstep
            rw [show Sys.locked ⟨s.table d', .up q'⟩ = false from hq'.1] at hs
            cases hs
            refine ⟨[], u, rfl, h.still rfl hfds hnames (Function.update_self ..)
              (fun _ _ _ hx => ?_) (fun _ _ _ hx => ?_) (fun _ _ hx _ => ?_) fun _ _ hx => ?_, ?_⟩
            · rw [hp] at hx
              cases hx
            · cases hx
            · cases hx
              exact ⟨q', rfl, hq'⟩
            · cases hx
            · rw [hout, hnone]
              rfl
          | some fd =>
            obtain ⟨hlife, hlock⟩ := h.life pid cfg fd life hp hd'
            obtain rfl : u = ⟨s.table d', life⟩ := by rw [← h.table, ← hlife]
            have hrun : Lts.exec (Sys.step node) ⟨s.table d', life⟩ [l] = some t :=
              Lts.exec_cons.mpr ⟨t, hstep, rfl⟩
            have htrace : Lts.trace (Sys.step node) Sys.output ⟨s.table d', life⟩ [l] =
                output entry d' s (.acts pid l) := by
              rw [hout, Lts.trace, hstep, Option.elim_some, Lts.trace, List.append_nil]
            have hheld : (s.proc pid).held = some (cfg, fd) := by rw [hp]; rfl
            have howns : (s.proc pid).owns = true := by rw [hp]; rfl
            have hcases := Does.owned (h.inv.does hstep) hl hlock
            have hself : t.table = Function.update s.table d' t.table d' := by
              rw [Function.update_self]
            split_ifs at hs with hlocked
            · cases hs
              exact ⟨[l], t, hrun, h.moves rfl hfds hnames (h.inv.step hstep)
                hself hheld howns hd' (.inl ⟨t.life, rfl, rfl, hlocked⟩),
                htrace⟩
            · cases hs
              refine ⟨[l], t, hrun, h.moves rfl hfds hnames (h.inv.step hstep)
                hself hheld howns hd'
                (.inr ⟨Bool.eq_false_iff.mpr hlocked, ?_⟩), htrace⟩
              rcases hcases with hyes | hdown | ⟨q, hq, hr⟩
              · exact absurd hyes hlocked
              · rw [hdown]
                exact .inl rfl
              · rw [hq]
                exact .inr ⟨_, q, rfl, rfl, hr⟩
        · -- it has another one, which is none of this service
          have hne : ledgerFile entry cfg ≠ some d := by
            rw [hd']
            exact fun he => hd (Option.some.inj he)
          have hnone : output entry d s (.acts pid l) = [] := by
            simp only [output, hp, if_neg hne]
          have hold : ∀ cx fx life, s.proc pid = .serving cx (some fx) life →
              ledgerFile entry cx ≠ some d := by
            intro cx fx life' hx
            rw [hp] at hx
            cases hx
            exact hne
          have htable : Function.update s.table d' t.table d = s.table d :=
            Function.update_of_ne (Ne.symm hd) ..
          have hheld : ∀ cx fx, (Proc.serving cfg fd t.life).held = some (cx, fx) → cx.Valid ∧
              cx.nodeNumber = node ∧ ∃ path, ControlOwner.lockPath cx = some path ∧
                entry path = e := by
            intro cx fx hx
            refine h.held pid cx fx ?_
            rw [hp]
            exact hx
          split_ifs at hs with hlocked
          · cases hs
            refine ⟨[], u, rfl, h.still rfl hfds hnames htable hold (fun _ _ _ hx => ?_)
              (fun _ _ hx he => ?_) hheld, hnone.symm⟩
            · cases hx
              exact hne
            · cases hx
              exact absurd he hne
          · cases hs
            refine ⟨[], u, rfl, h.still rfl hfds hnames htable hold (fun _ _ _ hx => ?_)
              (fun _ _ hx he => ?_) (fun _ _ hx => ?_), hnone.symm⟩
            · split at hx <;> cases hx
            · split at hx
              · cases hx
              · cases hx
                exact absurd he hne
            · split at hx <;> cases hx
  · cases hs

/-- **One step of the processes** is no step of the service or one. -/
theorem Amounts.step (h : Amounts entry node e d s u) {l : Label δ}
    (hs : step entry node s l = some s') (hunlink : l ≠ .unlink e)
    (hopens : ∀ pid cfg path, l = .opens pid cfg → ControlOwner.lockPath cfg = some path →
      entry path = e) :
    ∃ ls' u', Lts.exec (Sys.step node) u ls' = some u' ∧ Amounts entry node e d s' u' ∧
      Lts.trace (Sys.step node) Sys.output u ls' = output entry d s l := by
  have hfds := h.fds.step hs
  have hnames := h.names.step h.fds hs hunlink
  cases l with
  | acts pid l => exact h.acts hfds hnames hs
  | unlink x =>
    cases hs
    exact ⟨[], u, rfl, ⟨hfds, hnames, h.held, h.inv, h.table, h.life, h.free, h.released⟩, rfl⟩
  | opens pid cfg =>
    simp only [Processes.step] at hs
    split at hs
    · rename_i path hp hpath
      split_ifs at hs with hv
      cases hs
      refine ⟨[], u, rfl, h.still rfl hfds hnames rfl (fun _ _ _ hx => ?_) (fun _ _ _ hx => ?_)
        (fun _ _ hx _ => ?_) fun _ _ hx => ?_, rfl⟩
      · rw [hp] at hx
        cases hx
      · cases hx
      · cases hx
      · cases hx
        exact ⟨hv.1, hv.2, path, hpath, hopens pid cfg path rfl hpath⟩
    · cases hs
  | flocks pid =>
    simp only [Processes.step] at hs
    split at hs
    · rename_i cfg fd hp
      have hold : ∀ cx fx life, s.proc pid = .serving cx (some fx) life →
          ledgerFile entry cx ≠ some d := by
        intro cx fx life hx
        rw [hp] at hx
        cases hx
      split at hs
      · cases hs
        refine ⟨[], u, rfl, h.still rfl hfds hnames rfl hold (fun _ _ _ hx => ?_)
          (fun _ _ hx _ => ?_) fun _ _ hx => ?_, rfl⟩
        · cases hx
        · cases hx
        · cases hx
          exact h.held pid cfg fd (by rw [hp]; rfl)
      · cases hs
        refine ⟨[], u, rfl, h.still rfl hfds hnames rfl hold (fun _ _ _ hx => ?_)
          (fun _ _ hx _ => ?_) fun _ _ hx => ?_, rfl⟩
        · cases hx
        · cases hx
        · cases hx
    · cases hs
  | ledger pid env =>
    simp only [Processes.step] at hs
    split at hs
    · rename_i cfg fd hp
      have hheld : (s.proc pid).held = some (cfg, fd) := by rw [hp]; rfl
      have howns : (s.proc pid).owns = true := by rw [hp]; rfl
      obtain ⟨hv, hn, hpath⟩ := h.held pid cfg fd hheld
      have hold : ∀ cx fx life, s.proc pid = .serving cx (some fx) life →
          ledgerFile entry cx ≠ some d := by
        intro cx fx life hx
        rw [hp] at hx
        cases hx
      split at hs
      · cases hs
      · rename_i d' hd'
        split_ifs at hs with hr
        · cases hs
          refine ⟨[], u, rfl, h.still rfl hfds hnames rfl hold (fun _ _ _ hx => ?_)
            (fun _ _ hx _ => ?_) fun _ _ hx => ?_, rfl⟩
          · cases hx
          · cases hx
          · cases hx
        · cases hs
          by_cases hd : d' = d
          · subst hd
            -- the process has the control, so no other one has its ledger open
            have hlock : u.locked = false := by
              refine h.free fun x cx fx life hx => ?_
              obtain rfl := h.single (by rw [hx]; rfl) (by rw [hx]; rfl) hheld howns
              rw [hp] at hx
              cases hx
            have hstep : Sys.step node u (.start cfg env) =
                some { u with life := .starting cfg (Ledger.documents u.table node) } := by
              simp only [Sys.step]
              rw [if_pos ⟨hv, hn, hlock⟩, if_neg hr]
            refine ⟨[.start cfg env], _, Lts.exec_cons.mpr ⟨_, hstep, rfl⟩,
              h.moves rfl hfds hnames (h.inv.step hstep) h.table hheld howns hd'
                (.inl ⟨_, rfl, ?_, rfl⟩), ?_⟩
            · rw [h.table]
            · rw [Lts.trace, hstep]
              rfl
          · have hne : ledgerFile entry cfg ≠ some d := by
              rw [hd']
              exact fun he => hd (Option.some.inj he)
            refine ⟨[], u, rfl, h.still rfl hfds hnames rfl hold (fun _ _ _ hx => ?_)
              (fun _ _ hx _ => ?_) fun _ _ hx => ?_, rfl⟩
            · cases hx
              exact hne
            · cases hx
            · cases hx
              exact ⟨hv, hn, hpath⟩
    · cases hs
  | crash pid =>
    cases hs
    by_cases hserving : ∃ cfg fd life, s.proc pid = .serving cfg (some fd) life ∧
        ledgerFile entry cfg = some d
    · obtain ⟨cfg, fd, life, hp, hd⟩ := hserving
      have hstep : Sys.step node u .crash = some { u with life := .down } := rfl
      refine ⟨[.crash], _, rfl, h.moves rfl hfds hnames (h.inv.step hstep) h.table
        (by rw [hp]; rfl) (by rw [hp]; rfl) hd (.inr ⟨rfl, .inl rfl⟩), ?_⟩
      simp only [output, hp, if_pos hd]
      rfl
    · have hold : ∀ cfg fd life, s.proc pid = .serving cfg (some fd) life →
          ledgerFile entry cfg ≠ some d := fun cfg fd life hp hd => hserving ⟨cfg, fd, life, hp, hd⟩
      have hnone : output entry d s (.crash pid) = [] := by
        simp only [output]
        split
        · rename_i cfg fd life hp
          exact if_neg (hold cfg fd life hp)
        · rfl
      refine ⟨[], u, rfl, h.still rfl hfds hnames rfl hold (fun _ _ _ hx => ?_) (fun _ _ hx _ => ?_)
        fun _ _ hx => ?_, hnone.symm⟩
      · cases hx
      · cases hx
      · cases hx

end

/-- **Every interleaving is a run of the service.** When the processes of a node share one lock file,
and nobody removes it, then whatever ledger files they have, what happens to one of these files is one
run of one process at a time, whose life is that of the process with the control when that has this
ledger. So all of them together write the control action of an operation at most once. -/
theorem processes_refine {ls : List (Label δ)} {s : World δ}
    (h : Lts.exec (step entry node) World.init ls = some s) (hunlink : .unlink e ∉ ls)
    (hopens : ∀ pid cfg path, .opens pid cfg ∈ ls → ControlOwner.lockPath cfg = some path →
      entry path = e) (d : δ) :
    (∃ ls' u, Reaches node ls' u ∧ u.table = s.table d ∧
      history node ls' = Lts.trace (step entry node) (output entry d) World.init ls ∧
      ∀ pid cfg fd life, s.proc pid = .serving cfg (some fd) life → ledgerFile entry cfg = some d →
        u.life = life) ∧
    ∀ id, writes (Lts.trace (step entry node) (output entry d) World.init ls) id ≤ 1 := by
  obtain ⟨ls', u, hu, hamounts, htrace⟩ := Lts.exec_simulate
    (fun l => l ≠ .unlink e ∧ ∀ pid cfg path, l = .opens pid cfg →
      ControlOwner.lockPath cfg = some path → entry path = e)
    (Amounts entry node e d) (fun _ _ _ _ hl hR hs => hR.step hs hl.1 hl.2)
    (fun l hl => ⟨ne_of_mem_of_not_mem hl hunlink, by
      rintro pid cfg path rfl hpath
      exact hopens pid cfg path hl hpath⟩) amounts_init h
  refine ⟨⟨ls', u, hu, hamounts.table, htrace, fun pid cfg fd life hp hd =>
    (hamounts.life pid cfg fd life hp hd).1⟩, fun id => ?_⟩
  have hseen := reaches_seen hu
  rw [show history node ls' = _ from htrace] at hseen
  cases hg : Ledger.get u.table node id with
  | none => rw [(hseen.absent id hg).2]; exact Nat.zero_le 1
  | some doc => exact (hseen.rows id doc hg).once

/-! ## A handover -/

/-- The configuration of a process with the same lock file and a ledger of its own. -/
def otherConfig : Config :=
  ⟨.dict [("node", .dict [("number", .int 546051), ("callsign", .str "KJ5IRQ")]),
    ("ami", .dict [("password", .str "secret")]), ("api", .dict [("api_key", .str "key")]),
    ("operations", .dict [("state_directory", .str "/other"),
      ("lock_directory", .str "/opt/asl3-api/state")])]⟩

/-- The first process writes an announcement and dies, and after a process with another ledger the
second one recovers it. -/
def handover : List (Label (String × String)) :=
  contest ++ [.flocks 1, .ledger 0 {}] ++ (writeRun.drop 1).map (.acts 0) ++
    [.crash 0, .opens 2 otherConfig, .flocks 2, .ledger 2 {}, .acts 2 (.recover {}), .crash 2,
      .opens 1 sampleConfig, .flocks 1, .ledger 1 {}, .acts 1 (.recover {}), .acts 1 (.recover {})]

/-- The ledger file of the first two processes, and the one of the third. -/
def handoverFile : String × String := ("/opt/asl3-api/state", "operations.sqlite3")

def otherFile : String × String := ("/other", "operations.sqlite3")

/-- The handover is a run of the service on the ledger of the two processes, where the announcement was
written once, and the ledger of the third one stays empty. -/
theorem processes_refine_handover : ∃ s ls' u ls'' v,
    Lts.exec (step id "546051") World.init handover = some s ∧
    (Reaches "546051" ls' u ∧ u.table = s.table handoverFile ∧
      (Ledger.get u.table "546051" "a1").map Operation.dispatchStatus = some .outcomeUnknown ∧
      writes (Lts.trace (step id "546051") (output id handoverFile) World.init handover) "a1" ≤ 1) ∧
    Reaches "546051" ls'' v ∧ v.table = s.table otherFile ∧ v.table = [] := by
  have hview : (Lts.exec (step id "546051") World.init handover).map (fun s =>
      ((Ledger.get (s.table handoverFile) "546051" "a1").map Operation.dispatchStatus,
        (s.table otherFile).length)) = some (some .outcomeUnknown, 0) := by decide +kernel
  have hpath : ControlOwner.lockPath sampleConfig = some contestFile := by decide +kernel
  have hother : ControlOwner.lockPath otherConfig = some contestFile := by decide +kernel
  have hopened : ∀ pid cfg, .opens pid cfg ∈ handover → cfg = sampleConfig ∨ cfg = otherConfig := by
    intro pid cfg hm
    simp [handover, contest] at hm
    tauto
  have hlock : ∀ pid cfg path, .opens pid cfg ∈ handover →
      ControlOwner.lockPath cfg = some path → path = contestFile := by
    intro pid cfg path hm hp
    rcases hopened pid cfg hm with rfl | rfl
    · rw [hpath] at hp
      exact (Option.some.inj hp).symm
    · rw [hother] at hp
      exact (Option.some.inj hp).symm
  have hunlink : .unlink contestFile ∉ handover := by
    simp [handover, contest, writeRun, commitRun, admitRun]
  obtain ⟨s, hs, hf⟩ := Option.map_eq_some_iff.mp hview
  rw [Prod.mk.injEq] at hf
  obtain ⟨⟨ls', u, hu, ht, -⟩, hw⟩ :=
    processes_refine (e := contestFile) hs hunlink hlock handoverFile
  obtain ⟨⟨ls'', v, hv, ht', -⟩, -⟩ :=
    processes_refine (e := contestFile) hs hunlink hlock otherFile
  exact ⟨s, ls', u, ls'', v, hs, ⟨hu, ht, by rw [ht]; exact hf.1, hw "a1"⟩, hv, ht',
    ht'.trans (List.length_eq_zero_iff.mp hf.2)⟩

end Processes

end Asl3
