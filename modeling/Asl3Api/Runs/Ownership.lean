import Asl3Api.Lib.Flock
import Asl3Api.Runs.History

/-!
# The processes and their lock (`ControlOwner`, `Platform.start`)

Each of any number of processes of the service opens the lock file of its node, asks for its lock, and
only with the lock opens its ledger file. The two files lie in two directories of its configuration, so
processes with one lock can have one ledger or several. They can be interrupted between any two of these
calls, they can die anywhere, and the kernel keeps the locks. Ledger files are not removed.

* `ControlOwner.lockPath`, `Ledger.path`: the files that `start` opens;
* `Proc`, `World`, `Label`, `step`: the processes, the kernel and the ledgers;
* `Moves`, `step_moves`: what a step does with the descriptors;
* `Fds`, `run_fds`: whose descriptor holds which lock;
* **`control_exclusive`**: in every interleaving one process at most has the control of a lock file, and
  the lock is refused exactly while another one has it.
-/

set_option autoImplicit false

namespace Asl3

open Py

namespace ControlOwner

/-- The directory and the name of the lock file that `start` opens; `Path` takes nothing but a text. -/
def lockPath (cfg : Config) : Option (String × String) :=
  match cfg.get "operations.state_directory" (.str "/opt/asl3-api/state") with
  | .str directory => match cfg.get "operations.lock_directory" (.str directory) with
    | .str lockDirectory => some (lockDirectory, "node-" ++ cfg.nodeNumber ++ ".lock")
    | _ => none
  | _ => none

end ControlOwner

/-- The directory and the name of the ledger file that `start` opens. -/
def Ledger.path (cfg : Config) : Option (String × String) :=
  match cfg.get "operations.state_directory" (.str "/opt/asl3-api/state") with
  | .str directory => some (directory, "operations.sqlite3")
  | _ => none

namespace Processes

/-- A process of the service. -/
inductive Proc where
  /-- It has no control and does not ask for it. -/
  | idle
  /-- `ControlOwner.__init__` has opened the lock file. -/
  | opened (cfg : Config) (fd : ℕ)
  /-- `ControlOwner.__init__` has returned. -/
  | owned (cfg : Config) (fd : ℕ)
  /-- The ledger is open; `fd` is the one of `owner`, until `close` has closed it. -/
  | serving (cfg : Config) (fd : Option ℕ) (life : Life)

namespace Proc

/-- The open descriptor of the lock file, with the configuration it was opened for. -/
def held : Proc → Option (Config × ℕ)
  | .idle => none
  | .opened cfg fd => some (cfg, fd)
  | .owned cfg fd => some (cfg, fd)
  | .serving cfg fd _ => fd.map fun fd => (cfg, fd)

/-- `ControlOwner.__init__` has returned, and `close` was not called. -/
def owns : Proc → Bool
  | .idle => false
  | .opened _ _ => false
  | .owned _ _ => true
  | .serving _ fd _ => fd.isSome

end Proc

/-- What happens next. -/
inductive Label (δ : Type*) where
  /-- A process opens its lock file. -/
  | opens (pid : ℕ) (cfg : Config)
  /-- It calls `flock`; when that fails it closes the descriptor. -/
  | flocks (pid : ℕ)
  /-- With the lock it opens the ledger, and `recover` reads it. -/
  | ledger (pid : ℕ) (env : Env)
  /-- A process with an open ledger goes on. -/
  | acts (pid : ℕ) (l : Asl3.Label)
  /-- A process dies. -/
  | crash (pid : ℕ)
  /-- Somebody removes the directory entry of a lock file. -/
  | unlink (e : δ)

/-- The kernel, the ledger files by their directory entries, and the processes. -/
structure World (δ : Type*) where
  kernel : Flock.Kernel δ
  table : δ → Table
  proc : ℕ → Proc

/-- A step of a process that has its ledger open already. -/
def insideLedger : Asl3.Label → Bool
  | .start _ _ => false
  | .crash => false
  | _ => true

/-- `ControlOwner.close`. -/
def closeOwner {δ : Type*} (k : Flock.Kernel δ) : Option ℕ → Flock.Kernel δ
  | none => k
  | some fd => k.close fd

namespace World

variable {δ : Type*}

/-- Nothing was started yet. -/
def init : World δ := ⟨.init, fun _ => [], fun _ => .idle⟩

/-- The state of one process changes. -/
def set (s : World δ) (pid : ℕ) (p : Proc) : ℕ → Proc := Function.update s.proc pid p

end World

variable {δ : Type*} [DecidableEq δ] (entry : String × String → δ) (node : String)

/-- The ledger file of a configuration; `entry` is the directory entry a path leads to. -/
def ledgerFile {δ : Type*} (entry : String × String → δ) (cfg : Config) : Option δ :=
  (Ledger.path cfg).map entry

/-- One step. -/
def step (s : World δ) : Label δ → Option (World δ)
  | .opens pid cfg => match s.proc pid, ControlOwner.lockPath cfg with
    | .idle, some path =>
      if cfg.Valid ∧ cfg.nodeNumber = node then match s.kernel.creat (entry path) with
        | (fd, k) => some { s with kernel := k, proc := s.set pid (.opened cfg fd) }
      else none
    | _, _ => none
  | .flocks pid => match s.proc pid with
    | .opened cfg fd => match s.kernel.flock fd with
      | (true, k) => some { s with kernel := k, proc := s.set pid (.owned cfg fd) }
      | (false, k) => some { s with kernel := k.close fd, proc := s.set pid .idle }
    | _ => none
  | .ledger pid env => match s.proc pid with
    | .owned cfg fd => match ledgerFile entry cfg with
      | none => none
      | some d =>
        -- the lock is given back when the ledger cannot be read
        if env.readOk = false then
          some { s with kernel := s.kernel.close fd, proc := s.set pid .idle }
        else
          some { s with
            proc := s.set pid
              (.serving cfg (some fd) (.starting cfg (Ledger.documents (s.table d) node))) }
    | _ => none
  | .acts pid l => match s.proc pid with
    | .serving cfg fd life => match ledgerFile entry cfg with
      | none => none
      | some d =>
        if insideLedger l then match Sys.step node ⟨s.table d, life⟩ l with
          | none => none
          | some t =>
            if t.locked then
              some { s with
                table := Function.update s.table d t.table, proc := s.set pid (.serving cfg fd t.life) }
            else
              -- `recover` has failed, or `close` returns
              some ⟨closeOwner s.kernel fd, Function.update s.table d t.table,
                s.set pid (match t.life with
                  | .down => .idle
                  | life' => .serving cfg none life')⟩
        else none
    | _ => none
  | .crash pid => some { s with
      kernel := closeOwner s.kernel ((s.proc pid).held.map Prod.snd), proc := s.set pid .idle }
  | .unlink e => some { s with kernel := s.kernel.unlink e }

/-- What a step is observed to do with the ledger file at `d`. -/
def output (d : δ) (s : World δ) : Label δ → List Event
  | .acts pid l => match s.proc pid with
    | .serving cfg _ life =>
      if ledgerFile entry cfg = some d then Sys.output ⟨s.table d, life⟩ l else []
    | _ => []
  | .crash pid => match s.proc pid with
    | .serving cfg (some _) _ => if ledgerFile entry cfg = some d then [.died] else []
    | _ => []
  | _ => []

/-! ## What a step does with the descriptors -/

/-- What a step of a process does with its descriptor. -/
inductive Moves (s s' : World δ) (pid : ℕ) : Prop
  /-- The lock file is opened. -/
  | opens {cfg : Config} {path : String × String} {fd : ℕ} (hp : s.proc pid = .idle)
      (hv : cfg.Valid ∧ cfg.nodeNumber = node) (hpath : ControlOwner.lockPath cfg = some path)
      (hk : s.kernel.creat (entry path) = (fd, s'.kernel)) (hs : s'.proc = s.set pid (.opened cfg fd))
  /-- The lock is granted. -/
  | granted {cfg : Config} {fd : ℕ} (hp : s.proc pid = .opened cfg fd)
      (hk : s.kernel.flock fd = (true, s'.kernel)) (hs : s'.proc = s.set pid (.owned cfg fd))
  /-- The descriptor is closed, if there is one. -/
  | released {p : Proc} (hp : p.held = none)
      (hk : s'.kernel = closeOwner s.kernel ((s.proc pid).held.map Prod.snd))
      (hs : s'.proc = s.set pid p)
  /-- The descriptor stays. -/
  | kept {p : Proc} (hp : p.held = (s.proc pid).held) (ho : p.owns = (s.proc pid).owns)
      (hk : s'.kernel = s.kernel) (hs : s'.proc = s.set pid p)

variable {entry node} {s s' : World δ} {l : Label δ}

/-- The process a step is one of. -/
def Label.pid : Label δ → Option ℕ
  | .opens pid _ => some pid
  | .flocks pid => some pid
  | .ledger pid _ => some pid
  | .acts pid _ => some pid
  | .crash pid => some pid
  | .unlink _ => none

/-- **What a step does with the descriptors.** -/
theorem step_moves {pid : ℕ} (h : step entry node s l = some s') (hl : l.pid = some pid) :
    Moves entry node s s' pid := by
  cases l with
  | unlink e => cases hl
  | opens x cfg =>
    cases hl
    simp only [step] at h
    split at h
    · split_ifs at h
      cases h
      exact .opens (by assumption) (by assumption) (by assumption) rfl rfl
    · cases h
  | flocks x =>
    cases hl
    simp only [step] at h
    split at h
    · rename_i cfg fd hp
      split at h
      · rename_i k hk
        cases h
        exact .granted hp hk rfl
      · rename_i k hk
        cases h
        refine .released rfl ?_ rfl
        have hsame := Flock.Kernel.flock_refused (congrArg Prod.fst hk)
        rw [hk] at hsame
        rw [hp]
        exact congrArg (fun k => Flock.Kernel.close k fd) hsame
    · cases h
  | ledger x env =>
    cases hl
    simp only [step] at h
    split at h
    · rename_i cfg fd hp
      split at h
      · cases h
      · split_ifs at h
        · cases h
          exact .released rfl (by rw [hp]; rfl) rfl
        · cases h
          exact .kept (by rw [hp]; rfl) (by rw [hp]; rfl) rfl rfl
    · cases h
  | acts x i =>
    cases hl
    simp only [step] at h
    split at h
    · rename_i cfg fd life hp
      split at h
      · cases h
      · split_ifs at h
        split at h
        · cases h
        · rename_i t ht
          split_ifs at h
          · cases h
            exact .kept (by rw [hp]; rfl) (by rw [hp]; rfl) rfl rfl
          · cases h
            refine .released (by split <;> rfl) ?_ rfl
            rw [hp]
            cases fd <;> rfl
    · cases h
  | crash x =>
    cases hl
    cases h
    exact .released rfl rfl rfl

/-! ## Whose descriptor holds which lock -/

/-- The descriptors of the processes and the tables of the kernel. -/
structure Fds (s : World δ) : Prop where
  sound : s.kernel.Sound
  file : ∀ pid cfg fd, (s.proc pid).held = some (cfg, fd) →
    ∃ path i, ControlOwner.lockPath cfg = some path ∧ s.kernel.file fd = some i
  apart : ∀ x y cx cy fd, (s.proc x).held = some (cx, fd) → (s.proc y).held = some (cy, fd) → x = y
  holds : ∀ pid cfg fd, (s.proc pid).held = some (cfg, fd) →
    (s.kernel.Holds fd ↔ (s.proc pid).owns = true)
  taken : ∀ fd, s.kernel.Holds fd → ∃ pid cfg, (s.proc pid).held = some (cfg, fd)

omit [DecidableEq δ] in
theorem fds_init : Fds (World.init : World δ) where
  sound := Flock.Kernel.sound_init
  file := fun _ _ _ h => nomatch h
  apart := fun _ _ _ _ _ h => nomatch h
  holds := fun _ _ _ h => nomatch h
  taken := fun _ ⟨_, h, _⟩ => nomatch h

section

variable {pid : ℕ} {p : Proc}

omit [DecidableEq δ] in
theorem set_self (hs : s'.proc = s.set pid p) : s'.proc pid = p := by
  rw [hs]
  exact Function.update_self ..

omit [DecidableEq δ] in
theorem set_ne (hs : s'.proc = s.set pid p) {x : ℕ} (hx : x ≠ pid) : s'.proc x = s.proc x := by
  rw [hs]
  exact Function.update_of_ne hx ..

omit [DecidableEq δ] in
/-- One process changes, and the kernel keeps what the others have. -/
theorem Fds.update (h : Fds s) (hs : s'.proc = s.set pid p) (hsound : s'.kernel.Sound)
    (hmine : ∀ cfg fd, p.held = some (cfg, fd) →
      (∃ path i, ControlOwner.lockPath cfg = some path ∧ s'.kernel.file fd = some i) ∧
      (s'.kernel.Holds fd ↔ p.owns = true) ∧
      ∀ x cx, x ≠ pid → (s.proc x).held ≠ some (cx, fd))
    (hother : ∀ x cx fd, x ≠ pid → (s.proc x).held = some (cx, fd) →
      s'.kernel.file fd = s.kernel.file fd ∧ (s'.kernel.Holds fd ↔ s.kernel.Holds fd))
    (htaken : ∀ fd, s'.kernel.Holds fd → (∃ cfg, p.held = some (cfg, fd)) ∨
      ∃ x cx, x ≠ pid ∧ (s.proc x).held = some (cx, fd)) : Fds s' := by
  have hcases : ∀ x cx fd, (s'.proc x).held = some (cx, fd) →
      (x = pid ∧ p.held = some (cx, fd)) ∨ x ≠ pid ∧ (s.proc x).held = some (cx, fd) := by
    intro x cx fd hx
    by_cases hxp : x = pid
    · rw [hxp, set_self hs] at hx
      exact .inl ⟨hxp, hx⟩
    · rw [set_ne hs hxp] at hx
      exact .inr ⟨hxp, hx⟩
  refine ⟨hsound, fun x cx fd hx => ?_, fun x y cx cy fd hx hy => ?_, fun x cx fd hx => ?_,
    fun fd hfd => ?_⟩
  · rcases hcases x cx fd hx with ⟨-, hp⟩ | ⟨hne, hx⟩
    · exact (hmine cx fd hp).1
    · obtain ⟨path, i, hpath, hi⟩ := h.file x cx fd hx
      exact ⟨path, i, hpath, (hother x cx fd hne hx).1.trans hi⟩
  · rcases hcases x cx fd hx with ⟨hxp, hpx⟩ | ⟨hxn, hx⟩
    · rcases hcases y cy fd hy with ⟨hyp, -⟩ | ⟨hyn, hy⟩
      · rw [hxp, hyp]
      · exact absurd hy ((hmine cx fd hpx).2.2 y cy hyn)
    · rcases hcases y cy fd hy with ⟨-, hpy⟩ | ⟨-, hy⟩
      · exact absurd hx ((hmine cy fd hpy).2.2 x cx hxn)
      · exact h.apart x y cx cy fd hx hy
  · rcases hcases x cx fd hx with ⟨rfl, hp⟩ | ⟨hne, hx⟩
    · rw [set_self hs]
      exact (hmine cx fd hp).2.1
    · rw [set_ne hs hne, (hother x cx fd hne hx).2]
      exact h.holds x cx fd hx
  · rcases htaken fd hfd with ⟨cfg, hp⟩ | ⟨x, cx, hne, hx⟩
    · exact ⟨pid, cfg, by rw [set_self hs]; exact hp⟩
    · exact ⟨x, cx, by rw [set_ne hs hne]; exact hx⟩

/-- The descriptors after a step of a process. -/
theorem Fds.moves (h : Fds s) (hm : Moves entry node s s' pid) : Fds s' := by
  cases hm with
  | @opens cfg path fd hp _ hpath hk hs =>
    have hholds : ∀ n, s'.kernel.Holds n ↔ s.kernel.Holds n := fun n => by
      have := h.sound.creat_holds (e := entry path) (n := n)
      rwa [hk] at this
    have hsound := h.sound.creat (e := entry path)
    rw [hk] at hsound
    obtain ⟨fd', i, k', hc, hnew, -, -, -, hfile, -⟩ := h.sound.creat_cases (entry path)
    rw [hk, Prod.mk.injEq] at hc
    obtain ⟨rfl, rfl⟩ := hc
    -- a descriptor of a process is for a file already
    have hfresh : ∀ x cx, (s.proc x).held ≠ some (cx, fd) := by
      intro x cx hx
      obtain ⟨-, j, -, hj⟩ := h.file x cx fd hx
      rw [hnew] at hj
      cases hj
    refine h.update hs hsound (fun cx n hn => ?_) (fun x cx n hne hx => ⟨?_, hholds n⟩)
      fun n hn => ?_
    · cases hn
      refine ⟨⟨path, i, hpath, ?_⟩, ?_, fun x cx _ => hfresh x cx⟩
      · rw [hfile]
        exact Function.update_self ..
      · rw [hholds]
        refine iff_of_false ?_ Bool.false_ne_true
        rintro ⟨j, hj, -⟩
        rw [hnew] at hj
        cases hj
    · rw [hfile]
      refine Function.update_of_ne ?_ ..
      rintro rfl
      exact hfresh x cx hx
    · obtain ⟨x, cx, hx⟩ := h.taken n ((hholds n).mp hn)
      refine .inr ⟨x, cx, ?_, hx⟩
      rintro rfl
      rw [hp] at hx
      cases hx
  | @granted cfg fd hp hk hs =>
    have hheld : (s.proc pid).held = some (cfg, fd) := by rw [hp]; rfl
    obtain ⟨path, i, hpath, hi⟩ := h.file pid cfg fd hheld
    have hfile : s'.kernel.file = s.kernel.file := by
      have : (s.kernel.flock fd).2.file = s.kernel.file := Flock.Kernel.flock_file
      rwa [hk] at this
    obtain ⟨hself, hrest⟩ := Flock.Kernel.flock_granted hi (congrArg Prod.fst hk)
    have hsound := h.sound.flock hi
    rw [hk] at hself hrest hsound
    refine h.update hs hsound (fun cx n hn => ?_) (fun x cx n hne hx => ⟨by rw [hfile], ?_⟩)
      fun n hn => ?_
    · cases hn
      refine ⟨⟨path, i, hpath, by rw [hfile]; exact hi⟩, iff_of_true hself rfl, ?_⟩
      exact fun x cx hne hx => hne (h.apart x pid cx cfg fd hx hheld)
    · exact hrest n fun hn => hne (h.apart x pid cx cfg n hx (hn ▸ hheld))
    · by_cases hnf : n = fd
      · exact .inl ⟨cfg, by rw [hnf]; rfl⟩
      · obtain ⟨x, cx, hx⟩ := h.taken n ((hrest n hnf).mp hn)
        refine .inr ⟨x, cx, ?_, hx⟩
        rintro rfl
        rw [hheld] at hx
        cases hx
        exact hnf rfl
  | @released p hp hk hs =>
    cases hheld : (s.proc pid).held with
    | none =>
      rw [hheld] at hk
      have hk : s'.kernel = s.kernel := hk
      refine h.update hs (hk ▸ h.sound) (fun cx n hn => ?_) (fun x cx n _ _ => ?_) fun n hn => ?_
      · rw [hp] at hn
        cases hn
      · rw [hk]
        exact ⟨rfl, Iff.rfl⟩
      · rw [hk] at hn
        obtain ⟨x, cx, hx⟩ := h.taken n hn
        refine .inr ⟨x, cx, ?_, hx⟩
        rintro rfl
        rw [hheld] at hx
        cases hx
    | some held =>
      obtain ⟨cfg, fd⟩ := held
      rw [hheld] at hk
      have hk : s'.kernel = s.kernel.close fd := hk
      refine h.update hs (hk ▸ h.sound.close) (fun cx n hn => ?_) (fun x cx n hne hx => ?_)
        fun n hn => ?_
      · rw [hp] at hn
        cases hn
      · have hnf : n ≠ fd := by
          rintro rfl
          exact hne (h.apart x pid cx cfg n hx hheld)
        rw [hk, Flock.Kernel.close_file hnf, Flock.Kernel.close_holds, and_iff_left hnf]
        exact ⟨rfl, Iff.rfl⟩
      · rw [hk, Flock.Kernel.close_holds] at hn
        obtain ⟨x, cx, hx⟩ := h.taken n hn.1
        refine .inr ⟨x, cx, ?_, hx⟩
        rintro rfl
        rw [hheld] at hx
        cases hx
        exact hn.2 rfl
  | @kept p hp ho hk hs =>
    refine h.update hs (hk ▸ h.sound) (fun cx n hn => ?_) (fun x cx n _ _ => ?_) fun n hn => ?_
    · rw [hp] at hn
      rw [hk, ho]
      refine ⟨h.file pid cx n hn, h.holds pid cx n hn, fun x cy hne hx => ?_⟩
      exact hne (h.apart x pid cy cx n hx hn)
    · rw [hk]
      exact ⟨rfl, Iff.rfl⟩
    · rw [hk] at hn
      obtain ⟨x, cx, hx⟩ := h.taken n hn
      by_cases hxp : x = pid
      · exact .inl ⟨cx, by rw [hp, ← hxp]; exact hx⟩
      · exact .inr ⟨x, cx, hxp, hx⟩

end

theorem Fds.step (h : Fds s) (hs : step entry node s l = some s') : Fds s' := by
  cases hl : l.pid with
  | some pid => exact h.moves (step_moves hs hl)
  | none =>
    cases l with
    | unlink e =>
      cases hs
      exact ⟨h.sound.unlink, h.file, h.apart, h.holds, h.taken⟩
    | _ => cases hl

theorem run_fds {ls : List (Label δ)} (h : Lts.exec (step entry node) World.init ls = some s) :
    Fds s :=
  Lts.exec_invariant Fds fds_init (fun _ _ _ hi hs => hi.step hs) h

/-! ## The control of a lock file -/

/-- A descriptor for a lock file whose directory entry was not removed. -/
structure Names (entry : String × String → δ) (e : δ) (s : World δ) : Prop where
  named : ∀ pid cfg fd path, (s.proc pid).held = some (cfg, fd) →
    ControlOwner.lockPath cfg = some path → entry path = e →
    ∃ i, s.kernel.inode e = some i ∧ s.kernel.file fd = some i
  origin : ∀ pid cfg fd path i, (s.proc pid).held = some (cfg, fd) →
    ControlOwner.lockPath cfg = some path → s.kernel.file fd = some i →
    s.kernel.inode e = some i → entry path = e

variable {e : δ}

omit [DecidableEq δ] in
theorem names_init : Names entry e (World.init : World δ) where
  named := fun _ _ _ _ h => nomatch h
  origin := fun _ _ _ _ _ h => nomatch h

omit [DecidableEq δ] in
/-- A process that opens nothing, and keeps its descriptor or closes it. -/
theorem Names.still (h : Names entry e s) (hinode : s'.kernel.inode = s.kernel.inode)
    (hheld : ∀ x cfg fd, (s'.proc x).held = some (cfg, fd) →
      (s.proc x).held = some (cfg, fd) ∧ s'.kernel.file fd = s.kernel.file fd) :
    Names entry e s' := by
  refine ⟨fun x cfg fd path hx hpath he => ?_, fun x cfg fd path i hx hpath hf hi => ?_⟩
  · obtain ⟨hx, hfile⟩ := hheld x cfg fd hx
    rw [hinode, hfile]
    exact h.named x cfg fd path hx hpath he
  · obtain ⟨hx, hfile⟩ := hheld x cfg fd hx
    rw [hinode] at hi
    rw [hfile] at hf
    exact h.origin x cfg fd path i hx hpath hf hi

/-- A process that opens its lock file. -/
theorem Names.opens (h : Names entry e s) (hfds : Fds s) {pid fd : ℕ} {cfg : Config}
    {path : String × String} (hpath : ControlOwner.lockPath cfg = some path)
    (hk : s.kernel.creat (entry path) = (fd, s'.kernel)) (hs : s'.proc = s.set pid (.opened cfg fd)) :
    Names entry e s' := by
  have hsound := hfds.sound.creat (e := entry path)
  rw [hk] at hsound
  obtain ⟨n, i, k', hc, hnew, -, -, -, hfile, hinode, hold, -⟩ := hfds.sound.creat_cases (entry path)
  rw [hk, Prod.mk.injEq] at hc
  obtain ⟨rfl, rfl⟩ := hc
  have hopened : s'.kernel.inode (entry path) = some i := by
    rw [hinode]
    exact Function.update_self ..
  have hself : s'.kernel.file fd = some i := by
    rw [hfile]
    exact Function.update_self ..
  -- another process has its descriptor from before
  have hother : ∀ x cx m, x ≠ pid → (s'.proc x).held = some (cx, m) →
      (s.proc x).held = some (cx, m) ∧ s'.kernel.file m = s.kernel.file m := by
    intro x cx m hne hx
    rw [set_ne hs hne] at hx
    refine ⟨hx, ?_⟩
    rw [hfile]
    refine Function.update_of_ne ?_ ..
    rintro rfl
    obtain ⟨-, j, -, hj⟩ := hfds.file x cx m hx
    rw [hnew] at hj
    cases hj
  refine ⟨fun x cx m q hx hq he => ?_, fun x cx m q j hx hq hf hj => ?_⟩
  · by_cases hxp : x = pid
    · rw [hxp, set_self hs] at hx
      cases hx
      obtain rfl : path = q := Option.some.inj (hpath.symm.trans hq)
      exact ⟨i, he ▸ hopened, hself⟩
    · obtain ⟨hx, hm⟩ := hother x cx m hxp hx
      obtain ⟨j, hj, hf⟩ := h.named x cx m q hx hq he
      refine ⟨j, ?_, hm.trans hf⟩
      by_cases hep : e = entry path
      · rcases hold with ho | ⟨ho, -⟩
        · rw [hep] at hj ⊢
          rw [hopened, ← ho, hj]
        · rw [hep, ho] at hj
          cases hj
      · rw [hinode, Function.update_of_ne hep]
        exact hj
  · by_cases hxp : x = pid
    · rw [hxp, set_self hs] at hx
      cases hx
      obtain rfl : path = q := Option.some.inj (hpath.symm.trans hq)
      obtain rfl : i = j := Option.some.inj (hself.symm.trans hf)
      exact hsound.single _ _ i hopened hj
    · obtain ⟨hx, hm⟩ := hother x cx m hxp hx
      rw [hm] at hf
      refine h.origin x cx m q j hx hq hf ?_
      by_cases hep : e = entry path
      · rw [hep, hopened] at hj
        cases hj
        rcases hold with ho | ⟨-, hge⟩
        · rw [hep]
          exact ho
        · exact absurd (hfds.sound.opened m i hf).2 (Nat.not_lt.mpr hge)
      · rw [hinode, Function.update_of_ne hep] at hj
        exact hj

theorem Names.moves (h : Names entry e s) (hfds : Fds s) {pid : ℕ} (hm : Moves entry node s s' pid) :
    Names entry e s' := by
  have hne : ∀ {p : Proc}, s'.proc = s.set pid p → ∀ x cfg fd, x ≠ pid →
      (s'.proc x).held = some (cfg, fd) → (s.proc x).held = some (cfg, fd) := by
    intro p hs x cfg fd hx hh
    rwa [set_ne hs hx] at hh
  cases hm with
  | opens _ _ hpath hk hs => exact h.opens hfds hpath hk hs
  | @granted cfg fd hp hk hs =>
    have hinode : (s.kernel.flock fd).2.inode = s.kernel.inode := Flock.Kernel.flock_inode
    have hfile : (s.kernel.flock fd).2.file = s.kernel.file := Flock.Kernel.flock_file
    rw [hk] at hinode hfile
    refine h.still hinode fun x cx n hx => ⟨?_, congrFun hfile n⟩
    by_cases hxp : x = pid
    · rw [hxp, set_self hs] at hx
      rw [hxp, hp]
      exact hx
    · exact hne hs x cx n hxp hx
  | @released p hp hk hs =>
    have hold : ∀ x cx n, (s'.proc x).held = some (cx, n) →
        x ≠ pid ∧ (s.proc x).held = some (cx, n) := by
      intro x cx n hx
      by_cases hxp : x = pid
      · rw [hxp, set_self hs, hp] at hx
        cases hx
      · exact ⟨hxp, hne hs x cx n hxp hx⟩
    cases hheld : (s.proc pid).held with
    | none =>
      rw [hheld] at hk
      exact h.still (congrArg _ hk) fun x cx n hx => ⟨(hold x cx n hx).2, by rw [hk]; rfl⟩
    | some held =>
      obtain ⟨cfg, fd⟩ := held
      rw [hheld] at hk
      have hk : s'.kernel = s.kernel.close fd := hk
      refine h.still (by rw [hk]; rfl) fun x cx n hx => ⟨(hold x cx n hx).2, ?_⟩
      rw [hk]
      refine Flock.Kernel.close_file ?_
      rintro rfl
      exact (hold x cx n hx).1 (hfds.apart x pid cx cfg n (hold x cx n hx).2 hheld)
  | @kept p hp ho hk hs =>
    refine h.still (congrArg _ hk) fun x cx n hx => ⟨?_, by rw [hk]⟩
    by_cases hxp : x = pid
    · rw [hxp, set_self hs, hp] at hx
      rw [hxp]
      exact hx
    · exact hne hs x cx n hxp hx

theorem Names.step (h : Names entry e s) (hfds : Fds s) (hs : step entry node s l = some s')
    (hl : l ≠ .unlink e) : Names entry e s' := by
  cases hp : l.pid with
  | some pid => exact h.moves hfds (step_moves hs hp)
  | none =>
    cases l with
    | unlink e' =>
      cases hs
      have hne : e ≠ e' := fun he => hl (he ▸ rfl)
      have hinode : (s.kernel.unlink e').inode e = s.kernel.inode e := Function.update_of_ne hne ..
      refine ⟨fun x cfg fd path hx hpath he => ?_, fun x cfg fd path i hx hpath hf hi => ?_⟩
      · change ∃ i, (s.kernel.unlink e').inode e = some i ∧ s.kernel.file fd = some i
        rw [hinode]
        exact h.named x cfg fd path hx hpath he
      · change (s.kernel.unlink e').inode e = some i at hi
        rw [hinode] at hi
        exact h.origin x cfg fd path i hx hpath hf hi
    | _ => cases hp

theorem run_names {ls : List (Label δ)} (h : Lts.exec (Processes.step entry node) World.init ls = some s)
    (hl : .unlink e ∉ ls) : Names entry e s := by
  refine (Lts.exec_invariant_of (fun l => l ≠ .unlink e) (fun s => Fds s ∧ Names entry e s)
    ⟨fds_init, names_init⟩ ?_ (fun l hmem => ne_of_mem_of_not_mem hmem hl) h).2
  exact fun _ _ _ hne hi hs => ⟨hi.1.step hs, hi.2.step hi.1 hs hne⟩

/-- A process has the control of the lock file at a directory entry. -/
def Controls (entry : String × String → δ) (s : World δ) (e : δ) (pid : ℕ) : Prop :=
  (s.proc pid).owns = true ∧ ∃ cfg fd path, (s.proc pid).held = some (cfg, fd) ∧
    ControlOwner.lockPath cfg = some path ∧ entry path = e

omit [DecidableEq δ] in
/-- **One process at most has the control of a lock file.** -/
theorem Names.controls_unique (h : Names entry e s) (hfds : Fds s) {x y : ℕ}
    (hx : Controls entry s e x) (hy : Controls entry s e y) : x = y := by
  obtain ⟨hox, cx, fx, px, hhx, hpx, hex⟩ := hx
  obtain ⟨hoy, cy, fy, py, hhy, hpy, hey⟩ := hy
  obtain ⟨i, hi, hfx⟩ := h.named x cx fx px hhx hpx hex
  obtain ⟨j, hj, hfy⟩ := h.named y cy fy py hhy hpy hey
  obtain rfl : i = j := Option.some.inj (hi.symm.trans hj)
  obtain rfl : fx = fy := ((hfds.holds x cx fx hhx).mpr hox).unique
    ((hfds.holds y cy fy hhy).mpr hoy) (hfx.trans hfy.symm)
  exact hfds.apart x y cx cy fx hhx hhy

/-- **The lock decides.** A process that asks for the lock gets the control exactly when no process
has it. -/
theorem Names.flocks (h : Names entry e s) (hfds : Fds s) {pid fd : ℕ} {cfg : Config}
    {path : String × String} (hp : s.proc pid = .opened cfg fd)
    (hpath : ControlOwner.lockPath cfg = some path) (he : entry path = e) :
    ∃ s', Processes.step entry node s (.flocks pid) = some s' ∧
      (Controls entry s' e pid ↔ ∀ other, ¬Controls entry s e other) := by
  have hheld : (s.proc pid).held = some (cfg, fd) := by rw [hp]; rfl
  obtain ⟨i, hi, hf⟩ := h.named pid cfg fd path hheld hpath he
  rcases hk : s.kernel.flock fd with ⟨_ | _, k⟩
  · refine ⟨_, by simp only [Processes.step, hp, hk]; rfl, iff_of_false ?_ ?_⟩
    · rintro ⟨ho, -⟩
      change (Function.update s.proc pid Proc.idle pid).owns = true at ho
      rw [Function.update_self] at ho
      cases ho
    · intro hnone
      obtain ⟨other, ho, hh, -⟩ := (hfds.sound.flock_eq_false hf).mp (congrArg Prod.fst hk)
      obtain ⟨x, cx, hx⟩ := hfds.taken other hh
      obtain ⟨q, -, hq, -⟩ := hfds.file x cx other hx
      exact hnone x ⟨(hfds.holds x cx other hx).mp hh, cx, other, q, hx, hq,
        h.origin x cx other q i hx hq ho hi⟩
  · refine ⟨_, by simp only [Processes.step, hp, hk]; rfl, iff_of_true ?_ ?_⟩
    · refine ⟨?_, cfg, fd, path, ?_, hpath, he⟩
      · change (Function.update s.proc pid (Proc.owned cfg fd) pid).owns = true
        rw [Function.update_self]
        rfl
      · change (Function.update s.proc pid (Proc.owned cfg fd) pid).held = _
        rw [Function.update_self]
        rfl
    · rintro x ⟨ho, cx, fx, q, hx, hq, hqe⟩
      obtain ⟨j, hj, hfx⟩ := h.named x cx fx q hx hq hqe
      obtain rfl : i = j := Option.some.inj (hi.symm.trans hj)
      have hrefused : (s.kernel.flock fd).1 = false := by
        refine (hfds.sound.flock_eq_false hf).mpr
          ⟨fx, hfx, (hfds.holds x cx fx hx).mpr ho, ?_⟩
        rintro rfl
        obtain rfl := hfds.apart x pid cx cfg fx hx hheld
        rw [hp] at ho
        cases ho
      rw [hk] at hrefused
      cases hrefused

/-- **Exclusive control.** As long as nobody removes the lock file, whatever the order in which
processes start, stop and die, one of them at most has the control; one that asks for the lock gets it
exactly when none has it; and with the death of the one that has it none has it. -/
theorem control_exclusive {ls : List (Label δ)}
    (h : Lts.exec (Processes.step entry node) World.init ls = some s) (hl : .unlink e ∉ ls) :
    (∀ x y, Controls entry s e x → Controls entry s e y → x = y) ∧
    (∀ pid cfg fd path, s.proc pid = .opened cfg fd → ControlOwner.lockPath cfg = some path →
      entry path = e → ∃ s', Processes.step entry node s (.flocks pid) = some s' ∧
        (Controls entry s' e pid ↔ ∀ other, ¬Controls entry s e other)) ∧
    ∀ pid, Controls entry s e pid → ∃ s', Processes.step entry node s (.crash pid) = some s' ∧
      ∀ other, ¬Controls entry s' e other := by
  have hfds := run_fds h
  have hnames := run_names h hl
  refine ⟨fun x y hx hy => hnames.controls_unique hfds hx hy,
    fun pid cfg fd path hp hpath he => hnames.flocks hfds hp hpath he,
    fun pid hpid => ⟨_, rfl, fun other hother => ?_⟩⟩
  obtain ⟨ho, cx, fx, q, hx, hq, hqe⟩ := hother
  by_cases hop : other = pid
  · change (Function.update s.proc pid Proc.idle other).owns = true at ho
    rw [hop, Function.update_self] at ho
    cases ho
  · change (Function.update s.proc pid Proc.idle other).owns = true at ho
    change (Function.update s.proc pid Proc.idle other).held = some (cx, fx) at hx
    rw [Function.update_of_ne hop] at ho hx
    exact hop (hnames.controls_unique hfds ⟨ho, cx, fx, q, hx, hq, hqe⟩ hpid)

/-! ## Two processes -/

/-- Two processes open the lock file, and the first one gets the lock. -/
def contest : List (Label (String × String)) :=
  [.opens 0 sampleConfig, .opens 1 sampleConfig, .flocks 0]

/-- The lock file of the two processes. -/
def contestFile : String × String := ("/opt/asl3-api/state", "node-546051.lock")

/-- The first process has the control, the second one is refused it. -/
theorem control_exclusive_contest :
    ∃ s s', Lts.exec (step id "546051") World.init contest = some s ∧
      step id "546051" s (.flocks 1) = some s' ∧ Controls id s contestFile 0 ∧
      ¬Controls id s' contestFile 1 := by
  have hview : (Lts.exec (step id "546051") World.init contest).map (fun s =>
      ((s.proc 0).owns, (s.proc 0).held.map (fun h => ControlOwner.lockPath h.1),
        match s.proc 1 with
        | .opened cfg _ => ControlOwner.lockPath cfg
        | _ => none)) = some (true, some (some contestFile), some contestFile) := by
    decide +kernel
  obtain ⟨s, hs, hf⟩ := Option.map_eq_some_iff.mp hview
  rw [Prod.mk.injEq, Prod.mk.injEq] at hf
  obtain ⟨howns, hheld, hopened⟩ := hf
  obtain ⟨⟨cfg, fd⟩, hh, hpath⟩ := Option.map_eq_some_iff.mp hheld
  have hfirst : Controls id s contestFile 0 := ⟨howns, cfg, fd, _, hh, hpath, rfl⟩
  split at hopened
  · rename_i cfg' fd' hp
    obtain ⟨-, hflocks, -⟩ := control_exclusive hs (by simp [contest] : .unlink contestFile ∉ contest)
    obtain ⟨s', hs', hiff⟩ := hflocks 1 cfg' fd' contestFile hp hopened rfl
    exact ⟨s, s', hs, hs', hfirst, fun hc => hiff.mp hc 0 hfirst⟩
  · cases hopened

/-- When the lock file is removed, the next process locks another file of the same name. -/
example : (Lts.exec (step id "546051") World.init
    (contest ++ [.unlink contestFile, .crash 1, .opens 1 sampleConfig, .flocks 1])).map
      (fun s => ((s.proc 0).owns, (s.proc 1).owns)) = some (true, true) := by
  decide +kernel

end Processes

end Asl3
