import Asl3Api.Runs.Admission
import Asl3Api.Runs.Stretch
import Asl3Api.Runs.System

/-!
# The invariant of the service

* `Running`: what holds of a started runtime and its table between two steps;
* `Inv`: the invariant of the system;
* `Does`, **`Inv.does`**: everything one step can do from a state with the invariant;
* **`Does.tableStep`**, `Does.inv`: it is one step of the table, and it keeps the invariant;
* **`reaches_inv`**: it holds in every state a run reaches.
-/

set_option autoImplicit false

namespace Asl3

open Py Ledger

/-! ## The invariant -/

/-- A started runtime: at most one worker, which holds the control slot and whose row is the only
one that is not terminal. -/
structure Running (node : String) (t : Table) (p : Platform) : Prop where
  valid : p.config.Valid
  number : p.node = node
  opened : p.closing = false ∨ p.tasks ≠ [] → p.owner = true ∧ p.ledger = true
  single : p.tasks = [] ∨ ∃ w, p.tasks = [w]
  slot : p.closing = false → p.busyOperationId = p.tasks.head?.map Worker.id
  fits : ∀ w ∈ p.tasks, ∃ doc, get t node w.id = some doc ∧ Fits node w doc
  covered : p.closing = false → p.healthy = true →
    ∀ r ∈ t, r.document.terminal = false → ∃ w ∈ p.tasks, w.id = r.id
  stopped : p.healthy = false → p.tasks = []
  uncommitted : p.closing = true → ∀ w ∈ p.tasks, ∀ op command actionId payload,
    w.pc ≠ .dispatching op command (.committed actionId payload)
  cancelling : ∀ w ∈ p.tasks, w.cancelling = p.closing

/-- What holds of the process. -/
def LifeOk (node : String) (t : Table) : Life → Prop
  | .down => True
  | .starting cfg todo => cfg.Valid ∧ cfg.nodeNumber = node ∧ (todo.map Operation.id).Nodup ∧
      (∀ op ∈ todo, get t node op.id = some op) ∧
      ∀ r ∈ t, r.document.terminal = false → r.document ∈ todo
  | .up p => Running node t p

/-- The invariant of the system. -/
structure Inv (node : String) (s : Sys) : Prop where
  sound : Sound node s.table
  life : LifeOk node s.table s.life

variable {node : String} {t t' : Table} {p p' : Platform}

theorem inv_init : Inv node Sys.init := ⟨Sound.nil, trivial⟩

/-! ## Start and recovery -/

theorem documents_eq (h : WF node t) : documents t node = t.map Row.document := by
  unfold documents
  rw [List.filter_eq_self.mpr fun r hr => by simp [(h.agrees r hr).node]]

theorem lifeOk_documents (h : WF node t) {cfg : Config} (hv : cfg.Valid)
    (hn : cfg.nodeNumber = node) : LifeOk node t (.starting cfg (documents t node)) := by
  rw [documents_eq h]
  refine ⟨hv, hn, ?_, ?_, fun r hr _ => List.mem_map_of_mem hr⟩
  · rw [List.map_map]
    have e : t.map (Operation.id ∘ Row.document) = t.map Row.id :=
      List.map_congr_left fun r hr => (h.agrees r hr).documentId
    rw [e]
    exact h.nodup
  · intro op hop
    obtain ⟨r, hr, rfl⟩ := List.mem_map.mp hop
    rw [(h.agrees r hr).documentId]
    exact h.get_row hr

/-- What recovery makes of an unfinished document is its last step. -/
theorem moves_recoveryChange {op : Operation} (hc : Consistent op) (ht : op.terminal = false)
    (now : String) : Moves op (op.merge (recoveryChange op) now) ∧
      Consistent (op.merge (recoveryChange op) now) := by
  obtain ⟨hp, hs⟩ := hc.open_stage ht
  unfold recoveryChange
  by_cases hq : op.dispatchStatus = .queued
  · rw [if_neg (not_not.mpr hq)]
    have hf : Finishes op.dispatchStatus .notDispatched := by rw [hq]; exact .notDispatched
    exact ⟨.finish ⟨hp, ht⟩ rfl hf,
      @consistent_of_stage _ .notDispatched .notAttempted true rfl (by decide) rfl⟩
  · rw [if_pos hq]
    have hf : Finishes op.dispatchStatus .outcomeUnknown := by
      rcases hs with hs | hs | hs
      · exact absurd hs hq
      · rw [hs]; exact .unknownStarted
      · rw [hs]; exact .unknownAcknowledged
    exact ⟨.finish ⟨hp, ht⟩ rfl hf,
      @consistent_of_stage _ .outcomeUnknown .unknown true rfl (by decide) rfl⟩

/-- One turn of the loop of `recover`: skip, rewrite the row, or fail. -/
theorem recoverRow_cases {op : Operation} (hd : get t node op.id = some op) {env : Env}
    {r : Except Error Unit} (h : recoverRow t node op env = (r, t')) :
    (op.terminal = true ∧ r = .ok () ∧ t' = t) ∨
      (op.terminal = false ∧ r = .ok () ∧
        t' = setDocument t node op.id (op.merge (recoveryChange op) env.now)) ∨
      (∃ e, r = .error e) ∧ t' = t := by
  unfold recoverRow at h
  by_cases ht : op.terminal = true
  · rw [if_pos ht] at h
    cases h
    exact Or.inl ⟨ht, rfl, rfl⟩
  rw [if_neg ht, update_of_get hd] at h
  rw [Bool.not_eq_true] at ht
  by_cases hc : env.commitOk = true
  · simp only [if_pos hc] at h
    cases h
    exact Or.inr (Or.inl ⟨ht, rfl, rfl⟩)
  · simp only [if_neg hc] at h
    cases h
    exact Or.inr (Or.inr ⟨⟨_, rfl⟩, rfl⟩)

/-- The documents that are left after one of them is rewritten or skipped. -/
theorem lifeOk_recovered {cfg : Config} {op : Operation} {todo : List Operation}
    (hw : WF node t) (h : LifeOk node t (.starting cfg (op :: todo)))
    (ht' : t' = t ∧ op.terminal = true ∨
      ∃ op', t' = setDocument t node op.id op' ∧ op'.terminal = true) :
    LifeOk node t' (.starting cfg todo) := by
  obtain ⟨hv, hn, hnd, hget, hopen⟩ := h
  rw [List.map_cons, List.nodup_cons] at hnd
  have hd := hget op List.mem_cons_self
  rcases ht' with ⟨rfl, hterm⟩ | ⟨op', rfl, hterm⟩
  · refine ⟨hv, hn, hnd.2, fun x hx => hget x (List.mem_cons_of_mem _ hx), fun r hr hrt => ?_⟩
    rcases List.mem_cons.mp (hopen r hr hrt) with e | hmem
    · rw [e, hterm] at hrt
      cases hrt
    · exact hmem
  · refine ⟨hv, hn, hnd.2, fun x hx => ?_, fun r' hr' hrt => ?_⟩
    · have hne : x.id ≠ op.id := fun e => hnd.1 (e ▸ List.mem_map_of_mem hx)
      rw [get_setDocument hd, if_neg hne]
      exact hget x (List.mem_cons_of_mem _ hx)
    · rcases hw.setDocument_cases hr' with ⟨hr, hne⟩ | ⟨r, -, -, rfl⟩
      · rcases List.mem_cons.mp (hopen r' hr hrt) with e | hmem
        · exact absurd (by rw [← e, (hw.agrees r' hr).documentId]) hne
        · exact hmem
      · rw [hterm] at hrt
        cases hrt

/-! ## The cases of a step -/

/-- What one step of the system can do. -/
inductive Does (node : String) (s : Sys) : Label → Sys → List Event → Prop
  | idle {l : Label} (hq : ∀ p, s.life = .up p → p.quiet = true) : Does node s l s []
  | started {cfg : Config} {env : Env} (hv : cfg.Valid) (hn : cfg.nodeNumber = node)
      (hl : s.locked = false) :
      Does node s (.start cfg env) ⟨s.table, .starting cfg (documents s.table node)⟩ []
  | recovered {cfg : Config} {op : Operation} {todo : List Operation} {env : Env} {t' : Table}
      (hs : s.life = .starting cfg (op :: todo)) (hd : get s.table node op.id = some op)
      (ht : t' = s.table ∧ op.terminal = true ∨ op.terminal = false ∧
        t' = setDocument s.table node op.id (op.merge (recoveryChange op) env.now)) :
      Does node s (.recover env) ⟨t', .starting cfg todo⟩ []
  | abandoned {cfg : Config} {todo : List Operation} {env : Env} (hs : s.life = .starting cfg todo) :
      Does node s (.recover env) ⟨s.table, .down⟩ []
  | ready {cfg : Config} {env : Env} (hs : s.life = .starting cfg []) :
      Does node s (.recover env) ⟨s.table, .up (.fresh cfg)⟩ []
  | admitted {p : Platform} {kind credential : String} {request : PyValue} {key : Option String}
      {env : Env} {op : Operation} (hs : s.life = .up p) (hr : p.requireLedger = .ok ())
      (ht : p.tasks = []) (hnew : newOperation node kind request credential env = .ok op)
      (hx : existing s.table node kind request credential key = .ok none)
      (hv : violates s.table (newRow node kind request credential key op) = false) :
      Does node s (.request kind request credential key env)
        ⟨s.table ++ [newRow node kind request credential key op],
          .up { p with busyOperationId := some op.id, tasks := [Platform.newWorker op.id] }⟩ []
  | worked {p p' : Platform} {w : Worker} {doc : Operation} {i : Input} {t' : Table} {n : Next}
      (hs : s.life = .up p) (ht : p.tasks = [w]) (hd : get s.table node w.id = some doc)
      (hf : Fits node w doc) (hst : Stretch p s.table w doc i p' t' n) :
      Does node s (.worker w.id i) ⟨t', .up (p'.settle w n)⟩ (Execute.output p w i n)
  | close {p : Platform} (hs : s.life = .up p) (hq : p.quiet = true) :
      Does node s .close ⟨s.table, .up p.close⟩ []
  | closed {p : Platform} (hs : s.life = .up p) (hc : p.closing = true) (ht : p.tasks = []) :
      Does node s .closed ⟨s.table, .up p.closed⟩ []
  | crashed : Does node s .crash ⟨s.table, .down⟩ [.died]

/-- The answer to a request that admits nothing: the operation of its key, or an error, which is a
conflict only when the key has an operation. -/
def Answered (node : String) (t : Table) (credential : String) (key : Option String) :
    Except Error Operation → Prop
  | .ok op => ∃ k row, key = some k ∧ keyRow t node credential k = some row ∧ op = row.document
  | .error (.problem e) => e.code = "IDEMPOTENCY_CONFLICT" →
      ∃ k row, key = some k ∧ keyRow t node credential k = some row
  | .error _ => True

theorem Unadmitted.answered {kind credential : String} {request : PyValue} {key : Option String}
    {env : Env} {r : Except Error Operation}
    (h : Unadmitted p t kind request credential key env r) :
    Answered p.node t credential key r := by
  cases h with
  | stored hk hrow hc => exact ⟨_, _, hk, hrow, rfl⟩
  | refused h =>
    cases h with
    | unavailable h =>
      unfold Platform.requireLedger at h
      split_ifs at h <;> cases h <;> exact fun he => absurd he (by decide)
    | unsupported h =>
      rename_i e
      cases e with
      | problem e => exact fun he => absurd he (by rw [commandFor_problem h]; decide)
      | protocol text => trivial
      | py e => trivial
    | conflict h hs hc =>
      obtain ⟨row, hmem, hn, hcr, rfl, hne, -⟩ := h
      obtain ⟨k, hk⟩ := Option.ne_none_iff_exists'.mp hne
      obtain ⟨x, hx⟩ := exists_keyRow hmem hk
      rw [hn, hcr] at hx
      exact fun _ => ⟨k, x, hk, hx⟩
    | busy h => exact fun he => absurd he (by decide)
    | malformed h => trivial
    | sqlite => trivial

/-- What a request does: nothing, or the admission of one operation into the free slot. -/
theorem requested_cases (hr : Running node t p) {kind credential : String} {request : PyValue}
    {key : Option String} {env : Env} {r : Except Error Operation}
    (h : p.admitOperation t kind request credential key env = (r, p', t')) :
    (p' = p ∧ t' = t ∧ Answered node t credential key r) ∨
      ∃ op, r = .ok op ∧ p.requireLedger = .ok () ∧ p.tasks = [] ∧
      newOperation node kind request credential env = .ok op ∧
      existing t node kind request credential key = .ok none ∧
      violates t (newRow node kind request credential key op) = false ∧
      p' = { p with busyOperationId := some op.id, tasks := [Platform.newWorker op.id] } ∧
      t' = t ++ [newRow node kind request credential key op] := by
  rw [← hr.number]
  rcases admit_cases h with ⟨op, rfl, hreq, hb, hnew, hx, hv, rfl, rfl⟩ | ⟨rfl, rfl, hu⟩
  · -- a free slot has no worker
    have htasks : p.tasks = [] := by
      have hslot := hr.slot (requireLedger_eq_ok.mp hreq).2.2.1
      rw [hb] at hslot
      rcases hr.single with ht | ⟨w, ht⟩
      · exact ht
      · rw [ht] at hslot
        cases hslot
    rw [htasks]
    exact Or.inr ⟨op, rfl, hreq, rfl, hnew, hx, hv, rfl, rfl⟩
  · exact Or.inl ⟨rfl, rfl, hu.answered⟩

theorem runnable_single {w v : Worker} {id : String} (ht : p.tasks = [w])
    (h : p.runnable id = some v) : v = w ∧ w.id = id := by
  unfold Platform.runnable at h
  rw [ht] at h
  split_ifs at h
  by_cases hid : w.id = id
  · simp only [List.find?_cons, hid, decide_true] at h
    exact ⟨(Option.some.inj h).symm, hid⟩
  · simp [hid] at h

/-- **Every step from a state with the invariant is one of the cases.** -/
theorem Inv.does {s s' : Sys} {l : Label} (h : Inv node s) (hs : s.step node l = some s') :
    Does node s l s' (s.output l) := by
  obtain ⟨t, life⟩ := s
  have hlife := h.life
  cases l with
  | start cfg env =>
    by_cases hg : cfg.Valid ∧ cfg.nodeNumber = node ∧ Sys.locked ⟨t, life⟩ = false
    · simp only [Sys.step, if_pos hg] at hs
      by_cases hr : env.readOk = false
      · rw [if_pos hr] at hs
        cases hs
        refine .idle fun p hp => ?_
        -- without the lock there is no worker
        have hno : p.tasks = [] := by
          by_contra hne
          have hlock := hg.2.2
          simp only at hp
          rw [hp] at hlock hlife
          have hown := (hlife.opened (Or.inr hne)).1
          rw [show Sys.locked ⟨t, .up p⟩ = p.owner from rfl, hown] at hlock
          cases hlock
        unfold Platform.quiet
        rw [hno]
        rfl
      · rw [if_neg hr] at hs
        cases hs
        exact .started hg.1 hg.2.1 hg.2.2
    · simp only [Sys.step, if_neg hg] at hs
      cases hs
  | recover env =>
    cases life with
    | down => cases hs
    | up p => cases hs
    | starting cfg todo =>
      cases todo with
      | nil => cases hs; exact .ready rfl
      | cons op todo =>
        have hd := hlife.2.2.2.1 op List.mem_cons_self
        cases hrec : recoverRow t node op env with
        | mk r t₁ =>
          simp only [Sys.step, hrec] at hs
          rcases recoverRow_cases hd hrec with ⟨ht, rfl, rfl⟩ | ⟨ht, rfl, rfl⟩ | ⟨⟨e, rfl⟩, rfl⟩
          · cases hs
            exact .recovered rfl hd (Or.inl ⟨rfl, ht⟩)
          · cases hs
            exact .recovered rfl hd (Or.inr ⟨ht, rfl⟩)
          · cases hs
            exact .abandoned rfl
  | request kind request credential key env =>
    cases life with
    | down => cases hs
    | starting cfg todo => cases hs
    | up p =>
      by_cases hq : p.quiet = true
      · cases hadm : p.admitOperation t kind request credential key env with
        | mk r pt =>
          obtain ⟨p₁, t₁⟩ := pt
          simp only [Sys.step, if_pos hq, hadm] at hs
          cases hs
          rcases requested_cases hlife hadm with ⟨rfl, rfl, -⟩ | ⟨op, -, hr, ht, hnew, hx, hv, rfl, rfl⟩
          · refine .idle fun q hqs => ?_
            cases hqs
            exact hq
          · exact .admitted rfl hr ht hnew hx hv
      · simp only [Sys.step, if_neg hq] at hs
        cases hs
  | worker id i =>
    cases life with
    | down => cases hs
    | starting cfg todo => cases hs
    | up p =>
      simp only [Sys.step] at hs
      cases hrun : p.runnable id with
      | none => simp only [hrun] at hs; cases hs
      | some v =>
        simp only [hrun] at hs
        cases hstep : Execute.step p t v i with
        | none => simp only [hstep] at hs; cases hs
        | some res =>
          obtain ⟨p₁, t₁, n⟩ := res
          simp only [hstep] at hs
          cases hs
          rcases hlife.single with ht | ⟨w, ht⟩
          · unfold Platform.runnable at hrun
            rw [ht] at hrun
            split_ifs at hrun
            cases hrun
          obtain ⟨rfl, rfl⟩ := runnable_single ht hrun
          obtain ⟨doc, hd, hf⟩ := hlife.fits v (by rw [ht]; exact List.mem_singleton_self v)
          have hn : p.node = node := hlife.number
          have hl : p.ledger = true := (hlife.opened (Or.inr (by rw [ht]; simp))).2
          have hst := stretch_of_step hl (hn ▸ hd) (hn ▸ hf) hstep
          have hout : Sys.output ⟨t, .up p⟩ (.worker v.id i) = Execute.output p v i n := by
            simp only [Sys.output, hrun, hstep]
          rw [hout]
          exact .worked rfl ht hd hf hst
  | close =>
    cases life with
    | down => cases hs
    | starting cfg todo => cases hs
    | up p =>
      simp only [Sys.step] at hs
      split_ifs at hs with hq
      cases hs
      exact .close rfl hq
  | closed =>
    cases life with
    | down => cases hs
    | starting cfg todo => cases hs
    | up p =>
      simp only [Sys.step] at hs
      split_ifs at hs with hq
      cases hs
      exact .closed rfl hq.1 (List.isEmpty_iff.mp hq.2)
  | crash => cases hs; exact .crashed

/-! ## Every step keeps the invariant -/

theorem agrees_newRow {kind credential : String} {request : PyValue} {env : Env} {op : Operation}
    (h : newOperation node kind request credential env = .ok op) (key : Option String) :
    Row.Agrees node (newRow node kind request credential key op) ∧ op.Admitted := by
  obtain ⟨hk, hr, -, hn, hc, hq, he, ht, -⟩ := newOperation_eq_ok h
  refine ⟨⟨rfl, rfl, hn, hc, ?_⟩, ?_⟩
  · show canonical kind request = canonical op.kind.name (.dict op.request)
    rw [hk, hr]
  · unfold Operation.Admitted Operation.stage
    rw [hq, he, ht]

/-- A runtime with a free slot has only terminal rows. -/
theorem Running.terminal (h : Running node t p) (hc : p.closing = false) (hh : p.healthy = true)
    (ht : p.tasks = []) : ∀ r ∈ t, r.document.terminal = true := by
  intro r hr
  by_contra hn
  rw [Bool.not_eq_true] at hn
  obtain ⟨w, hw, -⟩ := h.covered hc hh r hr hn
  rw [ht] at hw
  cases hw

/-- **A step of the system is one step of its table.** -/
theorem Does.tableStep {s s' : Sys} {l : Label} {es : List Event} (h : Does node s l s' es)
    (hi : Inv node s) : TableStep node s.table s'.table := by
  cases h with
  | idle hq => exact .same
  | started hv hn hl => exact .same
  | recovered hs hd ht =>
    rcases ht with ⟨rfl, -⟩ | ⟨ht, rfl⟩
    · exact .same
    · obtain ⟨r, hr, -, -, rfl⟩ := row_of_get hd
      have hm := moves_recoveryChange (hi.sound.consistent r hr) ht
      exact .update hd (.merge _ _ _) (hm _).1 (hm _).2
  | abandoned hs => exact .same
  | ready hs => exact .same
  | admitted hs hr ht hnew hx hv =>
    have hrun := hi.life
    rw [hs] at hrun
    obtain ⟨-, -, hc, hh⟩ := requireLedger_eq_ok.mp hr
    obtain ⟨hag, hadm⟩ := agrees_newRow hnew _
    exact .insert hv hag hadm (hrun.terminal hc hh ht)
  | worked hs ht hd hf hst =>
    have hrun := hi.life
    rw [hs] at hrun
    obtain ⟨r, hr, -, -, rfl⟩ := row_of_get hd
    have hn : _ = node := hrun.number
    have hstep := hst.tableStep (hn ▸ hd) (hn ▸ hf) (hi.sound.consistent r hr)
    rw [hn] at hstep
    exact hstep
  | close hs hq => exact .same
  | closed hs hc ht => exact .same
  | crashed => exact .same

section

variable {w : Worker} {doc : Operation} {i : Input} {n : Next}

@[simp] theorem settle_config : (p.settle w n).config = p.config := by cases n <;> rfl
@[simp] theorem settle_owner : (p.settle w n).owner = p.owner := by cases n <;> rfl
@[simp] theorem settle_ledger : (p.settle w n).ledger = p.ledger := by cases n <;> rfl
@[simp] theorem settle_healthy : (p.settle w n).healthy = p.healthy := by cases n <;> rfl
@[simp] theorem settle_closing : (p.settle w n).closing = p.closing := by cases n <;> rfl

theorem mem_of_tasks (ht : p.tasks = [w]) : w ∈ p.tasks := by
  rw [ht]
  exact List.mem_singleton_self w

theorem settle_goes (ht : p.tasks = [w]) (w' : Worker) : (p.settle w (.goes w')).tasks = [w'] := by
  simp [Platform.settle, ht]

theorem settle_ended (ht : p.tasks = [w]) : (p.settle w .ended).tasks = [] := by
  simp [Platform.settle, ht]

theorem settle_dropped (ht : p.tasks = [w]) : (p.settle w .dropped).tasks = [] := by
  simp [Platform.settle, ht]

/-- A stretch changes nothing of the runtime but its health. -/
theorem Stretch.platform (h : Stretch p t w doc i p' t' n) :
    p' = p ∨ p' = { p with healthy := false } ∧ n = .ended ∧ i.commits = false := by
  cases h with
  | lost hi hc => exact Or.inr ⟨rfl, rfl, hc⟩
  | _ => exact Or.inl rfl

theorem Stretch.tasks (h : Stretch p t w doc i p' t' n) : p'.tasks = p.tasks := by
  rcases h.platform with rfl | ⟨rfl, -, -⟩
  · rfl
  · rfl

theorem Stretch.closing (h : Stretch p t w doc i p' t' n) : p'.closing = p.closing := by
  rcases h.platform with rfl | ⟨rfl, -, -⟩
  · rfl
  · rfl

/-- A worker that goes on keeps its identity and its cancellation, and is past the barrier of a
closing runtime only if it was before. -/
theorem Stretch.goes {w' : Worker} (h : Stretch p t w doc i p' t' (.goes w')) :
    p' = p ∧ w'.id = w.id ∧ w'.cancelling = w.cancelling ∧ (p.closing = true →
      ∀ op command actionId payload, w'.pc ≠ .dispatching op command (.committed actionId payload)) := by
  cases h with
  | @acked op command response env deadline hpc hs hrej hok =>
    refine ⟨rfl, rfl, rfl, fun _ _ _ _ _ hpc' => ?_⟩
    by_cases hk : op.kind = .announce
    · rw [if_pos hk] at hpc'
      cases hpc'
    · rw [if_neg hk] at hpc'
      cases hpc'
  | crossed hpc hs hr he hq =>
    refine ⟨rfl, rfl, rfl, fun hc => ?_⟩
    rw [(requireLedger_eq_ok.mp hr).2.2.1] at hc
    cases hc
  | session hpc hm =>
    refine ⟨rfl, rfl, rfl, fun _ op command actionId payload hpc' => ?_⟩
    cases hpc'
    exact hm.notCommitted actionId payload rfl
  | entered hpc hc => exact ⟨rfl, rfl, rfl, fun _ _ _ _ _ hpc' => by cases hpc'⟩
  | gated hpc hs he hp hcmd => exact ⟨rfl, rfl, rfl, fun _ _ _ _ _ hpc' => by cases hpc'⟩
  | wrote hpc => exact ⟨rfl, rfl, rfl, fun _ _ _ _ _ hpc' => by cases hpc'⟩
  | woke hpc => exact ⟨rfl, rfl, rfl, fun _ _ _ _ _ hpc' => by cases hpc'⟩
  | slept hpc => exact ⟨rfl, rfl, rfl, fun _ _ _ _ _ hpc' => by cases hpc'⟩
  | raised hi => exact ⟨rfl, rfl, rfl, fun _ _ _ _ _ hpc' => by cases hpc'⟩

/-- The last save of a worker leaves no open row with its id. -/
theorem Finish.terminal {c : Changes} (h : Finish p w c) : c.terminal = some true := by
  cases h <;> rfl

/-- A runtime without a worker. -/
theorem running_nil (hv : p.config.Valid) (hn : p.node = node) (ht : p.tasks = [])
    (ho : p.closing = false → p.owner = true ∧ p.ledger = true)
    (hb : p.closing = false → p.busyOperationId = none)
    (hr : p.closing = false → p.healthy = true → ∀ r ∈ t, r.document.terminal = true) :
    Running node t p := by
  refine ⟨hv, hn, ?_, Or.inl ht, ?_, ?_, ?_, fun _ => ht, ?_, ?_⟩
  · rintro (hc | hne)
    · exact ho hc
    · exact absurd ht hne
  · intro hc
    rw [ht]
    exact hb hc
  · intro w hw
    rw [ht] at hw
    cases hw
  · intro hc hh r hmem hrt
    rw [hr hc hh r hmem] at hrt
    cases hrt
  · intro _ w hw
    rw [ht] at hw
    cases hw
  · intro w hw
    rw [ht] at hw
    cases hw

/-- **A stretch keeps the runtime in order.** -/
theorem Running.stretch (h : Running node t p) (ht : p.tasks = [w])
    (hd : get t node w.id = some doc) (hf : Fits node w doc) (hw : Sound node t)
    (hw' : Sound node t') (hst : Stretch p t w doc i p' t' n) :
    Running node t' (p'.settle w n) := by
  have hmem := mem_of_tasks ht
  have hcan := h.cancelling w hmem
  obtain ⟨hown, hled⟩ := h.opened (Or.inr (by rw [ht]; simp))
  have hnum := h.number
  cases n with
  | goes w' =>
    obtain ⟨rfl, hid, hcan', hcom⟩ := hst.goes
    have hts := settle_goes ht w'
    obtain ⟨-, doc', hd', hf'⟩ := hst.fits (hnum ▸ hd) (hnum ▸ hf)
    rw [hnum] at hd' hf'
    refine ⟨by simpa using h.valid, by simpa [Platform.node] using hnum, ?_, Or.inr ⟨w', hts⟩, ?_,
      ?_, ?_, ?_, ?_, ?_⟩
    · intro _
      simp [hown, hled]
    · intro hc
      rw [settle_closing] at hc
      rw [hts]
      have hslot := h.slot hc
      rw [ht] at hslot
      simpa [Platform.settle, hid] using hslot
    · intro v hv
      rw [hts, List.mem_singleton] at hv
      rw [hv, hid]
      exact ⟨doc', hd', hf'⟩
    · intro hc hh r hr hrt
      rw [settle_closing] at hc
      rw [settle_healthy] at hh
      refine ⟨w', mem_of_tasks hts, ?_⟩
      -- an open row is the worker's: the worker's row is open, and no two rows are
      obtain ⟨q, hq, hqid, -, rfl⟩ := row_of_get hd'
      rw [hw'.single r hr q hq hrt hf'.terminal, hid, hqid]
    · intro hh
      rw [settle_healthy] at hh
      rw [h.stopped hh] at ht
      cases ht
    · intro hc v hv
      rw [settle_closing] at hc
      rw [hts, List.mem_singleton] at hv
      rw [hv]
      exact hcom hc
    · intro v hv
      rw [hts, List.mem_singleton] at hv
      rw [hv, settle_closing, hcan', hcan]
  | ended =>
    have hbusy : p.closing = false → p.busyOperationId = some w.id := by
      intro hc
      rw [h.slot hc, ht]
      rfl
    cases hst with
    | @saved _ c now hi hfin =>
      refine running_nil (by simpa using h.valid) (by simpa [Platform.node] using hnum)
        (settle_ended ht) (fun _ => by simp [hown, hled]) (fun hc => ?_) (fun _ _ r hr => ?_)
      · rw [settle_closing] at hc
        simp [Platform.settle, hbusy hc]
      · rw [hnum] at hr
        rcases hw.wf.setDocument_cases hr with ⟨hrt, hne⟩ | ⟨q, -, -, rfl⟩
        · -- the row of the worker was the only open one
          by_contra hn
          rw [Bool.not_eq_true] at hn
          obtain ⟨q, hq, hqid, -, rfl⟩ := row_of_get hd
          exact hne (by rw [hw.single r hrt q hq hn hf.terminal, hqid])
        · show (doc.merge c now).terminal = true
          rw [merge_terminal, hfin.terminal]
          rfl
    | lost hi hc =>
      refine running_nil (by simpa using h.valid) (by simpa [Platform.node] using hnum)
        (settle_ended ht) (fun _ => by simp [hown, hled]) (fun hcl => ?_) (fun _ hh => ?_)
      · rw [settle_closing] at hcl
        simp [Platform.settle, hbusy hcl]
      · rw [settle_healthy] at hh
        cases hh
  | dropped =>
    cases hst with
    | dropped hpc hc =>
      have hclosing : p.closing = true := by rw [← hcan, hc]
      refine running_nil (by simpa using h.valid) (by simpa [Platform.node] using hnum)
        (settle_dropped ht) (fun hcl => ?_) (fun hcl => ?_) (fun hcl => ?_)
      all_goals
        rw [settle_closing, hclosing] at hcl
        cases hcl

end

/-- **A step keeps the invariant.** -/
theorem Does.inv {s s' : Sys} {l : Label} {es : List Event} (h : Does node s l s' es)
    (hi : Inv node s) : Inv node s' := by
  have hsound := hi.sound.step (h.tableStep hi)
  refine ⟨hsound, ?_⟩
  have hlife := hi.life
  cases h with
  | idle hq => exact hlife
  | started hv hn hl => exact lifeOk_documents hi.sound.wf hv hn
  | @recovered cfg op todo env t' hs hd ht =>
    rw [hs] at hlife
    rcases ht with ⟨rfl, ht⟩ | ⟨ht, rfl⟩
    · exact lifeOk_recovered hi.sound.wf hlife (Or.inl ⟨rfl, ht⟩)
    · exact lifeOk_recovered hi.sound.wf hlife (Or.inr ⟨_, rfl, by
        unfold recoveryChange
        split_ifs <;> rfl⟩)
  | abandoned hs => trivial
  | @ready cfg env hs =>
    rw [hs] at hlife
    obtain ⟨hv, hn, -, -, hopen⟩ := hlife
    refine running_nil hv hn rfl (fun _ => ⟨rfl, rfl⟩) (fun _ => rfl) (fun _ _ r hr => ?_)
    by_contra hnt
    rw [Bool.not_eq_true] at hnt
    cases hopen r hr hnt
  | @admitted p kind credential request key env op hs hr ht hnew hx hv =>
    rw [hs] at hlife
    obtain ⟨hl, ho, hc, hh⟩ := requireLedger_eq_ok.mp hr
    obtain ⟨hag, hadm⟩ := agrees_newRow hnew key
    have hget : get (s.table ++ [newRow node kind request credential key op]) node op.id = some op :=
      hsound.wf.get_row (List.mem_append_right _ (List.mem_singleton_self _))
    have hterm := hlife.terminal hc hh ht
    refine ⟨hlife.valid, hlife.number, fun _ => ⟨ho, hl⟩, Or.inr ⟨_, rfl⟩, fun _ => rfl, ?_, ?_, ?_,
      ?_, ?_⟩
    · intro w hw
      rw [List.mem_singleton.mp hw]
      refine ⟨op, hget, rfl, hag.documentNode, congrArg (fun s => s.2.2) hadm, rfl,
        congrArg (fun s => s.1) hadm⟩
    · intro _ _ r hmem hrt
      refine ⟨_, List.mem_singleton_self _, ?_⟩
      rcases List.mem_append.mp hmem with hmem | hmem
      · rw [hterm r hmem] at hrt
        cases hrt
      · rw [List.mem_singleton.mp hmem]
        rfl
    · intro hu
      rw [hh] at hu
      cases hu
    · intro hcl
      rw [hc] at hcl
      cases hcl
    · intro w hw
      rw [List.mem_singleton.mp hw]
      exact hc.symm
  | worked hs ht hd hf hst =>
    rw [hs] at hlife
    exact hlife.stretch ht hd hf hi.sound hsound hst
  | @close p hs hq =>
    rw [hs] at hlife
    have hmap : ∀ v ∈ p.close.tasks, ∃ w ∈ p.tasks, { w with cancelling := true } = v := fun v hv =>
      List.mem_map.mp hv
    refine ⟨hlife.valid, hlife.number, ?_, ?_, nofun, ?_, nofun, ?_, ?_, ?_⟩
    · rintro (hc | hne)
      · cases hc
      · refine hlife.opened (Or.inr fun he => hne ?_)
        simp [Platform.close, he]
    · rcases hlife.single with ht | ⟨w, ht⟩
      · exact Or.inl (by simp [Platform.close, ht])
      · exact Or.inr ⟨_, by simp [Platform.close, ht]; rfl⟩
    · intro v hv
      obtain ⟨w, hw, rfl⟩ := hmap v hv
      obtain ⟨doc, hd, hf⟩ := hlife.fits w hw
      exact ⟨doc, hd, hf.id, hf.node, hf.terminal, hf.agrees⟩
    · intro hh
      simp [Platform.close, hlife.stopped hh]
    · intro _ v hv op command actionId payload hpc
      obtain ⟨w, hw, rfl⟩ := hmap v hv
      have hqw := List.all_eq_true.mp hq w hw
      simp only at hpc
      rw [hpc] at hqw
      cases hqw
    · intro v hv
      obtain ⟨w, -, rfl⟩ := hmap v hv
      rfl
  | @closed p hs hc ht =>
    rw [hs] at hlife
    refine running_nil hlife.valid hlife.number ht (fun hcl => ?_) (fun _ => rfl) (fun hcl => ?_)
    · rw [show p.closed.closing = p.closing from rfl, hc] at hcl
      cases hcl
    · rw [show p.closed.closing = p.closing from rfl, hc] at hcl
      cases hcl
  | crashed => trivial

theorem Inv.step {s s' : Sys} {l : Label} (h : Inv node s) (hs : s.step node l = some s') :
    Inv node s' :=
  (h.does hs).inv h

/-- **The invariant holds in every state a run reaches.** -/
theorem exec_inv {s s' : Sys} {ls : List Label} (h : Inv node s)
    (hr : Lts.exec (Sys.step node) s ls = some s') : Inv node s' :=
  Lts.exec_invariant (Inv node) h (fun _ _ _ => Inv.step) hr

theorem reaches_inv {ls : List Label} {s : Sys} (h : Reaches node ls s) : Inv node s :=
  exec_inv inv_init h

/-- What becomes of the table along a run. -/
theorem exec_grows {s s' : Sys} {ls : List Label} (h : Inv node s)
    (hr : Lts.exec (Sys.step node) s ls = some s') : Grows s.table s'.table :=
  Lts.exec_rel (Inv node) (fun a b => Grows a.table b.table) (fun a => .refl a.table)
    (fun _ _ _ => Grows.trans) h (fun _ _ _ => Inv.step)
    (fun _ _ _ hi hs => ((hi.does hs).tableStep hi).grows hi.sound) hr

end Asl3
