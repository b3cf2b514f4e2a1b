import Asl3Api.Lib.Transition
import Asl3Api.Vnext.Snapshot

/-!
# Concurrent observations (`vnext/observation.py`)

Many coroutines call `snapshot` on one `Observer`. The lock lets one of them in at a time, in the order
of their calls; `generation` is read inside and counted up outside of it. The `wait_for` of Python 3.10
and 3.11 runs `transport.observe` as a task of its own. It cancels the task at the deadline, or when it
is cancelled itself, and waits for its end; when it is cancelled once more there, it leaves the task
behind. From 3.12 on no call leaves before its `transport.observe` has ended.

* `Observer.State`, `Observer.step`: the observer between two stretches of code without an `await`;
* `Observer.Event`, `Observer.output`: what the calls are seen to do;
* `Inv`, `reaches_inv`: what the events say about the call inside;
* `running`, `reaches_running`: the observations in progress;
* `Taken`, `reaches_taken`: where a returned snapshot comes from;
* `exec_freed`, `exec_served`: the lock is given back, and every waiting call gets it;
* **`observations_fresh`**: all of it, for every run.
-/

set_option autoImplicit false

namespace Asl3

open Py

namespace Observer

/-! ## The observer -/

/-- How `transport.observe` has ended. -/
inductive Ending where
  | replies (xstat sawstat : Message) (epoch : String)
  | raised (e : Raised)
  deriving DecidableEq, Repr

/-- Where the call inside the lock is. -/
inductive Phase where
  /-- `generation` is read, and `transport.observe` not begun. -/
  | entered
  /-- `transport.observe` is in progress. -/
  | observing
  /-- It is in progress and was cancelled, at the deadline or with its call. -/
  | stopping
  /-- It has ended, and the call has not gone on; `wait_for` never goes on before that. -/
  | observed (r : Ending)
  deriving DecidableEq, Repr

/-- `transport.observe` is in progress. -/
def Phase.inProgress : Phase → Bool
  | .entered => false
  | .observing => true
  | .stopping => true
  | .observed _ => false

/-- The call inside the lock. -/
structure Holder where
  id : ℕ
  /-- The local `generation`. -/
  generation : ℕ
  phase : Phase
  deriving DecidableEq, Repr

/-- The attributes of an `Observer`, and its calls by number. -/
structure State where
  generation : ℕ := 0
  /-- How many calls there have been. -/
  calls : ℕ := 0
  /-- The calls that wait for the lock, first come first. -/
  waiting : List ℕ := []
  holder : Option Holder := none
  /-- The calls that have left a `transport.observe` in progress behind. -/
  left : List ℕ := []
  deriving DecidableEq, Repr

/-- What happens next. -/
inductive Label where
  /-- `snapshot()` is called. -/
  | invoke
  /-- The first of the waiting calls takes the free lock. -/
  | acquire
  /-- `transport.observe` begins. -/
  | observe
  /-- It returns. -/
  | reply (xstat sawstat : Message) (epoch : String)
  /-- It raises; a call that is cancelled meanwhile has its `CancelledError` thrown in there. -/
  | fail (e : Raised)
  /-- The deadline passes, or the call inside is cancelled: `wait_for` cancels `transport.observe`. -/
  | stop
  /-- The call inside is cancelled while `wait_for` waits for the end of what it has cancelled. -/
  | abandon
  /-- What a call has left behind ends. -/
  | settle (i : ℕ) (r : Ending)
  /-- The call inside goes on, to its end. -/
  | resume (now uuid : String)
  /-- A call is cancelled where no `transport.observe` of it is in progress. -/
  | cancel (i : ℕ)
  /-- `invalidate()` is called. -/
  | invalidate

/-- What a call is seen to do. -/
inductive Event where
  | invoked (i : ℕ)
  | opened (i : ℕ)
  | replied (i : ℕ) (xstat sawstat : Message) (epoch : String)
  | failed (i : ℕ) (e : Raised)
  | returned (i : ℕ) (state : NodeState)
  | raised (i : ℕ) (e : Raised)
  | invalidated
  deriving DecidableEq, Repr

/-- How the call inside ends. -/
def outcome (node : String) (generation : ℕ) (h : Holder) (r : Ending) (now uuid : String) :
    Except Raised NodeState :=
  match r with
  | .replies xstat sawstat epoch =>
    (snapshot node (.replies xstat sawstat epoch (decide (h.generation ≠ generation))) now uuid).mapError
      .error
  | .raised (.error e) => (snapshot node (.failed e) now uuid).mapError .error
  | .raised .cancelled => .error .cancelled

/-- The `transport.observe` of the call inside ends. -/
def ended (s : State) (r : Ending) : Option State :=
  match s.holder with
  | some h => if h.phase.inProgress then some { s with holder := some ⟨h.id, h.generation, .observed r⟩ }
    else none
  | none => none

/-- One step. -/
def step (s : State) : Label → Option State
  | .invoke => match s.holder, s.waiting with
    | none, [] =>
      some { s with calls := s.calls + 1, holder := some ⟨s.calls, s.generation, .entered⟩ }
    | _, _ => some { s with calls := s.calls + 1, waiting := s.waiting ++ [s.calls] }
  | .acquire => match s.holder, s.waiting with
    | none, i :: waiting =>
      some { s with waiting := waiting, holder := some ⟨i, s.generation, .entered⟩ }
    | _, _ => none
  | .observe => match s.holder with
    | some ⟨i, g, .entered⟩ => some { s with holder := some ⟨i, g, .observing⟩ }
    | _ => none
  | .reply xstat sawstat epoch => ended s (.replies xstat sawstat epoch)
  | .fail e => ended s (.raised e)
  | .stop => match s.holder with
    | some ⟨i, g, .observing⟩ => some { s with holder := some ⟨i, g, .stopping⟩ }
    | _ => none
  | .abandon => match s.holder with
    | some ⟨i, _, .stopping⟩ => some { s with holder := none, left := i :: s.left }
    | _ => none
  | .settle i _ => if i ∈ s.left then some { s with left := s.left.erase i } else none
  | .resume _ _ => match s.holder with
    | some ⟨_, _, .observed _⟩ => some { s with holder := none }
    | _ => none
  | .cancel i =>
    if i ∈ s.waiting then some { s with waiting := s.waiting.erase i }
    else match s.holder with
      | some h =>
        if h.id = i ∧ h.phase.inProgress = false then some { s with holder := none } else none
      | none => none
  | .invalidate => some { s with generation := s.generation + 1 }

/-- The end of `transport.observe` as an event. -/
def Ending.event (i : ℕ) : Ending → Event
  | .replies xstat sawstat epoch => .replied i xstat sawstat epoch
  | .raised e => .failed i e

/-- What a step is seen to do. -/
def output (node : String) (s : State) : Label → List Event
  | .invoke => [.invoked s.calls]
  | .acquire => []
  | .observe => s.holder.elim [] fun h => [.opened h.id]
  | .reply xstat sawstat epoch => s.holder.elim [] fun h => [.replied h.id xstat sawstat epoch]
  | .fail e => s.holder.elim [] fun h => [.failed h.id e]
  | .stop => []
  | .abandon => s.holder.elim [] fun h => [.raised h.id .cancelled]
  | .settle i r => [r.event i]
  | .resume now uuid => match s.holder with
    | some ⟨i, g, .observed r⟩ => match outcome node s.generation ⟨i, g, .observed r⟩ r now uuid with
      | .ok state => [.returned i state]
      | .error e => [.raised i e]
    | _ => []
  | .cancel i => [.raised i .cancelled]
  | .invalidate => [.invalidated]

/-- The labels `ls` lead from a new observer to `s`. -/
def Reaches (ls : List Label) (s : State) : Prop := Lts.exec step {} ls = some s

/-- The events of a run of a new observer. -/
def history (node : String) (ls : List Label) : List Event := Lts.trace step (output node) {} ls

/-! ## What a step can do -/

/-- The steps, with their events. -/
inductive Step (node : String) (s : State) : List Event → State → Prop
  | enter (hh : s.holder = none) (hw : s.waiting = []) :
      Step node s [.invoked s.calls]
        { s with calls := s.calls + 1, holder := some ⟨s.calls, s.generation, .entered⟩ }
  | wait : Step node s [.invoked s.calls]
      { s with calls := s.calls + 1, waiting := s.waiting ++ [s.calls] }
  | acquire {i : ℕ} {waiting : List ℕ} (hh : s.holder = none) (hw : s.waiting = i :: waiting) :
      Step node s [] { s with waiting := waiting, holder := some ⟨i, s.generation, .entered⟩ }
  | observe {i g : ℕ} (hh : s.holder = some ⟨i, g, .entered⟩) :
      Step node s [.opened i] { s with holder := some ⟨i, g, .observing⟩ }
  | ends {i g : ℕ} {phase : Phase} {r : Ending} (hh : s.holder = some ⟨i, g, phase⟩)
      (hp : phase.inProgress = true) :
      Step node s [r.event i] { s with holder := some ⟨i, g, .observed r⟩ }
  | stop {i g : ℕ} (hh : s.holder = some ⟨i, g, .observing⟩) :
      Step node s [] { s with holder := some ⟨i, g, .stopping⟩ }
  | abandon {i g : ℕ} (hh : s.holder = some ⟨i, g, .stopping⟩) :
      Step node s [.raised i .cancelled] { s with holder := none, left := i :: s.left }
  | settle {i : ℕ} {r : Ending} (hi : i ∈ s.left) :
      Step node s [r.event i] { s with left := s.left.erase i }
  | returns {i g : ℕ} {r : Ending} {now uuid : String} {state : NodeState}
      (hh : s.holder = some ⟨i, g, .observed r⟩)
      (ho : outcome node s.generation ⟨i, g, .observed r⟩ r now uuid = .ok state) :
      Step node s [.returned i state] { s with holder := none }
  | raises {h : Holder} {e : Raised} (hh : s.holder = some h) (hp : h.phase.inProgress = false) :
      Step node s [.raised h.id e] { s with holder := none }
  | leave {i : ℕ} (hi : i ∈ s.waiting) :
      Step node s [.raised i .cancelled] { s with waiting := s.waiting.erase i }
  | invalidate : Step node s [.invalidated] { s with generation := s.generation + 1 }

variable {node : String} {s s' : State} {l : Label}

theorem ended_eq_some {r : Ending} (h : ended s r = some s') :
    ∃ holder, s.holder = some holder ∧ holder.phase.inProgress = true ∧
      s' = { s with holder := some ⟨holder.id, holder.generation, .observed r⟩ } := by
  unfold ended at h
  split at h
  · rename_i holder hh
    split_ifs at h with hp
    exact ⟨holder, hh, hp, (Option.some.inj h).symm⟩
  · cases h

/-- **What a step can do.** -/
theorem step_cases (h : step s l = some s') : Step node s (output node s l) s' := by
  cases l with
  | invoke =>
    dsimp only [step] at h
    split at h
    · rename_i hh hw
      cases h
      exact .enter hh hw
    · cases h
      exact .wait
  | acquire =>
    dsimp only [step] at h
    split at h
    · rename_i hh hw
      cases h
      exact .acquire hh hw
    · cases h
  | observe =>
    dsimp only [step] at h
    split at h
    · rename_i i g hh
      cases h
      rw [output, hh]
      exact .observe hh
    · cases h
  | reply xstat sawstat epoch =>
    obtain ⟨holder, hh, hp, rfl⟩ := ended_eq_some h
    rw [output, hh]
    exact .ends (r := .replies xstat sawstat epoch) hh hp
  | fail e =>
    obtain ⟨holder, hh, hp, rfl⟩ := ended_eq_some h
    rw [output, hh]
    exact .ends (r := .raised e) hh hp
  | stop =>
    dsimp only [step] at h
    split at h
    · rename_i i g hh
      cases h
      exact .stop hh
    · cases h
  | abandon =>
    dsimp only [step] at h
    split at h
    · rename_i i g hh
      cases h
      rw [output, hh]
      exact .abandon hh
    · cases h
  | settle i r =>
    dsimp only [step] at h
    split_ifs at h with hi
    cases h
    exact .settle hi
  | resume now uuid =>
    dsimp only [step] at h
    split at h
    · rename_i i g r hh
      cases h
      simp only [output, hh]
      cases ho : outcome node s.generation ⟨i, g, .observed r⟩ r now uuid with
      | ok state => exact .returns hh ho
      | error e => exact .raises hh rfl
    · cases h
  | cancel i =>
    dsimp only [step] at h
    split at h
    · rename_i hi
      cases h
      exact .leave hi
    · split at h
      · rename_i holder hh
        split_ifs at h with hc
        cases h
        obtain ⟨rfl, hp⟩ := hc
        exact .raises hh hp
      · cases h
  | invalidate =>
    cases h
    exact .invalidate

/-! ## What the events say about the calls -/

/-- The call an event is about. -/
def Event.call : Event → Option ℕ
  | .invoked i => some i
  | .opened i => some i
  | .replied i _ _ _ => some i
  | .failed i _ => some i
  | .returned i _ => some i
  | .raised i _ => some i
  | .invalidated => none

/-- The events of one call. -/
def own (i : ℕ) (es : List Event) : List Event := es.filter fun e => e.call = some i

/-- The events of the call inside. -/
inductive Holds (es : List Event) : Holder → Prop
  | entered {i g : ℕ} (ho : own i es = [.invoked i]) (hg : g ≤ es.count .invalidated) :
      Holds es ⟨i, g, .entered⟩
  | observing {i g : ℕ} {phase : Phase} {a b : List Event} (hp : phase.inProgress = true)
      (he : es = a ++ .opened i :: b) (ha : own i a = [.invoked i]) (hg : g ≤ a.count .invalidated)
      (hb : own i b = []) : Holds es ⟨i, g, phase⟩
  | observed {i g : ℕ} {r : Ending} {a b c : List Event} (he : es = a ++ .opened i :: (b ++ r.event i :: c))
      (ha : own i a = [.invoked i]) (hg : g ≤ a.count .invalidated) (hb : own i b = [])
      (hc : own i c = []) : Holds es ⟨i, g, .observed r⟩

/-- What the events say about the state. -/
structure Inv (es : List Event) (s : State) : Prop where
  generation : es.count .invalidated = s.generation
  calls : ∀ e ∈ es, ∀ i, e.call = some i → i < s.calls
  waiting : ∀ i ∈ s.waiting, own i es = [.invoked i]
  nodup : s.waiting.Nodup
  holder : ∀ h, s.holder = some h → Holds es h ∧ h.id ∉ s.waiting
  left : ∀ i ∈ s.left, own i es = [.invoked i, .opened i, .raised i .cancelled]
  leftNodup : s.left.Nodup

section

variable {es : List Event} {e : Event} {i : ℕ} {h : Holder}

theorem own_append (i : ℕ) (a b : List Event) : own i (a ++ b) = own i a ++ own i b :=
  List.filter_append ..

theorem own_cons_self (he : e.call = some i) : own i (e :: es) = e :: own i es :=
  List.filter_cons_of_pos (by simpa using he)

theorem own_cons_ne (he : e.call ≠ some i) : own i (e :: es) = own i es :=
  List.filter_cons_of_neg (by simpa using he)

theorem own_snoc_ne (he : e.call ≠ some i) : own i (es ++ [e]) = own i es := by
  rw [own_append, own_cons_ne he]
  exact List.append_nil _

@[simp] theorem Ending.call_event (r : Ending) : (r.event i).call = some i := by
  cases r <;> rfl

/-- The events of the call inside, in order. -/
def Holder.story (h : Holder) : List Event :=
  match h.phase with
  | .entered => [.invoked h.id]
  | .observing => [.invoked h.id, .opened h.id]
  | .stopping => [.invoked h.id, .opened h.id]
  | .observed r => [.invoked h.id, .opened h.id, r.event h.id]

theorem story_of_inProgress {i g : ℕ} {phase : Phase} (hp : phase.inProgress = true) :
    (Holder.mk i g phase).story = [.invoked i, .opened i] := by
  cases phase with
  | observing => rfl
  | stopping => rfl
  | _ => cases hp

theorem Holds.own (hh : Holds es h) : own h.id es = h.story := by
  cases hh with
  | entered ho _ => exact ho
  | observing hp he ha _ hb =>
    rw [story_of_inProgress hp, he, own_append, ha, own_cons_self rfl, hb]
    rfl
  | observed he ha _ hb hc =>
    rw [he, own_append, ha, own_cons_self rfl, own_append, hb, own_cons_self (Ending.call_event _), hc]
    rfl

/-- Events of other calls do not matter. -/
theorem Holds.snoc (hh : Holds es h) (he : e.call ≠ some h.id) : Holds (es ++ [e]) h := by
  cases hh with
  | entered ho hg =>
    refine .entered ?_ ?_
    · rw [own_snoc_ne he]
      exact ho
    · rw [List.count_append]
      exact hg.trans (Nat.le_add_right _ _)
  | observing hp hes ha hg hb =>
    refine .observing hp (by rw [hes, List.append_assoc, List.cons_append]) ha hg ?_
    rw [own_snoc_ne he]
    exact hb
  | observed hes ha hg hb hc =>
    refine .observed (by rw [hes, List.append_assoc, List.cons_append, List.append_assoc,
      List.cons_append]) ha hg hb ?_
    rw [own_snoc_ne he]
    exact hc

end

namespace Inv

variable {es : List Event}

theorem init : Inv [] {} where
  generation := rfl
  calls _ he := (List.not_mem_nil he).elim
  waiting _ hi := (List.not_mem_nil hi).elim
  nodup := List.nodup_nil
  holder _ hh := (Option.some_ne_none _ hh.symm).elim
  left _ hi := (List.not_mem_nil hi).elim
  leftNodup := List.nodup_nil

/-- A call that comes next has no events. -/
theorem own_calls (hi : Inv es s) : own s.calls es = [] := by
  refine List.filter_eq_nil_iff.mpr fun e he hc => ?_
  exact absurd (hi.calls e he s.calls (by simpa using hc)) (Nat.lt_irrefl _)

theorem lt_calls {i : ℕ} {l : List Event} (hi : Inv es s) (ho : own i es = .invoked i :: l) :
    i < s.calls := by
  have hm : Event.invoked i ∈ own i es := by
    rw [ho]
    exact List.mem_cons_self
  exact hi.calls _ (List.mem_of_mem_filter hm) i rfl

/-- The call inside has been made. -/
theorem holder_lt {h : Holder} (hi : Inv es s) (hh : s.holder = some h) : h.id < s.calls := by
  have ho := (hi.holder h hh).1.own
  obtain ⟨i, g, phase⟩ := h
  cases phase <;> exact hi.lt_calls ho

/-- An event of the call inside, or of the next call, is none of a waiting call. -/
theorem calls_snoc {e : Event} {n : ℕ} (hi : Inv es s) (hn : s.calls ≤ n)
    (he : ∀ i, e.call = some i → i < n) : ∀ x ∈ es ++ [e], ∀ i, x.call = some i → i < n := by
  intro x hx i hc
  rcases List.mem_append.mp hx with hx | hx
  · exact (hi.calls x hx i hc).trans_le hn
  · rw [List.mem_singleton.mp hx] at hc
    exact he i hc

theorem count_snoc {e : Event} (hi : Inv es s) (he : e ≠ .invalidated) :
    (es ++ [e]).count .invalidated = s.generation := by
  rw [List.count_append, hi.generation, List.count_singleton, if_neg (by simpa using he)]
  exact Nat.add_zero _

/-- Waiting calls have no events but their own. -/
theorem waiting_snoc {e : Event} (hi : Inv es s) (he : ∀ i ∈ s.waiting, e.call ≠ some i) :
    ∀ i ∈ s.waiting, own i (es ++ [e]) = [.invoked i] := by
  intro i hw
  rw [own_snoc_ne (he i hw)]
  exact hi.waiting i hw

/-- The calls that have left something behind have no further events of theirs. -/
theorem left_snoc {e : Event} (hi : Inv es s) (he : ∀ i ∈ s.left, e.call ≠ some i) :
    ∀ i ∈ s.left, own i (es ++ [e]) = [.invoked i, .opened i, .raised i .cancelled] := by
  intro i hl
  rw [own_snoc_ne (he i hl)]
  exact hi.left i hl

theorem left_lt {i : ℕ} (hi : Inv es s) (hl : i ∈ s.left) : i < s.calls := hi.lt_calls (hi.left i hl)

/-- The call inside has left nothing behind. -/
theorem holder_notMem_left {h : Holder} (hi : Inv es s) (hh : s.holder = some h) : h.id ∉ s.left := by
  intro hl
  have ho := (hi.holder h hh).1.own.symm.trans (hi.left _ hl)
  obtain ⟨i, g, phase⟩ := h
  cases phase with
  | observed r => cases r <;> cases ho
  | _ => cases ho

/-- A waiting call has left nothing behind. -/
theorem waiting_notMem_left {i : ℕ} (hi : Inv es s) (hw : i ∈ s.waiting) : i ∉ s.left := by
  intro hl
  cases (hi.waiting i hw).symm.trans (hi.left i hl)

/-- The call inside leaves. -/
theorem next_release {h : Holder} {e : Event} (hi : Inv es s) (hh : s.holder = some h)
    (he : e.call = some h.id) : Inv (es ++ [e]) { s with holder := none } := by
  obtain ⟨-, hn⟩ := hi.holder h hh
  have hl : ∀ i ∈ s.left, e.call ≠ some i := by
    intro i hl hc
    rw [he] at hc
    exact hi.holder_notMem_left hh (Option.some.inj hc ▸ hl)
  have hw : ∀ i ∈ s.waiting, e.call ≠ some i := by
    intro i hw hc
    rw [he] at hc
    exact hn (Option.some.inj hc ▸ hw)
  have hlt : ∀ i, e.call = some i → i < s.calls := by
    intro i hc
    rw [he] at hc
    exact Option.some.inj hc ▸ hi.holder_lt hh
  have hne : e ≠ .invalidated := by
    rintro rfl
    cases he
  exact ⟨hi.count_snoc hne, hi.calls_snoc (le_refl _) hlt, hi.waiting_snoc hw, hi.nodup, nofun,
    hi.left_snoc hl, hi.leftNodup⟩

/-- The call inside goes on. -/
theorem next_holder {h h' : Holder} {e : Event} (hi : Inv es s) (hh : s.holder = some h)
    (he : e.call = some h.id) (hid : h'.id = h.id) (hs : Holds es h → Holds (es ++ [e]) h') :
    Inv (es ++ [e]) { s with holder := some h' } := by
  obtain ⟨hold, hn⟩ := hi.holder h hh
  have hr := hi.next_release hh he
  refine ⟨hr.generation, hr.calls, hr.waiting, hr.nodup, ?_, hr.left, hr.leftNodup⟩
  rintro _ ⟨⟩
  exact ⟨hs hold, by rw [hid]; exact hn⟩

/-- **Every step keeps the invariant.** -/
theorem next {ev : List Event} (hi : Inv es s) (h : Step node s ev s') : Inv (es ++ ev) s' := by
  -- the event of a new call
  have hnew : ∀ i, Event.call (.invoked s.calls) = some i → i < s.calls + 1 := by
    rintro i ⟨⟩
    exact Nat.lt_succ_self _
  have hown : own s.calls (es ++ [.invoked s.calls]) = [.invoked s.calls] := by
    rw [own_append, hi.own_calls, own_cons_self rfl]
    rfl
  have hleft : ∀ i ∈ s.left, Event.call (.invoked s.calls) ≠ some i := by
    rintro i hl ⟨⟩
    exact absurd (hi.left_lt hl) (Nat.lt_irrefl _)
  cases h with
  | enter hh hw =>
    have hcount : List.count .invalidated (es ++ [.invoked s.calls]) = s.generation :=
      hi.count_snoc nofun
    refine ⟨hcount, hi.calls_snoc (Nat.le_succ _) hnew, by rw [hw]; nofun, hi.nodup, ?_,
      hi.left_snoc hleft, hi.leftNodup⟩
    rintro _ ⟨⟩
    exact ⟨.entered hown hcount.ge, by rw [hw]; nofun⟩
  | wait =>
    have hold : ∀ i ∈ s.waiting, Event.call (.invoked s.calls) ≠ some i := by
      rintro i hw ⟨⟩
      exact absurd (hi.lt_calls (hi.waiting _ hw)) (Nat.lt_irrefl _)
    refine ⟨hi.count_snoc nofun, hi.calls_snoc (Nat.le_succ _) hnew, ?_, ?_, ?_,
      hi.left_snoc hleft, hi.leftNodup⟩
    · intro i hw
      rcases List.mem_append.mp hw with hw | hw
      · exact hi.waiting_snoc hold i hw
      · obtain rfl := List.mem_singleton.mp hw
        exact hown
    · refine List.perm_append_comm.nodup_iff.mpr (List.nodup_cons.mpr ⟨?_, hi.nodup⟩)
      exact fun hw => hold _ hw rfl
    · intro h hh
      obtain ⟨hs, hn⟩ := hi.holder h hh
      have hlt := hi.holder_lt hh
      refine ⟨hs.snoc fun hc => ?_, fun hw => ?_⟩
      · exact absurd (Option.some.inj hc) (Nat.ne_of_gt hlt)
      · rcases List.mem_append.mp hw with hw | hw
        · exact hn hw
        · exact absurd (List.mem_singleton.mp hw) (Nat.ne_of_lt hlt)
  | @acquire i waiting hh hw =>
    have hnd := hi.nodup
    rw [hw, List.nodup_cons] at hnd
    have hown : ∀ j ∈ i :: waiting, own j es = [.invoked j] := by
      rw [← hw]
      exact hi.waiting
    rw [List.append_nil]
    refine ⟨hi.generation, hi.calls, fun j hj => hown j (List.mem_cons_of_mem _ hj), hnd.2, ?_,
      hi.left, hi.leftNodup⟩
    rintro _ ⟨⟩
    exact ⟨.entered (hown i List.mem_cons_self) hi.generation.ge, hnd.1⟩
  | @observe i g hh =>
    refine hi.next_holder hh rfl rfl fun hs => ?_
    cases hs with
    | entered ho hg => exact .observing rfl rfl ho hg rfl
    | observing hp => cases hp
  | @ends i g phase r hh hp =>
    refine hi.next_holder hh (Ending.call_event r) rfl fun hs => ?_
    cases hs with
    | observing _ he ha hg hb =>
      exact .observed (by rw [he, List.append_assoc, List.cons_append]) ha hg hb rfl
    | _ => cases hp
  | @stop i g hh =>
    obtain ⟨hs, hn⟩ := hi.holder _ hh
    rw [List.append_nil]
    refine ⟨hi.generation, hi.calls, hi.waiting, hi.nodup, ?_, hi.left, hi.leftNodup⟩
    rintro _ ⟨⟩
    cases hs with
    | observing _ he ha hg hb => exact ⟨.observing rfl he ha hg hb, hn⟩
  | @abandon i g hh =>
    have hr : Inv (es ++ [.raised i .cancelled]) { s with holder := none } := hi.next_release hh rfl
    refine ⟨hr.generation, hr.calls, hr.waiting, hr.nodup, hr.holder, ?_,
      List.nodup_cons.mpr ⟨hi.holder_notMem_left hh, hi.leftNodup⟩⟩
    intro j hj
    rcases List.mem_cons.mp hj with rfl | hj
    · rw [own_append, (hi.holder _ hh).1.own]
      exact congrArg _ (own_cons_self rfl)
    · exact hr.left j hj
  | @settle i r hl =>
    have hcall : Event.call (r.event i) = some i := Ending.call_event r
    have hne : ∀ j, j ≠ i → Event.call (r.event i) ≠ some j := by
      rintro j hj hc
      rw [hcall] at hc
      exact hj (Option.some.inj hc).symm
    have hlt : ∀ j, Event.call (r.event i) = some j → j < s.calls := by
      intro j hc
      rw [hcall] at hc
      exact Option.some.inj hc ▸ hi.left_lt hl
    refine ⟨hi.count_snoc (by cases r <;> nofun), hi.calls_snoc (le_refl _) hlt,
      hi.waiting_snoc fun j hw => hne j ?_, hi.nodup, fun h hh => ?_, fun j hj => ?_,
      hi.leftNodup.erase i⟩
    · rintro rfl
      exact hi.waiting_notMem_left hw hl
    · obtain ⟨hs, hn⟩ := hi.holder h hh
      refine ⟨hs.snoc (hne _ ?_), hn⟩
      rintro rfl
      exact hi.holder_notMem_left hh hl
    · rw [own_snoc_ne (hne j fun he => hi.leftNodup.not_mem_erase (he ▸ hj))]
      exact hi.left j (List.mem_of_mem_erase hj)
  | returns hh ho => exact hi.next_release hh rfl
  | raises hh hp => exact hi.next_release hh rfl
  | @leave i hw =>
    have hold : ∀ j ∈ s.waiting.erase i, Event.call (.raised i .cancelled) ≠ some j := by
      rintro j hj ⟨⟩
      exact hi.nodup.not_mem_erase hj
    have hlt : ∀ j, Event.call (.raised i .cancelled) = some j → j < s.calls := by
      rintro j ⟨⟩
      exact hi.lt_calls (hi.waiting i hw)
    refine ⟨hi.count_snoc nofun, hi.calls_snoc (le_refl _) hlt, ?_, hi.nodup.erase i, ?_,
      hi.left_snoc ?_, hi.leftNodup⟩
    · intro j hj
      rw [own_snoc_ne (hold j hj)]
      exact hi.waiting j (List.mem_of_mem_erase hj)
    · intro h hh
      obtain ⟨hs, hn⟩ := hi.holder h hh
      refine ⟨hs.snoc ?_, fun hm => hn (List.mem_of_mem_erase hm)⟩
      intro hc
      exact hn (Option.some.inj hc ▸ hw)
    · rintro j hj ⟨⟩
      exact hi.waiting_notMem_left hw hj
  | invalidate =>
    refine ⟨?_, hi.calls_snoc (le_refl _) nofun, hi.waiting_snoc fun _ _ => nofun, hi.nodup, ?_,
      hi.left_snoc fun _ _ => nofun, hi.leftNodup⟩
    · rw [List.count_append, hi.generation]
      rfl
    · intro h hh
      obtain ⟨hs, hn⟩ := hi.holder h hh
      exact ⟨hs.snoc nofun, hn⟩

end Inv

/-- **Every run has the invariant.** -/
theorem reaches_inv {ls : List Label} (h : Reaches ls s) : Inv (history node ls) s := by
  refine Lts.exec_induction (fun ls s => Inv (history node ls) s) Inv.init ?_ h
  intro ls s l s' hr hi hs
  rw [history, Lts.trace_snoc hr]
  exact hi.next (step_cases hs)

/-! ## One observation at a time -/

/-- The calls whose `transport.observe` is in progress. -/
def running (es : List Event) : List ℕ :=
  es.foldl (fun l e => match e with
    | .opened i => i :: l
    | .replied i _ _ _ => l.erase i
    | .failed i _ => l.erase i
    | _ => l) []

/-- The same of the call inside. -/
def State.inside (s : State) : List ℕ :=
  match s.holder with
  | some h => if h.phase.inProgress then [h.id] else []
  | none => []

theorem running_snoc (es : List Event) (e : Event) : running (es ++ [e]) = match e with
    | .opened i => i :: running es
    | .replied i _ _ _ => (running es).erase i
    | .failed i _ => (running es).erase i
    | _ => running es := by
  rw [running, List.foldl_append]
  cases e <;> rfl

theorem running_event (es : List Event) (i : ℕ) (r : Ending) :
    running (es ++ [r.event i]) = (running es).erase i := by
  rw [running_snoc]
  cases r <;> rfl

/-- The observations in progress are the one of the call inside and those left behind. -/
theorem Inv.running_next {es ev : List Event} (hi : Inv es s) (hr : running es = s.inside ++ s.left)
    (h : Step node s ev s') : running (es ++ ev) = s'.inside ++ s'.left := by
  cases h with
  | enter hh hw =>
    rw [running_snoc]
    dsimp only
    rw [hr]
    simp only [State.inside, hh]
    rfl
  | acquire hh hw =>
    rw [List.append_nil, hr]
    simp only [State.inside, hh]
    rfl
  | observe hh =>
    rw [running_snoc]
    dsimp only
    rw [hr]
    simp only [State.inside, hh]
    rfl
  | ends hh hp =>
    rw [running_event, hr]
    simp only [State.inside, hh, hp, if_true]
    exact List.erase_cons_head ..
  | stop hh =>
    rw [List.append_nil, hr]
    simp only [State.inside, hh]
    rfl
  | abandon hh =>
    rw [running_snoc]
    dsimp only
    rw [hr]
    simp only [State.inside, hh]
    rfl
  | @settle i r hl =>
    rw [running_event, hr, List.erase_append_right]
    · rfl
    · intro hm
      unfold State.inside at hm
      split at hm
      · rename_i h hh
        split_ifs at hm
        · exact hi.holder_notMem_left hh (List.mem_singleton.mp hm ▸ hl)
        · cases hm
      · cases hm
  | returns hh ho =>
    rw [running_snoc]
    dsimp only
    rw [hr]
    simp only [State.inside, hh]
    rfl
  | raises hh hp =>
    rw [running_snoc]
    simpa only [State.inside, hh, hp, if_false, Bool.false_eq_true] using hr
  | _ =>
    rw [running_snoc]
    exact hr

theorem reaches_running {ls : List Label} (h : Reaches ls s) :
    running (history node ls) = s.inside ++ s.left := by
  refine Lts.exec_induction (fun ls s => running (history node ls) = s.inside ++ s.left) rfl ?_ h
  intro ls s l s' hr hi hs
  have hinv : Inv (history node ls) s := reaches_inv hr
  rw [history, Lts.trace_snoc hr]
  exact hinv.running_next hi (step_cases hs)

/-! ## One reply and one end for a call -/

/-- The calls with replies. -/
def Event.reply? : Event → Option ℕ
  | .replied i _ _ _ => some i
  | _ => none

/-- The calls that have ended. -/
def Event.final? : Event → Option ℕ
  | .returned i _ => some i
  | .raised i _ => some i
  | _ => none

theorem nodup_snoc {f : Event → Option ℕ} (hf : ∀ e i, f e = some i → e.call = some i) {es : List Event}
    {e : Event} (hn : (es.filterMap f).Nodup) (he : ∀ i, f e = some i → ∀ x ∈ own i es, f x ≠ some i) :
    ((es ++ [e]).filterMap f).Nodup := by
  rw [List.filterMap_append]
  cases hfe : f e with
  | none =>
    rw [List.filterMap_cons_none hfe, List.filterMap_nil, List.append_nil]
    exact hn
  | some i =>
    rw [List.filterMap_cons_some hfe, List.filterMap_nil]
    refine List.perm_append_comm.nodup_iff.mpr (List.nodup_cons.mpr ⟨fun hm => ?_, hn⟩)
    obtain ⟨x, hx, hfx⟩ := List.mem_filterMap.mp hm
    exact he i hfe x (List.mem_filter.mpr ⟨hx, by simpa using hf x i hfx⟩) hfx

theorem reply?_call (e : Event) (i : ℕ) (h : e.reply? = some i) : e.call = some i := by
  cases e <;> first | exact h | cases h

theorem final?_call (e : Event) (i : ℕ) (h : e.final? = some i) : e.call = some i := by
  cases e <;> first | exact h | cases h

theorem reply?_event {i j : ℕ} {r : Ending} (h : (r.event i).reply? = some j) : i = j := by
  have := reply?_call _ _ h
  rw [Ending.call_event] at this
  exact Option.some.inj this

theorem final?_event (i : ℕ) (r : Ending) : (r.event i).final? = none := by
  cases r <;> rfl

/-- A call has replies once. -/
theorem Inv.replies_next {es ev : List Event} (hi : Inv es s) (hn : (es.filterMap Event.reply?).Nodup)
    (h : Step node s ev s') : ((es ++ ev).filterMap Event.reply?).Nodup := by
  cases h with
  | acquire hh hw => rwa [List.append_nil]
  | stop hh => rwa [List.append_nil]
  | @ends i g phase r hh hp =>
    refine nodup_snoc reply?_call hn fun j hj x hx => ?_
    cases reply?_event hj
    rw [(hi.holder _ hh).1.own, story_of_inProgress hp] at hx
    simp only [List.mem_cons, List.not_mem_nil, or_false] at hx
    rcases hx with rfl | rfl <;> nofun
  | @settle i r hl =>
    refine nodup_snoc reply?_call hn fun j hj x hx => ?_
    cases reply?_event hj
    rw [hi.left i hl] at hx
    simp only [List.mem_cons, List.not_mem_nil, or_false] at hx
    rcases hx with rfl | rfl | rfl <;> nofun
  | _ => exact nodup_snoc reply?_call hn nofun

/-- The call inside has not ended. -/
theorem Holder.final?_story (h : Holder) : ∀ x ∈ h.story, x.final? = none := by
  obtain ⟨i, g, phase⟩ := h
  intro x hx
  cases phase with
  | observed r =>
    simp only [story, List.mem_cons, List.not_mem_nil, or_false] at hx
    rcases hx with rfl | rfl | rfl
    · rfl
    · rfl
    · exact final?_event i r
  | entered =>
    simp only [story, List.mem_cons, List.not_mem_nil, or_false] at hx
    rw [hx]
    rfl
  | _ =>
    simp only [story, List.mem_cons, List.not_mem_nil, or_false] at hx
    rcases hx with rfl | rfl <;> rfl

/-- A call ends once. -/
theorem Inv.finals_next {es ev : List Event} (hi : Inv es s) (hn : (es.filterMap Event.final?).Nodup)
    (h : Step node s ev s') : ((es ++ ev).filterMap Event.final?).Nodup := by
  -- what ends the call inside
  have hholder : ∀ {h : Holder} {e : Event}, s.holder = some h → e.call = some h.id →
      ((es ++ [e]).filterMap Event.final?).Nodup := by
    intro h e hh he
    refine nodup_snoc final?_call hn fun j hj x hx => ?_
    rw [he.symm.trans (final?_call e j hj) |> Option.some.inj |>.symm, (hi.holder h hh).1.own] at hx
    rw [h.final?_story x hx]
    nofun
  cases h with
  | acquire hh hw => rwa [List.append_nil]
  | stop hh => rwa [List.append_nil]
  | returns hh ho => exact hholder hh rfl
  | raises hh hp => exact hholder hh rfl
  | abandon hh => exact hholder hh rfl
  | @leave i hw =>
    refine nodup_snoc final?_call hn fun j hj x hx => ?_
    cases hj
    rw [hi.waiting i hw] at hx
    rw [List.mem_singleton.mp hx]
    nofun
  | @ends i g phase r hh hp =>
    exact nodup_snoc final?_call hn fun j hj => absurd ((final?_event i r).symm.trans hj) nofun
  | @settle i r hl =>
    exact nodup_snoc final?_call hn fun j hj => absurd ((final?_event i r).symm.trans hj) nofun
  | _ => exact nodup_snoc final?_call hn nofun

theorem reaches_nodup {ls : List Label} (h : Reaches ls s) :
    ((history node ls).filterMap Event.reply?).Nodup ∧ ((history node ls).filterMap Event.final?).Nodup := by
  refine Lts.exec_induction (fun ls _ => ((history node ls).filterMap Event.reply?).Nodup ∧
    ((history node ls).filterMap Event.final?).Nodup) ⟨List.nodup_nil, List.nodup_nil⟩ ?_ h
  intro ls s l s' hr hn hs
  have hi : Inv (history node ls) s := reaches_inv hr
  rw [history, Lts.trace_snoc hr]
  exact ⟨hi.replies_next hn.1 (step_cases hs), hi.finals_next hn.2 (step_cases hs)⟩

/-! ## Where a snapshot comes from -/

/-- The call `i` returns `state` after the events `es`: it was made, it began `transport.observe`, which
ended, and these are the replies, or the failure, the snapshot is of. -/
inductive Taken (node : String) (es : List Event) (i : ℕ) (state : NodeState) : Prop
  | replied {a b c d : List Event} {xstat sawstat : Message} {epoch : String} (now : String)
      (he : es = a ++ .invoked i ::
        (b ++ .opened i :: (c ++ .replied i xstat sawstat epoch :: d)))
      (hc : state.complete = true → .invalidated ∉ c ∧
        parseSnapshot (.mapping xstat) (.mapping sawstat) node epoch now = .ok state)
      (hs : .invalidated ∈ c → state = unknownState node (some epoch) "STALE_CONNECTION_EPOCH" now)
  | failed {a b c d : List Event} {e : Error} {now uuid : String}
      (he : es = a ++ .invoked i :: (b ++ .opened i :: (c ++ .failed i (.error e) :: d)))
      (hl : observationError e = true)
      (hs : state = unknownState node (some uuid) "AMI_OBSERVATION_UNAVAILABLE" now)

theorem mapError_eq_ok {x : Except Error NodeState} {state : NodeState} :
    x.mapError Raised.error = .ok state ↔ x = .ok state := by
  cases x <;> simp [Except.mapError]

/-- The call of an event list that holds its `invoked`. -/
theorem exists_invoked {es : List Event} {i : ℕ} (h : own i es = [.invoked i]) :
    ∃ a b, es = a ++ .invoked i :: b := by
  have hm : Event.invoked i ∈ own i es := by
    rw [h]
    exact List.mem_cons_self
  exact List.append_of_mem (List.mem_of_mem_filter hm)

/-- **What a call returns is its own sample.** -/
theorem Inv.taken {es : List Event} (hi : Inv es s) {i g : ℕ} {r : Ending} {now uuid : String}
    {state : NodeState} (hh : s.holder = some ⟨i, g, .observed r⟩)
    (ho : outcome node s.generation ⟨i, g, .observed r⟩ r now uuid = .ok state) :
    Taken node es i state := by
  cases (hi.holder _ hh).1 with
  | observing hp => cases hp
  | @observed _ _ _ p c d he ha hg hb hc =>
    obtain ⟨a, b, rfl⟩ := exists_invoked ha
    rw [List.append_assoc, List.cons_append] at he
    cases r with
    | replies xstat sawstat epoch =>
      rw [outcome, mapError_eq_ok] at ho
      -- the counter is counted up by every `invalidated` of the window
      have hgen : g + c.count .invalidated ≤ s.generation := by
        rw [← hi.generation, he]
        simp only [List.count_append, List.count_cons, Ending.event] at hg ⊢
        omega
      refine .replied now he (fun hcomplete => ?_) fun hm => ?_
      · by_cases hstale : g = s.generation
        · refine ⟨fun hm => ?_, ?_⟩
          · have := List.count_pos_iff.mpr hm
            omega
          · unfold snapshot at ho
            simp only [hstale, ne_eq, not_true_eq_false, decide_false, Bool.false_eq_true, if_false] at ho
            cases hp : parseSnapshot (.mapping xstat) (.mapping sawstat) node epoch now with
            | ok state' =>
              rw [hp] at ho
              rw [Except.ok.inj ho]
            | error e =>
              rw [hp] at ho
              cases ho
        · unfold snapshot at ho
          simp only [ne_eq, hstale, not_false_eq_true, decide_true, if_true] at ho
          rw [← Except.ok.inj ho] at hcomplete
          cases hcomplete
      · have hpos := List.count_pos_iff.mpr hm
        have hstale : g ≠ s.generation := by omega
        unfold snapshot at ho
        simp only [ne_eq, hstale, not_false_eq_true, decide_true, if_true] at ho
        exact (Except.ok.inj ho).symm
    | raised e =>
      cases e with
      | cancelled => cases ho
      | error e =>
        rw [outcome, mapError_eq_ok] at ho
        unfold snapshot at ho
        dsimp only at ho
        split_ifs at ho with hl
        exact .failed he hl (Except.ok.inj ho).symm

/-- A returned snapshot was taken. -/
theorem reaches_taken {ls : List Label} (h : Reaches ls s) {a b : List Event} {i : ℕ} {state : NodeState}
    (he : history node ls = a ++ .returned i state :: b) : Taken node a i state := by
  obtain ⟨pre, l, post, m, a', b', rfl, hm, ho, rfl⟩ := Lts.trace_eq_append_cons h he
  obtain ⟨m', n, hm', hl, -⟩ := Lts.exec_mem h
  obtain rfl : m = m' := Option.some.inj (hm.symm.trans hm')
  have hi : Inv (history node pre) m := reaches_inv hm
  have hs : Step node m (output node m l) n := step_cases hl
  rw [ho] at hs
  -- a step has one event at most, so it is a call that returns
  generalize hev : a' ++ Event.returned i state :: b' = ev at hs
  cases hs with
  | acquire => cases a' <;> cases hev
  | stop => cases a' <;> cases hev
  | returns hh hout =>
    cases a' with
    | nil =>
      cases hev
      rw [List.append_nil]
      exact hi.taken hh hout
    | cons x a' => cases a' <;> cases hev
  | @ends i g phase r hh hp => cases a' with
    | nil => cases r <;> cases hev
    | cons x a' => cases a' <;> cases hev
  | @settle i r hl => cases a' with
    | nil => cases r <;> cases hev
    | cons x a' => cases a' <;> cases hev
  | _ => cases a' with
    | nil => cases hev
    | cons x a' => cases a' <;> cases hev

/-! ## The lock is given back -/

/-- The call inside can always end. -/
theorem exec_freed (s : State) : ∃ ls s', Lts.exec step s ls = some s' ∧ s'.holder = none ∧
    s'.waiting = s.waiting := by
  obtain ⟨generation, calls, waiting, holder, left⟩ := s
  cases holder with
  | none => exact ⟨[], _, rfl, rfl, rfl⟩
  | some h =>
    obtain ⟨i, g, phase⟩ := h
    cases phase with
    | entered => exact ⟨[.observe, .fail .cancelled, .resume "" ""], _, rfl, rfl, rfl⟩
    | observing => exact ⟨[.stop, .fail .cancelled, .resume "" ""], _, rfl, rfl, rfl⟩
    | stopping => exact ⟨[.fail .cancelled, .resume "" ""], _, rfl, rfl, rfl⟩
    | observed r => exact ⟨[.resume "" ""], _, rfl, rfl, rfl⟩

/-- **Every waiting call can get the lock.** -/
theorem exec_served {i : ℕ} (hw : i ∈ s.waiting) : ∃ ls s' g, Lts.exec step s ls = some s' ∧
    s'.holder = some ⟨i, g, .entered⟩ := by
  generalize hws : s.waiting = waiting at hw
  induction waiting generalizing s with
  | nil => cases hw
  | cons j waiting ih =>
    obtain ⟨ls, m, hm, hfree, hwait⟩ := exec_freed s
    rw [hws] at hwait
    obtain ⟨m', hstep, hrest, hh⟩ : ∃ m', step m .acquire = some m' ∧ m'.waiting = waiting ∧
        m'.holder = some ⟨j, m.generation, .entered⟩ := by
      simp only [step, hfree, hwait]
      exact ⟨_, rfl, rfl, rfl⟩
    have hget := Lts.exec_snoc.mpr ⟨m, hm, hstep⟩
    rcases List.mem_cons.mp hw with rfl | hw
    · exact ⟨ls ++ [.acquire], m', m.generation, hget, hh⟩
    · obtain ⟨ls', s', g, hs', hh'⟩ := ih hrest hw
      exact ⟨ls ++ [.acquire] ++ ls', s', g, Lts.exec_append.mpr ⟨m', hget, hs'⟩, hh'⟩

/-- Failures and cancellations give the lock back, and whoever is next gets it. -/
structure Proceeds (node : String) (s : State) : Prop where
  failed : ∀ i g e now uuid, s.holder = some ⟨i, g, .observed (.raised (.error e))⟩ →
    observationError e = true → step s (.resume now uuid) = some { s with holder := none } ∧
      output node s (.resume now uuid) =
        [.returned i (unknownState node (some uuid) "AMI_OBSERVATION_UNAVAILABLE" now)]
  cancelled : ∀ i g now uuid, s.holder = some ⟨i, g, .observed (.raised .cancelled)⟩ →
    step s (.resume now uuid) = some { s with holder := none } ∧
      output node s (.resume now uuid) = [.raised i .cancelled]
  cancel : ∀ h, s.holder = some h → h.phase.inProgress = false →
    step s (.cancel h.id) = some { s with holder := none }
  abandon : ∀ i g, s.holder = some ⟨i, g, .stopping⟩ →
    step s .abandon = some { s with holder := none, left := i :: s.left }
  leave : ∀ i ∈ s.waiting, step s (.cancel i) = some { s with waiting := s.waiting.erase i }
  first : ∀ i waiting, s.holder = none → s.waiting = i :: waiting → step s .acquire =
    some { s with waiting := waiting, holder := some ⟨i, s.generation, .entered⟩ }
  free : s.holder = none → s.waiting = [] → step s .invoke =
    some { s with calls := s.calls + 1, holder := some ⟨s.calls, s.generation, .entered⟩ }
  served : ∀ i ∈ s.waiting, ∃ ls s' g, Lts.exec step s ls = some s' ∧
    s'.holder = some ⟨i, g, .entered⟩

theorem Inv.proceeds {es : List Event} (hi : Inv es s) : Proceeds node s where
  failed i g e now uuid hh hl := by
    refine ⟨by simp only [step, hh], ?_⟩
    simp only [output, hh, outcome, snapshot, hl, if_true]
    rfl
  cancelled i g now uuid hh := by
    refine ⟨by simp only [step, hh], ?_⟩
    simp only [output, hh, outcome]
  cancel h hh hp := by
    simp only [step, if_neg (hi.holder h hh).2, hh]
    exact if_pos ⟨trivial, hp⟩
  abandon i g hh := by simp only [step, hh]
  leave i hw := if_pos hw
  first i waiting hh hw := by simp only [step, hh, hw]
  free hh hw := by simp only [step, hh, hw]
  served _ hw := exec_served hw

/-- Only a second cancellation leaves something behind. -/
theorem step_left (h : step s l = some s') (hl : l ≠ .abandon) : s'.left ⊆ s.left := by
  cases l with
  | abandon => exact absurd rfl hl
  | settle i r =>
    dsimp only [step] at h
    split_ifs at h
    cases h
    exact List.erase_subset
  | reply xstat sawstat epoch =>
    obtain ⟨_, _, _, rfl⟩ := ended_eq_some h
    exact List.Subset.refl _
  | fail e =>
    obtain ⟨_, _, _, rfl⟩ := ended_eq_some h
    exact List.Subset.refl _
  | cancel i =>
    dsimp only [step] at h
    split at h
    · cases h
      exact List.Subset.refl _
    · split at h
      · split_ifs at h
        cases h
        exact List.Subset.refl _
      · cases h
  | invalidate =>
    cases h
    exact List.Subset.refl _
  | _ =>
    dsimp only [step] at h
    split at h <;> cases h <;> exact List.Subset.refl _

theorem left_eq_nil {ls : List Label} (h : Reaches ls s) (hno : .abandon ∉ ls) : s.left = [] := by
  refine Lts.exec_invariant_of (fun l => l ≠ .abandon) (fun s => s.left = []) rfl ?_
    (fun l hl => ne_of_mem_of_not_mem hl hno) h
  intro s l s' hl hs hstep
  have hsub := step_left hstep hl
  rw [hs] at hsub
  exact List.subset_nil.mp hsub

/-- The calls that have ended. -/
def finished (es : List Event) : List ℕ := es.filterMap Event.final?

/-- The observations in progress: the one of the call inside, and those whose calls were cancelled. -/
theorem Inv.running_cases {es : List Event} (hi : Inv es s) :
    (∀ i ∈ s.inside, i ∉ finished es) ∧ ∀ i ∈ s.left, .raised i .cancelled ∈ es := by
  refine ⟨fun i hm hf => ?_, fun i hl => ?_⟩
  · unfold State.inside at hm
    split at hm
    · rename_i h hh
      split_ifs at hm
      · obtain rfl := List.mem_singleton.mp hm
        obtain ⟨x, hx, hxf⟩ := List.mem_filterMap.mp hf
        have hown : x ∈ own h.id es := List.mem_filter.mpr ⟨hx, by simpa using final?_call x _ hxf⟩
        rw [(hi.holder h hh).1.own] at hown
        rw [h.final?_story x hown] at hxf
        cases hxf
      · cases hm
    · cases hm
  · have hown : Event.raised i .cancelled ∈ own i es := by
      rw [hi.left i hl]
      exact List.mem_of_mem_getLast? rfl
    exact List.mem_of_mem_filter hown

/-- **Observations are fresh and do not overlap.** In every run of one observer at most one
`transport.observe` of a call that goes on is in progress; the others were left behind by calls that
were cancelled, and there are none where no call is cancelled a second time. Whatever a call returns
is taken by itself; no call has replies twice, and none ends twice; and the lock is given back. -/
theorem observations_fresh {ls : List Label} (h : Reaches ls s) :
    ((running (history node ls)).filter fun i => i ∉ finished (history node ls)).length ≤ 1 ∧
    (∀ i ∈ running (history node ls), i ∈ finished (history node ls) →
      .raised i .cancelled ∈ history node ls) ∧
    (.abandon ∉ ls → (running (history node ls)).length ≤ 1) ∧
    (∀ a b i state, history node ls = a ++ .returned i state :: b → Taken node a i state) ∧
    ((history node ls).filterMap Event.reply?).Nodup ∧
    ((history node ls).filterMap Event.final?).Nodup ∧
    Proceeds node s := by
  have hi : Inv (history node ls) s := reaches_inv h
  obtain ⟨hinside, hleft⟩ := hi.running_cases
  have hone : s.inside.length ≤ 1 := by
    unfold State.inside
    split
    · split_ifs
      · exact le_refl 1
      · exact Nat.zero_le 1
    · exact Nat.zero_le 1
  refine ⟨?_, fun i hr hf => ?_, fun hno => ?_, fun a b i state he => reaches_taken h he,
    (reaches_nodup h).1, (reaches_nodup h).2, hi.proceeds⟩
  · have hnone : s.left.filter (fun i => i ∉ finished (history node ls)) = [] := by
      refine List.filter_eq_nil_iff.mpr fun i hl => ?_
      have hf : i ∈ finished (history node ls) := List.mem_filterMap.mpr ⟨_, hleft i hl, rfl⟩
      simpa using hf
    rw [reaches_running h, List.filter_append, hnone, List.append_nil]
    exact (List.length_filter_le _ _).trans hone
  · rw [reaches_running h] at hr
    rcases List.mem_append.mp hr with hr | hr
    · exact absurd hf (hinside i hr)
    · exact hleft i hr
  · rw [reaches_running h, left_eq_nil h hno, List.append_nil]
    exact hone

/-- The two replies of an idle node without links. -/
def sampleXstat : Message :=
  [("response", .one "Success"), ("node", .one "546051"),
    ("var", .many ["RPT_RXKEYED=0", "RPT_TXKEYED=0", "RPT_NUMALINKS=0", "RPT_ALINKS="])]

def sampleSawstat : Message := [("response", .one "Success"), ("node", .one "546051")]

/-- Two calls, of which the second waits, and an `invalidate` while its sample is taken. -/
def sampleLabels : List Label :=
  [.invoke, .observe, .invoke, .reply sampleXstat sampleSawstat "first", .resume "" "", .acquire,
    .observe, .invalidate, .reply sampleXstat sampleSawstat "second", .resume "" ""]

/-- The first call returns a complete snapshot of its replies, and the second one an unknown. -/
theorem observations_sample : ∃ s, Reaches sampleLabels s ∧
    (running (history "546051" sampleLabels)).length ≤ 1 ∧
    ∃ a b i state, history "546051" sampleLabels = a ++ .returned i state :: b ∧
      state.complete = true ∧ Taken "546051" a i state := by
  have hrun : (Lts.exec step {} sampleLabels).map State.calls = some 2 := by decide +kernel
  obtain ⟨s, hs, -⟩ := Option.map_eq_some_iff.mp hrun
  obtain ⟨-, -, hone, htaken, -⟩ := @observations_fresh "546051" s sampleLabels hs
  -- the fifth event is the return of the first call
  have hfifth : ((history "546051" sampleLabels).drop 4).head?.map (fun e => match e with
      | .returned _ state => state.complete
      | _ => false) = some true := by decide +kernel
  obtain ⟨e, he, hc⟩ := Option.map_eq_some_iff.mp hfifth
  obtain ⟨b, hb⟩ := List.head?_eq_some_iff.mp he
  have hsplit := List.take_append_drop 4 (history "546051" sampleLabels)
  rw [hb] at hsplit
  cases e with
  | returned i state =>
    exact ⟨s, hs, hone (by simp [sampleLabels]), _, b, i, state, hsplit.symm, hc,
      htaken _ b i state hsplit.symm⟩
  | _ => cases hc

/-- An `invalidate` while an observation is in progress that fails. -/
def failedLabels : List Label :=
  [.invoke, .observe, .invalidate, .fail (.error (.py .osError)), .resume "" "uuid"]

/-- A call that is cancelled twice, and the next one. -/
def cancelledTwice : List Label := [.invoke, .observe, .stop, .abandon, .invoke, .observe]

/-- **What does not hold**: a failed observation hides the `invalidate` in its window, and where
`wait_for` leaves a cancelled one behind there are two at a time. -/
theorem epoch_hidden_and_overlap :
    (¬ ∀ (node : String) (s : State) (ls : List Label), Reaches ls s →
      ∀ (a b c d : List Event) (i : ℕ) (r : Ending) (state : NodeState), history node ls =
        a ++ .opened i :: (b ++ r.event i :: (c ++ .returned i state :: d)) → .invalidated ∈ b →
          state.reasons = ["STALE_CONNECTION_EPOCH"]) ∧
    ¬ ∀ (node : String) (s : State) (ls : List Label), Reaches ls s →
      (running (history node ls)).length ≤ 1 := by
  constructor
  · intro hall
    have hrun : (Lts.exec step {} failedLabels).isSome = true := by decide +kernel
    obtain ⟨s, hs⟩ := Option.isSome_iff_exists.mp hrun
    have hr := hall "546051" s failedLabels hs [.invoked 0] [.invalidated] [] [] 0
      (.raised (.error (.py .osError)))
      (unknownState "546051" (some "uuid") "AMI_OBSERVATION_UNAVAILABLE" "") rfl (by decide)
    exact absurd hr (by decide)
  · intro hall
    have hrun : (Lts.exec step {} cancelledTwice).isSome = true := by decide +kernel
    obtain ⟨s, hs⟩ := Option.isSome_iff_exists.mp hrun
    exact absurd (hall "546051" s cancelledTwice hs) (by decide +kernel)

end Observer

end Asl3
