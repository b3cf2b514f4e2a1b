import Mathlib.Data.List.Basic
import Asl3Api.Lib.Coroutine
import Asl3Api.Vnext.Models

/-!
# The tasks of the background (`event_handler.py`, `node_cache.py`, `ami_event_listener.py`)

* `monitoringLoop`, `refreshLoop`, `pollLoop`: the loops of the three tasks;
* `triple_await`, `triple_sleep`: what one `await` leaves behind;
* `Persists`: a task goes on through every error and ends with its cancellation;
* **`loops_persist`**: the three tasks do so, but for an interval that is no number or too large.
-/

set_option autoImplicit false

namespace Asl3

namespace Background

open Coroutine

/-- The steps of the tasks. -/
inductive Step where
  /-- `await self._check_node_changes()`, `await self._fetch()` or `await self._poll_once()` -/
  | work
  /-- `max(0.1, config.events_snapshot_interval)` -/
  | interval
  /-- `await asyncio.sleep(POLL_INTERVAL)` or `await asyncio.sleep(REFRESH_INTERVAL)` -/
  | sleep
  /-- `await asyncio.sleep(…)`, for the interval. -/
  | pause
  deriving DecidableEq, Repr

/-- The steps that ended, with what they raised. -/
abbrev Log := List (Step × Option Raised)

/-- A sleep raises when it is cancelled, and before it begins when the time it ends at is no float; a
setting is read without an `await`. -/
inductive Runs : Step → Log → Option Raised → Log → Prop
  | work (s : Log) (e : Option Raised) : Runs .work s e (s ++ [(.work, e)])
  | interval (s : Log) (e : Option Error) :
    Runs .interval s (e.map .error) (s ++ [(.interval, e.map .error)])
  | slept (s : Log) : Runs .sleep s none (s ++ [(.sleep, none)])
  | woken (s : Log) : Runs .sleep s (some .cancelled) (s ++ [(.sleep, some .cancelled)])
  | paused (s : Log) : Runs .pause s none (s ++ [(.pause, none)])
  | roused (s : Log) : Runs .pause s (some .cancelled) (s ++ [(.pause, some .cancelled)])
  | overflowed (s : Log) : Runs .pause s (some (.error (.py .overflowError)))
    (s ++ [(.pause, some (.error (.py .overflowError)))])

abbrev Task := Prog Step Log Raised

/-! ## The loops -/

/-- The handlers of `monitoring_loop`. -/
def monitoringHandler : Raised → Task
  | .cancelled => .brk
  | .error _ => .act .sleep

/-- `EventHandler.monitoring_loop` -/
def monitoringLoop : Task :=
  .loop (.tryExcept (.seq (.act .work) (.act .sleep)) (fun _ => true) monitoringHandler)

/-- The handlers of `_refresh_loop`. -/
def refreshHandler : Raised → Task
  | .cancelled => .brk
  | .error _ => .skip

/-- `NodeCache._refresh_loop` -/
def refreshLoop : Task :=
  .loop (.tryExcept (.seq (.act .sleep) (.act .work)) (fun _ => true) refreshHandler)

/-- `except Exception` -/
def isException : Raised → Bool
  | .error _ => true
  | .cancelled => false

/-- `AMIEventListener._poll_loop` -/
def pollLoop : Task :=
  .loop (.seq (.tryExcept (.act .work) isException fun _ => .skip)
    (.seq (.act .interval) (.act .pause)))

/-! ## What they keep -/

/-- Nothing was cancelled. -/
def Quiet (s : Log) : Prop := ∀ x ∈ s, x.2 ≠ some .cancelled

/-- The last step was cancelled, and it alone. -/
def Ended (s : Log) : Prop := ∃ pre a, s = pre ++ [(a, some .cancelled)] ∧ Quiet pre

/-- What the work raised, in order. -/
def works (s : Log) : List (Option Raised) :=
  s.filterMap fun x => if x.1 = .work then some x.2 else none

/-- A task goes on through every error, and unless `Dies` it ends with its cancellation and does
nothing after it. -/
structure Persists (p : Task) (Dies : Outcome Raised → Log → Prop) : Prop where
  ends : ∀ o s, Exec Runs p [] o s → Ended s ∨ Quiet s ∧ (o = .pending ∨ Dies o s)
  goesOn : ∀ es : List (Option Error), ∃ s, Exec Runs p [] .pending s ∧ Quiet s ∧
    works s = es.map (Option.map .error)

/-- What holds behind a step. -/
def Waited : Outcome Raised → Log → Prop
  | .raised .cancelled, s => Ended s
  | .broke, _ => False
  | _, s => Quiet s

/-- What holds wherever a loop stops. -/
def Stands (Dies : Outcome Raised → Log → Prop) (o : Outcome Raised) (s : Log) : Prop :=
  Ended s ∨ Quiet s ∧ (o = .pending ∨ Dies o s)

section

variable {a : Step} {s : Log} {Dies : Outcome Raised → Log → Prop}

theorem Quiet.snoc {e : Option Raised} (h : Quiet s) (he : e ≠ some .cancelled) :
    Quiet (s ++ [(a, e)]) := by
  intro x hx
  rw [List.mem_append, List.mem_singleton] at hx
  rcases hx with hx | rfl
  · exact h x hx
  · exact he

theorem Quiet.ends (h : Quiet s) : Ended (s ++ [(a, some .cancelled)]) := ⟨s, a, rfl, h⟩

theorem quiet_nil : Quiet [] := fun _ h => by cases h

theorem Runs.log {e : Option Raised} {s' : Log} (h : Runs a s e s') : s' = s ++ [(a, e)] := by
  cases h <;> rfl

theorem triple_await : Triple Runs Quiet (.act a) Waited := by
  refine .act (fun s h => h) (fun s s' h hr => ?_) fun s e s' h hr => ?_
  · rw [hr.log]
    exact h.snoc (by rintro ⟨⟩)
  · rw [hr.log]
    cases e with
    | cancelled => exact h.ends
    | error e => exact h.snoc (by rintro ⟨⟩)

/-- A sleep raises no error, so that it ends a round or the loop. -/
theorem triple_sleep : Triple Runs Quiet (.act .sleep) (InLoop Quiet (Stands Dies)) := by
  refine .act (fun s h => Or.inr ⟨h, Or.inl rfl⟩) (fun s s' h hr => ?_) fun s e s' h hr => ?_
  · cases hr
    exact h.snoc (by rintro ⟨⟩)
  · cases hr
    exact Or.inl h.ends

/-- Two steps, one after the other. -/
theorem triple_pair {a b : Step} : Triple Runs Quiet (.seq (.act a) (.act b)) Waited := by
  refine .seq (M := Quiet) (triple_await.conseq (fun _ h => h) fun o s h => ?_) triple_await
  cases o <;> exact h

/-- A loop whose exceptions are all handled ends in the handlers. -/
theorem triple_handled {p : Task} {h : Raised → Task} (hp : Triple Runs Quiet p Waited)
    (hcancelled : Triple Runs Ended (h .cancelled) (InLoop Quiet (Stands fun _ _ => False)))
    (herror : ∀ e, Triple Runs Quiet (h (.error e)) (InLoop Quiet (Stands fun _ _ => False))) :
    Triple Runs Quiet (.loop (.tryExcept p (fun _ => true) h)) (Stands fun _ _ => False) := by
  refine .loop (.tryExcept (R := fun e => Waited (.raised e))
    (hp.conseq (fun _ h => h) fun o s h => ?_) fun e _ => ?_)
  · cases o with
    | pending => exact Or.inr ⟨h, Or.inl rfl⟩
    | done => exact h
    | broke => exact h.elim
    | raised e => exact h
  · cases e with
    | cancelled => exact hcancelled
    | error e => exact herror e

theorem triple_monitoringLoop : Triple Runs Quiet monitoringLoop (Stands fun _ _ => False) :=
  triple_handled triple_pair (.brk (fun _ h => Or.inl h) fun _ h => Or.inl h) fun _ => triple_sleep

theorem triple_refreshLoop : Triple Runs Quiet refreshLoop (Stands fun _ _ => False) :=
  triple_handled triple_pair (.brk (fun _ h => Or.inl h) fun _ h => Or.inl h) fun _ =>
    .skip (fun _ h => Or.inr ⟨h, Or.inl rfl⟩) fun _ h => h

/-- The interval of the poll cannot be read, or is too large. -/
def BadInterval (o : Outcome Raised) (s : Log) : Prop :=
  ∃ pre e, o = .raised (.error e) ∧ (s = pre ++ [(.interval, some (.error e))] ∨
    s = pre ++ [(.pause, some (.error e))] ∧ e = .py .overflowError)

theorem triple_pause : Triple Runs Quiet (.act .pause) (InLoop Quiet (Stands BadInterval)) := by
  refine .act (fun s h => Or.inr ⟨h, Or.inl rfl⟩) (fun s s' h hr => ?_) fun s e s' h hr => ?_
  · cases hr
    exact h.snoc (by rintro ⟨⟩)
  · cases hr with
    | roused => exact Or.inl h.ends
    | overflowed =>
      exact Or.inr ⟨h.snoc (by rintro ⟨⟩), Or.inr ⟨s, _, rfl, Or.inr ⟨rfl, rfl⟩⟩⟩

theorem triple_pollLoop : Triple Runs Quiet pollLoop (Stands BadInterval) := by
  refine .loop (.seq (M := Quiet) ?_ (.seq (M := Quiet) (.act ?_ ?_ ?_) triple_pause))
  · refine .tryExcept (R := fun _ => Quiet) (triple_await.conseq (fun _ h => h) fun o s h => ?_)
      fun e _ => .skip (fun s h => Or.inr ⟨h, Or.inl rfl⟩) fun s h => h
    cases o with
    | pending => exact Or.inr ⟨h, Or.inl rfl⟩
    | done => exact h
    | broke => exact h.elim
    | raised e =>
      cases e with
      | cancelled => exact Or.inl h
      | error e => exact h
  · exact fun s h => Or.inr ⟨h, Or.inl rfl⟩
  · intro s s' h hr
    rw [hr.log]
    exact h.snoc (by rintro ⟨⟩)
  · intro s e s' h hr
    rw [hr.log]
    cases e with
    | cancelled => exact Or.inl h.ends
    | error e => exact Or.inr ⟨h.snoc (by rintro ⟨⟩), Or.inr ⟨s, e, rfl, Or.inl rfl⟩⟩

/-! ## The rounds -/

theorem works_snoc {e : Option Raised} :
    works (s ++ [(a, e)]) = works s ++ if a = .work then [e] else [] := by
  rw [works, List.filterMap_append]
  by_cases h : a = .work <;> simp [works, h]

/-- A round with the work that raises `e`, or returns. -/
def Round (body : Task) (e : Option Error) : Prop :=
  ∀ s, ∃ s', Exec Runs body s .done s' ∧ (Quiet s → Quiet s') ∧ works s' = works s ++ [e.map .error]

theorem raised_error {e : Option Error} : e.map Raised.error ≠ some .cancelled := by
  cases e <;> rintro ⟨⟩

/-- **One round after another.** -/
theorem goesOn_of_rounds {body : Task} (h : ∀ e, Round body e) (es : List (Option Error))
    (s : Log) : ∃ s', Exec Runs (.loop body) s .pending s' ∧ (Quiet s → Quiet s') ∧
      works s' = works s ++ es.map (Option.map .error) := by
  induction es generalizing s with
  | nil => exact ⟨s, .pause _ s, id, (List.append_nil _).symm⟩
  | cons e es ih =>
    obtain ⟨m, hm, hq, hw⟩ := h e s
    obtain ⟨s', hs, hq', hw'⟩ := ih m
    refine ⟨s', .again hm hs, hq' ∘ hq, ?_⟩
    rw [hw', hw, List.map_cons, List.append_assoc, List.singleton_append]

theorem round_monitoring (e : Option Error) :
    Round (.tryExcept (.seq (.act .work) (.act .sleep)) (fun _ => true) monitoringHandler) e := by
  intro s
  refine ⟨s ++ [(.work, e.map .error)] ++ [(.sleep, none)], ?_, fun h => ?_, ?_⟩
  · cases e with
    | none =>
      exact .passes (.seq (.returns (.work s none)) (.returns (.slept _))) (by rintro e ⟨⟩)
    | some e =>
      exact .caught (.stops (.raises (.work s (some (.error e)))) (by rintro ⟨⟩)) rfl
        (.returns (.slept _))
  · exact (h.snoc raised_error).snoc (by rintro ⟨⟩)
  · rw [works_snoc, works_snoc, if_pos rfl, if_neg (by decide), List.append_nil]

theorem round_refresh (e : Option Error) :
    Round (.tryExcept (.seq (.act .sleep) (.act .work)) (fun _ => true) refreshHandler) e := by
  intro s
  refine ⟨s ++ [(.sleep, none)] ++ [(.work, e.map .error)], ?_, fun h => ?_, ?_⟩
  · cases e with
    | none =>
      exact .passes (.seq (.returns (.slept s)) (.returns (.work _ none))) (by rintro e ⟨⟩)
    | some e =>
      exact .caught (.seq (.returns (.slept s)) (.raises (.work _ (some (.error e))))) rfl (.skip _)
  · exact (h.snoc (by rintro ⟨⟩)).snoc raised_error
  · rw [works_snoc, works_snoc, if_pos rfl, if_neg (by decide), List.append_nil]

theorem round_poll (e : Option Error) :
    Round (.seq (.tryExcept (.act .work) isException fun _ => .skip)
      (.seq (.act .interval) (.act .pause))) e := by
  intro s
  refine ⟨s ++ [(.work, e.map .error)] ++ [(.interval, none)] ++ [(.pause, none)], ?_,
    fun h => ?_, ?_⟩
  · refine .seq ?_ (.seq (.returns (.interval _ none)) (.returns (.paused _)))
    cases e with
    | none => exact .passes (.returns (.work s none)) (by rintro e ⟨⟩)
    | some e => exact .caught (.raises (.work s (some (.error e)))) rfl (.skip _)
  · exact ((h.snoc raised_error).snoc (by rintro ⟨⟩)).snoc (by rintro ⟨⟩)
  · rw [works_snoc, works_snoc, works_snoc, if_pos rfl, if_neg (by decide), if_neg (by decide),
      List.append_nil, List.append_nil]

theorem persists {body : Task} (ht : Triple Runs Quiet (.loop body) (Stands Dies))
    (hr : ∀ e, Round body e) : Persists (.loop body) Dies := by
  constructor
  case ends => exact fun o s h => ht [] o s quiet_nil h
  case goesOn =>
    intro es
    obtain ⟨s, hs, hq, hw⟩ := goesOn_of_rounds hr es []
    exact ⟨s, hs, hq quiet_nil, hw⟩

end

/-- **The tasks of the background.** Each goes on whatever its work raises, ends with its
cancellation and does nothing after it; the poll of the listener ends with an interval that is no
number or too large as well. -/
theorem loops_persist : Persists monitoringLoop (fun _ _ => False) ∧
    Persists refreshLoop (fun _ _ => False) ∧ Persists pollLoop BadInterval :=
  ⟨persists triple_monitoringLoop round_monitoring, persists triple_refreshLoop round_refresh,
    persists triple_pollLoop round_poll⟩

end Background

end Asl3
