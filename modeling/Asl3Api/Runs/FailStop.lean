import Asl3Api.Runs.History
import Asl3Api.Vnext.Api

/-!
# Fail-stop

* `Label.sameProcess`, `DoesUp`: the steps a process takes while it lives;
* **`fail_stop`**: after a failed save, or after `close` is called, a process admits nothing, crosses
  no barrier and writes nothing.
-/

set_option autoImplicit false

namespace Asl3

open Py Ledger

/-- A step of the process that is up: no start of another one, and no death. -/
def Label.sameProcess : Label → Bool
  | .start _ _ => false
  | .crash => false
  | _ => true

/-- A save has failed, or `close` has been called. -/
def Platform.stopped (p : Platform) : Prop := p.healthy = false ∨ p.closing = true

variable {node : String} {s s' : Sys} {es out : List Event}

/-- What one step of the process that is up can do. -/
inductive DoesUp (node : String) (t : Table) (p : Platform) :
    Label → Table → Platform → List Event → Prop
  | idle {l : Label} : DoesUp node t p l t p []
  | admitted {kind credential : String} {request : PyValue} {key : Option String} {env : Env}
      {op : Operation} (hr : p.requireLedger = .ok ()) :
      DoesUp node t p (.request kind request credential key env)
        (t ++ [newRow node kind request credential key op])
        { p with busyOperationId := some op.id, tasks := [Platform.newWorker op.id] } []
  | worked {p' : Platform} {w : Worker} {doc : Operation} {i : Input} {t' : Table} {n : Next}
      (ht : p.tasks = [w]) (hst : Stretch p t w doc i p' t' n) :
      DoesUp node t p (.worker w.id i) t' (p'.settle w n) (Execute.output p w i n)
  | close (hq : p.quiet = true) : DoesUp node t p .close t p.close []
  | closed (ht : p.tasks = []) : DoesUp node t p .closed t p.closed []

theorem Does.up {l : Label} (hdo : Does node s l s' out) (hl : l.sameProcess = true) {p : Platform}
    (hp : s.life = .up p) :
    ∃ p', s'.life = .up p' ∧ DoesUp node s.table p l s'.table p' out := by
  cases hdo with
  | idle hq => exact ⟨p, hp, .idle⟩
  | started hv hn hlock => cases hl
  | crashed => cases hl
  | recovered hs hd ht => rw [hp] at hs; cases hs
  | abandoned hs => rw [hp] at hs; cases hs
  | ready hs => rw [hp] at hs; cases hs
  | admitted hs hr ht hnew hx hv =>
    rw [hp] at hs
    cases hs
    exact ⟨_, rfl, .admitted hr⟩
  | worked hs ht hd hf hst =>
    rw [hp] at hs
    cases hs
    exact ⟨_, rfl, .worked ht hst⟩
  | close hs hq =>
    rw [hp] at hs
    cases hs
    exact ⟨_, rfl, .close hq⟩
  | closed hs hc ht =>
    rw [hp] at hs
    cases hs
    exact ⟨_, rfl, .closed ht⟩

theorem eventsFrom_snoc {ls : List Label} {m : Sys} {l : Label}
    (h : Lts.exec (Sys.step node) s ls = some m) :
    eventsFrom node s (ls ++ [l]) = eventsFrom node s ls ++ m.output l :=
  Lts.trace_snoc h

/-- The error of a runtime that has stopped. -/
theorem requireLedger_stopped {p : Platform} (h : p.stopped) :
    p.requireLedger = .error (if p.ledger = false ∨ p.owner = false ∨ p.closing then
      Platform.controlUnavailable else Platform.ledgerUnavailable) := by
  unfold Platform.requireLedger
  by_cases hc : p.ledger = false ∨ p.owner = false ∨ p.closing = true
  · rw [if_pos hc, if_pos hc]
  · rw [if_neg hc, if_neg hc]
    rcases h with hh | hcl
    · rw [if_pos hh]
    · exact absurd (Or.inr (Or.inr hcl)) hc

/-- **A stopped runtime stays stopped**, keeps its rows, crosses no barrier and writes nothing. -/
theorem Does.stopped {l : Label} (hdo : Does node s l s' out) (hi : Inv node s)
    (hl : l.sameProcess = true) {p : Platform} (hp : s.life = .up p) (hstop : p.stopped) :
    ∃ p', s'.life = .up p' ∧ (p.healthy = false → p'.healthy = false) ∧
      (p.closing = true → p'.closing = true) ∧ s'.table.map Row.id = s.table.map Row.id ∧
      ∀ id, .crossed id ∉ out ∧ ∀ actionId payload, .wrote id actionId payload ∉ out := by
  have hrun := hi.life
  rw [hp] at hrun
  have hreq := requireLedger_stopped hstop
  obtain ⟨p₂, hp₂, hup⟩ := hdo.up hl hp
  refine ⟨p₂, hp₂, ?_⟩
  generalize s'.table = t₂ at hup ⊢
  cases hup with
  | idle => exact ⟨id, id, rfl, by simp⟩
  | admitted hr =>
    rw [hreq] at hr
    cases hr
  | close hq => exact ⟨id, fun _ => rfl, rfl, by simp⟩
  | closed ht => exact ⟨id, id, rfl, by simp⟩
  | @worked p' w doc i t' n ht hst =>
    have hmem := mem_of_tasks ht
    -- an unhealthy runtime has no worker, so this one is closing
    have hc : p.closing = true := by
      rcases hstop with hh | hc
      · rw [hrun.stopped hh] at ht
        cases ht
      · exact hc
    refine ⟨?_, ?_, ?_, fun id => ⟨fun hm => ?_, fun actionId payload hm => ?_⟩⟩
    · intro hh
      rw [hrun.stopped hh] at ht
      cases ht
    · intro _
      rw [settle_closing, hst.closing, hc]
    · cases hst with
      | crossed hpc hst' hr he hq => exact ids_setDocument
      | acked hpc hst' hrej hok => exact ids_setDocument
      | saved hi' hfin => exact ids_setDocument
      | _ => rfl
    · obtain ⟨-, w', rfl, hst0, hst1⟩ := crossed_mem_output hm
      cases hst with
      | crossed hpc hst' hr he hq =>
        rw [hreq] at hr
        cases hr
      | _ =>
        dsimp only at hst1
        rw [hst0] at hst1
        cases hst1
    · have hpos : 0 < writes (Execute.output p w i n) id :=
        writes_pos_of_sent ⟨payload, hm⟩
      rcases writes_output with h0 | ⟨-, -, op, command, a, q, hpc⟩
      · rw [h0] at hpos
        cases hpos
      · exact hrun.uncommitted hc w hmem op command a q hpc

/-- **Fail-stop.** From a state in which a save has failed or `close` has been called, the process
admits no operation, no barrier is crossed and nothing is written, and every read and every admission
ends in a 503. -/
theorem fail_stop {ls : List Label} {p : Platform} (h : Reaches node ls s) (hp : s.life = .up p)
    (hstop : p.stopped) :
    ∀ ls' s', (∀ l ∈ ls', l.sameProcess = true) → Lts.exec (Sys.step node) s ls' = some s' →
      s'.table.map Row.id = s.table.map Row.id ∧
      (∀ id, .crossed id ∉ eventsFrom node s ls' ∧
        ∀ actionId payload, .wrote id actionId payload ∉ eventsFrom node s ls') ∧
      ∃ p' e, s'.life = .up p' ∧ p'.stopped ∧ e.status = 503 ∧ p'.requireLedger = .error e ∧
        (∀ kind request credential key env,
          p'.admitOperation s'.table kind request credential key env =
            (.error (.problem e), p', s'.table)) ∧
        (∀ limit offset env, Api.operations p' s'.table limit offset env = .error (.problem e)) ∧
        ∀ id env, Api.operation p' s'.table id env = .error (.problem e) := by
  intro ls' s' hls hr
  have hinv := reaches_inv h
  have key : s'.table.map Row.id = s.table.map Row.id ∧
      (∀ id, .crossed id ∉ eventsFrom node s ls' ∧
        ∀ actionId payload, .wrote id actionId payload ∉ eventsFrom node s ls') ∧
      ∃ p', s'.life = .up p' ∧ p'.stopped := by
    revert hls
    refine Lts.exec_induction (fun ls' s' => (∀ l ∈ ls', l.sameProcess = true) →
      s'.table.map Row.id = s.table.map Row.id ∧
      (∀ id, .crossed id ∉ eventsFrom node s ls' ∧
        ∀ actionId payload, .wrote id actionId payload ∉ eventsFrom node s ls') ∧
      ∃ p', s'.life = .up p' ∧ p'.stopped) ?_ ?_ hr
    · intro _
      exact ⟨rfl, fun id => ⟨List.not_mem_nil, fun _ _ => List.not_mem_nil⟩, p, hp, hstop⟩
    · intro ls₁ a l b ha ih hs hls
      obtain ⟨hids, hev, q, hq, hqs⟩ := ih fun x hx => hls x (List.mem_append_left _ hx)
      have hia := exec_inv hinv ha
      obtain ⟨q', hq', hh, hc, hids', hev'⟩ :=
        (hia.does hs).stopped hia (hls l (List.mem_append_right _ (List.mem_singleton_self l))) hq hqs
      refine ⟨hids'.trans hids, fun id => ?_, q', hq', hqs.imp hh hc⟩
      rw [eventsFrom_snoc ha]
      refine ⟨?_, fun actionId payload => ?_⟩
      · rw [List.mem_append]
        exact not_or.mpr ⟨(hev id).1, (hev' id).1⟩
      · rw [List.mem_append]
        exact not_or.mpr ⟨(hev id).2 actionId payload, (hev' id).2 actionId payload⟩
  obtain ⟨hids, hev, p', hp', hs'⟩ := key
  have hreq := requireLedger_stopped hs'
  refine ⟨hids, hev, p', _, hp', hs', ?_, hreq, fun kind request credential key env => ?_,
    fun limit offset env => ?_, fun id env => ?_⟩
  · split_ifs <;> rfl
  · unfold Platform.admitOperation
    rw [hreq]
  · unfold Api.operations
    rw [hreq]
  · unfold Api.operation
    rw [hreq]

/-- `close` is called while the announcement waits for its snapshot. -/
theorem fail_stop_observing :
    ∃ s p s', Reaches "546051" (admitRun ++ [.worker "a1" (.run {}), .close]) s ∧ s.life = .up p ∧
      p.closing = true ∧
      Lts.exec (Sys.step "546051") s [.worker "a1" .cancel, .worker "a1" (.run {})] = some s' ∧
      s'.table.map Row.id = s.table.map Row.id ∧
      ∃ p' e, s'.life = .up p' ∧ e.status = 503 ∧ ∀ kind request credential key env,
        p'.admitOperation s'.table kind request credential key env =
          (.error (.problem e), p', s'.table) := by
  obtain ⟨s, s', hs, hr, hf, -⟩ := exists_reaches_append "546051"
    (admitRun ++ [.worker "a1" (.run {}), .close]) [.worker "a1" .cancel, .worker "a1" (.run {})]
    (fun s => s.upWith Platform.closing) (fun _ => ()) true () (by decide +kernel) (by decide +kernel)
  obtain ⟨p, hp, hc⟩ := Sys.exists_up hf
  obtain ⟨hids, -, p', e, hp', -, he, -, hadm, -, -⟩ :=
    fail_stop hs hp (Or.inr hc) _ s' (by decide) hr
  exact ⟨s, p, s', hs, hp, hc, hr, hids, p', e, hp', he, hadm⟩

end Asl3
