import Asl3Api.Runs.History

/-!
# Control writes

* `committed_of_write`, `commit_of_committed`, `commit_before_write`: a write comes right after the
  commit of its barrier;
* **`control_written_at_most_once`**: no operation is written twice, over any history;
* **`dispatch_status_truthful`**: what the stored status says about the wire.
-/

set_option autoImplicit false

namespace Asl3

open Py Ledger

variable {node : String} {ls : List Label} {s s' : Sys} {id actionId payload : String}

/-- A write is the stretch of a worker from the place after the barrier. -/
theorem committed_of_write {l : Label} {out : List Event} (hdo : Does node s l s' out)
    (hw : .wrote id actionId payload ∈ out) :
    ∃ p w op command, s.life = .up p ∧ p.tasks = [w] ∧ w.id = id ∧
      w.pc = .dispatching op command (.committed actionId payload) := by
  cases hdo with
  | @worked p p' w doc i t' n hs ht hd hf hst =>
    have hnot : .wrote id actionId payload ∉ Execute.ending w n := by
      unfold Execute.ending
      cases n with
      | goes w' => dsimp only; split_ifs <;> simp
      | ended => simp
      | dropped => simp
    rcases List.mem_append.mp hw with hm | hm
    · rcases opening_cases with h | ⟨h, -⟩ | ⟨_, _, _, h, -⟩ | ⟨op, command, a, q, h, hpc, -⟩ |
        ⟨_, _, _, _, _, h, -⟩
      all_goals rw [h] at hm
      · cases hm
      · simp at hm
      · simp at hm
      · simp only [List.mem_singleton, Event.wrote.injEq] at hm
        obtain ⟨rfl, rfl, rfl⟩ := hm
        exact ⟨p, w, op, command, hs, ht, rfl, hpc⟩
      · simp at hm
    · exact absurd hm hnot
  | crashed => simp at hw
  | _ => cases hw

/-- The step to the place after the barrier is the commit of the barrier. -/
theorem commit_of_committed {l : Label} {out : List Event} (hdo : Does node s l s' out)
    (hi : Inv node s) {p' : Platform} {w' : Worker} {op : Operation} {command : String} (hp' : s'.life = .up p')
    (hw' : w' ∈ p'.tasks) (hpc' : w'.pc = .dispatching op command (.committed actionId payload)) :
    ∃ p env doc doc', s.life = .up p ∧ l = .worker w'.id (.action actionId env) ∧
      out = [.crossed w'.id] ∧ get s.table node w'.id = some doc ∧
      doc.dispatchStatus = .queued ∧
      commandFor node doc.kind.name (.dict doc.request) = .ok command ∧
      AMISession.encode (Dispatch.controlFields command) actionId = .ok payload ∧
      get s'.table node w'.id = some doc' ∧ SameIdentity doc doc' ∧
      doc'.dispatchStatus = .dispatchStarted := by
  have hatomic : w'.pc.atomic = true := by
    rw [hpc']
    rfl
  cases hdo with
  | idle hq =>
    have hquiet := List.all_eq_true.mp (hq p' hp') w' hw'
    rw [hatomic] at hquiet
    cases hquiet
  | started hv hn hl => cases hp'
  | recovered hs hd ht => cases hp'
  | abandoned hs => cases hp'
  | crashed => cases hp'
  | ready hs => cases hp'; cases hw'
  | admitted hs hr ht hnew hx hv =>
    cases hp'
    rw [List.mem_singleton.mp hw'] at hpc'
    cases hpc'
  | close hs hq =>
    cases hp'
    obtain ⟨w, hw, rfl⟩ := List.mem_map.mp hw'
    have hquiet := List.all_eq_true.mp hq w hw
    rw [show w.pc.atomic = true from hatomic] at hquiet
    cases hquiet
  | @closed p hs hc ht =>
    cases hp'
    have hnil : p.closed.tasks = [] := ht
    rw [hnil] at hw'
    cases hw'
  | @worked p q w doc i t' n hs ht hd hf hst =>
    cases hp'
    have hq : q.tasks = [w] := hst.tasks.trans ht
    cases n with
    | ended => rw [settle_ended hq] at hw'; cases hw'
    | dropped => rw [settle_dropped hq] at hw'; cases hw'
    | goes v =>
      rw [settle_goes hq, List.mem_singleton] at hw'
      subst hw'
      have hrun := hi.life
      rw [hs] at hrun
      have hn : p.node = node := hrun.number
      subst hn
      have ha := hf.agrees
      cases hst with
      | @crossed op₁ command₁ a q₁ env hpc hst hr he hqd =>
        cases hpc'
        rw [hpc] at ha
        refine ⟨p, env, doc, _, hs, rfl, output_crossed hst rfl, hd, hqd, ?_, he,
          get_setDocument_self hd, .merge _ _ _, rfl⟩
        rw [← hf.node]
        exact ha.2.1
      | session hpc hm =>
        cases hpc'
        exact absurd rfl (hm.notCommitted actionId payload)
      | @acked op₁ command₁ response env deadline hpc hst hrej hok =>
        dsimp only at hpc'
        split_ifs at hpc'
      | _ => cases hpc'

/-- **The step right before a write** is the commit of its barrier. -/
theorem commit_before_write {pre : List Label} {l : Label} {a b : Sys} (ha : Reaches node pre a)
    (hstep : a.step node l = some b) (hw : .wrote id actionId payload ∈ a.output l) :
    ∃ pre' b p p' env doc doc' command, pre = pre' ++ [.worker id (.action actionId env)] ∧
      Reaches node pre' b ∧ b.life = .up p ∧ a.life = .up p' ∧
      get b.table node id = some doc ∧ doc.dispatchStatus = .queued ∧
      get a.table node id = some doc' ∧ SameIdentity doc doc' ∧
      doc'.dispatchStatus = .dispatchStarted ∧
      commandFor node doc.kind.name (.dict doc.request) = .ok command ∧
      AMISession.encode (Dispatch.controlFields command) actionId = .ok payload := by
  obtain ⟨p', w, op, command, hp', ht, rfl, hpc⟩ :=
    committed_of_write ((reaches_inv ha).does hstep) hw
  -- the run up to the write is not empty, and its last step is the commit
  rcases List.eq_nil_or_concat pre with rfl | ⟨pre', l', rfl⟩
  · cases ha
    cases hp'
  rw [List.concat_eq_append] at *
  obtain ⟨b, hb, hlast⟩ := Lts.exec_snoc.mp ha
  have hib := reaches_inv hb
  obtain ⟨p, env, doc, doc', hpb, rfl, -, hd, hq, hcmd, he, hd', hsame, hq'⟩ :=
    commit_of_committed (hib.does hlast) hib hp' (mem_of_tasks ht) hpc
  exact ⟨pre', b, p, p', env, doc, doc', command, rfl, hb, hpb, hp', hd, hq, hd', hsame, hq', hcmd,
    he⟩

/-- **At-most-once control write.** Over a whole history each operation is written at most once. The
step right before a write is the commit of its barrier, by the same worker, which moved the row from
`QUEUED` to `DISPATCH_STARTED`; what is written is the command of that row. -/
theorem control_written_at_most_once (h : Reaches node ls s) :
    (∀ id, writes (history node ls) id ≤ 1) ∧
    ∀ pre l post a id actionId payload, ls = pre ++ l :: post → Reaches node pre a →
      .wrote id actionId payload ∈ a.output l →
      ∃ pre' b p p' env doc doc' command, pre = pre' ++ [.worker id (.action actionId env)] ∧
        Reaches node pre' b ∧ b.life = .up p ∧ a.life = .up p' ∧
        get b.table node id = some doc ∧ doc.dispatchStatus = .queued ∧
        get a.table node id = some doc' ∧ SameIdentity doc doc' ∧
        doc'.dispatchStatus = .dispatchStarted ∧
        commandFor node doc.kind.name (.dict doc.request) = .ok command ∧
        AMISession.encode (Dispatch.controlFields command) actionId = .ok payload := by
  refine ⟨fun id => ?_, ?_⟩
  · have hseen := reaches_seen h
    cases hg : get s.table node id with
    | none => rw [(hseen.absent id hg).2]; exact Nat.zero_le 1
    | some doc => exact (hseen.rows id doc hg).once
  · intro pre l post a id actionId payload hls ha hw
    rw [hls] at h
    obtain ⟨a', b', ha', hstep, -⟩ := Lts.exec_mem h
    obtain rfl : a = a' := Option.some.inj (ha.symm.trans ha')
    exact commit_before_write ha hstep hw

/-- The announcement is written once, right after its barrier. -/
theorem control_written_at_most_once_announce :
    ∃ s a actionId payload, Reaches "546051" writeRun s ∧ Reaches "546051" commitRun a ∧
      .wrote "a1" actionId payload ∈ a.output (.worker "a1" .write) ∧
      writes (history "546051" writeRun) "a1" ≤ 1 ∧
      ∃ pre' b p env doc, commitRun = pre' ++ [.worker "a1" (.action actionId env)] ∧
        Reaches "546051" pre' b ∧ b.life = .up p ∧ get b.table "546051" "a1" = some doc ∧
        doc.dispatchStatus = .queued := by
  obtain ⟨s, hs, -⟩ := exists_reaches "546051" writeRun (fun _ => ()) () (by decide +kernel)
  obtain ⟨a, ha, hf⟩ := exists_reaches "546051" commitRun
    (fun s => s.output (.worker "a1" .write))
    [.wrote "a1" "c1" samplePayload] (by decide +kernel)
  have hw : .wrote "a1" "c1" samplePayload ∈ a.output (.worker "a1" .write) := by
    rw [hf]
    exact List.mem_singleton_self _
  obtain ⟨honce, hcommit⟩ := control_written_at_most_once hs
  obtain ⟨pre', b, p, -, env, doc, -, -, hpre, hb, hp, -, hd, hq, -⟩ :=
    hcommit commitRun (.worker "a1" .write) [] a "a1" "c1" _ rfl ha hw
  exact ⟨s, a, "c1", _, hs, ha, hw, honce "a1", pre', b, p, env, doc, hpre, hb, hp, hd, hq⟩

/-- **Dispatch status never lies.** An operation that was written is stored with a status of the far
side of the barrier. A queued or not dispatched one has not been written, and a terminal one that was
not dispatched never will be. An acknowledged or rejected one was answered, after its write and under
its `ActionID`, by a frame that says so. -/
theorem dispatch_status_truthful (h : Reaches node ls s) :
    (∀ id, 0 < writes (history node ls) id → ∃ doc, get s.table node id = some doc ∧
      (doc.dispatchStatus = .dispatchStarted ∨ doc.dispatchStatus = .acknowledged ∨
        doc.dispatchStatus = .rejected ∨ doc.dispatchStatus = .outcomeUnknown)) ∧
    ∀ id doc, get s.table node id = some doc →
      (doc.dispatchStatus = .queued ∨ doc.dispatchStatus = .notDispatched →
        writes (history node ls) id = 0) ∧
      (doc.dispatchStatus = .notDispatched → doc.terminal = true → ∀ ls' s',
        Reaches node (ls ++ ls') s' → writes (history node (ls ++ ls')) id = 0) ∧
      (doc.dispatchStatus = .acknowledged → ∃ response, Replied (history node ls) id response ∧
        response.lookup "response" = some (.one "Success") ∧ commandRejected response = .ok false) ∧
      (doc.dispatchStatus = .rejected → ∃ response, Replied (history node ls) id response ∧
        commandRejected response = .ok true) := by
  have hseen := reaches_seen h
  refine ⟨fun id hpos => ?_, fun id doc hd => ⟨fun hq => ?_, fun hq ht ls' s' hr => ?_, ?_, ?_⟩⟩
  · cases hg : get s.table node id with
    | none =>
      rw [(hseen.absent id hg).2] at hpos
      cases hpos
    | some doc =>
      refine ⟨doc, rfl, ?_⟩
      have hsilent := (hseen.rows id doc hg).silent
      cases hs : doc.dispatchStatus with
      | queued => rw [hsilent (by rw [hs]; rfl)] at hpos; cases hpos
      | notDispatched => rw [hsilent (by rw [hs]; rfl)] at hpos; cases hpos
      | dispatchStarted => exact Or.inl rfl
      | acknowledged => exact Or.inr (Or.inl rfl)
      | rejected => exact Or.inr (Or.inr (Or.inl rfl))
      | outcomeUnknown => exact Or.inr (Or.inr (Or.inr rfl))
  · refine (hseen.rows id doc hd).silent ?_
    rcases hq with hq | hq <;> rw [hq] <;> rfl
  · -- the terminal document is still stored after the longer run
    obtain ⟨m, hm, hr'⟩ := Lts.exec_append.mp hr
    obtain rfl : s = m := Option.some.inj (h.symm.trans hm)
    have hi := reaches_inv h
    obtain ⟨doc', hd', -, hmoves⟩ := (exec_grows hi hr').get (exec_inv hi hr').sound.wf hd
    obtain rfl := eq_of_terminal hmoves ht
    exact ((reaches_seen hr).rows id doc' hd').silent (by rw [hq]; rfl)
  · exact (hseen.rows id doc hd).acknowledged
  · exact (hseen.rows id doc hd).rejected

/-- The acknowledged announcement was answered with a success after its write. -/
theorem dispatch_status_truthful_announce :
    ∃ s doc response, Reaches "546051" announceRun s ∧ get s.table "546051" "a1" = some doc ∧
      doc.dispatchStatus = .acknowledged ∧
      Replied (history "546051" announceRun) "a1" response ∧
      response.lookup "response" = some (.one "Success") := by
  obtain ⟨s, hs, hf⟩ := exists_reaches "546051" announceRun
    (fun s => (get s.table "546051" "a1").map Operation.dispatchStatus) (some .acknowledged)
    (by decide +kernel)
  obtain ⟨doc, hd, hq⟩ := Option.map_eq_some_iff.mp hf
  obtain ⟨response, hr, hok, -⟩ := ((dispatch_status_truthful hs).2 "a1" doc hd).2.2.1 hq
  exact ⟨s, doc, response, hs, hd, hq, hr, hok⟩

end Asl3
