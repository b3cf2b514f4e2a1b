import Asl3Api.Runs.Invariant

/-!
# What a run has done

The rows and the workers of a state, against the events of the run that led to it.

* `writes`, `Executing`, `Sent`, `Replied`, `Gated`: what the claims say of a history;
* `RowSeen`, `Pc.Seen`: what a row and a worker say about the history;
* `reaches_induction`: induction along a run from the empty ledger;
* **`reaches_seen`**: every reachable state agrees with the history of its run.
-/

set_option autoImplicit false

namespace Asl3

open Py Ledger

/-! ## Histories -/

/-- The control write of an operation. -/
def Event.isWrite (id : String) : Event → Bool
  | .wrote id' _ _ => id' = id
  | _ => false

/-- The number of control writes of an operation. -/
def writes (es : List Event) (id : String) : Nat := es.countP (Event.isWrite id)

/-- The body of `execute` has been entered and has not been left. -/
def Executing (es : List Event) (id : String) : Prop :=
  ∃ a b, es = a ++ .entered id :: b ∧ .ended id ∉ b ∧ .died ∉ b

/-- The control action has been written under this `ActionID`. -/
def Sent (es : List Event) (id actionId : String) : Prop :=
  ∃ payload, .wrote id actionId payload ∈ es

/-- After the control write, a frame with the `ActionID` of that write has been read. -/
def Replied (es : List Event) (id : String) (response : Message) : Prop :=
  ∃ actionId payload a b c,
    es = a ++ .wrote id actionId payload :: (b ++ .answered id response :: c) ∧
      response.lookup "actionid" = some (.one actionId)

/-- A snapshot lets a control through: the traffic is eligible, and a link operation is not
satisfied already. -/
def Clears (cfg : Config) (op : Operation) (before : NodeState) : Prop :=
  TrafficPolicy.Eligible cfg op.kind before ∧
    (op.kind ≠ .announce → effectStatus op before ≠ .ok .observedSatisfied)

/-- In the execution that goes on, a snapshot was requested and let the operation through. -/
def Gated (cfg : Config) (node : String) (es : List Event) (op : Operation) : Prop :=
  ∃ a b c o before, es = a ++ .entered op.id :: (b ++ .sampled op.id o before :: c) ∧
    (.ended op.id ∉ b ++ c ∧ .died ∉ b ++ c) ∧
    (∃ now uuid, Observer.snapshot node o now uuid = .ok before) ∧ Clears cfg op before

section

variable {es out : List Event} {id : String}

@[simp] theorem writes_nil : writes [] id = 0 := rfl

@[simp] theorem writes_append : writes (es ++ out) id = writes es id + writes out id :=
  List.countP_append

theorem writes_pos_of_sent {actionId : String} (h : Sent es id actionId) : 0 < writes es id := by
  obtain ⟨payload, hm⟩ := h
  exact List.countP_pos_iff.mpr ⟨_, hm, by simp [Event.isWrite]⟩

theorem writes_eq_zero (h : ∀ actionId payload, .wrote id actionId payload ∉ out) :
    writes out id = 0 := by
  refine List.countP_eq_zero.mpr fun e he hw => ?_
  cases e with
  | wrote id' actionId payload =>
    have hid : id' = id := by simpa [Event.isWrite] using hw
    exact h actionId payload (hid ▸ he)
  | _ => cases hw

theorem Sent.append {actionId : String} (h : Sent es id actionId) (out : List Event) :
    Sent (es ++ out) id actionId := by
  obtain ⟨payload, hm⟩ := h
  exact ⟨payload, List.mem_append_left out hm⟩

theorem Replied.append {response : Message} (h : Replied es id response) (out : List Event) :
    Replied (es ++ out) id response := by
  obtain ⟨actionId, payload, a, b, c, rfl, ha⟩ := h
  exact ⟨actionId, payload, a, b, c ++ out, by simp, ha⟩

/-- The reply to a control action that has been sent. -/
theorem Sent.replied {actionId : String} {response : Message} (h : Sent es id actionId)
    (ha : response.lookup "actionid" = some (.one actionId)) :
    Replied (es ++ [.answered id response]) id response := by
  obtain ⟨payload, hm⟩ := h
  obtain ⟨a, b, rfl⟩ := List.append_of_mem hm
  exact ⟨actionId, payload, a, b, [], by simp, ha⟩

theorem Gated.append {cfg : Config} {node : String} {op : Operation} (h : Gated cfg node es op)
    (he : .ended op.id ∉ out) (hd : .died ∉ out) : Gated cfg node (es ++ out) op := by
  obtain ⟨a, b, c, o, before, rfl, ⟨hx, hy⟩, hs, hc⟩ := h
  refine ⟨a, b, c ++ out, o, before, by simp, ⟨?_, ?_⟩, hs, hc⟩
  · rw [← List.append_assoc, List.mem_append]
    exact not_or.mpr ⟨hx, he⟩
  · rw [← List.append_assoc, List.mem_append]
    exact not_or.mpr ⟨hy, hd⟩

/-- A snapshot in the execution that goes on. -/
theorem Executing.gated {cfg : Config} {node : String} {op : Operation} {o : Observation}
    {before : NodeState} {now uuid : String} (h : Executing es op.id)
    (hs : Observer.snapshot node o now uuid = .ok before) (hc : Clears cfg op before) :
    Gated cfg node (es ++ [.sampled op.id o before]) op := by
  obtain ⟨a, b, rfl, hb, hb'⟩ := h
  refine ⟨a, b, [], o, before, by simp, ⟨by simpa using hb, by simpa using hb'⟩, ⟨now, uuid, hs⟩, hc⟩

end

/-! ## What rows and workers say about the history -/

/-- The statuses of an operation that has crossed the barrier. -/
def DispatchStatus.crossed : DispatchStatus → Bool
  | .queued => false
  | .notDispatched => false
  | _ => true

theorem Finishes.crossed {a b : DispatchStatus} (h : Finishes a b) : b.crossed = a.crossed := by
  cases h <;> rfl

/-- What a row says about the history. -/
structure RowSeen (es : List Event) (id : String) (doc : Operation) : Prop where
  crossed : .crossed id ∈ es ↔ doc.dispatchStatus.crossed = true
  once : writes es id ≤ 1
  silent : doc.dispatchStatus.crossed = false → writes es id = 0
  acknowledged : doc.dispatchStatus = .acknowledged → ∃ response, Replied es id response ∧
    response.lookup "response" = some (.one "Success") ∧ commandRejected response = .ok false
  rejected : doc.dispatchStatus = .rejected → ∃ response, Replied es id response ∧
    commandRejected response = .ok true

/-- What the place of a worker says about the history. -/
def Pc.Seen (cfg : Config) (node : String) (es : List Event) (id : String) (started : Bool) :
    Pc → Prop
  | .observing _ => Executing es id
  | .dispatching op _ d => (started = false → Gated cfg node es op) ∧
      (∀ actionId payload, d = .committed actionId payload → writes es id = 0 ∧
        ∃ es', es = es' ++ [.crossed id] ∧ Gated cfg node es' op) ∧
      (∀ actionId n, d = .replying actionId n → Sent es id actionId) ∧
      ∀ response, d = .closing (.ok response) → Replied es id response
  | _ => True

/-- A state agrees with the history of the run that led to it. -/
structure Seen (node : String) (es : List Event) (s : Sys) : Prop where
  rows : ∀ id doc, get s.table node id = some doc → RowSeen es id doc
  absent : ∀ id, get s.table node id = none → .crossed id ∉ es ∧ writes es id = 0
  worker : ∀ p, s.life = .up p → ∀ w ∈ p.tasks, w.pc.Seen p.config node es w.id w.started

variable {node : String} {es out : List Event} {id : String} {doc doc' : Operation}

/-- Events of other operations, and events that are no commit and no write, leave a row as it was
seen. -/
theorem RowSeen.append (h : RowSeen es id doc) (hc : .crossed id ∉ out) (hw : writes out id = 0) :
    RowSeen (es ++ out) id doc := by
  refine ⟨?_, ?_, ?_, ?_, ?_⟩
  · rw [List.mem_append, h.crossed]
    exact or_iff_left hc
  · rw [writes_append, hw]
    exact h.once
  · intro hd
    rw [writes_append, hw]
    exact h.silent hd
  · intro hd
    obtain ⟨response, hr, hp⟩ := h.acknowledged hd
    exact ⟨response, hr.append out, hp⟩
  · intro hd
    obtain ⟨response, hr, hp⟩ := h.rejected hd
    exact ⟨response, hr.append out, hp⟩

/-- A last step that keeps the side of the barrier. -/
theorem RowSeen.finish (h : RowSeen es id doc)
    (hf : Finishes doc.dispatchStatus doc'.dispatchStatus)
    (hr : doc'.dispatchStatus = .rejected → ∃ response, Replied es id response ∧
      commandRejected response = .ok true) : RowSeen es id doc' := by
  refine ⟨?_, h.once, ?_, ?_, hr⟩
  · rw [hf.crossed]
    exact h.crossed
  · rw [hf.crossed]
    exact h.silent
  · intro hd
    rw [hd] at hf
    cases hf' : doc.dispatchStatus with
    | acknowledged => exact h.acknowledged hf'
    | _ => rw [hf'] at hf; cases hf

/-! ## The events of a stretch -/

section

variable {p p' : Platform} {t t' : Table} {w : Worker} {i : Input} {n : Next}

/-- The first event of a stretch, and where the worker was. -/
theorem opening_cases :
    Execute.opening p w i = [] ∨
      (Execute.opening p w i = [.entered w.id] ∧ w.pc = .created) ∨
      (∃ o before op, Execute.opening p w i = [.sampled w.id o before] ∧ w.pc = .observing op) ∨
      (∃ op command actionId payload, Execute.opening p w i = [.wrote w.id actionId payload] ∧
        w.pc = .dispatching op command (.committed actionId payload) ∧ i = .write) ∨
      ∃ op command actionId m response, Execute.opening p w i = [.answered w.id response] ∧
        w.pc = .dispatching op command (.replying actionId m) := by
  unfold Execute.opening
  split
  · rename_i hpc
    exact Or.inr (Or.inl ⟨rfl, hpc⟩)
  · rename_i o env op hpc
    cases hs : Observer.snapshot p.node o env.now env.uuid with
    | ok before => exact Or.inr (Or.inr (Or.inl ⟨o, before, op, rfl, hpc⟩))
    | error e => exact Or.inl rfl
  · rename_i op command actionId payload hpc
    exact Or.inr (Or.inr (Or.inr (Or.inl ⟨op, command, actionId, payload, rfl, hpc, rfl⟩)))
  · rename_i f op command actionId m hpc
    exact Or.inr (Or.inr (Or.inr (Or.inr ⟨op, command, actionId, m, f, rfl, hpc⟩)))
  · exact Or.inl rfl

/-- The commit of the barrier is no first event. -/
theorem crossed_notMem_opening : .crossed id ∉ Execute.opening p w i := by
  rcases opening_cases with h | ⟨h, -⟩ | ⟨_, _, _, h, -⟩ | ⟨_, _, _, _, h, -⟩ | ⟨_, _, _, _, _, h, -⟩
  all_goals
    rw [h]
    simp

theorem ended_notMem_opening : .ended id ∉ Execute.opening p w i := by
  rcases opening_cases with h | ⟨h, -⟩ | ⟨_, _, _, h, -⟩ | ⟨_, _, _, _, h, -⟩ | ⟨_, _, _, _, _, h, -⟩
  all_goals
    rw [h]
    simp

theorem died_notMem_opening : .died ∉ Execute.opening p w i := by
  rcases opening_cases with h | ⟨h, -⟩ | ⟨_, _, _, h, -⟩ | ⟨_, _, _, _, h, -⟩ | ⟨_, _, _, _, _, h, -⟩
  all_goals
    rw [h]
    simp

theorem died_notMem_output : .died ∉ Execute.output p w i n := by
  unfold Execute.output Execute.ending
  rw [List.mem_append]
  refine not_or.mpr ⟨died_notMem_opening, ?_⟩
  cases n with
  | goes w' => dsimp only; split_ifs <;> simp
  | ended => simp
  | dropped => simp

/-- A worker that goes on has not ended. -/
theorem ended_notMem_output {w' : Worker} : .ended id ∉ Execute.output p w i (.goes w') := by
  unfold Execute.output Execute.ending
  rw [List.mem_append]
  refine not_or.mpr ⟨ended_notMem_opening, ?_⟩
  dsimp only
  split_ifs <;> simp

/-- Only the stretch that sets `started` commits the barrier, and that of its own worker. -/
theorem crossed_mem_output (h : .crossed id ∈ Execute.output p w i n) :
    id = w.id ∧ ∃ w', n = .goes w' ∧ w.started = false ∧ w'.started = true := by
  unfold Execute.output Execute.ending at h
  rcases List.mem_append.mp h with h | h
  · exact absurd h crossed_notMem_opening
  cases n with
  | goes w' =>
    dsimp only at h
    split_ifs at h with hc
    · exact ⟨by simpa using h, w', rfl, hc⟩
    · cases h
  | ended => simp at h
  | dropped => simp at h

/-- Only the stretch from the place after the barrier writes, and for its own operation. -/
theorem writes_output :
    writes (Execute.output p w i n) id = 0 ∨ id = w.id ∧ i = .write ∧ ∃ op command actionId payload,
      w.pc = .dispatching op command (.committed actionId payload) := by
  have hend : writes (Execute.ending w n) id = 0 := by
    refine writes_eq_zero fun actionId payload hm => ?_
    unfold Execute.ending at hm
    cases n with
    | goes w' => dsimp only at hm; split_ifs at hm <;> simp at hm
    | ended => simp at hm
    | dropped => simp at hm
  unfold Execute.output
  rw [writes_append, hend]
  rcases opening_cases with h | ⟨h, -⟩ | ⟨_, _, _, h, -⟩ | ⟨op, command, actionId, payload, h, hpc, hi⟩ |
    ⟨_, _, _, _, _, h, -⟩
  · exact Or.inl (by rw [h]; rfl)
  · exact Or.inl (by rw [h]; rfl)
  · exact Or.inl (by rw [h]; rfl)
  · by_cases hid : id = w.id
    · exact Or.inr ⟨hid, hi, op, command, actionId, payload, hpc⟩
    · rw [h]
      refine Or.inl (writes_eq_zero fun a q hm => hid ?_)
      simp only [List.mem_singleton, Event.wrote.injEq] at hm
      exact hm.1
  · exact Or.inl (by rw [h]; rfl)

/-! ## What a stretch does to what is seen -/

theorem get_stretch (hst : Stretch p t w doc i p' t' n) (hd : get t p.node w.id = some doc)
    (hne : id ≠ w.id) : get t' p.node id = get t p.node id := by
  cases hst with
  | crossed hpc hs hr he hq => rw [get_setDocument hd, if_neg hne]
  | acked hpc hs hrej hok => rw [get_setDocument hd, if_neg hne]
  | saved hf => rw [get_setDocument hd, if_neg hne]
  | _ => rfl

theorem output_crossed {w' : Worker} {actionId : String} {env : Env} (hs : w.started = false)
    (hs' : w'.started = true) :
    Execute.output p w (.action actionId env) (.goes w') = [.crossed w.id] := by
  simp [Execute.output, Execute.opening, Execute.ending, hs, hs']

theorem output_moves (pc : Pc) :
    Execute.output p w i (.goes { w with pc := pc }) = Execute.opening p w i := by
  unfold Execute.output Execute.ending
  simp

theorem output_wrote {op : Operation} {command actionId payload : String} (pc : Pc)
    (hpc : w.pc = .dispatching op command (.committed actionId payload)) :
    Execute.output p w .write (.goes { w with pc := pc }) = [.wrote w.id actionId payload] := by
  rw [output_moves]
  simp [Execute.opening, hpc]

theorem writes_output_eq_zero (hi : i ≠ .write) : writes (Execute.output p w i n) id = 0 := by
  rcases writes_output with h | ⟨-, h, -⟩
  · exact h
  · exact absurd h hi

/-- A stretch that neither commits the barrier nor writes. -/
theorem RowSeen.goes {w' : Worker} (h : RowSeen es w.id doc) (hi : i ≠ .write)
    (hs : w'.started = w.started) :
    RowSeen (es ++ Execute.output p w i (.goes w')) w.id doc := by
  refine h.append (fun hm => ?_) (writes_output_eq_zero hi)
  obtain ⟨-, v, e, hv, hv'⟩ := crossed_mem_output hm
  rw [← Next.goes.inj e, hs, hv] at hv'
  cases hv'

/-- The end of a worker commits no barrier and writes nothing. -/
theorem RowSeen.ends (h : RowSeen es w.id doc) (hi : i ≠ .write) (hn : n = .ended ∨ n = .dropped) :
    RowSeen (es ++ Execute.output p w i n) w.id doc := by
  refine h.append (fun hm => ?_) (writes_output_eq_zero hi)
  obtain ⟨-, v, rfl, -⟩ := crossed_mem_output hm
  rcases hn with hn | hn <;> cases hn

/-- The row of the worker after its last save. -/
theorem Finish.rowSeen {c : Changes} (hfin : Finish p w c) {now : String} (hf : Fits p.node w doc)
    (hc : Consistent doc) (hs : w.pc.Seen p.config p.node es w.id w.started)
    (h : RowSeen es w.id doc) : RowSeen es w.id (doc.merge c now) := by
  have hm := (hfin.moves hf hc now).1
  have ht : (doc.merge c now).terminal = true := by
    rw [merge_terminal, hfin.terminal]
    rfl
  cases hm with
  | cross ha hb =>
    have hb' : (doc.merge c now).terminal = false := congrArg (fun s => s.2.2) hb
    rw [hb'] at ht
    cases ht
  | acknowledge ha hb =>
    have hb' : (doc.merge c now).terminal = false := congrArg (fun s => s.2.2) hb
    rw [hb'] at ht
    cases ht
  | finish ha hb hfs =>
    refine h.finish hfs fun hr => ?_
    have hag := hf.agrees
    -- only a refusal in a reply is stored as `REJECTED`
    cases hfin with
    | rejected hpc hst hrej =>
      rw [hpc] at hs
      exact ⟨_, hs.2.2.2 _ rfl, hrej⟩
    | unavailable hpc => cases hr
    | satisfied hpc hk he => cases hr
    | refused hpc => cases hr
    | announced hpc =>
      rw [hpc] at hag
      rw [show (doc.merge _ now).dispatchStatus = doc.dispatchStatus from rfl, hag.2.2.2] at hr
      cases hr
    | verified hpc he =>
      rw [hpc] at hag
      rw [show (doc.merge _ now).dispatchStatus = doc.dispatchStatus from rfl, hag.2.2.2] at hr
      cases hr
    | @handled e hpc =>
      have hd : (doc.merge (Execute.handlerChange w.started e) now).dispatchStatus =
          if w.started then .outcomeUnknown else .notDispatched := rfl
      rw [hd] at hr
      split_ifs at hr

/-- **The row of a worker agrees with the history after a stretch of the worker.** -/
theorem Stretch.rowSeen (hst : Stretch p t w doc i p' t' n) (hd : get t p.node w.id = some doc)
    (hf : Fits p.node w doc) (hc : Consistent doc)
    (hs : w.pc.Seen p.config p.node es w.id w.started) (h : RowSeen es w.id doc) :
    ∃ doc', get t' p.node w.id = some doc' ∧ RowSeen (es ++ Execute.output p w i n) w.id doc' := by
  have ha := hf.agrees
  cases hst with
  | dropped hpc hcan => exact ⟨doc, hd, h.ends nofun (Or.inr rfl)⟩
  | entered hpc hcan => exact ⟨doc, hd, h.goes nofun rfl⟩
  | gated hpc hsn he hp hcmd => exact ⟨doc, hd, h.goes nofun rfl⟩
  | session hpc hm => exact ⟨doc, hd, h.goes hm.input rfl⟩
  | woke hpc => exact ⟨doc, hd, h.goes nofun rfl⟩
  | slept hpc => exact ⟨doc, hd, h.goes nofun rfl⟩
  | raised hi => exact ⟨doc, hd, h.goes hi rfl⟩
  | lost hi hl => exact ⟨doc, hd, h.ends hi (Or.inl rfl)⟩
  | saved hi hfin =>
    exact ⟨_, get_setDocument_self hd, (hfin.rowSeen hf hc hs h).ends hi (Or.inl rfl)⟩
  | @crossed op command actionId payload env hpc hst hr he hq =>
    refine ⟨_, get_setDocument_self hd, ?_⟩
    rw [output_crossed hst rfl]
    refine ⟨?_, ?_, nofun, nofun, nofun⟩
    · rw [List.mem_append]
      exact ⟨fun _ => rfl, fun _ => Or.inr (List.mem_singleton_self _)⟩
    · rw [writes_append, h.silent (by rw [hq]; rfl)]
      exact Nat.zero_le 1
  | @wrote op command actionId payload hpc =>
    rw [hpc] at ha hs
    have hq : doc.dispatchStatus = .dispatchStarted := by
      rcases ha.2.2 with ⟨-, -, hb⟩ | ⟨-, hq, -⟩
      · cases hb
      · exact hq
    refine ⟨doc, hd, ?_⟩
    rw [output_wrote _ hpc]
    refine ⟨?_, ?_, fun hcr => ?_, fun hx => ?_, fun hx => ?_⟩
    · rw [List.mem_append, h.crossed]
      simp
    · rw [writes_append, (hs.2.1 actionId payload rfl).1]
      simp [writes, Event.isWrite]
    · rw [hq] at hcr
      cases hcr
    · rw [hq] at hx
      cases hx
    · rw [hq] at hx
      cases hx
  | @acked op command response env deadline hpc hst hrej hok =>
    rw [hpc] at ha hs
    have hq : doc.dispatchStatus = .dispatchStarted := by
      rcases ha.2.2 with ⟨hf', -, -⟩ | ⟨-, hq, -⟩
      · rw [hst] at hf'
        cases hf'
      · exact hq
    have hcr : .crossed w.id ∈ es := h.crossed.mpr (by rw [hq]; rfl)
    have hack : RowSeen es w.id (doc.merge { dispatchStatus := some .acknowledged } env.now) :=
      ⟨⟨fun _ => rfl, fun _ => hcr⟩, h.once, nofun, fun _ => ⟨response, hs.2.2.2 response rfl, hok, hrej⟩,
        nofun⟩
    exact ⟨_, get_setDocument_self hd, hack.goes nofun rfl⟩

/-- **The place of a worker that goes on agrees with the history.** -/
theorem Stretch.seen {w' : Worker} (hst : Stretch p t w doc i p' t' (.goes w'))
    (hf : Fits p.node w doc) (hs : w.pc.Seen p.config p.node es w.id w.started)
    (h : RowSeen es w.id doc) :
    w'.pc.Seen p.config p.node (es ++ Execute.output p w i (.goes w')) w.id w'.started := by
  have ha := hf.agrees
  have hnoEnd : ∀ {x}, .ended x ∉ Execute.output p w i (.goes w') := ended_notMem_output
  have hnoDied : .died ∉ Execute.output p w i (.goes w') := died_notMem_output
  cases hst with
  | @entered env hpc hcan =>
    have hout : Execute.opening p w (.run env) = [.entered w.id] := by simp [Execute.opening, hpc]
    rw [output_moves, hout]
    exact ⟨es, [], rfl, by simp, by simp⟩
  | @gated op o env before command hpc hsn he hp hcmd =>
    rw [hpc] at ha hs
    have hid : op.id = w.id := by rw [← hf.id, ha.1.id]
    have hout : Execute.opening p w (.snapshot o env) = [.sampled w.id o before] := by
      simp [Execute.opening, hpc, hsn]
    rw [output_moves, hout, ← hid]
    rw [← hid] at hs
    exact ⟨fun _ => Executing.gated hs hsn ⟨hp, he⟩, nofun, nofun, nofun⟩
  | @session op command d d' i hpc hm =>
    rw [hpc] at hs
    refine ⟨fun hst => (hs.1 hst).append hnoEnd hnoDied, ?_, ?_, ?_⟩
    · intro actionId payload hd'
      exact absurd hd' (hm.notCommitted actionId payload)
    · intro actionId k hd'
      obtain ⟨m, hd⟩ := hm.replying actionId k hd'
      exact (hs.2.2.1 actionId m hd).append _
    · intro response hd'
      obtain ⟨actionId, m, hd, rfl, hid⟩ := hm.reply response hd'
      rw [hd] at hpc
      have hout : Execute.opening p w (.receive (.frame response)) = [.answered w.id response] := by
        simp [Execute.opening, hpc]
      rw [output_moves, hout]
      exact (hs.2.2.1 actionId m hd).replied hid
  | @crossed op command actionId payload env hpc hst hr he hq =>
    rw [hpc] at hs
    rw [output_crossed hst rfl]
    refine ⟨nofun, ?_, nofun, nofun⟩
    intro a q _
    refine ⟨?_, es, rfl, hs.1 hst⟩
    rw [writes_append, h.silent (by rw [hq]; rfl)]
    rfl
  | @wrote op command actionId payload hpc =>
    rw [hpc] at ha hs
    have hst : w.started = true := by
      rcases ha.2.2 with ⟨-, -, hb⟩ | ⟨hst, -, -⟩
      · cases hb
      · exact hst
    rw [output_wrote _ hpc]
    refine ⟨fun hst' => ?_, nofun, ?_, nofun⟩
    · rw [show _ = w.started from rfl, hst] at hst'
      cases hst'
    · intro a n hd
      cases hd
      exact ⟨payload, List.mem_append_right _ (List.mem_singleton_self _)⟩
  | @acked op command response env deadline hpc hst hrej hok =>
    dsimp only
    split_ifs <;> exact trivial
  | woke hpc => exact trivial
  | slept hpc => exact trivial
  | raised hi => exact trivial

end

/-! ## Induction along a run -/

theorem history_snoc {ls : List Label} {s : Sys} {l : Label} (h : Reaches node ls s) :
    history node (ls ++ [l]) = history node ls ++ s.output l :=
  Lts.trace_snoc h

/-- **Induction along a run**, over its history. -/
theorem reaches_induction (P : List Event → Sys → Prop) (init : P [] Sys.init)
    (next : ∀ es s l s' out, Inv node s → P es s → Does node s l s' out → P (es ++ out) s')
    {ls : List Label} {s : Sys} (h : Reaches node ls s) : P (history node ls) s := by
  refine Lts.exec_induction (fun ls s => P (history node ls) s) init ?_ h
  intro ls s l s' hr hP hs
  have hi : Inv node s := reaches_inv hr
  rw [history_snoc hr]
  exact next _ s l s' _ hi hP (hi.does hs)

/-! ## Every reachable state agrees with its history -/

theorem seen_init : Seen node [] Sys.init :=
  ⟨fun _ _ h => (by cases h), fun _ _ => ⟨List.not_mem_nil, rfl⟩, fun _ h => (by cases h)⟩

/-- A step without events that leaves the table, and the workers where they were. -/
theorem Seen.still {s s' : Sys} (h : Seen node es s) (ht : s'.table = s.table)
    (hw : ∀ p', s'.life = .up p' → ∀ w' ∈ p'.tasks, ∃ p w, s.life = .up p ∧ w ∈ p.tasks ∧
      p'.config = p.config ∧ w'.pc = w.pc ∧ w'.id = w.id ∧ w'.started = w.started) :
    Seen node es s' := by
  refine ⟨by rw [ht]; exact h.rows, by rw [ht]; exact h.absent, fun p' hp' w' hw' => ?_⟩
  obtain ⟨p, w, hp, hmem, hcfg, hpc, hid, hst⟩ := hw p' hp' w' hw'
  rw [hcfg, hpc, hid, hst]
  exact h.worker p hp w hmem

/-- One row changes, without an event. -/
theorem Seen.setDocument {s : Sys} (h : Seen node es s) {doc doc' : Operation} {id : String}
    (hd : get s.table node id = some doc) (hr : RowSeen es id doc') {life : Life}
    (hl : ∀ p, life ≠ .up p) : Seen node es ⟨setDocument s.table node id doc', life⟩ := by
  refine ⟨fun x d hx => ?_, fun x hx => ?_, fun p hp => absurd hp (hl p)⟩
  · rw [get_setDocument hd] at hx
    split_ifs at hx with hxi
    · cases hx
      rw [hxi]
      exact hr
    · exact h.rows x d hx
  · rw [get_setDocument hd] at hx
    split_ifs at hx with hxi
    exact h.absent x hx

/-- A new queued row, without an event. -/
theorem Seen.insert {s : Sys} (h : Seen node es s) {row : Row} (hv : violates s.table row = false)
    (hn : row.node = node) (hq : row.document.dispatchStatus = .queued) {life : Life}
    (hl : ∀ p, life = .up p → ∀ w ∈ p.tasks, w.pc = .created) :
    Seen node es ⟨s.table ++ [row], life⟩ := by
  obtain ⟨hcross, hwrites⟩ := h.absent row.id (get_of_not_violates hv)
  refine ⟨fun x d hx => ?_, fun x hx => ?_, fun p hp w hw => ?_⟩
  · rw [get_insert hv hn] at hx
    split_ifs at hx with hxi
    · cases hx
      rw [hxi]
      refine ⟨?_, by rw [hwrites]; exact Nat.zero_le 1, fun _ => hwrites, ?_, ?_⟩
      · rw [hq]
        exact ⟨fun hm => absurd hm hcross, nofun⟩
      · rw [hq]
        nofun
      · rw [hq]
        nofun
    · exact h.rows x d hx
  · rw [get_insert hv hn] at hx
    split_ifs at hx
    exact h.absent x hx
  · rw [hl p hp w hw]
    exact trivial

/-- What recovery makes of an open row. -/
theorem RowSeen.recovered (h : RowSeen es id doc) (hc : Consistent doc) (ht : doc.terminal = false)
    (now : String) : RowSeen es id (doc.merge (recoveryChange doc) now) := by
  have hnew : (doc.merge (recoveryChange doc) now).dispatchStatus =
      if doc.dispatchStatus ≠ .queued then .outcomeUnknown else .notDispatched := by
    unfold recoveryChange
    split_ifs <;> rfl
  cases (moves_recoveryChange hc ht now).1 with
  | finish ha hb hf =>
    refine h.finish hf fun hrej => ?_
    rw [hnew] at hrej
    split_ifs at hrej
  | cross ha hb =>
    have hb' := congrArg (fun s => s.1) hb
    simp only [Operation.stage, hnew] at hb'
    split_ifs at hb'
  | acknowledge ha hb =>
    have hb' := congrArg (fun s => s.1) hb
    simp only [Operation.stage, hnew] at hb'
    split_ifs at hb'

/-- A stretch of the worker, with its events. -/
theorem Seen.worked {s : Sys} (h : Seen node es s) (hi : Inv node s) {p p' : Platform} {w : Worker}
    {i : Input} {t' : Table} {n : Next} (hs : s.life = .up p) (ht : p.tasks = [w])
    (hd : get s.table node w.id = some doc) (hf : Fits node w doc)
    (hst : Stretch p s.table w doc i p' t' n) :
    Seen node (es ++ Execute.output p w i n) ⟨t', .up (p'.settle w n)⟩ := by
  have hrun := hi.life
  rw [hs] at hrun
  have hn : p.node = node := hrun.number
  have hw := h.worker p hs w (mem_of_tasks ht)
  obtain ⟨r, hr, -, -, rfl⟩ := row_of_get hd
  have hc := hi.sound.consistent r hr
  have hrow := h.rows w.id _ hd
  subst hn
  obtain ⟨doc', hd', hrow'⟩ := hst.rowSeen hd hf hc hw hrow
  -- the events are about this operation only
  have hother : ∀ x, x ≠ w.id → .crossed x ∉ Execute.output p w i n ∧
      writes (Execute.output p w i n) x = 0 := by
    intro x hx
    refine ⟨fun hm => hx (crossed_mem_output hm).1, ?_⟩
    rcases writes_output with h0 | ⟨hid, -⟩
    · exact h0
    · exact absurd hid hx
  refine ⟨fun x d hxd => ?_, fun x hxn => ?_, fun q hq v hv => ?_⟩
  · by_cases hx : x = w.id
    · rw [hx, hd'] at hxd
      cases hxd
      rw [hx]
      exact hrow'
    · rw [show get _ p.node x = get s.table p.node x from get_stretch hst hd hx] at hxd
      exact (h.rows x d hxd).append (hother x hx).1 (hother x hx).2
  · have hx : x ≠ w.id := by
      intro e
      rw [e, hd'] at hxn
      cases hxn
    rw [show get _ p.node x = get s.table p.node x from get_stretch hst hd hx] at hxn
    obtain ⟨h1, h2⟩ := h.absent x hxn
    rw [writes_append, h2, (hother x hx).2, List.mem_append]
    exact ⟨not_or.mpr ⟨h1, (hother x hx).1⟩, rfl⟩
  · cases hq
    have hp : p'.tasks = [w] := hst.tasks.trans ht
    cases n with
    | goes w' =>
      obtain ⟨rfl, hid, -, -⟩ := hst.goes
      rw [settle_goes ht, List.mem_singleton] at hv
      rw [hv, hid, settle_config]
      exact hst.seen hf hw hrow
    | ended =>
      rw [settle_ended hp] at hv
      cases hv
    | dropped =>
      rw [settle_dropped hp] at hv
      cases hv

/-- **A step leads to a state that agrees with the longer history.** -/
theorem Does.seen {s s' : Sys} {l : Label} (hdo : Does node s l s' out) (hi : Inv node s)
    (h : Seen node es s) : Seen node (es ++ out) s' := by
  cases hdo with
  | idle hq =>
    rw [List.append_nil]
    exact h
  | started hv hn hl =>
    rw [List.append_nil]
    exact h.still rfl fun p' hp' => by cases hp'
  | recovered hs hd ht =>
    rw [List.append_nil]
    rcases ht with ⟨rfl, -⟩ | ⟨ht, rfl⟩
    · exact h.still rfl fun p' hp' => by cases hp'
    · obtain ⟨r, hr, -, -, rfl⟩ := row_of_get hd
      exact h.setDocument hd ((h.rows _ _ hd).recovered (hi.sound.consistent r hr) ht _) nofun
  | abandoned hs =>
    rw [List.append_nil]
    exact h.still rfl fun p' hp' => by cases hp'
  | ready hs =>
    rw [List.append_nil]
    refine h.still rfl fun p' hp' w' hw' => ?_
    cases hp'
    cases hw'
  | admitted hs hr ht hnew hx hv =>
    rw [List.append_nil]
    obtain ⟨-, -, -, -, -, hq, -⟩ := newOperation_eq_ok hnew
    refine h.insert hv rfl hq fun p' hp' w hw => ?_
    cases hp'
    rw [List.mem_singleton.mp hw]
    rfl
  | worked hs ht hd hf hst => exact h.worked hi hs ht hd hf hst
  | close hs hq =>
    rw [List.append_nil]
    refine h.still rfl fun p' hp' w' hw' => ?_
    cases hp'
    obtain ⟨w, hw, rfl⟩ := List.mem_map.mp hw'
    exact ⟨_, w, hs, hw, rfl, rfl, rfl, rfl⟩
  | closed hs hc ht =>
    rw [List.append_nil]
    refine h.still rfl fun p' hp' w' hw' => ?_
    cases hp'
    exact ⟨_, w', hs, hw', rfl, rfl, rfl, rfl⟩
  | crashed =>
    refine ⟨fun x d hx => (h.rows x d hx).append (by simp) rfl, fun x hx => ?_, fun p hp => by cases hp⟩
    obtain ⟨h1, h2⟩ := h.absent x hx
    rw [writes_append, h2, List.mem_append]
    exact ⟨not_or.mpr ⟨h1, by simp⟩, rfl⟩

/-- **Every reachable state agrees with the history of its run.** -/
theorem reaches_seen {ls : List Label} {s : Sys} (h : Reaches node ls s) :
    Seen node (history node ls) s :=
  reaches_induction (Seen node) seen_init (fun _ _ _ _ _ hi hs hd => hd.seen hi hs) h

end Asl3
