import Asl3Api.Stream.Generator

/-!
# What the clients of the event streams read

* `received_snoc`, `queued_made`: the events a generator takes out of its queue;
* `Wrote`, `run_wrote`: what was written to a client in a run;
* **`stream_messages`**: what the client reads.
-/

set_option autoImplicit false

namespace Asl3

open Py

namespace Streams

open AMIEventListener (Body makeEvent)

variable {ι : Type} [DecidableEq ι] {cfg : Config} {s s' : State ι} {id : ι} {ls : List (Label ι)}

/-! ## Events -/

/-- The events that the generator of `id` takes out of its queue in a run. -/
def received (cfg : Config) (id : ι) (ls : List (Label ι)) : List AMIEventListener.Event :=
  Lts.trace Subscribers.step (Subscribers.received id) Subscribers.init (operations cfg ls)

/-- The events that are broadcast in a run while `id` is subscribed. -/
def sent (cfg : Config) (id : ι) (ls : List (Label ι)) : List AMIEventListener.Event :=
  Lts.trace Subscribers.step (Subscribers.sent id) Subscribers.init (operations cfg ls)

/-- What a step takes out of the queue of `id`. -/
def taken (id : ι) (s : State ι) : Label ι → List AMIEventListener.Event
  | .wake x => if x = id then (Subscribers.receive s.queues x).1.toList else []
  | _ => []

theorem trace_single {σ ℓ ε : Type} {next : σ → ℓ → Option σ} {out : σ → ℓ → List ε} (t : σ) (l : ℓ) :
    Lts.trace next out t [l] = out t l :=
  Lts.trace_snoc (Lts.exec_nil t)

theorem received_snoc (h : Lts.exec (step cfg) init ls = some s) (l : Label ι) :
    received cfg id (ls ++ [l]) = received cfg id ls ++ taken id s l := by
  rw [received, operations_snoc h, Lts.trace_append (exec_operations h), received]
  refine congrArg _ ?_
  cases l with
  | connect x => exact trace_single _ _
  | wake x =>
    refine (trace_single _ _).trans ?_
    rw [Subscribers.received, taken]
    by_cases hx : x = id
    · rw [if_pos hx, if_pos hx, hx]
    · rw [if_neg hx, if_neg hx]
  | broadcast body now order => exact trace_single _ _
  | client x i =>
    change Lts.trace _ _ _ (operation cfg s (.client x i)) = []
    rw [operation]
    split
    · split_ifs
      · exact trace_single _ _
      · rfl
    · rfl

/-- What is queued was made by `_make_event`. -/
theorem queued_made (h : Lts.exec (step cfg) init ls = some s) {e : AMIEventListener.Event}
    (he : e ∈ (s.queues.queue id).items) : e.callsign = cfg.nodeCallsign := by
  obtain ⟨taken, lost, next, hA, -⟩ := Subscribers.run_account (exec_operations h) id
  have hsent := hA.sublist.subset (List.mem_append_right _ he)
  obtain ⟨pre, o, post, a, hops, -, ho⟩ := Lts.mem_trace (exec_operations h) hsent
  cases o with
  | broadcast event order =>
    obtain rfl : e = event := by
      rw [Subscribers.sent] at ho
      split_ifs at ho
      · exact List.mem_singleton.mp ho
      · cases ho
    have hmem : Subscribers.Label.broadcast e order ∈ operations cfg ls := by
      rw [hops]
      exact List.mem_append_right _ List.mem_cons_self
    obtain ⟨pre', l, post', a', -, -, hl⟩ := Lts.mem_trace h hmem
    cases l with
    | broadcast body now order' =>
      cases List.mem_singleton.mp hl
      rfl
    | connect x => cases List.mem_singleton.mp hl
    | wake x => cases List.mem_singleton.mp hl
    | client x i =>
      rw [operation] at hl
      split at hl
      · split_ifs at hl
        · cases List.mem_singleton.mp hl
        · cases hl
      · cases hl
  | _ => cases ho

/-- What was written to `id` in a run: the messages `first`, at most one and from before the loop, and
then the events that were taken out of the queue. -/
structure Wrote (cfg : Config) (id : ι) (ls : List (Label ι)) (s : State ι)
    (first : List EventStream.Message) : Prop where
  messages : (Lts.trace (step cfg) (frames cfg id) init ls).filterMap EventStream.Frame.message? =
    first ++ (received cfg id ls).map message
  snapshots : ∀ m ∈ first, ∃ now state, m = snapshotMessage cfg now state
  one : first.length ≤ 1
  clean : PlainCallsign cfg → ∀ f ∈ Lts.trace (step cfg) (frames cfg id) init ls, f.Clean
  unmade : id ∉ s.queues.made → s.place id = .absent
  quiet : (s.place id).early = true → received cfg id ls = []
  blank : (s.place id).blank = true → first = []

theorem Wrote.init (cfg : Config) (id : ι) : Wrote cfg id [] Streams.init [] where
  messages := rfl
  snapshots := nofun
  one := Nat.zero_le 1
  clean := fun _ => nofun
  unmade := fun _ => rfl
  quiet := fun _ => rfl
  blank := fun _ => rfl

section

variable {first : List EventStream.Message} {l : Label ι}
  (hr : Lts.exec (step cfg) Streams.init ls = some s)

include hr

/-- A step that writes nothing to `id`. -/
theorem Wrote.silent (hw : Wrote cfg id ls s first) (hf : frames cfg id s l = [])
    (ht : taken id s l = []) (hmade : id ∉ s'.queues.made → s'.place id = .absent)
    (hearly : (s'.place id).early = true → (s.place id).early = true)
    (hblank : (s'.place id).blank = true → (s.place id).blank = true) :
    Wrote cfg id (ls ++ [l]) s' first := by
  have hrec : received cfg id (ls ++ [l]) = received cfg id ls := by
    rw [received_snoc hr, ht, List.append_nil]
  have htrace : Lts.trace (step cfg) (frames cfg id) Streams.init (ls ++ [l]) =
      Lts.trace (step cfg) (frames cfg id) Streams.init ls := by
    rw [Lts.trace_snoc hr, hf, List.append_nil]
  refine ⟨?_, hw.snapshots, hw.one, ?_, hmade, fun h => ?_, fun h => hw.blank (hblank h)⟩
  · rw [htrace, hrec]
    exact hw.messages
  · rw [htrace]
    exact hw.clean
  · rw [hrec]
    exact hw.quiet (hearly h)

/-- A step that does not move the generator of `id`. -/
theorem Wrote.still (hw : Wrote cfg id ls s first) (hf : frames cfg id s l = [])
    (ht : taken id s l = []) (hplace : s'.place id = s.place id)
    (hmade : id ∈ s.queues.made → id ∈ s'.queues.made) : Wrote cfg id (ls ++ [l]) s' first :=
  hw.silent hr hf ht (fun hn => hplace.trans (hw.unmade (mt hmade hn))) (fun h => hplace ▸ h)
    fun h => hplace ▸ h

/-- The first snapshot. -/
theorem Wrote.snapshot (hw : Wrote cfg id ls s first) (hp : (s.place id).blank = true) {now : String}
    {state : NodeState} (hf : frames cfg id s l = [.event (snapshotMessage cfg now state)])
    (ht : taken id s l = []) (hmade : id ∈ s'.queues.made) (hplace : s'.place id = .snapshot) :
    Wrote cfg id (ls ++ [l]) s' [snapshotMessage cfg now state] := by
  have hnone : received cfg id ls = [] := hw.quiet (by rw [Place.early, hp, Bool.true_or])
  have hrec : received cfg id (ls ++ [l]) = [] := by
    rw [received_snoc hr, ht, hnone, List.append_nil]
  have hbefore := hw.messages
  rw [hw.blank hp, hnone] at hbefore
  refine ⟨?_, ?_, le_refl 1, fun hcfg => ?_, fun hn => absurd hmade hn, fun _ => hrec, fun h => ?_⟩
  · rw [Lts.trace_snoc hr, hf, List.filterMap_append, hbefore, hrec]
    rfl
  · exact List.forall_mem_singleton.mpr ⟨now, state, rfl⟩
  · rw [Lts.trace_snoc hr, hf]
    refine List.forall_mem_append.mpr ⟨hw.clean hcfg, ?_⟩
    exact List.forall_mem_singleton.mpr (clean_snapshot hcfg now state)
  · rw [hplace] at h
    cases h

/-- An event of the queue, or a comment. -/
theorem Wrote.event (hw : Wrote cfg id ls s first) {e : Option AMIEventListener.Event}
    (hf : frames cfg id s l = [eventFrame e]) (ht : taken id s l = e.toList)
    (he : ∀ x ∈ e, x.callsign = cfg.nodeCallsign) (hmade : id ∈ s'.queues.made)
    (hplace : s'.place id = .sent) : Wrote cfg id (ls ++ [l]) s' first := by
  refine ⟨?_, hw.snapshots, hw.one, fun hcfg => ?_, fun hn => absurd hmade hn, fun h => ?_,
    fun h => ?_⟩
  · rw [Lts.trace_snoc hr, hf, List.filterMap_append, hw.messages, received_snoc hr, ht,
      List.map_append, List.append_assoc]
    cases e <;> rfl
  · rw [Lts.trace_snoc hr, hf]
    refine List.forall_mem_append.mpr ⟨hw.clean hcfg, List.forall_mem_singleton.mpr ?_⟩
    cases e with
    | none =>
      have hkeep : EventStream.OneLine "keepalive".toList := by decide +kernel
      exact hkeep
    | some e => exact clean_event hcfg (he e rfl)
  · rw [hplace] at h
    cases h
  · rw [hplace] at h
    cases h

end

/-- A step of another client. -/
theorem place_other {x : ι} {p : Place} (h : s'.place = Function.update s.place x p) (hx : x ≠ id) :
    s'.place id = s.place id := by
  rw [h, Function.update_of_ne (Ne.symm hx)]

/-- **What was written in a run.** -/
theorem run_wrote (id : ι) (h : Lts.exec (step cfg) init ls = some s) :
    ∃ first, Wrote cfg id ls s first := by
  refine Lts.exec_induction (fun ls s => ∃ first, Wrote cfg id ls s first) ⟨[], .init cfg id⟩ ?_ h
  rintro ls s l s' hr ⟨first, hw⟩ hstep
  cases l with
  | connect x =>
    rw [step] at hstep
    split_ifs at hstep with hc
    obtain rfl := Option.some.inj hstep
    by_cases hx : x = id
    · subst hx
      have habsent := hw.unmade (not_or.mp hc).2
      refine ⟨first, hw.silent hr rfl rfl (fun hn => ?_) (fun _ => ?_) fun _ => ?_⟩
      · exact absurd (Finset.mem_insert_self _ _) hn
      · rw [habsent]
        rfl
      · rw [habsent]
        rfl
    · exact ⟨first, hw.still hr rfl rfl (place_other rfl hx) (Finset.mem_insert_of_mem)⟩
  | client x i =>
    obtain ⟨hmove, hevent⟩ := step_client hstep
    obtain ⟨p, actions, hg, hplace, hq⟩ := move_cases hmove
    have hmade : s'.queues.made = s.queues.made := by
      rcases hq with ⟨-, hq, -⟩ | ⟨-, hq, -⟩
      · rw [hq]
      · rw [hq]
        rfl
    by_cases hx : x = id
    · subst hx
      obtain ⟨habsent, hnew, -, hearly, hblank⟩ := generator_forward hg
      have hp : s'.place x = p := by rw [hplace, Function.update_self]
      have hin : x ∈ s'.queues.made := by
        rw [hmade]
        by_contra hn
        exact habsent (hw.unmade hn)
      have hsilent : framesAt cfg (s.place x) i = [] → ∃ first, Wrote cfg x (ls ++ [.client x i]) s' first :=
        fun hf => ⟨first, hw.silent hr ((if_pos rfl).trans hf) rfl (fun hn => absurd hin hn)
          (by rwa [hp]) (by rwa [hp])⟩
      cases hs : s.place x with
      | reading =>
        rw [hs] at hg hsilent
        cases i with
        | read now result =>
          cases result with
          | error e => exact hsilent rfl
          | ok state =>
            cases hg
            have hf : frames cfg x s (.client x (.read now (.ok state))) =
                [.event (snapshotMessage cfg now state)] := (if_pos rfl).trans (by rw [hs]; rfl)
            exact ⟨_, hw.snapshot hr (by rw [hs]; rfl) hf rfl hin hp⟩
        | _ => exact hsilent rfl
      | waiting =>
        rw [hs] at hsilent
        cases i with
        | event e => exact absurd rfl (hevent e)
        | _ => exact hsilent rfl
      | _ =>
        rw [hs] at hsilent
        exact hsilent rfl
    · refine ⟨first, hw.still hr (if_neg hx) rfl (place_other hplace hx) fun hm => ?_⟩
      rwa [hmade]
  | wake x =>
    obtain ⟨hp, hplace, hq, -⟩ := step_wake hstep
    have hmade : s'.queues.made = s.queues.made := by rw [hq]; rfl
    by_cases hx : x = id
    · subst hx
      refine ⟨first, hw.event hr (e := (Subscribers.receive s.queues x).1) ?_ (if_pos rfl) ?_ ?_ ?_⟩
      · refine (if_pos rfl).trans ?_
        rw [hp]
        rfl
      · intro e he
        rcases Subscribers.nextEvent_cases (s.queues.queue x) with hn | ⟨event, queue, hitems, hn⟩
        · rw [Subscribers.receive, hn] at he
          cases he
        · rw [Subscribers.receive, hn] at he
          cases he
          exact queued_made hr (by rw [hitems]; exact List.mem_cons_self)
      · rw [hmade]
        by_contra hn
        rw [hw.unmade hn] at hp
        cases hp
      · rw [hplace, Function.update_self]
    · refine ⟨first, hw.still hr (if_neg hx) (if_neg hx) (place_other hplace hx) fun hm => ?_⟩
      rwa [hmade]
  | broadcast body now order =>
    obtain ⟨queues, hq, rfl⟩ := Option.map_eq_some_iff.mp hstep
    refine ⟨first, hw.still hr rfl rfl rfl fun hm => ?_⟩
    obtain ⟨-, -, rfl⟩ := Subscribers.step_broadcast.mp hq
    exact hm

/-- The text that was sent to `id` in a run. -/
def text (cfg : Config) (id : ι) (ls : List (Label ι)) : List Char :=
  (Lts.trace (step cfg) (yields cfg id) init ls).flatMap String.toList

theorem text_eq (h : Lts.exec (step cfg) init ls = some s) : text cfg id ls =
    (Lts.trace (step cfg) (frames cfg id) init ls).flatMap EventStream.Frame.text := by
  refine Lts.exec_induction (fun ls _ => text cfg id ls =
    (Lts.trace (step cfg) (frames cfg id) init ls).flatMap EventStream.Frame.text) rfl ?_ h
  intro ls s l s' hr ih _
  rw [text, Lts.trace_snoc hr, Lts.trace_snoc hr, List.flatMap_append, List.flatMap_append, ← text, ih,
    List.flatMap_def (l := yields _ _ _ _), yields_eq, ← List.flatMap_def]

/-- **What a client reads**, whatever the others and the listener do: at most one first snapshot, and then
the events that its queue gave, each of them whole and in order; where its stream breaks off it has read
the first of these. With what is still queued they are a part of what was broadcast to it, in order. -/
theorem stream_messages (cfg : Config) (hcfg : PlainCallsign cfg) (ls : List (Label ι)) (s : State ι)
    (h : Lts.exec (step cfg) init ls = some s) (id : ι) : ∃ first : List EventStream.Message,
    EventStream.read (text cfg id ls) = first ++ (received cfg id ls).map message ∧
      first.length ≤ 1 ∧ (∀ m ∈ first, ∃ now state, m = snapshotMessage cfg now state) ∧
      (∀ n, EventStream.read ((text cfg id ls).take n) <+: first ++ (received cfg id ls).map message) ∧
      (received cfg id ls ++ (s.queues.queue id).items).Sublist (sent cfg id ls) := by
  obtain ⟨first, hw⟩ := run_wrote id h
  obtain ⟨taken, lost, next, hA, -⟩ := Subscribers.run_account (exec_operations h) id
  have hclean := hw.clean hcfg
  refine ⟨first, ?_, hw.one, hw.snapshots, fun n => ?_, hA.sublist⟩
  · rw [text_eq h, EventStream.read, EventStream.feed_frames hclean, hw.messages]
  · rw [text_eq h, ← hw.messages]
    exact EventStream.feed_cut hclean n

/-- A client takes an event, next to another one that goes away before it is served. -/
def twoClients : List (Label Bool) :=
  [.connect true, .client true .enter, .connect false, .client true (.read "t0" (.error (.py .osError))),
    .client true (.disconnected false), .client false .stop,
    .broadcast (.connected "55553") "t1" [true, false], .wake true]

/-- It reads that event, and nothing else. -/
theorem stream_messages_two : ∃ s : State Bool, ∃ first : List EventStream.Message,
    Lts.exec (step ⟨.dict []⟩) init twoClients = some s ∧
      EventStream.read (text ⟨.dict []⟩ true twoClients) =
        first ++ (received ⟨.dict []⟩ true twoClients).map message ∧ first.length ≤ 1 := by
  have hrun : (Lts.exec (step ⟨.dict []⟩) init twoClients).isSome = true := by decide +kernel
  have hfloats : (Config.nodeCallsign ⟨.dict []⟩).floatTexts = [] := by decide +kernel
  have hcfg : PlainCallsign ⟨.dict []⟩ := by
    rw [PlainCallsign, hfloats]
    exact nofun
  obtain ⟨s, hs⟩ := Option.isSome_iff_exists.mp hrun
  obtain ⟨first, hread, hone, -⟩ := stream_messages ⟨.dict []⟩ hcfg twoClients s hs true
  exact ⟨s, first, hs, hread, hone⟩

end Streams

end Asl3
