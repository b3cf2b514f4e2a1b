import Mathlib.Data.List.Forall2
import Asl3Api.Runs.History

/-!
# Crash recovery

* `Label.recovering`: what can happen from a crash to the return of `start`;
* `RowRecovered`: what recovery makes of a row, and **`recovering_rows`**: what any number of
  interrupted recoveries makes of a table;
* **`recovery_terminalizes`**: the result of a recovery that completes.
-/

set_option autoImplicit false

namespace Asl3

open Py Ledger

/-- A start, a turn of the loop of `recover`, or a crash. -/
def Label.recovering : Label → Bool
  | .start _ _ => true
  | .recover _ => true
  | .crash => true
  | _ => false

/-- A row after recoveries: as it was, or, if it was not terminal, rewritten once. -/
def RowRecovered (r r' : Row) : Prop :=
  r' = r ∨ r.document.terminal = false ∧
    ∃ now, r' = { r with document := r.document.merge (recoveryChange r.document) now }

variable {node : String} {s s' : Sys} {t t' : Table}

@[simp] theorem recoveryChange_terminal (op : Operation) (now : String) :
    (op.merge (recoveryChange op) now).terminal = true := by
  unfold recoveryChange
  split_ifs <;> rfl

/-- A row is rewritten at most once, for it is terminal then. -/
theorem RowRecovered.trans {a b c : Row} (h : RowRecovered a b) (h' : RowRecovered b c) :
    RowRecovered a c := by
  rcases h with rfl | ⟨ht, now, rfl⟩
  · exact h'
  · rcases h' with rfl | ⟨ht', -, -⟩
    · exact Or.inr ⟨ht, now, rfl⟩
    · rw [show _ = true from recoveryChange_terminal a.document now] at ht'
      cases ht'

theorem forall₂_recovered_refl (t : Table) : List.Forall₂ RowRecovered t t :=
  List.forall₂_same.mpr fun _ _ => Or.inl rfl

theorem forall₂_recovered_trans {t₁ t₂ t₃ : Table} (h : List.Forall₂ RowRecovered t₁ t₂)
    (h' : List.Forall₂ RowRecovered t₂ t₃) : List.Forall₂ RowRecovered t₁ t₃ := by
  induction h generalizing t₃ with
  | nil => exact h'
  | cons hab _ ih =>
    cases h' with
    | cons hbc htail => exact .cons (hab.trans hbc) (ih htail)

theorem exists_recovered (h : List.Forall₂ RowRecovered t t') {r : Row} (hr : r ∈ t) :
    ∃ r' ∈ t', RowRecovered r r' := by
  induction h with
  | nil => cases hr
  | @cons a b _ _ hab _ ih =>
    rcases List.mem_cons.mp hr with rfl | hr
    · exact ⟨b, List.mem_cons_self, hab⟩
    · obtain ⟨r', hr', hrr⟩ := ih hr
      exact ⟨r', List.mem_cons_of_mem _ hr', hrr⟩

theorem ids_recovered (h : List.Forall₂ RowRecovered t t') : t'.map Row.id = t.map Row.id := by
  induction h with
  | nil => rfl
  | @cons a b _ _ hab _ ih =>
    rw [List.map_cons, List.map_cons, ih]
    rcases hab with rfl | ⟨-, now, rfl⟩ <;> rfl

/-- Recovery leaves a table of terminal rows as it is. -/
theorem eq_of_recovered (h : List.Forall₂ RowRecovered t t')
    (ht : ∀ r ∈ t, r.document.terminal = true) : t' = t := by
  induction h with
  | nil => rfl
  | @cons a b _ _ hab _ ih =>
    rw [ih fun r hr => ht r (List.mem_cons_of_mem _ hr)]
    rcases hab with rfl | ⟨hn, -, -⟩
    · rfl
    · rw [ht a List.mem_cons_self] at hn
      cases hn

/-- One turn of the loop of `recover` on the whole table. -/
theorem recovered_setDocument (hw : WF node t) {op : Operation}
    (hd : get t node op.id = some op) (ht : op.terminal = false) (now : String) :
    List.Forall₂ RowRecovered t (setDocument t node op.id (op.merge (recoveryChange op) now)) := by
  obtain ⟨r₀, hr₀, hid₀, -, hdoc₀⟩ := row_of_get hd
  unfold setDocument
  rw [List.forall₂_map_right_iff]
  refine List.forall₂_same.mpr fun r hr => ?_
  by_cases hp : (r.id = op.id && r.node = node) = true
  · rw [if_pos hp]
    simp only [Bool.and_eq_true, decide_eq_true_eq] at hp
    have e : r = r₀ := hw.eq_of_id hr hr₀ (hp.1.trans hid₀.symm)
    have hdoc : r.document = op := by rw [e, hdoc₀]
    exact Or.inr ⟨by rw [hdoc]; exact ht, now, by rw [hdoc]⟩
  · rw [if_neg hp]
    exact Or.inl rfl

/-- **One step of a recovery** rewrites at most one row that was not terminal, writes nothing and
makes no worker. -/
theorem Does.recovering {l : Label} {out : List Event} (hdo : Does node s l s' out)
    (hi : Inv node s) (hl : l.recovering = true) :
    List.Forall₂ RowRecovered s.table s'.table ∧
      (∀ id actionId payload, .wrote id actionId payload ∉ out) ∧
      ∀ p, s'.life = .up p → p.tasks = [] ∨ s.life = .up p := by
  cases hdo with
  | @recovered cfg op todo env t' hs hd ht =>
    refine ⟨?_, by simp, fun p hp => by cases hp⟩
    rcases ht with ⟨rfl, -⟩ | ⟨ht, rfl⟩
    · exact forall₂_recovered_refl _
    · exact recovered_setDocument hi.sound.wf hd ht env.now
  | admitted hs hr ht hnew hx hv => cases hl
  | worked hs ht hd hf hst => cases hl
  | close hs hq => cases hl
  | closed hs hc ht => cases hl
  | idle hq => exact ⟨forall₂_recovered_refl _, by simp, fun p hp => Or.inr hp⟩
  | started hv hn hlock => exact ⟨forall₂_recovered_refl _, by simp, fun p hp => by cases hp⟩
  | abandoned hs => exact ⟨forall₂_recovered_refl _, by simp, fun p hp => by cases hp⟩
  | crashed => exact ⟨forall₂_recovered_refl _, by simp, fun p hp => by cases hp⟩
  | ready hs =>
    refine ⟨forall₂_recovered_refl _, by simp, fun p hp => ?_⟩
    cases hp
    exact Or.inl rfl

/-- **What any number of interrupted recoveries makes of a table.** -/
theorem recovering_rows (hi : Inv node s) {ls : List Label} (hl : ∀ l ∈ ls, l.recovering = true)
    (hr : Lts.exec (Sys.step node) s ls = some s') :
    List.Forall₂ RowRecovered s.table s'.table := by
  revert hl
  refine Lts.exec_induction (fun ls s' => (∀ l ∈ ls, l.recovering = true) →
    List.Forall₂ RowRecovered s.table s'.table) (fun _ => forall₂_recovered_refl _) ?_ hr
  intro ls a l b ha ih hs hl
  have hia := exec_inv hi ha
  exact forall₂_recovered_trans (ih fun x hx => hl x (List.mem_append_left _ hx))
    ((hia.does hs).recovering hia (hl l (List.mem_append_right _ (List.mem_singleton_self l)))).1

/-- The runtime right after the loop of `recover` has ended. -/
theorem up_of_recover {env : Env} {p : Platform} (hs : s.step node (.recover env) = some s')
    (hp : s'.life = .up p) : ∃ cfg, p = .fresh cfg := by
  obtain ⟨t, life⟩ := s
  cases life with
  | down => cases hs
  | up q => cases hs
  | starting cfg todo =>
    cases todo with
    | nil =>
      cases hs
      cases hp
      exact ⟨cfg, rfl⟩
    | cons op todo =>
      simp only [Sys.step] at hs
      split at hs
      · cases hs
        cases hp
      · cases hs
        cases hp

/-- The labels of a recovery that ends with `recover`. -/
theorem recovering_snoc {ls : List Label} {env : Env} (hl : ∀ l ∈ ls, l.recovering = true) :
    ∀ l ∈ ls ++ [.recover env], l.recovering = true :=
  List.forall_mem_append.mpr ⟨hl, List.forall_mem_singleton.mpr rfl⟩

/-- A recovery has completed: the rows are those of before, rewritten where they were open, and all
of them are terminal. -/
theorem recovery_completed (hi : Inv node s) {ls : List Label} {env : Env} {p : Platform}
    (hl : ∀ l ∈ ls, l.recovering = true)
    (hr : Lts.exec (Sys.step node) s (ls ++ [.recover env]) = some s') (hp : s'.life = .up p) :
    List.Forall₂ RowRecovered s.table s'.table ∧ (∀ r ∈ s'.table, r.document.terminal = true) ∧
      p.tasks = [] := by
  obtain ⟨m, hm, hlast⟩ := Lts.exec_snoc.mp hr
  obtain ⟨cfg, rfl⟩ := up_of_recover hlast hp
  have hrun := (exec_inv hi hr).life
  rw [hp] at hrun
  exact ⟨recovering_rows hi (recovering_snoc hl) hr, hrun.terminal rfl rfl rfl, rfl⟩

/-- The document of a row after a recovery that completed. -/
theorem get_recovered (hw' : WF node t') (h : List.Forall₂ RowRecovered t t')
    (ht : ∀ r ∈ t', r.document.terminal = true) {id : String} {doc : Operation}
    (hd : get t node id = some doc) : ∃ doc', get t' node id = some doc' ∧
      (doc.terminal = true ∧ doc' = doc ∨
        doc.terminal = false ∧ ∃ now, doc' = doc.merge (recoveryChange doc) now) := by
  obtain ⟨r, hr, rfl, -, rfl⟩ := row_of_get hd
  obtain ⟨r', hr', hrec⟩ := exists_recovered h hr
  have hget := hw'.get_row hr'
  rcases hrec with rfl | ⟨hopen, now, rfl⟩
  · exact ⟨r'.document, hget, Or.inl ⟨ht r' hr', rfl⟩⟩
  · exact ⟨_, hget, Or.inr ⟨hopen, now, rfl⟩⟩

theorem recoveryChange_stage (op : Operation) (now : String) :
    (op.dispatchStatus ≠ .queued →
      (op.merge (recoveryChange op) now).stage = (.outcomeUnknown, .unknown, true)) ∧
    (op.dispatchStatus = .queued →
      (op.merge (recoveryChange op) now).stage = (.notDispatched, .notAttempted, true)) := by
  unfold recoveryChange
  refine ⟨fun hq => ?_, fun hq => ?_⟩
  · rw [if_pos hq]
    rfl
  · rw [if_neg (not_not.mpr hq)]
    rfl

/-- The stage of a document after a recovery that completed. -/
theorem get_recovered_stage (hw' : WF node t') (h : List.Forall₂ RowRecovered t t')
    (ht : ∀ r ∈ t', r.document.terminal = true) {id : String} {doc : Operation}
    (hd : get t node id = some doc) : ∃ doc', get t' node id = some doc' ∧
      (doc.terminal = true → doc' = doc) ∧
      (doc.terminal = false → doc.dispatchStatus ≠ .queued →
        doc'.stage = (.outcomeUnknown, .unknown, true)) ∧
      (doc.terminal = false → doc.dispatchStatus = .queued →
        doc'.stage = (.notDispatched, .notAttempted, true)) := by
  obtain ⟨doc', hd', ⟨hold, e⟩ | ⟨hopen, now, rfl⟩⟩ := get_recovered hw' h ht hd
  · have hno : doc.terminal ≠ false := by simp [hold]
    exact ⟨doc', hd', fun _ => e, fun hf => absurd hf hno, fun hf => absurd hf hno⟩
  · have hno : doc.terminal ≠ true := by simp [hopen]
    exact ⟨_, hd', fun hf => absurd hf hno, fun _ => (recoveryChange_stage doc now).1,
      fun _ => (recoveryChange_stage doc now).2⟩

/-- A document after a recovery was there before it. -/
theorem exists_get_of_recovered (hw : WF node t) (h : List.Forall₂ RowRecovered t t') {id : String}
    {doc' : Operation} (hd' : get t' node id = some doc') : ∃ doc, get t node id = some doc := by
  obtain ⟨r, hr, hid, -, -⟩ := row_of_get hd'
  have hmem : id ∈ t.map Row.id := by
    rw [← ids_recovered h, ← hid]
    exact List.mem_map_of_mem hr
  obtain ⟨q, hq, rfl⟩ := List.mem_map.mp hmem
  exact ⟨_, hw.get_row hq⟩

/-- Two recoveries of one table that completed agree, up to the time of their changes. -/
theorem recovered_agree {t₂ : Table} (hw : WF node t) (hw' : WF node t') (hw₂ : WF node t₂)
    (h : List.Forall₂ RowRecovered t t') (h₂ : List.Forall₂ RowRecovered t t₂)
    (ht : ∀ r ∈ t', r.document.terminal = true) (ht₂ : ∀ r ∈ t₂, r.document.terminal = true)
    {id : String} {doc' doc₂ : Operation} (hd' : get t' node id = some doc')
    (hd₂ : get t₂ node id = some doc₂) : doc₂ = { doc' with updatedAt := doc₂.updatedAt } := by
  obtain ⟨doc, hd⟩ := exists_get_of_recovered hw h hd'
  obtain ⟨x, hx, hx'⟩ := get_recovered hw' h ht hd
  obtain ⟨y, hy, hy'⟩ := get_recovered hw₂ h₂ ht₂ hd
  obtain rfl : x = doc' := Option.some.inj (hx.symm.trans hd')
  obtain rfl : y = doc₂ := Option.some.inj (hy.symm.trans hd₂)
  rcases hx' with ⟨hold, rfl⟩ | ⟨hopen, now, rfl⟩
  · rcases hy' with ⟨-, rfl⟩ | ⟨hopen, -, -⟩
    · rfl
    · rw [hold] at hopen
      cases hopen
  · rcases hy' with ⟨hold, -⟩ | ⟨-, now', rfl⟩
    · rw [hopen] at hold
      cases hold
    · rfl

/-- **Crash recovery.** From every reachable state, after any number of starts, interrupted
recoveries and crashes, when `recover` completes: the rows are the same and all terminal; a terminal
row is unchanged, an open one is `OUTCOME_UNKNOWN` or, if it was queued, `NOT_DISPATCHED`; every other
such recovery from there gives the same results; a further one changes nothing; and no step on the way
writes or makes a worker. -/
theorem recovery_terminalizes {ls : List Label} (h : Reaches node ls s) :
    ∀ ls' env s' p, (∀ l ∈ ls', l.recovering = true) →
      Lts.exec (Sys.step node) s (ls' ++ [.recover env]) = some s' → s'.life = .up p →
      (s'.table.map Row.id = s.table.map Row.id ∧ ∀ r ∈ s'.table, r.document.terminal = true) ∧
      (∀ id doc, get s.table node id = some doc → ∃ doc', get s'.table node id = some doc' ∧
        (doc.terminal = true → doc' = doc) ∧
        (doc.terminal = false → doc.dispatchStatus ≠ .queued →
          doc'.stage = (.outcomeUnknown, .unknown, true)) ∧
        (doc.terminal = false → doc.dispatchStatus = .queued →
          doc'.stage = (.notDispatched, .notAttempted, true))) ∧
      (∀ ls₂ env₂ s₂ p₂, (∀ l ∈ ls₂, l.recovering = true) →
        Lts.exec (Sys.step node) s (ls₂ ++ [.recover env₂]) = some s₂ → s₂.life = .up p₂ →
        ∀ id doc' doc₂, get s'.table node id = some doc' → get s₂.table node id = some doc₂ →
          doc₂ = { doc' with updatedAt := doc₂.updatedAt }) ∧
      (∀ ls₂ s₂, (∀ l ∈ ls₂, l.recovering = true) →
        Lts.exec (Sys.step node) s' ls₂ = some s₂ → s₂.table = s'.table) ∧
      p.tasks = [] ∧
      ∀ pre l post a b, ls' ++ [.recover env] = pre ++ l :: post →
        Lts.exec (Sys.step node) s pre = some a → a.step node l = some b →
        (∀ id actionId payload, .wrote id actionId payload ∉ a.output l) ∧
          ∀ q, b.life = .up q → q.tasks = [] ∨ a.life = .up q := by
  intro ls' env s' p hl hr hp
  have hi := reaches_inv h
  have hi' := exec_inv hi hr
  obtain ⟨hrows, hterm, htasks⟩ := recovery_completed hi hl hr hp
  refine ⟨⟨ids_recovered hrows, hterm⟩, fun id doc hd => ?_, ?_, fun ls₂ s₂ hl₂ hr₂ => ?_, htasks,
    fun pre l post a b hls ha hs => ?_⟩
  · exact get_recovered_stage hi'.sound.wf hrows hterm hd
  · intro ls₂ env₂ s₂ p₂ hl₂ hr₂ hp₂ id doc' doc₂ hd' hd₂
    have hi₂ := exec_inv hi hr₂
    obtain ⟨hrows₂, hterm₂, -⟩ := recovery_completed hi hl₂ hr₂ hp₂
    exact recovered_agree hi.sound.wf hi'.sound.wf hi₂.sound.wf hrows hrows₂ hterm hterm₂ hd' hd₂
  · exact eq_of_recovered (recovering_rows hi' hl₂ hr₂) hterm
  · have hia := exec_inv hi ha
    have hlab : l.recovering = true := recovering_snoc hl l (by rw [hls]; simp)
    exact ((hia.does hs).recovering hia hlab).2

/-- The process dies right after the barrier commit; the first restart fails before it reaches the
row, the second one completes. -/
theorem recovery_terminalizes_interrupted :
    ∃ s s' p doc', Reaches "546051" commitRun s ∧
      Lts.exec (Sys.step "546051") s ([.crash, .start sampleConfig {}, .recover { commitOk := false },
        .start sampleConfig {}, .recover {}] ++ [.recover {}]) = some s' ∧ s'.life = .up p ∧
      get s'.table "546051" "a1" = some doc' ∧ doc'.stage = (.outcomeUnknown, .unknown, true) := by
  obtain ⟨s, s', hs, hr, hf, hup⟩ := exists_reaches_append "546051" commitRun
    ([.crash, .start sampleConfig {}, .recover { commitOk := false }, .start sampleConfig {},
      .recover {}] ++ [.recover {}])
    (fun s => (get s.table "546051" "a1").map fun doc => (doc.dispatchStatus, doc.terminal))
    (fun s => s.upWith fun _ => true) (some (.dispatchStarted, false)) true
    (by decide +kernel) (by decide +kernel)
  obtain ⟨doc, hd, hst⟩ := Option.map_eq_some_iff.mp hf
  obtain ⟨hq, ht⟩ := Prod.mk.inj hst
  obtain ⟨p, hp, -⟩ := Sys.exists_up hup
  obtain ⟨-, hdoc, -⟩ := recovery_terminalizes hs _ _ s' p (by decide) hr hp
  obtain ⟨doc', hd', -, hcross, -⟩ := hdoc "a1" doc hd
  exact ⟨s, s', p, doc', hs, hr, hp, hd', hcross ht (by rw [hq]; decide)⟩

end Asl3
