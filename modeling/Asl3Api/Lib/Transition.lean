import Mathlib.Data.List.Forall2
import Mathlib.Data.List.Induction

/-!
# Labelled transition systems

A system is a partial step function `step : σ → ℓ → Option σ`: the label carries every choice
of the environment, so a run is determined by its first state and its labels.

* `exec`, `exec_append`, `exec_snoc`: runs and how they compose;
* `exec_induction`: what every step preserves, together with the labels so far, every run has;
* `exec_invariant`, `exec_invariant_of`, `exec_rel`: the same for a property of states, for one kind
  of steps, and for a preorder that every step goes up in;
* `exec_map`, `trace_map`: runs along a map of the states;
* `exists_exec_append`: a run that can be executed, with a state on its way;
* `exec_mem`: a label of a run is a step of that run;
* `trace`, `trace_append`, `trace_snoc`, `mem_trace`: what the steps of a run put out;
* `trace_eq_append_cons`: a place in a trace;
* `exec_congr`, `trace_congr`: replacing labels that the steps do not tell apart;
* `exec_refine`, `exec_simulate`: a system whose steps are runs of another one;
* `exec_filterMap`: the part of a system that only some of its labels move.
-/

set_option autoImplicit false

namespace Lts

variable {σ ℓ : Type*} (step : σ → ℓ → Option σ)

/-- The state after the labels `ls`, when each of them is enabled. -/
def exec : σ → List ℓ → Option σ
  | s, [] => some s
  | s, l :: ls => (step s l).bind fun s' => exec s' ls

variable {step}

@[simp] theorem exec_nil (s : σ) : exec step s [] = some s := rfl

theorem exec_cons {s s' : σ} {l : ℓ} {ls : List ℓ} :
    exec step s (l :: ls) = some s' ↔ ∃ m, step s l = some m ∧ exec step m ls = some s' := by
  simp only [exec, Option.bind_eq_some_iff]

theorem exec_append {s s' : σ} {ls ls' : List ℓ} :
    exec step s (ls ++ ls') = some s' ↔
      ∃ m, exec step s ls = some m ∧ exec step m ls' = some s' := by
  induction ls generalizing s with
  | nil => simp
  | cons l ls ih =>
    rw [List.cons_append, exec_cons]
    constructor
    · rintro ⟨m, hm, h⟩
      obtain ⟨m', hm', h'⟩ := ih.mp h
      exact ⟨m', exec_cons.mpr ⟨m, hm, hm'⟩, h'⟩
    · rintro ⟨m', hm', h'⟩
      obtain ⟨m, hm, h⟩ := exec_cons.mp hm'
      exact ⟨m, hm, ih.mpr ⟨m', h, h'⟩⟩

theorem exec_snoc {s s' : σ} {ls : List ℓ} {l : ℓ} :
    exec step s (ls ++ [l]) = some s' ↔ ∃ m, exec step s ls = some m ∧ step m l = some s' := by
  rw [exec_append]
  refine exists_congr fun m => and_congr_right fun _ => ?_
  rw [exec_cons]
  simp

/-- **Induction along a run**, with the labels so far. -/
theorem exec_induction {s₀ : σ} (P : List ℓ → σ → Prop) (init : P [] s₀)
    (next : ∀ ls s l s', exec step s₀ ls = some s → P ls s → step s l = some s' → P (ls ++ [l]) s')
    {ls : List ℓ} {s : σ} (h : exec step s₀ ls = some s) : P ls s := by
  induction ls using List.reverseRecOn generalizing s with
  | nil => cases h; exact init
  | append_singleton ls l ih =>
    obtain ⟨m, hm, hs⟩ := exec_snoc.mp h
    exact next ls m l s hm (ih hm) hs

/-- **An invariant of the steps is an invariant of the runs.** -/
theorem exec_invariant {s₀ : σ} (I : σ → Prop) (init : I s₀)
    (next : ∀ s l s', I s → step s l = some s' → I s')
    {ls : List ℓ} {s : σ} (h : exec step s₀ ls = some s) : I s :=
  exec_induction (fun _ s => I s) init (fun _ s l s' _ hs hstep => next s l s' hs hstep) h

/-- The same for the runs that take steps of one kind only. -/
theorem exec_invariant_of {s₀ : σ} (L : ℓ → Prop) (I : σ → Prop) (init : I s₀)
    (next : ∀ s l s', L l → I s → step s l = some s' → I s')
    {ls : List ℓ} {s : σ} (hl : ∀ l ∈ ls, L l) (h : exec step s₀ ls = some s) : I s := by
  induction ls generalizing s₀ with
  | nil => cases h; exact init
  | cons l ls ih =>
    obtain ⟨m, hm, h'⟩ := exec_cons.mp h
    exact ih (next s₀ l m (hl l List.mem_cons_self) init hm)
      (fun x hx => hl x (List.mem_cons_of_mem _ hx)) h'

/-- A preorder that every step of an invariant state goes up in is gone up in by every run. -/
theorem exec_rel {s₀ : σ} (I : σ → Prop) (R : σ → σ → Prop) (refl : ∀ s, R s s)
    (trans : ∀ a b c, R a b → R b c → R a c) (init : I s₀)
    (next : ∀ s l s', I s → step s l = some s' → I s')
    (up : ∀ s l s', I s → step s l = some s' → R s s')
    {ls : List ℓ} {s : σ} (h : exec step s₀ ls = some s) : R s₀ s := by
  refine (exec_induction (fun _ s => I s ∧ R s₀ s) ⟨init, refl _⟩ ?_ h).2
  rintro _ s l s' _ ⟨hI, hR⟩ hstep
  exact ⟨next s l s' hI hstep, trans _ _ _ hR (up s l s' hI hstep)⟩

/-- Two systems whose steps agree along a map of their states have the same runs along it. -/
theorem exec_map {σ' : Type*} {step' : σ' → ℓ → Option σ'} (f : σ → σ')
    (hf : ∀ s l, step' (f s) l = (step s l).map f) (s : σ) (ls : List ℓ) :
    exec step' (f s) ls = (exec step s ls).map f := by
  induction ls generalizing s with
  | nil => rfl
  | cons l ls ih =>
    rw [exec, exec, hf]
    cases step s l with
    | none => rfl
    | some m => exact ih m

/-- A run that can be executed, looked at after `ls` and at its end. -/
theorem exists_exec_append {α β : Type*} {s₀ : σ} {ls ls' : List ℓ} (f : σ → α) (g : σ → β) {a : α}
    {b : β} (h : (exec step s₀ ls).map f = some a) (h' : (exec step s₀ (ls ++ ls')).map g = some b) :
    ∃ s s', exec step s₀ ls = some s ∧ exec step s ls' = some s' ∧ f s = a ∧ g s' = b := by
  obtain ⟨s, hs, hf⟩ := Option.map_eq_some_iff.mp h
  obtain ⟨s', hs', hg⟩ := Option.map_eq_some_iff.mp h'
  obtain ⟨m, hm, hr⟩ := exec_append.mp hs'
  obtain rfl : s = m := Option.some.inj (hs.symm.trans hm)
  exact ⟨s, s', hs, hr, hf, hg⟩

/-- A label of a run is a step of that run. -/
theorem exec_mem {s₀ s : σ} {pre post : List ℓ} {l : ℓ}
    (h : exec step s₀ (pre ++ l :: post) = some s) :
    ∃ a b, exec step s₀ pre = some a ∧ step a l = some b ∧ exec step b post = some s := by
  obtain ⟨a, ha, h'⟩ := exec_append.mp h
  obtain ⟨b, hb, h''⟩ := exec_cons.mp h'
  exact ⟨a, b, ha, hb, h''⟩

/-- Labels that the steps do not tell apart can be replaced in a run. -/
theorem exec_congr {R : ℓ → ℓ → Prop} (hR : ∀ s l l', R l l' → step s l = step s l') {ls ls' : List ℓ}
    (h : List.Forall₂ R ls ls') (s : σ) : exec step s ls = exec step s ls' := by
  induction h generalizing s with
  | nil => rfl
  | @cons l l' ls ls' hl _ ih =>
    rw [exec, exec, hR s l l' hl]
    exact congrArg _ (funext ih)

/-! ## What a run puts out -/

section

variable {ε : Type*} (step) (out : σ → ℓ → List ε)

/-- The outputs of the steps of a run, in order. -/
def trace : σ → List ℓ → List ε
  | _, [] => []
  | s, l :: ls => out s l ++ ((step s l).elim [] fun s' => trace s' ls)

variable {step out}

@[simp] theorem trace_nil (s : σ) : trace step out s [] = [] := rfl

theorem trace_map {σ' : Type*} {step' : σ' → ℓ → Option σ'} {out' : σ' → ℓ → List ε} (f : σ → σ')
    (hf : ∀ s l, step' (f s) l = (step s l).map f) (ho : ∀ s l, out' (f s) l = out s l) (s : σ)
    (ls : List ℓ) : trace step' out' (f s) ls = trace step out s ls := by
  induction ls generalizing s with
  | nil => rfl
  | cons l ls ih =>
    rw [trace, trace, hf, ho]
    cases step s l with
    | none => rfl
    | some m => rw [Option.map_some, Option.elim_some, Option.elim_some, ih]

theorem trace_append {s m : σ} {ls ls' : List ℓ} (h : exec step s ls = some m) :
    trace step out s (ls ++ ls') = trace step out s ls ++ trace step out m ls' := by
  induction ls generalizing s with
  | nil => cases h; rfl
  | cons l ls ih =>
    obtain ⟨s', hs, h'⟩ := exec_cons.mp h
    simp only [List.cons_append, trace, hs, Option.elim_some]
    rw [ih h', List.append_assoc]

theorem trace_snoc {s m : σ} {ls : List ℓ} {l : ℓ} (h : exec step s ls = some m) :
    trace step out s (ls ++ [l]) = trace step out s ls ++ out m l := by
  rw [trace_append h]
  have hl : trace step out m [l] = out m l := by
    simp only [trace]
    cases step m l <;> simp
  rw [hl]

/-- The same for what the steps put out. -/
theorem trace_congr {R : ℓ → ℓ → Prop} (hR : ∀ s l l', R l l' → step s l = step s l')
    (ho : ∀ s l l', R l l' → out s l = out s l') {ls ls' : List ℓ} (h : List.Forall₂ R ls ls')
    (s : σ) : trace step out s ls = trace step out s ls' := by
  induction h generalizing s with
  | nil => rfl
  | @cons l l' ls ls' hl _ ih =>
    rw [trace, trace, hR s l l' hl, ho s l l' hl, funext ih]

/-- What a run puts out, one of its steps puts out. -/
theorem mem_trace {s s' : σ} {ls : List ℓ} {e : ε} (h : exec step s ls = some s')
    (he : e ∈ trace step out s ls) : ∃ pre l post a, ls = pre ++ l :: post ∧
      exec step s pre = some a ∧ e ∈ out a l := by
  induction ls generalizing s with
  | nil => cases he
  | cons l ls ih =>
    obtain ⟨m, hm, h'⟩ := exec_cons.mp h
    rw [trace, hm, Option.elim_some, List.mem_append] at he
    rcases he with he | he
    · exact ⟨[], l, ls, s, rfl, rfl, he⟩
    · obtain ⟨pre, x, post, a, rfl, ha, hx⟩ := ih h' he
      exact ⟨l :: pre, x, post, a, rfl, exec_cons.mpr ⟨m, hm, ha⟩, hx⟩

/-- **A place in a trace** is a place in the outputs of one step. -/
theorem trace_eq_append_cons {s s' : σ} {ls : List ℓ} {a b : List ε} {e : ε}
    (h : exec step s ls = some s') (ht : trace step out s ls = a ++ e :: b) :
    ∃ pre l post m a' b', ls = pre ++ l :: post ∧ exec step s pre = some m ∧
      out m l = a' ++ e :: b' ∧ a = trace step out s pre ++ a' := by
  induction ls generalizing s a with
  | nil => cases a <;> cases ht
  | cons l ls ih =>
    obtain ⟨m, hm, h'⟩ := exec_cons.mp h
    have later : ∀ c, a = out s l ++ c → trace step out m ls = c ++ e :: b →
        ∃ pre x post m a' b', l :: ls = pre ++ x :: post ∧ exec step s pre = some m ∧
          out m x = a' ++ e :: b' ∧ a = trace step out s pre ++ a' := by
      intro c ha hc
      obtain ⟨pre, x, post, n, a', b', rfl, hn, ho, rfl⟩ := ih h' hc
      refine ⟨l :: pre, x, post, n, a', b', rfl, exec_cons.mpr ⟨m, hm, hn⟩, ho, ?_⟩
      rw [ha, trace, hm, Option.elim_some, List.append_assoc]
    rw [trace, hm, Option.elim_some] at ht
    rcases List.append_eq_append_iff.mp ht with ⟨c, ha, hc⟩ | ⟨c, hl, hc⟩
    · exact later c ha hc
    · cases c with
      | nil => exact later [] (by rw [hl, List.append_nil, List.append_nil]) hc.symm
      | cons x c =>
        rw [List.cons_append, List.cons.injEq] at hc
        obtain ⟨rfl, -⟩ := hc
        exact ⟨[], l, ls, s, a, c, rfl, rfl, hl, rfl⟩

/-- **Refinement.** When every step of one system is a run of another one along a map of the states,
with the same outputs, so is every run. -/
theorem exec_refine {σ' ℓ' : Type*} {step' : σ' → ℓ' → Option σ'} {out' : σ' → ℓ' → List ε} (f : σ → σ')
    (hf : ∀ s l s', step s l = some s' → ∃ ls', exec step' (f s) ls' = some (f s') ∧
      trace step' out' (f s) ls' = out s l) {s s' : σ} {ls : List ℓ} (h : exec step s ls = some s') :
    ∃ ls', exec step' (f s) ls' = some (f s') ∧
      trace step' out' (f s) ls' = trace step out s ls := by
  induction ls generalizing s with
  | nil =>
    cases h
    exact ⟨[], rfl, rfl⟩
  | cons l ls ih =>
    obtain ⟨m, hm, h'⟩ := exec_cons.mp h
    obtain ⟨ls₁, h₁, ht₁⟩ := hf s l m hm
    obtain ⟨ls₂, h₂, ht₂⟩ := ih h'
    refine ⟨ls₁ ++ ls₂, exec_append.mpr ⟨f m, h₁, h₂⟩, ?_⟩
    rw [trace_append h₁, ht₁, ht₂, trace, hm, Option.elim_some]

/-- **Simulation.** When every step of one system, taken in related states, is a run of another one to
related states, with the same outputs, so is every run. -/
theorem exec_simulate {σ' ℓ' : Type*} {step' : σ' → ℓ' → Option σ'} {out' : σ' → ℓ' → List ε}
    (L : ℓ → Prop) (R : σ → σ' → Prop)
    (hR : ∀ s u l s', L l → R s u → step s l = some s' → ∃ ls' u', exec step' u ls' = some u' ∧
      R s' u' ∧ trace step' out' u ls' = out s l)
    {s s' : σ} {u : σ'} {ls : List ℓ} (hl : ∀ l ∈ ls, L l) (hu : R s u)
    (h : exec step s ls = some s') : ∃ ls' u', exec step' u ls' = some u' ∧ R s' u' ∧
      trace step' out' u ls' = trace step out s ls := by
  induction ls generalizing s u with
  | nil =>
    cases h
    exact ⟨[], u, rfl, hu, rfl⟩
  | cons l ls ih =>
    obtain ⟨m, hm, h'⟩ := exec_cons.mp h
    obtain ⟨ls₁, u₁, h₁, hu₁, ht₁⟩ := hR s u l m (hl l List.mem_cons_self) hu hm
    obtain ⟨ls₂, u₂, h₂, hu₂, ht₂⟩ := ih (fun x hx => hl x (List.mem_cons_of_mem _ hx)) hu₁ h'
    refine ⟨ls₁ ++ ls₂, u₂, exec_append.mpr ⟨u₁, h₁, h₂⟩, hu₂, ?_⟩
    rw [trace_append h₁, ht₁, ht₂, trace, hm, Option.elim_some]

/-- **Projection.** When the labels that `p` leaves out neither change a part of the state nor put
anything out, that part runs on the other labels. -/
theorem exec_filterMap {σ' ℓ' : Type*} {step' : σ' → ℓ' → Option σ'} {out' : σ' → ℓ' → List ε}
    (f : σ → σ') (p : ℓ → Option ℓ')
    (skip : ∀ s l s', step s l = some s' → p l = none → f s' = f s ∧ out s l = [])
    (move : ∀ s l s' l', step s l = some s' → p l = some l' →
      step' (f s) l' = some (f s') ∧ out s l = out' (f s) l')
    {s s' : σ} {ls : List ℓ} (h : exec step s ls = some s') :
    exec step' (f s) (ls.filterMap p) = some (f s') ∧
      trace step' out' (f s) (ls.filterMap p) = trace step out s ls := by
  induction ls generalizing s with
  | nil =>
    cases h
    exact ⟨rfl, rfl⟩
  | cons l ls ih =>
    obtain ⟨m, hm, h'⟩ := exec_cons.mp h
    obtain ⟨hr, ht⟩ := ih h'
    rw [trace, hm, Option.elim_some]
    cases hp : p l with
    | none =>
      obtain ⟨hf, ho⟩ := skip s l m hm hp
      rw [List.filterMap_cons_none hp, ho, List.nil_append, ← hf]
      exact ⟨hr, ht⟩
    | some l' =>
      obtain ⟨hf, ho⟩ := move s l m l' hm hp
      rw [List.filterMap_cons_some hp, ho, ← ht]
      refine ⟨exec_cons.mpr ⟨f m, hf, hr⟩, ?_⟩
      rw [trace, hf, Option.elim_some]

end

end Lts
