import Mathlib.Data.List.Basic
import Mathlib.Logic.Function.Basic
import Asl3Api.Lib.Transition

/-!
# Components over one store

Each component has a private state, and all of them work on one store. When a component only reads
and writes the part of the store that belongs to it, an interleaving of the components looks to
each of them like a run of its own.

* `interleave`: the system of all components, `own`: the labels of one of them;
* `LocalAt`: a step keeps to the part of its component;
* **`exec_seen`**, **`trace_seen`**: a run of local steps, as one component sees it.
-/

set_option autoImplicit false

namespace Lts

variable {ι σ ν ℓ ε : Type*} [DecidableEq ι]

section

variable (step : ι → σ × ν → ℓ → Option (σ × ν)) (view : ι → σ → σ)

/-- One step of the component that the label names. -/
def interleave (s : σ × (ι → ν)) (x : ι × ℓ) : Option (σ × (ι → ν)) :=
  (step x.1 (s.1, s.2 x.1) x.2).map fun m => (m.1, Function.update s.2 x.1 m.2)

/-- The labels, or the outputs, of one component. -/
def own (i : ι) (ls : List (ι × ℓ)) : List ℓ := (ls.filter fun x => x.1 = i).map Prod.snd

/-- The state as one component sees it. -/
def seen (i : ι) (s : σ × (ι → ν)) : σ × ν := (view i s.1, s.2 i)

/-- The step reads and writes only the part of the store that belongs to its component. -/
structure LocalAt (s : σ × (ι → ν)) (x : ι × ℓ) : Prop where
  reads : step x.1 (seen view x.1 s) x.2 =
    (step x.1 (s.1, s.2 x.1) x.2).map fun m => (view x.1 m.1, m.2)
  writes : ∀ m, step x.1 (s.1, s.2 x.1) x.2 = some m → ∀ j ≠ x.1, view j m.1 = view j s.1

/-- Every step of the run is local in the state where it is taken. -/
def LocalRun (s : σ × (ι → ν)) (ls : List (ι × ℓ)) : Prop :=
  ∀ pre x post m, ls = pre ++ x :: post → exec (interleave step) s pre = some m →
    LocalAt step view m x

end

variable {step : ι → σ × ν → ℓ → Option (σ × ν)} {view : ι → σ → σ}

theorem own_cons_self (i : ι) (l : ℓ) (ls : List (ι × ℓ)) :
    own i ((i, l) :: ls) = l :: own i ls := by
  unfold own
  rw [List.filter_cons_of_pos (by simp), List.map_cons]

theorem own_cons_of_ne {i : ι} {x : ι × ℓ} (h : x.1 ≠ i) (ls : List (ι × ℓ)) :
    own i (x :: ls) = own i ls := by
  unfold own
  rw [List.filter_cons_of_neg (by simpa using h)]

theorem own_map_pair (i j : ι) (ls : List ℓ) :
    own i (ls.map fun l => (j, l)) = if j = i then ls else [] := by
  unfold own
  rw [List.filter_map, List.map_map]
  by_cases h : j = i
  · simp [h, Function.comp_def]
  · simp [h, Function.comp_def]

theorem LocalRun.tail {s m : σ × (ι → ν)} {x : ι × ℓ} {ls : List (ι × ℓ)}
    (h : LocalRun step view s (x :: ls)) (hs : interleave step s x = some m) :
    LocalRun step view m ls := by
  intro pre y post m' hls hm
  exact h (x :: pre) y post m' (by rw [hls]; rfl) (exec_cons.mpr ⟨m, hs, hm⟩)

/-- A local step, as the component that takes it sees it. -/
theorem LocalAt.seen_self {s m : σ × (ι → ν)} {x : ι × ℓ} (h : LocalAt step view s x)
    (hs : interleave step s x = some m) : step x.1 (seen view x.1 s) x.2 = some (seen view x.1 m) := by
  obtain ⟨c, hc, rfl⟩ := Option.map_eq_some_iff.mp hs
  rw [h.reads, hc]
  simp [seen]

/-- A local step, as another component sees it. -/
theorem LocalAt.seen_other {s m : σ × (ι → ν)} {x : ι × ℓ} (h : LocalAt step view s x)
    (hs : interleave step s x = some m) {i : ι} (hi : i ≠ x.1) : seen view i m = seen view i s := by
  obtain ⟨c, hc, rfl⟩ := Option.map_eq_some_iff.mp hs
  unfold seen
  dsimp only
  rw [h.writes c hc i hi, Function.update_of_ne hi]

/-- **A run of local steps is to each component a run of its own.** -/
theorem exec_seen {s s' : σ × (ι → ν)} {ls : List (ι × ℓ)} (hl : LocalRun step view s ls)
    (h : exec (interleave step) s ls = some s') (i : ι) :
    exec (step i) (seen view i s) (own i ls) = some (seen view i s') := by
  induction ls generalizing s with
  | nil => cases h; rfl
  | cons x ls ih =>
    obtain ⟨m, hm, h'⟩ := exec_cons.mp h
    have hx := hl [] x ls s rfl rfl
    by_cases hi : x.1 = i
    · subst hi
      rw [own_cons_self, exec_cons]
      exact ⟨_, hx.seen_self hm, ih (hl.tail hm) h'⟩
    · rw [own_cons_of_ne hi, ← hx.seen_other hm (Ne.symm hi)]
      exact ih (hl.tail hm) h'

/-- What every step puts out depends only on the part of the store that belongs to its component. -/
def LocalTrace (step : ι → σ × ν → ℓ → Option (σ × ν)) (view : ι → σ → σ)
    (out : ι → σ × ν → ℓ → List ε) (s : σ × (ι → ν)) (ls : List (ι × ℓ)) : Prop :=
  ∀ pre x post m, ls = pre ++ x :: post → exec (interleave step) s pre = some m →
    out x.1 (seen view x.1 m) x.2 = out x.1 (m.1, m.2 x.1) x.2

theorem LocalTrace.tail {out : ι → σ × ν → ℓ → List ε} {s m : σ × (ι → ν)} {x : ι × ℓ}
    {ls : List (ι × ℓ)} (h : LocalTrace step view out s (x :: ls))
    (hs : interleave step s x = some m) : LocalTrace step view out m ls := by
  intro pre y post m' hls hm
  exact h (x :: pre) y post m' (by rw [hls]; rfl) (exec_cons.mpr ⟨m, hs, hm⟩)

/-- The outputs of a step, with the component that takes it. -/
def tagged (out : ι → σ × ν → ℓ → List ε) (s : σ × (ι → ν)) (x : ι × ℓ) : List (ι × ε) :=
  (out x.1 (s.1, s.2 x.1) x.2).map fun e => (x.1, e)

/-- **What one component puts out in a run of local steps.** -/
theorem trace_seen {out : ι → σ × ν → ℓ → List ε} {s s' : σ × (ι → ν)} {ls : List (ι × ℓ)}
    (hl : LocalRun step view s ls) (ho : LocalTrace step view out s ls)
    (h : exec (interleave step) s ls = some s') (i : ι) :
    own i (trace (interleave step) (tagged out) s ls) =
      trace (step i) (out i) (seen view i s) (own i ls) := by
  induction ls generalizing s with
  | nil => rfl
  | cons x ls ih =>
    obtain ⟨m, hm, h'⟩ := exec_cons.mp h
    have hx := hl [] x ls s rfl rfl
    have hrest := ih (hl.tail hm) (ho.tail hm) h'
    obtain ⟨j, l⟩ := x
    have happ : own i (trace (interleave step) (tagged out) s ((j, l) :: ls)) =
        own i (tagged out s (j, l)) ++ own i (trace (interleave step) (tagged out) m ls) := by
      simp only [trace, hm, Option.elim_some, own, List.filter_append, List.map_append]
    rw [happ, hrest]
    by_cases hi : j = i
    · subst hi
      have hout : out j (seen view j s) l = out j (s.1, s.2 j) l := ho [] (j, l) ls s rfl rfl
      have hself := hx.seen_self hm
      dsimp only at hself
      rw [own_cons_self, trace, hself, hout, Option.elim_some]
      rw [tagged, own_map_pair, if_pos rfl]
    · rw [own_cons_of_ne hi, hx.seen_other hm (Ne.symm hi)]
      rw [tagged, own_map_pair, if_neg hi, List.nil_append]

end Lts
