import Mathlib.Logic.Basic

/-!
# Programs with exceptions

Programs over primitive calls that return or raise, with `try`, `finally` and endless loops. A run
can stop at every place between two calls, so that what is proved of the runs holds all the time.

* `Prog`, `Exec`: the programs and their runs;
* `Triple`: what holds before a program, and what holds wherever a run of it stops;
* `Triple.and`, `Triple.seq`, `Triple.tryExcept`, `Triple.tryFinally`, **`Triple.loop`**: the rules;
* `AllActs`, **`Triple.invariant`**: what every call keeps.
-/

set_option autoImplicit false

namespace Coroutine

/-- How far a run has come. -/
inductive Outcome (ε : Type*) where
  /-- It stands somewhere in the program. -/
  | pending
  | done
  /-- It leaves the loop around it. -/
  | broke
  | raised (e : ε)

/-- Programs over calls `α`, states `σ` and exceptions `ε`. -/
inductive Prog (α σ ε : Type*) where
  | skip
  | brk
  | raise (e : ε)
  | act (a : α)
  | seq (p q : Prog α σ ε)
  | cond (b : σ → Bool) (p q : Prog α σ ε)
  /-- `try: p`, with the handler `h e` of the exceptions in `catches`. -/
  | tryExcept (p : Prog α σ ε) (catches : ε → Bool) (h : ε → Prog α σ ε)
  | tryFinally (p q : Prog α σ ε)
  /-- `while True: p` -/
  | loop (p : Prog α σ ε)

variable {α σ ε : Type*} (call : α → σ → Option ε → σ → Prop)

/-- The runs of a program. `call a s e s'` says that the call `a` takes `s` to `s'`, and what it
raises. -/
inductive Exec : Prog α σ ε → σ → Outcome ε → σ → Prop
  | pause (p : Prog α σ ε) (s : σ) : Exec p s .pending s
  | skip (s : σ) : Exec .skip s .done s
  | brk (s : σ) : Exec .brk s .broke s
  | raise (e : ε) (s : σ) : Exec (.raise e) s (.raised e) s
  | returns {a : α} {s s' : σ} (h : call a s none s') : Exec (.act a) s .done s'
  | raises {a : α} {s s' : σ} {e : ε} (h : call a s (some e) s') : Exec (.act a) s (.raised e) s'
  | seq {p q : Prog α σ ε} {s m s' : σ} {o : Outcome ε} (hp : Exec p s .done m)
    (hq : Exec q m o s') : Exec (.seq p q) s o s'
  | stops {p q : Prog α σ ε} {s s' : σ} {o : Outcome ε} (hp : Exec p s o s') (ho : o ≠ .done) :
    Exec (.seq p q) s o s'
  | cond {b : σ → Bool} {p q : Prog α σ ε} {s s' : σ} {o : Outcome ε}
    (h : Exec (if b s then p else q) s o s') : Exec (.cond b p q) s o s'
  | passes {p : Prog α σ ε} {catches : ε → Bool} {h : ε → Prog α σ ε} {s s' : σ} {o : Outcome ε}
    (hp : Exec p s o s') (ho : ∀ e, o = .raised e → catches e = false) :
    Exec (.tryExcept p catches h) s o s'
  | caught {p : Prog α σ ε} {catches : ε → Bool} {h : ε → Prog α σ ε} {s m s' : σ} {e : ε}
    {o : Outcome ε} (hp : Exec p s (.raised e) m) (hc : catches e = true)
    (hh : Exec (h e) m o s') : Exec (.tryExcept p catches h) s o s'
  | finallyPending {p q : Prog α σ ε} {s s' : σ} (hp : Exec p s .pending s') :
    Exec (.tryFinally p q) s .pending s'
  | finallyDone {p q : Prog α σ ε} {s m s' : σ} {o : Outcome ε} (hp : Exec p s o m)
    (ho : o ≠ .pending) (hq : Exec q m .done s') : Exec (.tryFinally p q) s o s'
  | finallyStops {p q : Prog α σ ε} {s m s' : σ} {o o' : Outcome ε} (hp : Exec p s o m)
    (ho : o ≠ .pending) (hq : Exec q m o' s') (ho' : o' ≠ .done) : Exec (.tryFinally p q) s o' s'
  | again {p : Prog α σ ε} {s m s' : σ} {o : Outcome ε} (hp : Exec p s .done m)
    (hl : Exec (.loop p) m o s') : Exec (.loop p) s o s'
  | breaks {p : Prog α σ ε} {s s' : σ} (hp : Exec p s .broke s') : Exec (.loop p) s .done s'
  | leaves {p : Prog α σ ε} {s s' : σ} {o : Outcome ε} (hp : Exec p s o s') (hd : o ≠ .done)
    (hb : o ≠ .broke) : Exec (.loop p) s o s'

/-- Wherever a run of `p` from `P` stops, `Q` holds. -/
def Triple (P : σ → Prop) (p : Prog α σ ε) (Q : Outcome ε → σ → Prop) : Prop :=
  ∀ s o s', P s → Exec call p s o s' → Q o s'

/-- `Q`, with `M` for the runs that return. -/
def OnDone (M : σ → Prop) (Q : Outcome ε → σ → Prop) : Outcome ε → σ → Prop
  | .done, s => M s
  | o, s => Q o s

/-- `Q`, with `M` for the exceptions that are caught. -/
def OnRaised (catches : ε → Bool) (M : ε → σ → Prop) (Q : Outcome ε → σ → Prop) :
    Outcome ε → σ → Prop
  | .raised e, s => if catches e then M e s else Q (.raised e) s
  | o, s => Q o s

/-- `Q` around a loop with the invariant `I`. -/
def InLoop (I : σ → Prop) (Q : Outcome ε → σ → Prop) : Outcome ε → σ → Prop
  | .done, s => I s
  | .broke, s => Q .done s
  | o, s => Q o s

variable {call} {P P' M I : σ → Prop} {Q Q' : Outcome ε → σ → Prop} {p q : Prog α σ ε}

namespace Triple

theorem conseq (h : Triple call P' p Q') (hP : ∀ s, P s → P' s) (hQ : ∀ o s, Q' o s → Q o s) :
    Triple call P p Q := fun s o s' hs he => hQ o s' (h s o s' (hP s hs) he)

theorem act {a : α} (hpending : ∀ s, P s → Q .pending s)
    (hdone : ∀ s s', P s → call a s none s' → Q .done s')
    (hraised : ∀ s e s', P s → call a s (some e) s' → Q (.raised e) s') :
    Triple call P (.act a) Q := by
  intro s o s' hs he
  cases he with
  | pause => exact hpending s hs
  | returns h => exact hdone s s' hs h
  | raises h => exact hraised s _ s' hs h

theorem skip (hpending : ∀ s, P s → Q .pending s) (hdone : ∀ s, P s → Q .done s) :
    Triple call P .skip Q := by
  intro s o s' hs he
  cases he with
  | pause => exact hpending s hs
  | skip => exact hdone s hs

theorem brk (hpending : ∀ s, P s → Q .pending s) (hbroke : ∀ s, P s → Q .broke s) :
    Triple call P .brk Q := by
  intro s o s' hs he
  cases he with
  | pause => exact hpending s hs
  | brk => exact hbroke s hs

/-- Two things that hold wherever a run stops. -/
theorem and (h : Triple call P p Q) (h' : Triple call P p Q') :
    Triple call P p fun o s => Q o s ∧ Q' o s :=
  fun s o s' hs he => ⟨h s o s' hs he, h' s o s' hs he⟩

/-- The rule of `;`. -/
theorem seq (hp : Triple call P p (OnDone M Q)) (hq : Triple call M q Q) :
    Triple call P (.seq p q) Q := by
  intro s o s' hs he
  cases he with
  | pause => exact hp s .pending s hs (.pause p s)
  | seq h₁ h₂ => exact hq _ o s' (hp s .done _ hs h₁) h₂
  | stops h ho =>
    have := hp s o s' hs h
    cases o with
    | done => exact absurd rfl ho
    | _ => exact this

/-- The same with what holds at the end apart. -/
theorem seq' {N : σ → Prop} (hp : Triple call P p (OnDone M Q))
    (hq : Triple call M q (OnDone N Q)) : Triple call P (.seq p q) (OnDone N Q) :=
  (hp.conseq (fun _ h => h) fun o _ h => by cases o <;> exact h).seq hq

theorem cond {b : σ → Bool} (hp : Triple call (fun s => P s ∧ b s = true) p Q)
    (hq : Triple call (fun s => P s ∧ b s = false) q Q) : Triple call P (.cond b p q) Q := by
  intro s o s' hs he
  cases he with
  | pause =>
    cases hb : b s with
    | true => exact hp s .pending s ⟨hs, hb⟩ (.pause p s)
    | false => exact hq s .pending s ⟨hs, hb⟩ (.pause q s)
  | cond h =>
    cases hb : b s with
    | true =>
      rw [hb, if_pos rfl] at h
      exact hp s o s' ⟨hs, hb⟩ h
    | false =>
      rw [hb, if_neg (by decide)] at h
      exact hq s o s' ⟨hs, hb⟩ h

/-- The rule of `try` with handlers. -/
theorem tryExcept {catches : ε → Bool} {h : ε → Prog α σ ε} {R : ε → σ → Prop}
    (hp : Triple call P p (OnRaised catches R Q))
    (hh : ∀ e, catches e = true → Triple call (R e) (h e) Q) :
    Triple call P (.tryExcept p catches h) Q := by
  intro s o s' hs he
  cases he with
  | pause => exact hp s .pending s hs (.pause p s)
  | passes h' ho =>
    have := hp s o s' hs h'
    cases o with
    | raised e =>
      rwa [OnRaised, if_neg (by rw [ho e rfl]; decide)] at this
    | _ => exact this
  | caught h' hc he' =>
    have := hp s (.raised _) _ hs h'
    rw [OnRaised, if_pos hc] at this
    exact hh _ hc _ o s' this he'

/-- The rule of `finally`: the cleanup begins wherever the body has ended. -/
theorem tryFinally {R : Outcome ε → σ → Prop} (hp : Triple call P p R)
    (hpending : ∀ s, R .pending s → Q .pending s)
    (hq : ∀ o, o ≠ .pending → Triple call (R o) q (OnDone (Q o) Q)) :
    Triple call P (.tryFinally p q) Q := by
  intro s o s' hs he
  cases he with
  | pause => exact hpending s (hp s .pending s hs (.pause p s))
  | finallyPending h => exact hpending s' (hp s .pending s' hs h)
  | finallyDone h ho h' => exact hq o ho _ .done s' (hp s o _ hs h) h'
  | finallyStops h ho h' ho' =>
    have := hq _ ho _ o s' (hp s _ _ hs h) h'
    cases o with
    | done => exact absurd rfl ho'
    | _ => exact this

/-- **The rule of the loop**: what one round keeps, all rounds keep. -/
theorem loop (hp : Triple call I p (InLoop I Q)) : Triple call I (.loop p) Q := by
  intro s o s' hs he
  generalize hl : Prog.loop p = l at he
  induction he with
  | pause =>
    exact hp _ .pending _ hs (.pause p _)
  | again h₁ h₂ ih₁ ih₂ =>
    cases hl
    exact ih₂ (hp _ .done _ hs h₁) rfl
  | breaks h ih =>
    cases hl
    exact hp _ .broke _ hs h
  | leaves h hd hb ih =>
    cases hl
    rename_i o
    have := hp _ o _ hs h
    cases o with
    | done => exact absurd rfl hd
    | broke => exact absurd rfl hb
    | _ => exact this
  | _ => cases hl

end Triple

/-! ## Calls -/

/-- A property of all calls of a program. -/
def AllActs (R : α → Prop) : Prog α σ ε → Prop
  | .skip | .brk | .raise _ => True
  | .act a => R a
  | .seq p q | .cond _ p q | .tryFinally p q => AllActs R p ∧ AllActs R q
  | .tryExcept p _ h => AllActs R p ∧ ∀ e, AllActs R (h e)
  | .loop p => AllActs R p

/-- **What every call keeps, every run keeps.** -/
theorem Triple.invariant {R : α → Prop} (hp : AllActs R p)
    (hI : ∀ a s e s', R a → I s → call a s e s' → I s') : Triple call I p fun _ => I := by
  intro s o s' hs he
  induction he with
  | returns h => exact hI _ _ _ _ hp hs h
  | raises h => exact hI _ _ _ _ hp hs h
  | seq _ _ ih₁ ih₂ => exact ih₂ hp.2 (ih₁ hp.1 hs)
  | stops _ _ ih => exact ih hp.1 hs
  | @cond b p q s s' o _ ih =>
    refine ih ?_ hs
    cases b s
    · exact hp.2
    · exact hp.1
  | passes _ _ ih => exact ih hp.1 hs
  | caught _ _ _ ih₁ ih₂ => exact ih₂ (hp.2 _) (ih₁ hp.1 hs)
  | finallyPending _ ih => exact ih hp.1 hs
  | finallyDone _ _ _ ih₁ ih₂ => exact ih₂ hp.2 (ih₁ hp.1 hs)
  | finallyStops _ _ _ _ ih₁ ih₂ => exact ih₂ hp.2 (ih₁ hp.1 hs)
  | again _ _ ih₁ ih₂ => exact ih₂ hp (ih₁ hp hs)
  | breaks _ ih => exact ih hp hs
  | leaves _ _ _ ih => exact ih hp hs
  | _ => exact hs

end Coroutine
