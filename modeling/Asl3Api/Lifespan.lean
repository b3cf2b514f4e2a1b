import Mathlib.Logic.Function.Basic
import Asl3Api.Background
import Asl3Api.EventHandler
import Asl3Api.Lib.Coroutine
import Asl3Api.Stream.Generator
import Asl3Api.Runs.System

/-!
# The lifespan of the process (`asl_agent.py`)

* `Res`, `Call`, `Host`: what the process holds, and the calls that take and release it;
* `connect`, `disconnect`, `startEvents`, `startCache`, `startListener`, `stopTask`, `lifespan`: the
  programs of the source;
* `Runs`: what a call does, with everything that can go on beside it;
* `triple_release`, `triple_cleanup`: the shutdown, one release after another;
* `InOrder`, `Guarded`: the owner lock comes first and is given back first;
* **`lifespan_releases`**: nothing is held without the owner lock before the shutdown, and after it
  only what could not be released.

The tasks themselves are in `Background`.
-/

set_option autoImplicit false

namespace Asl3

namespace Lifespan

open Py Coroutine

/-! ## What the process holds -/

/-- What is held, in the order in which the shutdown releases it. -/
inductive Res where
  /-- The owner lock and the ledger of the runtime. -/
  | runtime
  /-- `_monitoring_task` -/
  | monitor
  /-- `_poll_task` of the listener. -/
  | poll
  /-- `_session` of the event handler. -/
  | session
  /-- `_refresh_task` of the cache. -/
  | refresh
  /-- `manager` of the client. -/
  | manager
  deriving DecidableEq, Repr

/-- The place in the order. -/
def Res.order : Res → ℕ
  | .runtime => 0
  | .monitor => 1
  | .poll => 2
  | .session => 3
  | .refresh => 4
  | .manager => 5

/-- A task ends by itself when an exception leaves it. -/
def Res.isTask : Res → Bool
  | .monitor | .poll | .refresh => true
  | _ => false

/-- The calls of the programs. -/
inductive Call where
  /-- `config.validate()` -/
  | validate
  /-- `runtime.start()`, `create_task(…)`, `ClientSession()` or `Manager(…)`. -/
  | acquire (r : Res)
  /-- `await self.manager.connect()` -/
  | managerConnect
  /-- `self.connected = …` -/
  | setConnected (b : Bool)
  /-- `await self._fetch()` -/
  | fetch
  /-- `yield` -/
  | serve
  /-- `task.cancel()` -/
  | cancel (r : Res)
  /-- `close()` of the runtime, the session or the manager, or the wait for a task. -/
  | release (r : Res)
  /-- `… = None` -/
  | forget (r : Res)
  deriving DecidableEq, Repr

/-- The process. `res r` is `none` when the variable is `None`, and else tells whether what it names
is still alive. -/
structure Host where
  res : Res → Option Bool
  connected : Bool
  /-- The calls that ended, with what they raised. -/
  log : List (Call × Option Raised)

/-- The process before it starts. -/
def Host.init : Host := ⟨fun _ => none, false, []⟩

/-- What is alive. -/
def Host.Held (s : Host) (r : Res) : Prop := s.res r = some true

def Host.set (s : Host) (r : Res) (v : Option Bool) : Host :=
  { s with res := Function.update s.res r v }

/-! ## The programs -/

/-- `except ValueError` -/
def isValueError : Raised → Bool
  | .error (.py (.valueError _)) => true
  | _ => false

/-- `except TypeError` -/
def isTypeError : Raised → Bool
  | .error (.py (.typeError _)) => true
  | _ => false

/-- `except asyncio.CancelledError` -/
def isCancelled : Raised → Bool
  | .cancelled => true
  | .error _ => false

abbrev Program := Prog Call Host Raised

/-- The statements, one after another. -/
def block : List Program → Program
  | [] => .skip
  | [p] => p
  | p :: q :: ps => .seq p (block (q :: ps))

/-- `if …:`, of the configuration. -/
def whenSet (b : Bool) (p : Program) : Program := if b then p else .skip

/-- `if self.…:`, of a variable. -/
def whenBound (r : Res) (p : Program) : Program := .cond (fun s => (s.res r).isSome) p .skip

/-- `AMIClient.connect` -/
def connect : Program :=
  .tryExcept
    (block [.act (.acquire .manager), .act .managerConnect, .act (.setConnected true)])
    Background.isException fun e => block [.act (.setConnected false), .raise e]

/-- `AMIClient.disconnect` -/
def disconnect : Program :=
  whenBound .manager <| block
    [.tryExcept (.act (.release .manager)) isTypeError fun _ => .skip, .act (.setConnected false)]

/-- `EventHandler.start` -/
def startEvents (cfg : Config) : Program :=
  whenSet cfg.webhooksEnabled (whenSet cfg.webhookUrl.truthy (.act (.acquire .session)))

/-- `EventHandler.stop` -/
def stopEvents : Program :=
  whenBound .session (block [.act (.release .session), .act (.forget .session)])

/-- `NodeCache.start` -/
def startCache : Program := block [.act .fetch, .act (.acquire .refresh)]

/-- `NodeCache.stop` -/
def stopCache : Program :=
  whenBound .refresh <| block
    [.act (.cancel .refresh), .tryExcept (.act (.release .refresh)) isCancelled fun _ => .skip]

/-- `AMIEventListener.start` -/
def startListener (cfg : Config) : Program := whenSet cfg.eventsEnabled (.act (.acquire .poll))

/-- The task is cancelled, awaited and forgotten. -/
def stopTask (r : Res) : Program :=
  whenBound r (block [.act (.cancel r), .act (.release r), .act (.forget r)])

/-- The body of the `try`. -/
def body (cfg : Config) : Program :=
  block
    [.tryExcept connect Background.isException fun _ => .skip,
      startEvents cfg,
      startCache,
      startListener cfg,
      whenSet cfg.webhooksEnabled (.act (.acquire .monitor)),
      .act .serve]

/-- The `finally`. -/
def cleanup : Program :=
  block
    [.act (.release .runtime), stopTask .monitor, stopTask .poll, stopEvents, stopCache, disconnect]

/-- `lifespan` -/
def lifespan (cfg : Config) : Program :=
  block
    [.tryExcept (.act .validate) isValueError .raise,
      .act (.acquire .runtime),
      .tryFinally (body cfg) cleanup]

/-! ## What the calls do -/

/-- What can go on beside a call: a task ends, a health check looks at the connection. -/
structure Beside (s m : Host) : Prop where
  res : ∀ r, m.res r = s.res r ∨ r.isTask = true ∧ s.Held r ∧ m.res r = some false
  log : m.log = s.log

/-- What a call does by itself. -/
inductive Effect : Call → Option Raised → Host → Host → Prop
  | validate {e : Option Raised} {s : Host} : Effect .validate e s s
  | acquired {r : Res} {s : Host} : Effect (.acquire r) none s (s.set r (some true))
  /-- What is not made holds nothing; a task is always made. -/
  | refused {r : Res} {e : Raised} {s : Host} (hr : r.isTask = false) :
    Effect (.acquire r) (some e) s s
  | managerConnect {e : Option Raised} {s : Host} : Effect .managerConnect e s s
  | setConnected {b : Bool} {s : Host} : Effect (.setConnected b) none s { s with connected := b }
  | fetch {e : Option Raised} {s : Host} : Effect .fetch e s s
  | serve {e : Option Raised} {s : Host} : Effect .serve e s s
  | cancel {r : Res} {s : Host} : Effect (.cancel r) none s s
  | released {r : Res} {s : Host} : Effect (.release r) none s (s.set r (some false))
  /-- A release that raises may have released or not. -/
  | failed {r : Res} {e : Raised} {b : Bool} {s : Host} (hb : b = true → s.Held r) :
    Effect (.release r) (some e) s (s.set r (some b))
  | forget {r : Res} {s : Host} : Effect (.forget r) none s (s.set r none)

/-- A call of the process. -/
def Runs (a : Call) (s : Host) (e : Option Raised) (s' : Host) : Prop :=
  ∃ m m', Beside s m ∧ Effect a e m m' ∧ s' = { m' with log := m'.log ++ [(a, e)] }

section

variable {a : Call} {s s' : Host} {e : Option Raised} {r : Res}

theorem Effect.log (h : Effect a e s s') : s'.log = s.log := by
  cases h <;> rfl

theorem Runs.log (h : Runs a s e s') : s'.log = s.log ++ [(a, e)] := by
  obtain ⟨m, m', hm, he, rfl⟩ := h
  dsimp only
  rw [he.log, hm.log]

theorem held_set {v : Option Bool} {r' : Res} : (s.set r v).Held r' ↔
    if r' = r then v = some true else s.Held r' := by
  rw [Host.Held, Host.set]
  dsimp only
  rw [Function.update_apply]
  split_ifs <;> rfl

theorem Beside.held {m : Host} (h : Beside s m) (hr : m.Held r) : s.Held r := by
  rcases h.res r with he | ⟨-, hs, -⟩
  · rwa [Host.Held, ← he]
  · exact hs

/-- **Only what is acquired becomes held.** -/
theorem Runs.held (h : Runs a s e s') (hr : s'.Held r) : s.Held r ∨ a = .acquire r := by
  obtain ⟨m, m', hm, he, rfl⟩ := h
  replace hr : m'.Held r := hr
  cases he with
  | acquired =>
    rw [held_set] at hr
    split_ifs at hr with heq
    · exact Or.inr (heq ▸ rfl)
    · exact Or.inl (hm.held hr)
  | released =>
    rw [held_set] at hr
    split_ifs at hr
    · cases hr
    · exact Or.inl (hm.held hr)
  | failed hb =>
    rw [held_set] at hr
    split_ifs at hr with heq
    · exact Or.inl (hm.held (heq ▸ hb (Option.some.inj hr)))
    · exact Or.inl (hm.held hr)
  | forget =>
    rw [held_set] at hr
    split_ifs at hr
    exact Or.inl (hm.held hr)
  | _ => exact Or.inl (hm.held hr)

/-- What is released is not held. -/
theorem Runs.released (h : Runs (.release r) s none s') : ¬ s'.Held r := by
  obtain ⟨m, m', -, he, rfl⟩ := h
  cases he
  intro hr
  replace hr : (m.set r (some false)).Held r := hr
  rw [held_set, if_pos rfl] at hr
  cases hr

/-- The runtime is held until it is released. -/
theorem Runs.runtime (h : Runs a s e s') (hr : s.Held .runtime) (ha : a ≠ .release .runtime)
    (ha' : a ≠ .forget .runtime) : s'.Held .runtime := by
  obtain ⟨m, m', hm, he, rfl⟩ := h
  have hm' : m.Held .runtime := by
    rcases hm.res .runtime with h | ⟨⟨⟩, -⟩
    rwa [Host.Held, h]
  show m'.Held .runtime
  cases he with
  | @acquired r =>
    rw [held_set]
    split_ifs
    · rfl
    · exact hm'
  | @released r =>
    rw [held_set, if_neg fun h => ha (by rw [← h])]
    exact hm'
  | @failed r =>
    rw [held_set, if_neg fun h => ha (by rw [← h])]
    exact hm'
  | @forget r =>
    rw [held_set, if_neg fun h => ha' (by rw [← h])]
    exact hm'
  | _ => exact hm'

end

/-! ## Blocks -/

section

variable {P M N : Host → Prop} {Q : Outcome Raised → Host → Prop} {p q : Program}
  {ps : List Program}

theorem triple_block (hp : Triple Runs P p (OnDone M Q))
    (hq : Triple Runs M (block (q :: ps)) (OnDone N Q)) :
    Triple Runs P (block (p :: q :: ps)) (OnDone N Q) := hp.seq' hq

theorem triple_whenBound {r : Res} (hp : Triple Runs P p Q) (hpending : ∀ s, P s → Q .pending s)
    (hdone : ∀ s, P s → ¬ s.Held r → Q .done s) : Triple Runs P (whenBound r p) Q := by
  refine .cond (hp.conseq (fun s h => h.1) fun _ _ h => h) (.skip (fun s h => hpending s h.1) ?_)
  rintro s ⟨h, hr⟩
  refine hdone s h fun hheld => ?_
  rw [hheld] at hr
  cases hr

end

/-! ## The shutdown -/

/-- A release that is no later in the order has raised. -/
def Failed (k : ℕ) (s : Host) : Prop := ∃ r : Res, r.order ≤ k ∧ ∃ e, (.release r, some e) ∈ s.log

/-- What is left of the resources below `k` could not be released. -/
def Clean (k : ℕ) (s : Host) : Prop := ∀ r : Res, r.order < k → s.Held r → Failed r.order s

/-- What holds behind the shutdown. -/
def Shut (o : Outcome Raised) (s : Host) : Prop := o = .pending ∨ Clean 6 s

section

variable {a : Call} {s s' : Host} {e : Option Raised} {r : Res} {k : ℕ}

theorem Res.order_lt (r : Res) : r.order < 6 := by cases r <;> decide

theorem Res.order_inj {r r' : Res} (h : r.order = r'.order) : r = r' := by
  cases r <;> cases r' <;> first | rfl | cases h

theorem Failed.runs (h : Failed k s) (hs : Runs a s e s') : Failed k s' := by
  obtain ⟨r, hr, x, hx⟩ := h
  exact ⟨r, hr, x, hs.log ▸ List.mem_append_left _ hx⟩

theorem Clean.runs (h : Clean k s) (hs : Runs a s e s') (ha : ∀ r, a ≠ .acquire r) :
    Clean k s' := fun r hr hheld =>
  (h r hr ((hs.held hheld).resolve_right (ha r))).runs hs

/-- **One release of the shutdown.** -/
theorem triple_release (hk : r.order = k) :
    Triple Runs (Clean k) (.act (.release r)) (OnDone (Clean (k + 1)) Shut) := by
  refine .act (fun s _ => Or.inl rfl) (fun s s' hs hr r' hr' hheld => ?_)
    fun s e s' hs hr => Or.inr fun r' _ hheld => ?_
  · rcases Nat.lt_succ_iff_lt_or_eq.mp hr' with hlt | heq
    · exact hs.runs hr (by rintro _ ⟨⟩) r' hlt hheld
    · obtain rfl := Res.order_inj (heq.trans hk.symm)
      exact absurd hheld hr.released
  · rcases Nat.lt_or_ge r'.order k with hlt | hge
    · exact hs.runs hr (by rintro _ ⟨⟩) r' hlt hheld
    · exact ⟨r, hk.trans_le hge, e, hr.log ▸ List.mem_append_right _ (List.mem_singleton_self _)⟩

/-- The calls that take and release nothing, and never raise. -/
def Call.isQuiet : Call → Bool
  | .setConnected _ | .cancel _ | .forget _ => true
  | _ => false

theorem triple_keep (ha : a.isQuiet = true) :
    Triple Runs (Clean k) (.act a) (OnDone (Clean k) Shut) := by
  refine .act (fun _ _ => Or.inl rfl) (fun s s' hs hr => hs.runs hr ?_) fun s e s' _ hr => ?_
  · rintro r rfl
    cases ha
  · obtain ⟨m, m', -, he, -⟩ := hr
    cases he <;> cases ha

/-- Without the variable there is nothing to release. -/
theorem Clean.next (h : Clean k s) (hk : r.order = k) (hr : ¬ s.Held r) : Clean (k + 1) s := by
  intro r' hr' hheld
  rcases Nat.lt_succ_iff_lt_or_eq.mp hr' with hlt | heq
  · exact h r' hlt hheld
  · obtain rfl := Res.order_inj (heq.trans hk.symm)
    exact absurd hheld hr

theorem triple_stopTask (hk : r.order = k) :
    Triple Runs (Clean k) (stopTask r) (OnDone (Clean (k + 1)) Shut) := by
  refine triple_whenBound ?_ (fun s _ => Or.inl rfl) fun s h hr => h.next hk hr
  exact triple_block (triple_keep rfl) (triple_block (triple_release hk) (triple_keep rfl))

theorem triple_stopEvents : Triple Runs (Clean 3) stopEvents (OnDone (Clean 4) Shut) := by
  refine triple_whenBound ?_ (fun s _ => Or.inl rfl) fun s h hr => h.next rfl hr
  exact triple_block (triple_release rfl) (triple_keep rfl)

/-- A release whose exceptions are dropped, some of them or all. -/
theorem triple_dropping {catches : Raised → Bool} (hk : r.order = k) :
    Triple Runs (Clean k) (.tryExcept (.act (.release r)) catches fun _ => .skip)
      (OnDone (Clean (k + 1)) Shut) := by
  refine .tryExcept (R := fun _ s => Clean 6 s) ((triple_release hk).conseq (fun _ h => h) ?_) ?_
  · intro o s h
    cases o with
    | raised e =>
      have hclean : Clean 6 s := Or.resolve_left h (by rintro ⟨⟩)
      rw [OnRaised]
      split_ifs
      · exact hclean
      · exact Or.inr hclean
    | _ => exact h
  · exact fun e _ => .skip (fun s _ => Or.inl rfl) fun s h r' _ hheld => h r' r'.order_lt hheld

theorem triple_stopCache : Triple Runs (Clean 4) stopCache (OnDone (Clean 5) Shut) := by
  refine triple_whenBound ?_ (fun s _ => Or.inl rfl) fun s h hr => h.next rfl hr
  exact triple_block (triple_keep rfl) (triple_dropping rfl)

theorem triple_disconnect : Triple Runs (Clean 5) disconnect (OnDone (Clean 6) Shut) := by
  refine triple_whenBound ?_ (fun s _ => Or.inl rfl) fun s h hr => h.next rfl hr
  exact triple_block (triple_dropping rfl) (triple_keep rfl)

/-- **The shutdown** releases everything, or what is left could not be released. -/
theorem triple_cleanup : Triple Runs (Clean 0) cleanup Shut := by
  have h : Triple Runs (Clean 0) cleanup (OnDone (Clean 6) Shut) :=
    triple_block (triple_release rfl) <| triple_block (triple_stopTask rfl) <|
      triple_block (triple_stopTask rfl) <| triple_block triple_stopEvents <|
      triple_block triple_stopCache triple_disconnect
  refine h.conseq (fun _ h => h) fun o s ho => ?_
  cases o with
  | done => exact Or.inr ho
  | _ => exact ho

end

/-! ## The order of the calls -/

/-- What a host did, in order. -/
structure InOrder (log : List (Call × Option Raised)) : Prop where
  /-- Without the owner lock there is no connection and no task. -/
  owned : ∀ pre a e post, log = pre ++ (a, e) :: post →
    a = .validate ∨ a = .acquire .runtime ∨ (.acquire .runtime, none) ∈ pre
  /-- The runtime is closed before everything else. -/
  closed : ∀ pre r e post, log = pre ++ (.release r, e) :: post →
    r = .runtime ∨ (.release .runtime, none) ∈ pre
  /-- Nothing is taken in the shutdown. -/
  opened : ∀ pre r e post, log = pre ++ (.acquire r, e) :: post → ∀ r' e', (.release r', e') ∉ pre

/-- What is held is held under the owner lock, as long as no release of it was tried. -/
def Guarded (s : Host) : Prop :=
  ∀ r, s.Held r → s.Held .runtime ∨ ∃ e, (.release .runtime, e) ∈ s.log

/-- Before the runtime starts. -/
structure Fresh (s : Host) : Prop where
  empty : ∀ r, ¬ s.Held r
  log : ∀ x ∈ s.log, x.1 = .validate
  order : InOrder s.log

/-- The runtime is up. -/
structure Started (s : Host) : Prop where
  held : s.Held .runtime
  acquired : (.acquire .runtime, none) ∈ s.log
  unreleased : ∀ r e, (.release r, e) ∉ s.log
  order : InOrder s.log

/-- The runtime is closed. -/
structure Stopped (s : Host) : Prop where
  acquired : (.acquire .runtime, none) ∈ s.log
  released : (.release .runtime, none) ∈ s.log
  order : InOrder s.log

/-- What holds wherever a run stops. -/
def Sound (o : Outcome Raised) (s : Host) : Prop := (InOrder s.log ∧ Guarded s) ∧ Shut o s

/-- A call before the shutdown. -/
def Opens : Call → Prop
  | .release _ | .forget _ => False
  | _ => True

/-- A call of the shutdown. -/
def Closes : Call → Prop
  | .acquire _ => False
  | _ => True

section

variable {a : Call} {s s' : Host} {e : Option Raised} {r : Res}
  {log pre post : List (Call × Option Raised)} {x y : Call × Option Raised}

theorem snoc_split (h : log ++ [x] = pre ++ y :: post) :
    pre = log ∧ y = x ∨ ∃ post', log = pre ++ y :: post' := by
  rcases List.eq_nil_or_concat post with rfl | ⟨post', z, rfl⟩
  · obtain ⟨hl, hx⟩ := List.append_inj' h rfl
    exact Or.inl ⟨hl.symm, (List.cons.inj hx).1.symm⟩
  · rw [List.concat_eq_append, ← List.cons_append, ← List.append_assoc] at h
    exact Or.inr ⟨post', (List.append_inj' h rfl).1⟩

theorem InOrder.nil : InOrder [] := by
  constructor <;> intro pre _ _ _ h <;> cases pre <;> cases h

/-- **One more call.** -/
theorem InOrder.snoc (h : InOrder log)
    (howned : a = .validate ∨ a = .acquire .runtime ∨ (.acquire .runtime, none) ∈ log)
    (hclosed : ∀ r, a = .release r → r = .runtime ∨ (.release .runtime, none) ∈ log)
    (hopened : ∀ r, a = .acquire r → ∀ r' e', (.release r', e') ∉ log) :
    InOrder (log ++ [(a, e)]) := by
  constructor
  case owned =>
    intro pre a' e' post hl
    rcases snoc_split hl with ⟨rfl, hx⟩ | ⟨post', hl⟩
    · cases hx
      exact howned
    · exact h.owned _ _ _ _ hl
  case closed =>
    intro pre r e' post hl
    rcases snoc_split hl with ⟨rfl, hx⟩ | ⟨post', hl⟩
    · cases hx
      exact hclosed r rfl
    · exact h.closed _ _ _ _ hl
  case opened =>
    intro pre r e' post hl
    rcases snoc_split hl with ⟨rfl, hx⟩ | ⟨post', hl⟩
    · cases hx
      exact hopened r rfl
    · exact h.opened _ _ _ _ hl

theorem Runs.mem (h : Runs a s e s') : (a, e) ∈ s'.log :=
  h.log ▸ List.mem_append_right _ (List.mem_singleton_self _)

theorem Runs.kept (h : Runs a s e s') (hx : x ∈ s.log) : x ∈ s'.log :=
  h.log ▸ List.mem_append_left _ hx

/-- What is acquired is held. -/
theorem Runs.acquired (h : Runs (.acquire r) s none s') : s'.Held r := by
  obtain ⟨m, m', -, he, rfl⟩ := h
  cases he
  show (m.set r (some true)).Held r
  rw [held_set, if_pos rfl]

/-- What is not made is not held. -/
theorem Runs.refused {e : Raised} {r' : Res} (h : Runs (.acquire r) s (some e) s')
    (hr : s'.Held r') : s.Held r' := by
  obtain ⟨m, m', hm, he, rfl⟩ := h
  cases he
  exact hm.held hr

theorem Fresh.init : Fresh Host.init := by
  refine ⟨fun r h => ?_, fun x h => ?_, .nil⟩
  · cases h
  · cases h

theorem Fresh.validates (h : Fresh s) (hr : Runs .validate s e s') : Fresh s' := by
  refine ⟨fun r hheld => ?_, fun x hx => ?_, ?_⟩
  · exact (hr.held hheld).elim (h.empty r) (by rintro ⟨⟩)
  · rw [hr.log, List.mem_append, List.mem_singleton] at hx
    rcases hx with hx | rfl
    · exact h.log x hx
    · rfl
  · rw [hr.log]
    exact h.order.snoc (Or.inl rfl) (by rintro _ ⟨⟩) (by rintro _ ⟨⟩)

theorem Fresh.unreleased (h : Fresh s) (r : Res) (e : Option Raised) : (.release r, e) ∉ s.log :=
  fun hx => by cases h.log _ hx

theorem Fresh.order_acquire (h : Fresh s) (hr : Runs (.acquire .runtime) s e s') :
    InOrder s'.log := by
  rw [hr.log]
  exact h.order.snoc (Or.inr (Or.inl rfl)) (by rintro _ ⟨⟩) fun _ _ => h.unreleased

theorem Fresh.starts (h : Fresh s) (hr : Runs (.acquire .runtime) s none s') : Started s' := by
  refine ⟨hr.acquired, hr.mem, fun r e hx => ?_, h.order_acquire hr⟩
  rw [hr.log, List.mem_append, List.mem_singleton] at hx
  rcases hx with hx | hx
  · exact h.unreleased r e hx
  · cases hx

/-- Without resources there is nothing to guard and nothing to release. -/
theorem sound_of_empty {o : Outcome Raised} (h : ∀ r, ¬ s.Held r) (ho : InOrder s.log) :
    Sound o s :=
  ⟨⟨ho, fun r hr => absurd hr (h r)⟩, Or.inr fun r _ hr => absurd hr (h r)⟩

theorem Started.opens (ha : Opens a) (h : Started s) (hr : Runs a s e s') : Started s' := by
  refine ⟨hr.runtime h.held ?_ ?_, hr.kept h.acquired, fun r e' hx => ?_, ?_⟩
  · rintro rfl
    exact ha
  · rintro rfl
    exact ha
  · rw [hr.log, List.mem_append, List.mem_singleton] at hx
    rcases hx with hx | hx
    · exact h.unreleased r e' hx
    · cases hx
      exact ha
  · rw [hr.log]
    refine h.order.snoc (Or.inr (Or.inr h.acquired)) (fun r hr => ?_) fun _ _ => h.unreleased
    subst hr
    exact ha.elim

theorem Started.good (h : Started s) : InOrder s.log ∧ Guarded s :=
  ⟨h.order, fun _ _ => Or.inl h.held⟩

theorem Started.order_release (h : Started s) (hr : Runs (.release .runtime) s e s') :
    InOrder s'.log := by
  rw [hr.log]
  refine h.order.snoc (Or.inr (Or.inr h.acquired)) (fun r hr => ?_) (by rintro _ ⟨⟩)
  cases hr
  exact Or.inl rfl

theorem Stopped.closes (ha : Closes a) (h : Stopped s) (hr : Runs a s e s') : Stopped s' := by
  refine ⟨hr.kept h.acquired, hr.kept h.released, ?_⟩
  rw [hr.log]
  refine h.order.snoc (Or.inr (Or.inr h.acquired)) (fun _ _ => Or.inr h.released) fun r hr => ?_
  subst hr
  exact ha.elim

theorem Stopped.good (h : Stopped s) : InOrder s.log ∧ Guarded s :=
  ⟨h.order, fun _ _ => Or.inr ⟨none, h.released⟩⟩

/-- Nothing is released before the shutdown. -/
theorem allActs_body (cfg : Config) : AllActs Opens (body cfg) := by
  unfold body startEvents startListener whenSet
  split_ifs <;> simp [AllActs, block, connect, startCache, Opens]

/-- The shutdown behind the runtime takes nothing. -/
theorem allActs_stops : AllActs Closes
    (block [stopTask .monitor, stopTask .poll, stopEvents, stopCache, disconnect]) := by
  simp [AllActs, block, stopTask, stopEvents, stopCache, disconnect, whenBound, Closes]

theorem triple_order : Triple Runs Started cleanup fun _ s => InOrder s.log ∧ Guarded s := by
  refine .seq (M := Stopped)
    (.act (fun s h => h.good) (fun s s' h hr => ?_) fun s e s' h hr => ?_) ?_
  · exact ⟨hr.kept h.acquired, hr.mem, h.order_release hr⟩
  · exact ⟨h.order_release hr, fun _ _ => Or.inr ⟨some e, hr.mem⟩⟩
  · exact (Triple.invariant allActs_stops fun _ _ _ _ ha h hr => h.closes ha hr).conseq
      (fun _ h => h) fun _ _ h => h.good

theorem triple_lifespan (cfg : Config) : Triple Runs Fresh (lifespan cfg) Sound := by
  have hvalidate : Triple Runs Fresh (.tryExcept (.act .validate) isValueError .raise)
      fun _ => Fresh := by
    refine .invariant (R := fun a => a = .validate) ⟨rfl, fun _ => trivial⟩ ?_
    intro a s e s' ha h hr
    subst ha
    exact h.validates hr
  have hserve : Triple Runs Started (.tryFinally (body cfg) cleanup) Sound := by
    refine .tryFinally (.invariant (allActs_body cfg) fun _ _ _ _ ha h hr => h.opens ha hr)
      (fun s h => ⟨h.good, Or.inl rfl⟩) fun o _ => ?_
    have hclean : Triple Runs Started cleanup Shut :=
      triple_cleanup.conseq (fun _ _ r hr => absurd hr (Nat.not_lt_zero _)) fun _ _ h => h
    refine (triple_order.and hclean).conseq (fun _ h => h) fun o' s h => ?_
    cases o' with
    | done => exact ⟨h.1, Or.inr (h.2.resolve_left (by rintro ⟨⟩))⟩
    | _ => exact h
  refine .seq (M := Fresh) (hvalidate.conseq (fun _ h => h) fun o s h => ?_)
    (.seq (M := Started)
      (.act (fun s h => ?_) (fun s s' h hr => h.starts hr) fun s e s' h hr => ?_) hserve)
  · cases o with
    | done => exact h
    | _ => exact sound_of_empty h.empty h.order
  · exact sound_of_empty h.empty h.order
  · exact sound_of_empty (fun r hheld => h.empty r (hr.refused hheld)) (h.order_acquire hr)

end

/-- **The lifespan of the process.** Wherever it stands, with the tasks of the background beside it:
nothing but the check of the configuration comes before the owner lock, everything is held under
that lock, nothing is taken in the shutdown and the runtime is closed before everything else. When
the process has ended, whatever ended it, what is still held could not be released: its own release
or an earlier one has raised. -/
theorem lifespan_releases {cfg : Config} {o : Outcome Raised} {s : Host}
    (h : Exec Runs (lifespan cfg) Host.init o s) :
    InOrder s.log ∧ Guarded s ∧ (o ≠ .pending → ∀ r, s.Held r →
      ∃ r' : Res, r'.order ≤ r.order ∧ ∃ e, (.release r', some e) ∈ s.log) := by
  obtain ⟨⟨horder, hguard⟩, hshut⟩ := triple_lifespan cfg _ o s .init h
  exact ⟨horder, hguard, fun ho r hr => hshut.resolve_left ho r r.order_lt hr⟩

theorem Effect.runs {a : Call} {e : Option Raised} {s s' : Host} (h : Effect a e s s') :
    Runs a s e { s' with log := s'.log ++ [(a, e)] } :=
  ⟨s, s', ⟨fun _ => Or.inl rfl, rfl⟩, h, rfl⟩

/-- The process is cancelled while it connects. -/
theorem lifespan_releases_cancelled :
    ∃ s, Exec Runs (lifespan sampleConfig) Host.init (.raised .cancelled) s ∧
      (.acquire .manager, none) ∈ s.log ∧ ∀ r, ¬ s.Held r := by
  have hno : ∀ e : Raised, (.raised .cancelled : Outcome Raised) = .raised e →
      Background.isException e = false := by
    rintro e ⟨⟩
    rfl
  have hrun : ∃ s, Exec Runs (lifespan sampleConfig) Host.init (.raised .cancelled) s ∧
      s.log = [(.validate, none), (.acquire .runtime, none), (.acquire .manager, none),
        (.managerConnect, some .cancelled), (.release .runtime, none), (.release .manager, none),
        (.setConnected false, none)] := by
    exact ⟨_, .seq (.passes (.returns (Effect.validate (e := none)).runs) (by rintro e ⟨⟩)) <|
      .seq (.returns Effect.acquired.runs) <| .finallyDone
        (.stops (.passes (.passes (.seq (.returns Effect.acquired.runs)
          (.stops (.raises (Effect.managerConnect (e := some .cancelled)).runs) (by rintro ⟨⟩)))
            hno) hno) (by rintro ⟨⟩)) (by rintro ⟨⟩) <|
        .seq (.returns Effect.released.runs) <| .seq (.cond (.skip _)) <| .seq (.cond (.skip _)) <|
          .seq (.cond (.skip _)) <| .seq (.cond (.skip _)) <| .cond <|
            .seq (.passes (.returns Effect.released.runs) (by rintro e ⟨⟩))
              (.returns Effect.setConnected.runs), rfl⟩
  obtain ⟨s, hs, hlog⟩ := hrun
  refine ⟨s, hs, by simp [hlog], fun r hr => ?_⟩
  obtain ⟨r', -, e, he⟩ := (lifespan_releases hs).2.2 (by rintro ⟨⟩) r hr
  simp [hlog] at he

end Lifespan

end Asl3
