import Asl3Api.Config
import Asl3Api.Vnext.Models

/-!
# Operator traffic policy (`vnext/policy.py`)

* `policyDefaults`, `setting`: the configured answer for a kind and a traffic state;
* `enforce`, **`enforce_eq_ok`**: when a control is eligible;
* `IsDefault`, **`clear_of_eligible`**: under the default policy a link or an announcement is
  eligible over clear traffic only.
-/

set_option autoImplicit false

namespace Asl3

open Py

namespace TrafficPolicy

/-- `_DEFAULTS[kind][state]`. -/
def policyDefault (kind state : String) : Option String :=
  if state = "active" ∨ state = "unknown" then
    if kind = "link_node" ∨ kind = "announce" then some "deny"
    else if kind = "unlink_node" ∨ kind = "unlink_all" then some "allow"
    else none
  else none

/-- `TrafficPolicy.setting`. -/
def setting (cfg : Config) (kind state : String) : Except Error PyValue :=
  match policyDefault kind state with
  | none => .error (.py (.valueError "Unsupported policy lookup"))
  | some default => .ok (cfg.get (Config.policyKey kind state) (.str default))

/-- `value == "allow"`. -/
def isAllow : PyValue → Bool
  | .str s => s = "allow"
  | _ => false

/-- `TrafficPolicy.enforce`: raises when control is not currently eligible. -/
def enforce (cfg : Config) (kind : String) (state : NodeState) : Except Error Unit :=
  match state.trafficState with
  | .clear => .ok ()
  | .active => match setting cfg kind "active" with
    | .error e => .error e
    | .ok value =>
      if isAllow value then .ok ()
      else .error (.problem ⟨409, "POLICY_DENIED_ACTIVE_TRAFFIC",
        kind ++ " is denied by protected server policy while traffic is active."⟩)
  | .unknown => match setting cfg kind "unknown" with
    | .error e => .error e
    | .ok value =>
      if isAllow value then .ok ()
      else .error (.problem ⟨409, "POLICY_DENIED_STATE_UNKNOWN",
        kind ++ " is denied by protected server policy while traffic state is unknown."⟩)

/-- The configured answer for a kind and a state is `allow`. -/
def Allows (cfg : Config) (kind : Kind) (state : String) : Prop :=
  ∃ value, setting cfg kind.name state = .ok value ∧ isAllow value = true

/-- The traffic a control of this kind may be written over. -/
def Eligible (cfg : Config) (kind : Kind) (state : NodeState) : Prop :=
  state.trafficState = .clear ∨
    (state.trafficState = .active ∧ Allows cfg kind "active") ∨
    (state.trafficState = .unknown ∧ Allows cfg kind "unknown")

/-- **`enforce` returns exactly on eligible traffic.** -/
theorem enforce_eq_ok {cfg : Config} {kind : Kind} {state : NodeState} :
    enforce cfg kind.name state = .ok () ↔ Eligible cfg kind state := by
  unfold enforce Eligible Allows
  cases state.trafficState with
  | clear => simp
  | active =>
    cases h : setting cfg kind.name "active" with
    | error e => simp
    | ok value => by_cases hv : isAllow value = true <;> simp [hv]
  | unknown =>
    cases h : setting cfg kind.name "unknown" with
    | error e => simp
    | ok value => by_cases hv : isAllow value = true <;> simp [hv]

/-- For the four kinds, `enforce` raises nothing but `ProblemError`. -/
theorem enforce_error {cfg : Config} {kind : Kind} {state : NodeState} {e : Error}
    (h : enforce cfg kind.name state = .error e) : ∃ p, e = .problem p := by
  have hs : ∀ s, s = "active" ∨ s = "unknown" → ∃ value, setting cfg kind.name s = .ok value := by
    rintro s (rfl | rfl) <;> cases kind <;> exact ⟨_, rfl⟩
  unfold enforce at h
  obtain ⟨va, ha⟩ := hs "active" (Or.inl rfl)
  obtain ⟨vu, hu⟩ := hs "unknown" (Or.inr rfl)
  rw [ha, hu] at h
  cases ht : state.trafficState with
  | clear => simp [ht] at h
  | active =>
    by_cases hv : isAllow va = true
    · simp [ht, hv] at h
    · simp only [ht, if_neg hv, Except.error.injEq] at h
      exact ⟨_, h.symm⟩
  | unknown =>
    by_cases hv : isAllow vu = true
    · simp [ht, hv] at h
    · simp only [ht, if_neg hv, Except.error.injEq] at h
      exact ⟨_, h.symm⟩

/-- The settings of this kind are the defaults. -/
def IsDefault (cfg : Config) (kind : Kind) : Prop :=
  ∀ state default, policyDefault kind.name state = some default →
    setting cfg kind.name state = .ok (.str default)

/-- **The defaults deny links and announcements** over active and over unknown traffic. -/
theorem clear_of_eligible {cfg : Config} {kind : Kind} {state : NodeState}
    (hk : kind = .linkNode ∨ kind = .announce) (hd : IsDefault cfg kind)
    (h : Eligible cfg kind state) : state.trafficState = .clear := by
  have hdeny : ∀ s, s = "active" ∨ s = "unknown" → ¬ Allows cfg kind s := by
    rintro s hs ⟨value, hv, ha⟩
    have hdef : policyDefault kind.name s = some "deny" := by
      rcases hk with rfl | rfl <;> rcases hs with rfl | rfl <;> rfl
    rw [hd s "deny" hdef, Except.ok.injEq] at hv
    rw [← hv] at ha
    cases ha
  rcases h with h | ⟨-, h⟩ | ⟨-, h⟩
  · exact h
  · exact absurd h (hdeny _ (Or.inl rfl))
  · exact absurd h (hdeny _ (Or.inr rfl))

end TrafficPolicy

end Asl3
