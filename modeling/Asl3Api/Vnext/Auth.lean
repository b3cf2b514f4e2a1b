import Asl3Api.Config
import Asl3Api.Vnext.Models

/-!
# Credentials (`vnext/api.py`)

* `Api.credentials`, `Api.authenticate`: the configured credentials, and the check of a presented key;
* `Config.Valid.credentials`: what `validate` says about them;
* `Grants`, **`authenticate_sound`**: whom a valid configuration lets in.
-/

set_option autoImplicit false

namespace Asl3

open Py

namespace Api

/-- `credentials`: the entries of `api.credentials`, or the one credential of `api.api_key`. -/
def credentials (cfg : Config) : PyValue :=
  let entries := cfg.get "api.credentials" (.list [])
  if entries.truthy then entries
  else .list [.dict [("name", .str "legacy"), ("key", cfg.apiKey),
    ("authority", .list [.str "observe", .str "control"])]]

/-- `scope in allowed`. -/
def inAllowed (scope : String) : PyValue → Except Error Bool
  | .list xs => .ok (xs.any fun x => match x with
    | .str s => decide (s = scope)
    | _ => false)
  | .str s => .ok (contains s scope)
  | .dict es => .ok (es.any fun e => decide (e.1 = scope))
  | _ => .error (.py (.typeError "argument is not iterable"))

/-- `credential[field]`. -/
def subscript (credential : List (String × PyValue)) (field : String) : Except Error PyValue :=
  match credential.lookup field with
  | some v => .ok v
  | none => .error (.py (.keyError field))

/-- The refusal of a credential without the authority. -/
def authorityDenied : ProblemError :=
  ⟨403, "AUTHORITY_DENIED", "Credential lacks the required authority."⟩

/-- The refusal of a key that is missing or unknown. -/
def authenticationRequired : ProblemError :=
  ⟨401, "AUTHENTICATION_REQUIRED", "A valid X-API-Key header is required."⟩

/-- `authority in allowed or (authority == "observe" and "control" in allowed)`. -/
def granted (authority : String) (allowed : PyValue) : Except Error Bool :=
  match inAllowed authority allowed with
  | .ok false => if authority = "observe" then inAllowed "control" allowed else .ok false
  | r => r

/-- The name of a credential whose key was presented, when it has the authority. -/
def grant (credential : List (String × PyValue)) (authority : String) : Except Error PyValue := do
  let allowed ← subscript credential "authority"
  let ok ← granted authority allowed
  if ok then subscript credential "name" else throw (.problem authorityDenied)

/-- The loop of `authenticate`. `compare_digest` of two encoded texts is their equality. -/
def authenticateIn (key authority : String) : List PyValue → Except Error PyValue
  | [] => .error (.problem authenticationRequired)
  | .dict credential :: entries =>
    let candidate := (credential.lookup "key").getD (.str "")
    if candidate.truthy then
      match candidate with
      | .str s => if key = s then grant credential authority else authenticateIn key authority entries
      | _ => .error (.py .attributeError)
    else authenticateIn key authority entries
  | _ :: _ => .error (.py .attributeError)

/-- `authenticate`: the name of the credential. -/
def authenticate (cfg : Config) (key : Option String) (authority : String) : Except Error PyValue :=
  match key with
  | none => .error (.problem authenticationRequired)
  | some key =>
    if key = "" then .error (.problem authenticationRequired)
    else match credentials cfg with
      | .list entries => authenticateIn key authority entries
      | .dict _ => .error (.py .attributeError)
      | .str _ => .error (.py .attributeError)
      | _ => .error (.py (.typeError "object is not iterable"))

end Api

/-! ## The credentials of a valid configuration -/

/-- `validate` accepts a canonical node number only. -/
theorem Config.Valid.isNode {cfg : Config} (h : cfg.Valid) : isNode cfg.nodeNumber = true := by
  unfold Config.Valid Config.errors at h
  simp only [bind_eq_ok, pure, Except.pure, Except.ok.injEq, List.append_eq_nil_iff] at h
  obtain ⟨-, -, -, -, -, -, ⟨⟨⟨⟨⟨⟨⟨hn, -⟩, -⟩, -⟩, -⟩, -⟩, -⟩, -⟩, -⟩ := h
  split_ifs at hn with hp
  exact hp

/-- `validate` accepts a list of entries only, and finds no error in it. -/
theorem Config.Valid.credentials {cfg : Config} (h : cfg.Valid) :
    ∃ xs, cfg.get "api.credentials" (.list []) = .list xs ∧ Config.credentialErrors [] [] xs = [] := by
  unfold Config.Valid Config.errors at h
  simp only [bind_eq_ok, pure, Except.pure, Except.ok.injEq, List.append_eq_nil_iff] at h
  obtain ⟨-, -, -, -, -, -, ⟨⟨⟨-, hc⟩, -⟩, -⟩, -⟩ := h
  cases he : cfg.get "api.credentials" (.list []) with
  | list xs =>
    rw [he] at hc
    exact ⟨xs, rfl, hc⟩
  | _ =>
    rw [he] at hc
    cases hc

/-- A list without errors has well-formed entries. -/
theorem Config.credentialEntry_isSome {names keys : List String} {xs : List PyValue}
    (h : Config.credentialErrors names keys xs = []) {entry : PyValue} (hx : entry ∈ xs) :
    (Config.credentialEntry entry).isSome := by
  induction xs generalizing names keys with
  | nil => cases hx
  | cons x xs ih =>
    rw [Config.credentialErrors] at h
    cases he : Config.credentialEntry x with
    | none =>
      rw [he] at h
      cases h
    | some nk =>
      rw [he, List.append_eq_nil_iff] at h
      rcases List.mem_cons.mp hx with rfl | hx
      · rw [he]
        rfl
      · exact ih h.2 hx

/-- The fields of a well-formed entry. -/
theorem Config.credentialEntry_eq_some {entry : PyValue} {name key : String}
    (h : Config.credentialEntry entry = some (name, key)) :
    ∃ es scopes, entry = .dict es ∧ es.lookup "name" = some (.str name) ∧
      es.lookup "key" = some (.str key) ∧ es.lookup "authority" = some (.list scopes) ∧
      name ≠ "" ∧ key ≠ "" := by
  unfold Config.credentialEntry at h
  cases entry with
  | dict es =>
    dsimp only at h
    split at h
    · rename_i hn hk ha
      split_ifs at h with hwf
      cases h
      exact ⟨es, _, rfl, hn, hk, ha, hwf.1, hwf.2.1⟩
    · cases h
  | _ => cases h

/-! ## Whom a valid configuration lets in -/

/-- A configured credential has this key, this name, and the scope among its authorities. -/
def Grants (cfg : Config) (scope key name : String) : Prop :=
  ∃ entries es scopes, Api.credentials cfg = .list entries ∧ .dict es ∈ entries ∧
    es.lookup "key" = some (.str key) ∧ es.lookup "name" = some (.str name) ∧
    es.lookup "authority" = some (.list scopes) ∧ .str scope ∈ scopes

namespace Api

theorem inAllowed_list {scope : String} {scopes : List PyValue} {b : Bool}
    (h : inAllowed scope (.list scopes) = .ok b) : b = true ↔ .str scope ∈ scopes := by
  cases h
  rw [List.any_eq_true]
  constructor
  · rintro ⟨x, hx, hs⟩
    cases x with
    | str s =>
      obtain rfl := of_decide_eq_true hs
      exact hx
    | _ => cases hs
  · intro hx
    exact ⟨_, hx, decide_eq_true rfl⟩

theorem subscript_eq_ok {credential : List (String × PyValue)} {field : String} {v : PyValue}
    (h : subscript credential field = .ok v) : credential.lookup field = some v := by
  unfold subscript at h
  split at h
  · cases h
    assumption
  · cases h

/-- Control authority is granted by the scope itself. -/
theorem grant_eq_ok {credential : List (String × PyValue)} {v : PyValue}
    (h : grant credential "control" = .ok v) : ∃ allowed,
      credential.lookup "authority" = some allowed ∧ inAllowed "control" allowed = .ok true ∧
      credential.lookup "name" = some v := by
  unfold grant at h
  obtain ⟨allowed, ha, h⟩ := bind_eq_ok.mp h
  obtain ⟨ok, hg, h⟩ := bind_eq_ok.mp h
  cases ok with
  | false => cases h
  | true =>
    refine ⟨allowed, subscript_eq_ok ha, ?_, subscript_eq_ok h⟩
    unfold granted at hg
    split at hg
    · cases hg
    · exact hg

/-- The loop stops at an entry with the presented key. -/
theorem authenticateIn_eq_ok {key authority : String} {entries : List PyValue} {v : PyValue}
    (h : authenticateIn key authority entries = .ok v) : ∃ es, .dict es ∈ entries ∧
      es.lookup "key" = some (.str key) ∧ grant es authority = .ok v := by
  induction entries with
  | nil => cases h
  | cons entry entries ih =>
    have later : authenticateIn key authority entries = .ok v → ∃ es, .dict es ∈ entry :: entries ∧
        es.lookup "key" = some (.str key) ∧ grant es authority = .ok v := by
      intro h
      obtain ⟨es, hes, h⟩ := ih h
      exact ⟨es, List.mem_cons_of_mem _ hes, h⟩
    cases entry with
    | dict es =>
      rw [authenticateIn] at h
      cases hk : es.lookup "key" with
      | none =>
        rw [hk] at h
        exact later h
      | some candidate =>
        rw [hk, Option.getD_some] at h
        split_ifs at h
        · cases candidate with
          | str s =>
            dsimp only at h
            split_ifs at h with hs
            · exact ⟨es, List.mem_cons_self, by rw [hk, hs], h⟩
            · exact later h
          | _ => cases h
        · exact later h
    | _ => cases h

/-- **Authentication is sound.** With a valid configuration, a key that is let in for control is the
key of a configured credential with control authority, and the answer is that credential's name. -/
theorem authenticate_sound {cfg : Config} (hv : cfg.Valid) {key : Option String} {v : PyValue}
    (h : authenticate cfg key "control" = .ok v) :
    ∃ k name, key = some k ∧ v = .str name ∧ Grants cfg "control" k name := by
  unfold authenticate at h
  cases key with
  | none => cases h
  | some k =>
    dsimp only at h
    split_ifs at h
    split at h
    · rename_i entries hentries
      obtain ⟨es, hes, hk, hg⟩ := authenticateIn_eq_ok h
      obtain ⟨allowed, ha, hin, hn⟩ := grant_eq_ok hg
      -- the entry is well-formed: it is one of the checked list, or the one of the legacy key
      have hwf : ∃ name scopes, es.lookup "name" = some (.str name) ∧ allowed = .list scopes := by
        unfold credentials at hentries
        obtain ⟨xs, hxs, herr⟩ := hv.credentials
        rw [hxs] at hentries
        dsimp only at hentries
        split_ifs at hentries
        · cases hentries
          obtain ⟨⟨name, key⟩, hsome⟩ := Option.isSome_iff_exists.mp
            (Config.credentialEntry_isSome herr hes)
          obtain ⟨es', scopes, hd, hname, -, hauth, -⟩ := Config.credentialEntry_eq_some hsome
          cases hd
          rw [ha] at hauth
          exact ⟨name, scopes, hname, Option.some.inj hauth⟩
        · cases hentries
          cases List.mem_singleton.mp hes
          exact ⟨"legacy", _, rfl, (Option.some.inj ha).symm⟩
      obtain ⟨name, scopes, hname, rfl⟩ := hwf
      rw [hname] at hn
      exact ⟨k, name, rfl, (Option.some.inj hn).symm, entries, es, scopes, hentries, hes, hk, hname, ha,
        (inAllowed_list hin).mp rfl⟩
    all_goals cases h

end Api

end Asl3
