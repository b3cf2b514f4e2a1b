import Asl3Api.Lib.Pattern

/-!
# Configuration (`config.py`)

* `Config.get`: lookup of a dotted key in the YAML tree;
* the properties the runtime reads;
* `Config.validate`: the startup check, with its messages.
-/

set_option autoImplicit false

namespace Asl3

open Py

/-- `Config`: the tree `yaml.safe_load` returned. -/
structure Config where
  tree : PyValue

namespace Config

/-- `key.split(".")`. -/
def splitKey (key : String) : List String := (key.toList.splitOn '.').map String.ofList

/-- The loop of `get` over the keys of the path. -/
def walk (default : PyValue) : PyValue → List String → PyValue
  | value, [] => value
  | .dict es, k :: ks => walk default ((es.lookup k).getD default) ks
  | _, _ :: _ => default

/-- `Config.get(key, default)`. -/
def get (cfg : Config) (key : String) (default : PyValue) : PyValue :=
  walk default cfg.tree (splitKey key)

def amiHost (cfg : Config) : PyValue := cfg.get "ami.host" (.str "127.0.0.1")

def amiUsername (cfg : Config) : PyValue := cfg.get "ami.username" (.str "asl3-api")

def amiPassword (cfg : Config) : PyValue := cfg.get "ami.password" (.str "")

/-- `str(self.get("node.number", ""))`. -/
def nodeNumber (cfg : Config) : String := (cfg.get "node.number" (.str "")).pyStr

def nodeCallsign (cfg : Config) : PyValue := cfg.get "node.callsign" (.str "")

def apiKey (cfg : Config) : PyValue := cfg.get "api.api_key" (.str "")

/-! ## The checks of `validate` -/

/-- `re.fullmatch(r"[1-9][0-9]{0,5}", node_number, flags=re.ASCII)`. -/
def nodeNumberPattern : List Piece :=
  [.run (fun c => '1' ≤ c && c ≤ '9') 1 (some 1), .run isDigit 0 (some 5)]

/-- `value in {…}` for a set of strings; a list or a dict is not hashable. -/
def inSet (value : PyValue) (set : List String) : Except PyError Bool :=
  if value.hashable then
    .ok (match value with
      | .str s => decide (s ∈ set)
      | _ => false)
  else .error (.typeError "unhashable type")

/-- `needle in value` for a one-character needle. -/
def inValue (needle : Char) : PyValue → Except PyError Bool
  | .str s => .ok (decide (needle ∈ s.toList))
  | .list xs => .ok (xs.any fun x => match x with
    | .str s => decide (s = String.ofList [needle])
    | _ => false)
  | .dict es => .ok (es.any fun e => decide (e.1 = String.ofList [needle]))
  | _ => .error (.typeError "argument is not iterable")

/-- `not isinstance(value, (int, float)) or not 0 < value <= 120`, negated. -/
def validTimeout : PyValue → Bool
  | .bool b => b
  | .int i => 0 < i && i ≤ 120
  | .float q _ => 0 < q && q ≤ 120
  | _ => false

/-- The name, the key and the scopes of a well-formed credential entry. -/
def credentialEntry : PyValue → Option (String × String)
  | .dict es =>
    match es.lookup "name", es.lookup "key", es.lookup "authority" with
    | some (.str name), some (.str key), some (.list scopes) =>
      if name ≠ "" ∧ key ≠ "" ∧ scopes ≠ [] ∧ scopes.all (fun scope => match scope with
          | .str s => decide (s = "observe" ∨ s = "control")
          | _ => false) then some (name, key) else none
    | _, _, _ => none
  | _ => none

/-- The loop over the credential entries, with the names and keys seen so far. -/
def credentialErrors (names keys : List String) : List PyValue → List String
  | [] => []
  | entry :: entries =>
    match credentialEntry entry with
    | none => "Each credential needs name, key, and observe/control authority" ::
        credentialErrors names keys entries
    | some (name, key) =>
      (if name ∈ names ∨ key ∈ keys then ["Credential names and keys must be unique"] else []) ++
        credentialErrors (name :: names) (key :: keys) entries

/-- The policy settings `validate` checks, with their defaults. -/
def policySettings : List (String × String × String) :=
  [("link_node", "active", "deny"), ("link_node", "unknown", "deny"),
    ("announce", "active", "deny"), ("announce", "unknown", "deny"),
    ("unlink_node", "active", "allow"), ("unlink_node", "unknown", "allow"),
    ("unlink_all", "active", "allow"), ("unlink_all", "unknown", "allow")]

/-- `f"policy.traffic.{operation}.{state}"`. -/
def policyKey (operation state : String) : String :=
  "policy.traffic." ++ operation ++ "." ++ state

/-- The errors of the policy settings. -/
def policyErrors (cfg : Config) : List (String × String × String) → Except PyError (List String)
  | [] => .ok []
  | (operation, state, default) :: rest => do
    let ok ← inSet (cfg.get (policyKey operation state) (.str default)) ["allow", "deny"]
    let errors ← cfg.policyErrors rest
    return if ok then errors
      else (policyKey operation state ++ " must be allow or deny") :: errors

/-- The settings that must be a number of seconds. -/
def timeoutSettings : List String :=
  ["timeouts.ami_seconds", "timeouts.observation_seconds", "operations.dispatch_timeout",
    "operations.effect_timeout"]

/-- The entries of `errors` at the end of `validate`. -/
def errors (cfg : Config) : Except PyError (List String) := do
  let node := if (fullmatch nodeNumberPattern cfg.nodeNumber.toList).isSome then []
    else ["node.number must be 1-6 ASCII digits with no leading zero"]
  let local? ← inSet cfg.amiHost ["127.0.0.1", "::1", "localhost"]
  let host := if local? then [] else ["ami.host must remain localhost"]
  let callsign := if cfg.nodeCallsign.truthy then []
    else ["node.callsign is required but not set"]
  let password := if cfg.amiPassword.truthy then []
    else ["ami.password is required but not set"]
  let entries := cfg.get "api.credentials" (.list [])
  let key := if cfg.apiKey.truthy || entries.truthy then []
    else ["api.api_key is required but not set"]
  let credentials := match entries with
    | .list xs => credentialErrors [] [] xs
    | _ => ["api.credentials must be a list"]
  let newlines ← [cfg.amiUsername, cfg.amiPassword].mapM fun value => do
    let cr ← inValue '\r' value
    let lf ← if cr then pure true else inValue '\n' value
    return if lf then ["AMI credentials must not contain newlines"] else []
  let timeouts := timeoutSettings.filterMap fun setting =>
    if validTimeout (cfg.get setting (.int 5)) then none
    else some (setting ++ " must be between 0 and 120 seconds")
  let policy ← cfg.policyErrors policySettings
  return node ++ host ++ callsign ++ password ++ key ++ credentials ++ newlines.flatten ++
    timeouts ++ policy

/-- `Config.validate`: raises when an error was collected. -/
def validate (cfg : Config) (path : String) : Except PyError Unit := do
  let found ← cfg.errors
  if found = [] then return ()
  else throw (.valueError ("ASL3-API config validation failed:\n" ++
    "\n".intercalate (found.map fun e => "  - " ++ e) ++
    "\n\nEdit " ++ path ++ " and restart the service."))

/-- A configuration the service starts with. -/
def Valid (cfg : Config) : Prop := cfg.errors = .ok []

instance (cfg : Config) : Decidable cfg.Valid :=
  match h : cfg.errors with
  | .ok [] => isTrue h
  | .ok (_ :: _) => isFalse fun hv => by rw [Valid, h] at hv; cases hv
  | .error _ => isFalse fun hv => by rw [Valid, h] at hv; cases hv

/-- `validate` returns exactly on the valid configurations. -/
theorem validate_eq_ok {cfg : Config} {path : String} :
    cfg.validate path = .ok () ↔ cfg.Valid := by
  unfold validate Valid
  cases h : cfg.errors with
  | error e => simp [bind, Except.bind]
  | ok found =>
    simp only [bind, Except.bind, pure, Except.pure]
    split_ifs with hf
    · simp [hf]
    · simp [hf]

/-- `float(self.config.get("operations.effect_timeout", 8))`. -/
def effectTimeout (cfg : Config) : Rat :=
  match cfg.get "operations.effect_timeout" (.int 8) with
  | .bool b => if b then 1 else 0
  | .int i => i
  | .float q _ => q
  | _ => 0

end Config

end Asl3
