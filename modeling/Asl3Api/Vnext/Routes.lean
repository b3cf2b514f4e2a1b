import Asl3Api.Lib.Anchor
import Asl3Api.Vnext.Auth

/-!
# The v1 control routes (`vnext/api.py`)

* `HttpBody`, `HttpRequest`, `Denial`, `Call`: a request, why it can be turned away, and the call of
  `Platform.admit` it comes to;
* `nodeField`, `linkBody`, `announcementBody`, `headerKey`: the schemas, with the `$` of the Rust
  engine that pydantic uses;
* `Api.link`, `Api.unlink`, `Api.unlinkAll`, `Api.announce`: the routes;
* `Presents`, `control_sound`: whom the dependency `control` lets in;
* `nodeField_eq`, `linkBody_eq`, `announcementBody_eq`: the schemas are the checks of `models.py`.

FastAPI decodes the body first, then runs the dependencies, then checks the parameters; the limiter
stands before the handler.
-/

set_option autoImplicit false

namespace Asl3

open Py

/-- The body of a request as FastAPI reads it. -/
inductive HttpBody where
  /-- A value, `PyValue.none` when there is no body. -/
  | value (v : PyValue)
  /-- No JSON text. -/
  | malformed
  /-- Reading it raises anything else than a `JSONDecodeError`, as for octets that are no UTF-8 and for
  an integer of too many digits. -/
  | unreadable

/-- One HTTP request, with what the environment decides about it. -/
structure HttpRequest where
  method : String
  path : String
  /-- The header `X-API-Key`. -/
  apiKey : Option String
  /-- The query parameter `api_key`. -/
  queryKey : Option String
  /-- The header `Idempotency-Key`. -/
  idempotencyKey : Option String
  body : HttpBody
  /-- The limiter refuses the request when it is asked. -/
  limited : Bool

/-- Why a request does not reach `Platform.admit`. -/
inductive Denial where
  /-- An exception of the program. -/
  | raised (e : Error)
  /-- `RequestValidationError`, whose report is not kept. -/
  | invalid
  /-- `HTTPException` of the router, and of FastAPI for a body that it cannot read. -/
  | http (status : Nat) (detail : String)
  /-- The redirect of the router to another path. -/
  | redirect (path : String)
  /-- `HTTPException` 503 of a capability that is disabled. -/
  | disabled (capability message : String)
  /-- `RateLimitExceeded`. -/
  | limited

/-- The arguments of `Platform.admit`. -/
structure Call where
  kind : String
  request : PyValue
  credential : String
  key : Option String

/-- What the schemas use of pydantic and of the Unicode tables. -/
structure Schema where
  /-- What a value is read as by a `bool` field, if it is not refused. -/
  laxBool : PyValue → Option Bool
  /-- The class `\d`. -/
  decimal : Char → Bool

/-! ## Schemas -/

/-- `Node`: `StringConstraints(strict=True, pattern=NODE_PATTERN)`. -/
def nodeField (s : String) : Bool := search .rust (anchored nodePattern) s.toList

/-- `mode: Literal["transceive", "monitor"] = "transceive"`. -/
def modeField : Option PyValue → Option Mode
  | none => some .transceive
  | some (.str s) =>
    if s = "transceive" then some .transceive else if s = "monitor" then some .monitor else none
  | some _ => none

/-- The body `LinkRequest`. -/
def linkBody : PyValue → Option LinkRequest
  | .dict es =>
    if es.all fun e => e.1 = "node" || e.1 = "mode" then
      match es.lookup "node", modeField (es.lookup "mode") with
      | some (.str n), some mode => if nodeField n then some ⟨n, mode⟩ else none
      | _, _ => none
    else none
  | _ => none

/-- `body.model_dump()` of a `LinkRequest`. -/
def LinkRequest.dump (body : LinkRequest) : PyValue :=
  .dict [("node", .str body.node), ("mode", .str body.mode.text)]

/-- The body `AnnouncementRequest`. -/
def announcementBody : PyValue → Option String
  | .dict es =>
    if es.all fun e => e.1 = "kind" then
      match es.lookup "kind" with
      | some (.str k) => if k ∈ supportedAnnouncements then some k else none
      | _ => none
    else none
  | _ => none

/-- The class `[!-~]`. -/
def visible (c : Char) : Bool := '!' ≤ c && c ≤ '~'

/-- `key_type`: `min_length=1`, `max_length=128` and `pattern=r"^[!-~]+$"`, when there is a key. -/
def headerKey : Option String → Bool
  | none => true
  | some k => 1 ≤ k.toList.length && k.toList.length ≤ 128 &&
      search .rust (anchored [.run visible 1 none]) k.toList

/-! ## Routes -/

namespace Api

variable (cfg : Config) (r : HttpRequest)

/-- The name of an authenticated credential is a text, which `validate` has checked. -/
def credentialName : PyValue → Except Error String
  | .str name => .ok name
  | _ => .error validationError

/-- The dependency `control`. -/
def control : Except Denial String :=
  match authenticate cfg r.apiKey "control" >>= credentialName with
  | .error e => .error (.raised e)
  | .ok name => .ok name

/-- A control route, after the decoding of the body: the dependencies, the parameters, the limiter
and `accepted`. -/
def accepted (kind : String) (request : Option PyValue) : Except Denial Call := do
  let credential ← control cfg r
  match request with
  | none => throw .invalid
  | some request =>
    if headerKey r.idempotencyKey then
      if r.limited then throw .limited
      else return ⟨kind, request, credential, r.idempotencyKey⟩
    else throw .invalid

/-- A body that is no JSON text is refused before anything else. -/
def decoded (body : HttpBody) (route : PyValue → Except Denial Call) : Except Denial Call :=
  match body with
  | .value v => route v
  | .malformed => .error .invalid
  | .unreadable => .error (.http 400 "There was an error parsing the body")

/-- `POST /v1/links`. -/
def link : Except Denial Call :=
  decoded r.body fun v => accepted cfg r "link_node" ((linkBody v).map LinkRequest.dump)

/-- `DELETE /v1/links/{node}`. -/
def unlink (node : String) : Except Denial Call :=
  accepted cfg r "unlink_node" (if nodeField node then some (.dict [("node", .str node)]) else none)

/-- `DELETE /v1/links`. -/
def unlinkAll : Except Denial Call := accepted cfg r "unlink_all" (some (.dict []))

/-- `POST /v1/announcements`. -/
def announce : Except Denial Call :=
  decoded r.body fun v =>
    accepted cfg r "announce" ((announcementBody v).map fun k => .dict [("kind", .str k)])

end Api

/-- The presented key is the key of a credential with control authority and this name. -/
def Presents (cfg : Config) (r : HttpRequest) (name : String) : Prop :=
  ∃ key, r.apiKey = some key ∧ Grants cfg "control" key name

/-- **The dependency `control`** lets in whom a valid configuration grants control. -/
theorem control_sound {cfg : Config} (hv : cfg.Valid) {r : HttpRequest} {name : String}
    (h : Api.control cfg r = .ok name) : Presents cfg r name := by
  unfold Api.control at h
  cases ha : Api.authenticate cfg r.apiKey "control" >>= Api.credentialName with
  | error e =>
    rw [ha] at h
    cases h
  | ok name' =>
    rw [ha] at h
    cases h
    obtain ⟨v, hauth, hname⟩ := bind_eq_ok.mp ha
    obtain ⟨key, name, hkey, rfl, hg⟩ := Api.authenticate_sound hv hauth
    cases hname
    exact ⟨key, hkey, hg⟩

/-! ## The schemas and the checks of `models.py` -/

theorem nodeField_eq (s : String) : nodeField s = isNode s := search_anchored

theorem modeField_text (m : Mode) : modeField (some (.str m.text)) = some m := by
  cases m <;> rfl

/-- The schema of a link body accepts what `LinkRequest(**request)` accepts. -/
theorem linkBody_eq (v : PyValue) : linkBody v = (LinkRequest.make v).toOption := by
  cases v with
  | dict es =>
    unfold linkBody LinkRequest.make
    dsimp only
    by_cases hes : (es.all fun e => e.1 = "node" || e.1 = "mode") = true
    · rw [if_pos hes, if_pos hes]
      cases hn : es.lookup "node" with
      | none => rfl
      | some n =>
        cases n with
        | str n =>
          cases hm : es.lookup "mode" with
          | none =>
            dsimp only [modeField]
            rw [nodeField_eq]
            split_ifs <;> rfl
          | some m =>
            cases m with
            | str m =>
              by_cases h1 : m = "transceive"
              · cases hnode : isNode n <;> simp [modeField, nodeField_eq, hnode, h1, Except.toOption]
              by_cases h2 : m = "monitor"
              · cases hnode : isNode n <;> simp [modeField, nodeField_eq, hnode, h2, Except.toOption]
              -- a mode of no other text, whatever the node is
              · cases hnode : isNode n <;> simp [modeField, h1, h2, hnode, Except.toOption]
            | _ => rfl
        | _ => rfl
    · rw [if_neg hes, if_neg hes]
      rfl
  | _ => rfl

theorem announcementBody_eq (v : PyValue) :
    announcementBody v = (announcementRequest v).toOption := by
  cases v with
  | dict es =>
    unfold announcementBody announcementRequest
    dsimp only
    by_cases hes : (es.all fun e => e.1 = "kind") = true
    · rw [if_pos hes, if_pos hes]
      cases hk : es.lookup "kind" with
      | none => rfl
      | some k =>
        cases k with
        | str k =>
          dsimp only
          split_ifs <;> rfl
        | _ => rfl
    · rw [if_neg hes, if_neg hes]
      rfl
  | _ => rfl

end Asl3
