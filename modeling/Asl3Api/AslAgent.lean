import Asl3Api.Vnext.Routes

/-!
# The legacy routes and the router (`asl_agent.py`)

* `Agent.verifyApiKey`, `Agent.legacyOperation`: the legacy dependency and the boundary it shares
  with v1;
* `Agent.connectNode`, …, `Agent.executeMacro`: the control routes;
* `endpoint`, `handle`, `call`: the routes of the application, and what becomes of a request;
* `Built`, **`call_cases`**: the calls a request can come to.

What the read routes answer is left out.
-/

set_option autoImplicit false

namespace Asl3

open Py

namespace Agent

/-- `re.fullmatch(r"[1-9][0-9]{0,5}", v)` of the legacy validators. -/
def nodePieces : List Piece :=
  [.run (fun c => '1' ≤ c && c ≤ '9') 1 (some 1), .run isDigit 0 (some 5)]

/-- `node_must_be_numeric`. -/
def nodeMustBeNumeric (s : String) : Bool := fullmatchItems .python (nodePieces.map .piece) s.toList

/-- `re.fullmatch(r"[!-~]{1,128}", key)`, when there is a key. -/
def legacyKey : Option String → Bool
  | none => true
  | some k => fullmatchItems .python [.piece (.run visible 1 (some 128))] k.toList

section

variable (py : Schema)

/-- `monitor_only: bool = False`, as the mode it stands for. -/
def monitorOnly : Option PyValue → Option Mode
  | none => some .transceive
  | some v => (py.laxBool v).map fun b => if b then .monitor else .transceive

/-- The body `ConnectRequest`; other fields are ignored. -/
def connectBody : PyValue → Option LinkRequest
  | .dict es => match es.lookup "node", monitorOnly py (es.lookup "monitor_only") with
    | some (.str n), some mode => if nodeMustBeNumeric n then some ⟨n, mode⟩ else none
    | _, _ => none
  | _ => none

/-- The body `DisconnectRequest`; other fields are ignored. -/
def disconnectBody : PyValue → Option String
  | .dict es => match es.lookup "node" with
    | some (.str n) => if nodeMustBeNumeric n then some n else none
    | _ => none
  | _ => none

/-- The body `DTMFRequest`. -/
def dtmfBody : PyValue → Option String
  | .dict es =>
    match es.lookup "sequence", (es.lookup "confirmed").elim (some false) py.laxBool with
    | some (.str s), some _ =>
      if fullmatchItems .python
          [.piece (.run (fun c => isDigit c || c = '*' || c = '#') 1 none)] s.toList then some s
      else none
    | _, _ => none
  | _ => none

/-- The body `MacroRequest`. -/
def macroBody : PyValue → Option String
  | .dict es => match es.lookup "macro_number" with
    | some (.str s) =>
      if fullmatchItems .python [.piece (.run py.decimal 1 none)] s.toList then some s else none
    | _ => none
  | _ => none

end

variable (py : Schema) (cfg : Config) (r : HttpRequest)

/-- `verify_api_key`: the header is required, and the method says which authority. -/
def verifyApiKey : Except Denial PyValue :=
  match r.apiKey with
  | none => .error .invalid
  | some key =>
    match Api.authenticate cfg (some key)
        (if r.method = "POST" ∨ r.method = "DELETE" then "control" else "observe") with
    | .error e => .error (.raised e)
    | .ok v => .ok v

/-- `verify_api_key_query`: the query parameter counts when the setting allows it. -/
def verifyApiKeyQuery : Except Denial PyValue :=
  let key := match r.apiKey with
    | some key => some key
    | none =>
      if (cfg.get "api.allow_legacy_query_key" (.bool false)).truthy then r.queryKey else none
  match Api.authenticate cfg key "observe" with
  | .error e => .error (.raised e)
  | .ok v => .ok v

/-- `legacy_operation`: it authenticates once more, and checks the key of the request itself. -/
def legacyOperation (kind : String) (body : PyValue) : Except Denial Call := do
  let credential ← Api.control cfg r
  if legacyKey r.idempotencyKey then return ⟨kind, body, credential, r.idempotencyKey⟩
  else throw (.raised (.problem ⟨422, "INVALID_REQUEST", "Invalid Idempotency-Key."⟩))

/-- A legacy control route, after the decoding of the body: the dependency, the body, the limiter and
the handler. -/
def route {α : Type} (body : Option α) (handler : α → Except Denial Call) : Except Denial Call := do
  let _ ← verifyApiKey cfg r
  match body with
  | none => throw .invalid
  | some v => if r.limited then throw .limited else handler v

/-- `POST /connect`. -/
def connectNode : Except Denial Call :=
  Api.decoded r.body fun v => route cfg r (connectBody py v) fun body =>
    legacyOperation cfg r "link_node" body.dump

/-- `POST /disconnect`. -/
def disconnectNode : Except Denial Call :=
  Api.decoded r.body fun v => route cfg r (disconnectBody v) fun node =>
    legacyOperation cfg r "unlink_node" (.dict [("node", .str node)])

/-- `POST /disconnect-all`. -/
def disconnectAll : Except Denial Call :=
  route cfg r (some ()) fun _ => legacyOperation cfg r "unlink_all" (.dict [])

/-- The alias of a supported announcement. -/
def copAnnounce (kind : String) : Except Denial Call :=
  route cfg r (some ()) fun _ => legacyOperation cfg r "announce" (.dict [("kind", .str kind)])

/-- The refusal of a withdrawn announcement. -/
def copWithdrawn (kind : String) : Except Denial Call :=
  route cfg r (some ()) fun _ =>
    throw (.raised (.problem ⟨422, "UNSUPPORTED_ANNOUNCEMENT", unsupportedAnnouncementDetail kind⟩))

/-- `POST /cop/identify`. -/
def copIdentify : Except Denial Call := copAnnounce cfg r "identify"

/-- `POST /cop/time`. -/
def copTime : Except Denial Call := copWithdrawn cfg r "time"

/-- `POST /cop/status`. -/
def copStatus : Except Denial Call := copAnnounce cfg r "status"

/-- `POST /cop/version`. -/
def copVersion : Except Denial Call := copWithdrawn cfg r "version"

/-- `POST /dtmf`. -/
def sendDtmf : Except Denial Call :=
  Api.decoded r.body fun v => route cfg r (dtmfBody py v) fun _ => throw (.disabled "dtmf" (
    "DTMF sending is disabled pending a safety redesign. The previous " ++
    "implementation issued an invalid app_rpt command and never executed, " ++
    "despite reporting success. No digits were sent."))

/-- `POST /macro`. -/
def executeMacro : Except Denial Call :=
  Api.decoded r.body fun v => route cfg r (macroBody py v) fun _ => throw (.disabled "macros" (
    "Macro execution is disabled pending a safety redesign. The previous " ++
    "implementation issued a command that app_rpt ignored, despite " ++
    "reporting success. No macro was executed."))

end Agent

/-! ## The router -/

/-- The key a read route asks for. -/
inductive Access where
  /-- None. -/
  | free
  /-- The dependency `observe`. -/
  | observe
  /-- `verify_api_key`. -/
  | legacy
  /-- `verify_api_key_query`. -/
  | query

/-- The routes of the application. -/
inductive Endpoint where
  | read (access : Access)
  | link
  | unlink (node : String)
  | unlinkAll
  | announce
  | connectNode
  | disconnectNode
  | disconnectAll
  | copIdentify
  | copTime
  | copStatus
  | copVersion
  | sendDtmf
  | executeMacro

/-- The documentation of FastAPI. -/
def docsRoutes : List (String × String × Endpoint) :=
  ["/openapi.json", "/docs", "/docs/oauth2-redirect", "/redoc"].flatMap fun path =>
    [(path, "GET", .read .free), (path, "HEAD", .read .free)]

/-- The routes without a path parameter: path, method and handler. -/
def plainRoutes : List (String × String × Endpoint) :=
  docsRoutes ++ [("/v1/node/state", "GET", .read .observe), ("/v1/capabilities", "GET", .read .observe),
    ("/v1/operations", "GET", .read .observe), ("/v1/links", "POST", .link),
    ("/v1/links", "DELETE", .unlinkAll), ("/v1/announcements", "POST", .announce),
    ("/v1/events", "GET", .read .observe), ("/ping", "GET", .read .free),
    ("/version", "GET", .read .free), ("/status", "GET", .read .legacy),
    ("/nodes", "GET", .read .legacy), ("/variables", "GET", .read .legacy),
    ("/capabilities", "GET", .read .legacy), ("/events", "GET", .read .query),
    ("/connect", "POST", .connectNode), ("/disconnect", "POST", .disconnectNode),
    ("/disconnect-all", "POST", .disconnectAll), ("/dtmf", "POST", .sendDtmf),
    ("/macro", "POST", .executeMacro), ("/cop/identify", "POST", .copIdentify),
    ("/cop/time", "POST", .copTime), ("/cop/status", "POST", .copStatus),
    ("/cop/version", "POST", .copVersion), ("/audit", "GET", .read .legacy)]

/-- The routes that end with a path parameter. -/
def nodeRoutes : List (String × String × (String → Endpoint)) :=
  [("/v1/directory/", "GET", fun _ => .read .observe),
    ("/v1/operations/", "GET", fun _ => .read .observe), ("/v1/links/", "DELETE", .unlink),
    ("/lookup/", "GET", fun _ => .read .legacy)]

/-- The path matches the pattern of a route, whose `$` also stands before a newline at the end. -/
def onRoute (route path : String) : Bool := path = route || path = route ++ "\n"

theorem onRoute_iff {route path : String} :
    onRoute route path = true ↔ path = route ∨ path = route ++ "\n" := by
  rw [onRoute, Bool.or_eq_true, decide_eq_true_eq, decide_eq_true_eq]

/-- What `[^/]+` matches behind `base`. -/
def pathParameter (base path : String) : Option String :=
  match path.toList.dropPrefix? base.toList with
  | some rest => if rest ≠ [] ∧ '/' ∉ rest then some (String.ofList rest) else none
  | none => none

/-- The routes whose path matches, with their methods. -/
def matching (path : String) : List (String × Endpoint) :=
  plainRoutes.filterMap (fun x => if onRoute x.1 path then some x.2 else none) ++
    nodeRoutes.filterMap fun x => (pathParameter x.1 path).map fun node => (x.2.1, x.2.2 node)

/-- `redirect_slashes`: the path without its last slashes, or with one more. -/
def redirectPath (path : String) : String :=
  if path.toList.getLast? = some '/' then
    String.ofList (path.toList.reverse.dropWhile fun c => c = '/').reverse
  else path ++ "/"

/-- The router: 405 without a matching method; without a matching path a redirect to one with another
slash at its end, or 404. -/
def endpoint (method path : String) : Except Denial Endpoint :=
  match (matching path).lookup method with
  | some e => .ok e
  | none => .error (
    if (matching path).isEmpty = false then .http 405 "Method Not Allowed"
    else if path ≠ "/" ∧ (matching (redirectPath path)).isEmpty = false then
      .redirect (redirectPath path)
    else .http 404 "Not Found")

section

variable (py : Schema) (cfg : Config) (r : HttpRequest)

/-- What becomes of a request: it is turned away, it reads, or it comes to a call of `admit`. -/
def Endpoint.handle : Endpoint → Except Denial (Option Call)
  | .read .free => .ok none
  | .read .observe => match Api.authenticate cfg r.apiKey "observe" with
    | .error e => .error (.raised e)
    | .ok _ => .ok none
  | .read .legacy => (Agent.verifyApiKey cfg r).map fun _ => none
  | .read .query => (Agent.verifyApiKeyQuery cfg r).map fun _ => none
  | .link => (Api.link cfg r).map some
  | .unlink node => (Api.unlink cfg r node).map some
  | .unlinkAll => (Api.unlinkAll cfg r).map some
  | .announce => (Api.announce cfg r).map some
  | .connectNode => (Agent.connectNode py cfg r).map some
  | .disconnectNode => (Agent.disconnectNode cfg r).map some
  | .disconnectAll => (Agent.disconnectAll cfg r).map some
  | .copIdentify => (Agent.copIdentify cfg r).map some
  | .copTime => (Agent.copTime cfg r).map some
  | .copStatus => (Agent.copStatus cfg r).map some
  | .copVersion => (Agent.copVersion cfg r).map some
  | .sendDtmf => (Agent.sendDtmf py cfg r).map some
  | .executeMacro => (Agent.executeMacro py cfg r).map some

/-- The application. -/
def handle : Except Denial (Option Call) := do
  let e ← endpoint r.method r.path
  e.handle py cfg r

/-- The call of `admit` a request comes to, if it comes to one. -/
def call : Option Call := (handle py cfg r).toOption.join

end

/-! ## The calls of a request -/

/-- The request `r` has an authenticated client and a good key, and asks for this call. -/
structure Asked (cfg : Config) (r : HttpRequest) (kind : String) (request : Option PyValue)
    (c : Call) : Prop where
  control : Api.control cfg r = .ok c.credential
  request : request = some c.request
  kind : c.kind = kind
  key : c.key = r.idempotencyKey
  header : headerKey r.idempotencyKey = true
  limited : r.limited = false

variable {py : Schema} {cfg : Config} {r : HttpRequest} {c : Call} {kind : String}

theorem nodeMustBeNumeric_eq (s : String) : Agent.nodeMustBeNumeric s = isNode s :=
  fullmatchItems_pieces

/-- **The two checks of a key agree**: a bound on the length and a pattern without bound, or one bounded
pattern. -/
theorem headerKey_eq (key : Option String) : headerKey key = Agent.legacyKey key := by
  cases key with
  | none => rfl
  | some k =>
    have hv1 : search .rust (anchored [.run visible 1 none]) k.toList =
        (fullmatch [.run visible 1 none] k.toList).isSome := search_anchored
    have hlegacy : fullmatchItems .python [.piece (.run visible 1 (some 128))] k.toList =
        (fullmatch [.run visible 1 (some 128)] k.toList).isSome :=
      @fullmatchItems_pieces .python [.run visible 1 (some 128)] k.toList
    rw [headerKey, Agent.legacyKey, hv1, hlegacy, Bool.eq_iff_iff, Bool.and_eq_true, Bool.and_eq_true,
      decide_eq_true_eq, decide_eq_true_eq, fullmatch_single, fullmatch_single]
    simp only [Piece.Matches, Option.mem_def, Option.some.injEq, reduceCtorEq, false_imp_iff,
      implies_true, and_true, forall_eq']
    constructor
    · rintro ⟨⟨-, h128⟩, hc, h1⟩
      exact ⟨hc, h1, h128⟩
    · rintro ⟨hc, h1, h128⟩
      exact ⟨⟨h1, h128⟩, hc, h1⟩

theorem accepted_eq_ok {request : Option PyValue} :
    Api.accepted cfg r kind request = .ok c ↔ Asked cfg r kind request c := by
  unfold Api.accepted
  rw [bind_eq_ok]
  constructor
  · rintro ⟨credential, hcred, h⟩
    cases request with
    | none => cases h
    | some v =>
      dsimp only at h
      split_ifs at h with hk hl
      cases h
      exact ⟨hcred, rfl, rfl, rfl, hk, (Bool.not_eq_true _).mp hl⟩
  · rintro ⟨hcred, rfl, rfl, hkey, hk, hl⟩
    refine ⟨c.credential, hcred, ?_⟩
    dsimp only
    rw [if_pos hk, if_neg (by simp [hl]), ← hkey]
    rfl

theorem decoded_eq_ok {body : HttpBody} {route : PyValue → Except Denial Call} :
    Api.decoded body route = .ok c ↔ ∃ v, body = .value v ∧ route v = .ok c := by
  cases body with
  | value v => simp [Api.decoded]
  | _ => exact ⟨nofun, fun ⟨_, h, _⟩ => nomatch h⟩

theorem legacyOperation_eq_ok {request : PyValue} :
    Agent.legacyOperation cfg r kind request = .ok c ↔
      Api.control cfg r = .ok c.credential ∧ request = c.request ∧ c.kind = kind ∧
        c.key = r.idempotencyKey ∧ headerKey r.idempotencyKey = true := by
  unfold Agent.legacyOperation
  rw [bind_eq_ok, headerKey_eq]
  constructor
  · rintro ⟨credential, hcred, h⟩
    split_ifs at h with hk
    cases h
    exact ⟨hcred, rfl, rfl, rfl, hk⟩
  · rintro ⟨hcred, rfl, rfl, hkey, hk⟩
    refine ⟨c.credential, hcred, ?_⟩
    rw [if_pos hk, ← hkey]
    rfl

theorem route_eq_ok {α : Type} {body : Option α} {handler : α → Except Denial Call} :
    Agent.route cfg r body handler = .ok c ↔ (∃ v, Agent.verifyApiKey cfg r = .ok v) ∧
      r.limited = false ∧ ∃ a, body = some a ∧ handler a = .ok c := by
  unfold Agent.route
  rw [bind_eq_ok]
  constructor
  · rintro ⟨v, hv, h⟩
    cases body with
    | none => cases h
    | some a =>
      dsimp only at h
      split_ifs at h with hl
      exact ⟨⟨v, hv⟩, (Bool.not_eq_true _).mp hl, a, rfl, h⟩
  · rintro ⟨⟨v, hv⟩, hl, a, rfl, h⟩
    refine ⟨v, hv, ?_⟩
    dsimp only
    rw [if_neg (by simp [hl]), h]

/-- The dependency of a legacy control route lets in whom the handler lets in. -/
theorem verifyApiKey_of_control {name : String} (hm : r.method = "POST")
    (h : Api.control cfg r = .ok name) : ∃ v, Agent.verifyApiKey cfg r = .ok v := by
  unfold Agent.verifyApiKey
  unfold Api.control at h
  cases hk : r.apiKey with
  | none =>
    rw [hk] at h
    cases h
  | some key =>
    rw [hk] at h
    dsimp only
    rw [if_pos (Or.inl hm)]
    cases ha : Api.authenticate cfg (some key) "control" with
    | error e =>
      rw [ha] at h
      cases h
    | ok v => exact ⟨v, rfl⟩

/-- **A legacy control route** asks for what its body says. -/
theorem operation_eq_ok {α : Type} {body : Option α} {f : α → PyValue} :
    Agent.route cfg r body (fun a => Agent.legacyOperation cfg r kind (f a)) = .ok c ↔
      (∃ v, Agent.verifyApiKey cfg r = .ok v) ∧ Asked cfg r kind (body.map f) c := by
  rw [route_eq_ok]
  refine and_congr_right fun _ => ?_
  constructor
  · rintro ⟨hl, a, rfl, h⟩
    obtain ⟨hcred, hreq, hkind, hkey, hk⟩ := legacyOperation_eq_ok.mp h
    exact ⟨hcred, by rw [← hreq]; rfl, hkind, hkey, hk, hl⟩
  · rintro ⟨hcred, hreq, hkind, hkey, hk, hl⟩
    obtain ⟨a, rfl, ha⟩ := Option.map_eq_some_iff.mp hreq
    exact ⟨hl, a, rfl, legacyOperation_eq_ok.mpr ⟨hcred, ha, hkind, hkey, hk⟩⟩

/-- The requests the routes build. -/
inductive Built : String → PyValue → Prop
  | link (body : LinkRequest) (h : isNode body.node = true) : Built "link_node" body.dump
  | unlink {node : String} (h : isNode node = true) :
      Built "unlink_node" (.dict [("node", .str node)])
  | unlinkAll : Built "unlink_all" (.dict [])
  | announce {kind : String} (h : kind ∈ supportedAnnouncements) :
      Built "announce" (.dict [("kind", .str kind)])

theorem linkBody_node {v : PyValue} {body : LinkRequest} (h : linkBody v = some body) :
    isNode body.node = true := by
  unfold linkBody at h
  split at h
  · split_ifs at h
    split at h
    · split_ifs at h with hn
      cases h
      rwa [nodeField_eq] at hn
    · cases h
  · cases h

theorem connectBody_node {v : PyValue} {body : LinkRequest} (h : Agent.connectBody py v = some body) :
    isNode body.node = true := by
  unfold Agent.connectBody at h
  split at h
  · split at h
    · split_ifs at h with hn
      cases h
      rwa [nodeMustBeNumeric_eq] at hn
    · cases h
  · cases h

theorem disconnectBody_node {v : PyValue} {node : String} (h : Agent.disconnectBody v = some node) :
    isNode node = true := by
  unfold Agent.disconnectBody at h
  split at h
  · split at h
    · split_ifs at h with hn
      cases h
      rwa [nodeMustBeNumeric_eq] at hn
    · cases h
  · cases h

theorem announcementBody_supported {v : PyValue} {k : String} (h : announcementBody v = some k) :
    k ∈ supportedAnnouncements := by
  unfold announcementBody at h
  split at h
  · split_ifs at h
    split at h
    · split_ifs at h with hk
      cases h
      exact hk
    · cases h
  · cases h

theorem map_some_eq_ok {x : Except Denial Call} : x.map some = .ok (some c) ↔ x = .ok c := by
  cases x <;> simp [Except.map]

theorem call_eq_some : call py cfg r = some c ↔
    ∃ e, endpoint r.method r.path = .ok e ∧ e.handle py cfg r = .ok (some c) := by
  unfold call handle
  cases endpoint r.method r.path with
  | error d => exact ⟨nofun, fun ⟨_, h, _⟩ => nomatch h⟩
  | ok e =>
    cases h : e.handle py cfg r with
    | error d => simp [bind, Except.bind, Except.toOption, h]
    | ok o => simp [bind, Except.bind, Except.toOption, h]

/-- A read route comes to no call. -/
theorem handle_read {access : Access} : (Endpoint.read access).handle py cfg r ≠ .ok (some c) := by
  intro h
  cases access with
  | free => cases h
  | observe =>
    dsimp only [Endpoint.handle] at h
    cases ha : Api.authenticate cfg r.apiKey "observe" <;> rw [ha] at h <;> cases h
  | legacy =>
    dsimp only [Endpoint.handle] at h
    cases hv : Agent.verifyApiKey cfg r <;> rw [hv] at h <;> cases h
  | query =>
    dsimp only [Endpoint.handle] at h
    cases hv : Agent.verifyApiKeyQuery cfg r <;> rw [hv] at h <;> cases h

/-- The routes of withdrawn announcements and disabled capabilities come to no call. -/
theorem route_throw {α : Type} {body : Option α} {handler : α → Except Denial Call}
    (hh : ∀ a, handler a ≠ .ok c) : Agent.route cfg r body handler ≠ .ok c := by
  intro h
  obtain ⟨-, -, a, -, ha⟩ := route_eq_ok.mp h
  exact hh a ha

theorem copWithdrawn_ne_ok : Agent.copWithdrawn cfg r kind ≠ .ok c :=
  route_throw fun _ h => nomatch h

/-- **The calls of the routes**: each of them asks for a request of its own form. -/
theorem Endpoint.handle_cases {e : Endpoint} (h : e.handle py cfg r = .ok (some c)) :
    Built c.kind c.request ∧ ∃ kind request, Asked cfg r kind request c := by
  -- the two forms of a control route
  have v1 : ∀ {kind : String} {request : Option PyValue},
      Api.accepted cfg r kind request = .ok c → (∀ v, request = some v → Built kind v) →
      Built c.kind c.request ∧ ∃ kind request, Asked cfg r kind request c := by
    intro kind request h hb
    have ha := accepted_eq_ok.mp h
    refine ⟨?_, kind, request, ha⟩
    rw [ha.kind]
    exact hb _ ha.request
  have legacy : ∀ {α : Type} {kind : String} {body : Option α} {f : α → PyValue},
      Agent.route cfg r body (fun a => Agent.legacyOperation cfg r kind (f a)) = .ok c →
      (∀ a, body = some a → Built kind (f a)) →
      Built c.kind c.request ∧ ∃ kind request, Asked cfg r kind request c := by
    intro α kind body f h hb
    obtain ⟨-, ha⟩ := operation_eq_ok.mp h
    obtain ⟨a, rfl, hf⟩ := Option.map_eq_some_iff.mp ha.request
    refine ⟨?_, kind, _, ha⟩
    rw [ha.kind, ← hf]
    exact hb a rfl
  cases e with
  | read access => exact absurd h handle_read
  | link =>
    obtain ⟨v, -, hv⟩ := decoded_eq_ok.mp (map_some_eq_ok.mp h)
    refine v1 hv fun w hw => ?_
    obtain ⟨body, hbody, rfl⟩ := Option.map_eq_some_iff.mp hw
    exact .link body (linkBody_node hbody)
  | unlink node =>
    refine v1 (map_some_eq_ok.mp h) fun w hw => ?_
    split_ifs at hw with hn
    cases hw
    rw [nodeField_eq] at hn
    exact .unlink hn
  | unlinkAll =>
    refine v1 (map_some_eq_ok.mp h) fun w hw => ?_
    cases hw
    exact .unlinkAll
  | announce =>
    obtain ⟨v, -, hv⟩ := decoded_eq_ok.mp (map_some_eq_ok.mp h)
    refine v1 hv fun w hw => ?_
    obtain ⟨k, hk, rfl⟩ := Option.map_eq_some_iff.mp hw
    exact .announce (announcementBody_supported hk)
  | connectNode =>
    obtain ⟨v, -, hv⟩ := decoded_eq_ok.mp (map_some_eq_ok.mp h)
    exact legacy hv fun body hbody => .link body (connectBody_node hbody)
  | disconnectNode =>
    obtain ⟨v, -, hv⟩ := decoded_eq_ok.mp (map_some_eq_ok.mp h)
    exact legacy hv fun node hnode => .unlink (disconnectBody_node hnode)
  | disconnectAll => exact @legacy Unit _ _ _ (map_some_eq_ok.mp h) fun _ _ => .unlinkAll
  | copIdentify =>
    have hc : Agent.copAnnounce cfg r "identify" = .ok c := map_some_eq_ok.mp h
    exact legacy hc fun _ _ => .announce (by decide)
  | copStatus =>
    have hc : Agent.copAnnounce cfg r "status" = .ok c := map_some_eq_ok.mp h
    exact legacy hc fun _ _ => .announce (by decide)
  | copTime => exact absurd (map_some_eq_ok.mp h) copWithdrawn_ne_ok
  | copVersion => exact absurd (map_some_eq_ok.mp h) copWithdrawn_ne_ok
  | sendDtmf =>
    obtain ⟨v, -, hv⟩ := decoded_eq_ok.mp (map_some_eq_ok.mp h)
    exact absurd hv (route_throw fun _ => nofun)
  | executeMacro =>
    obtain ⟨v, -, hv⟩ := decoded_eq_ok.mp (map_some_eq_ok.mp h)
    exact absurd hv (route_throw fun _ => nofun)

/-- **A call comes from an authenticated client** and has one of the forms of `Built`. -/
theorem call_cases (h : call py cfg r = some c) :
    Built c.kind c.request ∧ Api.control cfg r = .ok c.credential ∧ c.key = r.idempotencyKey := by
  obtain ⟨e, -, he⟩ := call_eq_some.mp h
  obtain ⟨hb, kind, request, ha⟩ := Endpoint.handle_cases he
  exact ⟨hb, ha.control, ha.key⟩

/-- `command_for` accepts the requests the routes build. -/
theorem Built.commandFor {node kind : String} {request : PyValue} (h : Built kind request)
    (hn : isNode node = true) : ∃ command, commandFor node kind request = .ok command := by
  have hv : ∀ n, isNode n = true → validateNode (.str n) = .ok n := fun n h => if_pos h
  cases h with
  | link body hb =>
    have hmake : LinkRequest.make body.dump = .ok body := by
      obtain ⟨n, mode⟩ := body
      have hn : isNode n = true := hb
      cases mode <;> simp [LinkRequest.make, LinkRequest.dump, Mode.text, List.lookup_cons, hn]
    unfold Asl3.commandFor
    simp [hv node hn, hmake]
  | unlink h =>
    unfold Asl3.commandFor
    simp [hv node hn, subscriptNode, hv _ h]
  | unlinkAll =>
    unfold Asl3.commandFor
    simp [hv node hn, PyValue.truthy]
  | @announce k hk =>
    have hreq : announcementRequest (.dict [("kind", .str k)]) = .ok k := by
      simp [announcementRequest, hk]
    unfold Asl3.commandFor
    simp [hv node hn, hk, hreq]

end Asl3
