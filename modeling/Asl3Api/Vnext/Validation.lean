import Asl3Api.Lib.Dict
import Asl3Api.Vnext.Routes

/-!
# Requests that do not match the v1 schema (`vnext/api.py`)

* `Fault`: an entry of `exc.errors()`, with its location and its input;
* `withdrawnAnnouncement`, `validationHandler`: what is answered to a list of them;
* `Route`, `Route.faults`: the v1 routes, and the fields of a request that their schemas refuse;
* `linkFaults_eq_nil`, `announcementFaults_eq_nil`: a body has none exactly when its schema reads it;
* `kindFault_iff`: the routes where a withdrawn kind is refused;
* `Reports`: what is relied on of pydantic and FastAPI;
* **`withdrawn_or_invalid`**: when the code of the response is the right one.
-/

set_option autoImplicit false

namespace Asl3

open Py

namespace Validation

/-! ## The handler -/

/-- An element of a location. -/
inductive Location where
  | name (s : String)
  | index (i : ℕ)
  deriving DecidableEq, Repr

/-- An error of a validation: `loc` and `input`. -/
structure Fault where
  loc : List Location
  input : PyValue

/-- The text of the input when it is a withdrawn kind. -/
def withdrawnText : PyValue → Option String
  | .str value => if value ∈ withdrawnAnnouncements then some value else none
  | _ => none

/-- `withdrawn_announcement`: the loop over `exc.errors()`. -/
def withdrawnAnnouncement (errors : List Fault) : Option String :=
  errors.findSome? fun error =>
    if error.loc.getLast? = some (.name "kind") then withdrawnText error.input else none

/-- The body of a problem response. -/
structure ProblemResponse where
  type : String
  title : String
  status : ℕ
  detail : String
  code : String
  instancePath : String
  deriving DecidableEq, Repr

/-- `text.title()` for ASCII text: the first letter of each word in upper case, the others in lower. -/
def titleChars : Bool → List Char → List Char
  | _, [] => []
  | inside, c :: cs =>
    if c.isAlpha then (if inside then c.toLower else c.toUpper) :: titleChars true cs
    else c :: titleChars false cs

/-- `code.replace("_", " ").title()`. -/
def title (code : String) : String :=
  String.ofList (titleChars false (code.toList.map fun c => if c = '_' then ' ' else c))

/-- `problem_response`. -/
def problemResponse (path : String) (status : ℕ) (code detail : String) : ProblemResponse where
  type := "urn:asl3:problem:" ++ lower code
  title := title code
  status := status
  detail := detail
  code := code
  instancePath := path

/-- `validation_handler`; nothing for a path that FastAPI's own handler answers. -/
def validationHandler (path : String) (errors : List Fault) : Option ProblemResponse :=
  if "/v1/".toList <+: path.toList then
    match withdrawnAnnouncement errors with
    | some kind => some (problemResponse path 422 "UNSUPPORTED_ANNOUNCEMENT"
        (unsupportedAnnouncementDetail kind))
    | none => some (problemResponse path 422 "INVALID_REQUEST" "Request does not match the v1 schema.")
  else none

/-! ## The schemas -/

/-- A required field of a body. -/
def requiredFaults (name : String) (ok : PyValue → Bool) (es : List (String × PyValue)) : List Fault :=
  match es.lookup name with
  | none => [⟨[.name "body", .name name], .dict es⟩]
  | some v => if ok v then [] else [⟨[.name "body", .name name], v⟩]

/-- A field of a body with a default. -/
def optionalFaults (name : String) (ok : PyValue → Bool) (es : List (String × PyValue)) : List Fault :=
  match es.lookup name with
  | none => []
  | some v => if ok v then [] else [⟨[.name "body", .name name], v⟩]

/-- `extra="forbid"`. -/
def extraFaults (names : List String) (es : List (String × PyValue)) : List Fault :=
  (es.map Prod.fst).filterMap fun name =>
    if name ∈ names then none else (es.lookup name).map fun v => ⟨[.name "body", .name name], v⟩

/-- `kind: Literal["identify", "status"]`. -/
def kindField : PyValue → Bool
  | .str kind => decide (kind ∈ supportedAnnouncements)
  | _ => false

/-- `node: Node`. -/
def nodeValue : PyValue → Bool
  | .str node => nodeField node
  | _ => false

/-- A body `LinkRequest`. -/
def linkFaults : PyValue → List Fault
  | .dict es => requiredFaults "node" nodeValue es ++
      optionalFaults "mode" (fun v => (modeField (some v)).isSome) es ++ extraFaults ["node", "mode"] es
  | v => [⟨[.name "body"], v⟩]

/-- A body `AnnouncementRequest`. -/
def announcementFaults : PyValue → List Fault
  | .dict es => requiredFaults "kind" kindField es ++ extraFaults ["kind"] es
  | v => [⟨[.name "body"], v⟩]

/-- The header `Idempotency-Key`. -/
def headerFaults (key : Option String) : List Fault :=
  if headerKey key then [] else [⟨[.name "header", .name "Idempotency-Key"], .str (key.getD "")⟩]

/-- A path parameter `Node`. -/
def pathFaults (node : String) : List Fault :=
  if nodeField node then [] else [⟨[.name "path", .name "node"], .str node⟩]

/-! ## The routes -/

/-- The v1 routes with their path and query parameters. -/
inductive Route where
  | state
  | capabilities
  | directory (node : String)
  | operations (limit offset : Option String)
  | operation (id : String)
  | link
  | unlink (node : String)
  | unlinkAll
  | announce
  | events
  deriving DecidableEq, Repr

/-- The method of a route. -/
def Route.method : Route → String
  | .link => "POST"
  | .announce => "POST"
  | .unlink _ => "DELETE"
  | .unlinkAll => "DELETE"
  | _ => "GET"

/-- The path of a route behind `/v1/`. -/
def Route.suffix : Route → String
  | .state => "node/state"
  | .capabilities => "capabilities"
  | .directory node => "directory/" ++ node
  | .operations _ _ => "operations"
  | .operation id => "operations/" ++ id
  | .link => "links"
  | .unlink node => "links/" ++ node
  | .unlinkAll => "links"
  | .announce => "announcements"
  | .events => "events"

/-- The request is one to the route. -/
structure Route.Serves (route : Route) (r : HttpRequest) : Prop where
  method : r.method = route.method
  path : r.path = "/v1/" ++ route.suffix

/-- What the schemas of the parameters use of pydantic and of the JSON decoder. -/
structure Reader where
  /-- What a text is read as by an `int` field, if it is not refused. -/
  laxInt : String → Option ℤ
  /-- Where the decoding of a body stops. -/
  position : ℕ

/-- A query parameter `int` with its bounds. -/
def queryFaults (rd : Reader) (name : String) (ok : ℤ → Bool) : Option String → List Fault
  | none => []
  | some text => if (rd.laxInt text).any ok then [] else [⟨[.name "query", .name name], .str text⟩]

/-- A body that is no JSON text is refused before anything else; the other faults are collected. A body
that cannot be read is not validated. -/
def bodyFaults (rd : Reader) (r : HttpRequest) (schema : PyValue → List Fault) : List Fault :=
  match r.body with
  | .value v => headerFaults r.idempotencyKey ++ schema v
  | .malformed => [⟨[.name "body", .index rd.position], .dict []⟩]
  | .unreadable => []

/-- What the schemas of a route refuse of a request. -/
def Route.faults (rd : Reader) (r : HttpRequest) : Route → List Fault
  | .state => []
  | .capabilities => []
  | .directory node => pathFaults node
  | .operations limit offset =>
    queryFaults rd "limit" (fun n => 1 ≤ n && n ≤ 500) limit ++ queryFaults rd "offset" (0 ≤ ·) offset
  | .operation _ => []
  | .link => bodyFaults rd r linkFaults
  | .unlink node => pathFaults node ++ headerFaults r.idempotencyKey
  | .unlinkAll => headerFaults r.idempotencyKey
  | .announce => bodyFaults rd r announcementFaults
  | .events => []

/-! ## Faults and schemas -/

/-- Every field that is not in the schema has a fault, with its value. -/
theorem mem_extraFaults {names : List String} {es : List (String × PyValue)} {o : Fault} :
    o ∈ extraFaults names es ↔ ∃ name v, name ∉ names ∧ es.lookup name = some v ∧
      o = ⟨[.name "body", .name name], v⟩ := by
  rw [extraFaults, List.mem_filterMap]
  constructor
  · rintro ⟨name, -, ho⟩
    split_ifs at ho with hn
    obtain ⟨v, hv, rfl⟩ := Option.map_eq_some_iff.mp ho
    exact ⟨name, v, hn, hv, rfl⟩
  · rintro ⟨name, v, hn, hv, rfl⟩
    refine ⟨name, lookup_isSome_iff_mem.mp (Option.isSome_of_eq_some hv), ?_⟩
    rw [if_neg hn, hv, Option.map_some]

/-- The control routes as calls. -/
def Route.call (cfg : Config) (r : HttpRequest) : Route → Option (Except Denial Call)
  | .link => some (Api.link cfg r)
  | .unlink node => some (Api.unlink cfg r node)
  | .unlinkAll => some (Api.unlinkAll cfg r)
  | .announce => some (Api.announce cfg r)
  | _ => none

/-- The fault of a withdrawn kind. -/
def Fault.Withdrawn (o : Fault) : Prop :=
  o.loc.getLast? = some (.name "kind") ∧ (withdrawnText o.input).isSome = true

/-- The kind of the body is one that was withdrawn. -/
def Withdrawn (body : HttpBody) : Prop :=
  ∃ es kind, body = .value (.dict es) ∧ es.lookup "kind" = some (.str kind) ∧
    kind ∈ withdrawnAnnouncements

theorem withdrawnText_isSome {v : PyValue} :
    (withdrawnText v).isSome = true ↔ ∃ kind, v = .str kind ∧ kind ∈ withdrawnAnnouncements := by
  cases v with
  | str kind =>
    by_cases hk : kind ∈ withdrawnAnnouncements <;> simp [withdrawnText, hk]
  | _ => simp [withdrawnText]

theorem withdrawnAnnouncement_isSome {errors : List Fault} :
    (withdrawnAnnouncement errors).isSome = true ↔ ∃ o ∈ errors, o.Withdrawn := by
  rw [withdrawnAnnouncement, List.findSome?_isSome_iff]
  refine exists_congr fun o => and_congr_right fun _ => ?_
  rw [Fault.Withdrawn]
  split_ifs with h
  · exact (and_iff_right h).symm
  · exact iff_of_false Bool.false_ne_true fun hw => h hw.1

/-- A field of another name, with or without a fault. -/
theorem not_withdrawn {name : String} (hn : name ≠ "kind") (place : String) (p : Prop) [Decidable p]
    (v : PyValue) : ∀ o ∈ (if p then [] else [⟨[.name place, .name name], v⟩] : List Fault),
      ¬ o.Withdrawn := by
  rintro o ho ⟨hl, -⟩
  split_ifs at ho
  · cases ho
  · rw [List.mem_singleton.mp ho] at hl
    exact hn (Location.name.inj (Option.some.inj hl))

theorem not_withdrawn_required {name : String} (hn : name ≠ "kind") (ok : PyValue → Bool)
    (es : List (String × PyValue)) : ∀ o ∈ requiredFaults name ok es, ¬ o.Withdrawn := by
  unfold requiredFaults
  cases es.lookup name with
  | none => exact not_withdrawn hn "body" False _
  | some v => exact not_withdrawn hn "body" _ v

theorem not_withdrawn_optional {name : String} (hn : name ≠ "kind") (ok : PyValue → Bool)
    (es : List (String × PyValue)) : ∀ o ∈ optionalFaults name ok es, ¬ o.Withdrawn := by
  unfold optionalFaults
  cases es.lookup name with
  | none => exact fun _ ho => nomatch ho
  | some v => exact not_withdrawn hn "body" _ v

theorem not_withdrawn_header (key : Option String) : ∀ o ∈ headerFaults key, ¬ o.Withdrawn :=
  not_withdrawn (by decide) "header" _ _

theorem not_withdrawn_path (node : String) : ∀ o ∈ pathFaults node, ¬ o.Withdrawn :=
  not_withdrawn (by decide) "path" _ _

theorem not_withdrawn_query (rd : Reader) {name : String} (hn : name ≠ "kind") (ok : ℤ → Bool)
    (text : Option String) : ∀ o ∈ queryFaults rd name ok text, ¬ o.Withdrawn := by
  cases text with
  | none => exact fun _ ho => nomatch ho
  | some text => exact not_withdrawn hn "query" _ _

/-- A withdrawn kind is no field of a link body, and its value is reported. -/
theorem extraFaults_withdrawn {names : List String} (hn : "kind" ∉ names)
    {es : List (String × PyValue)} : (∃ o ∈ extraFaults names es, o.Withdrawn) ↔
      ∃ kind, es.lookup "kind" = some (.str kind) ∧ kind ∈ withdrawnAnnouncements := by
  constructor
  · rintro ⟨o, ho, hl, hw⟩
    obtain ⟨name, v, -, hv, rfl⟩ := mem_extraFaults.mp ho
    cases hl
    obtain ⟨kind, rfl, hk⟩ := withdrawnText_isSome.mp hw
    exact ⟨kind, hv, hk⟩
  · rintro ⟨kind, hv, hk⟩
    exact ⟨_, mem_extraFaults.mpr ⟨"kind", _, hn, hv, rfl⟩, rfl,
      withdrawnText_isSome.mpr ⟨kind, rfl, hk⟩⟩

/-- A withdrawn kind is none that an announcement body supports. -/
theorem announcementFaults_withdrawn {es : List (String × PyValue)} :
    (∃ o ∈ announcementFaults (.dict es), o.Withdrawn) ↔
      ∃ kind, es.lookup "kind" = some (.str kind) ∧ kind ∈ withdrawnAnnouncements := by
  rw [announcementFaults]
  constructor
  · rintro ⟨o, ho, hl, hw⟩
    rcases List.mem_append.mp ho with ho | ho
    · unfold requiredFaults at ho
      split at ho
      · rw [List.mem_singleton.mp ho] at hw
        cases hw
      · rename_i v hv
        split_ifs at ho
        · cases ho
        · rw [List.mem_singleton.mp ho] at hw
          obtain ⟨kind, rfl, hk⟩ := withdrawnText_isSome.mp hw
          exact ⟨kind, hv, hk⟩
    · obtain ⟨name, v, hn, -, rfl⟩ := mem_extraFaults.mp ho
      cases hl
      exact (hn (List.mem_singleton_self _)).elim
  · rintro ⟨kind, hv, hk⟩
    have hok : kindField (.str kind) = false := by
      have hdisjoint : ∀ k ∈ withdrawnAnnouncements, k ∉ supportedAnnouncements := by
        simp [withdrawnAnnouncements, supportedAnnouncements]
      exact decide_eq_false (hdisjoint kind hk)
    refine ⟨⟨[.name "body", .name "kind"], .str kind⟩, List.mem_append_left _ ?_, rfl,
      withdrawnText_isSome.mpr ⟨kind, rfl, hk⟩⟩
    rw [requiredFaults, hv]
    simp only
    rw [hok]
    exact List.mem_singleton_self _

/-- A body, with its header: a withdrawn kind in it is what a fault can be of. -/
theorem bodyFaults_withdrawn (rd : Reader) (r : HttpRequest) {schema : PyValue → List Fault}
    (hd : ∀ es, (∃ o ∈ schema (.dict es), o.Withdrawn) ↔
      ∃ kind, es.lookup "kind" = some (.str kind) ∧ kind ∈ withdrawnAnnouncements)
    (hv : ∀ v, (∀ es, v ≠ .dict es) → schema v = [⟨[.name "body"], v⟩]) :
    (∃ o ∈ bodyFaults rd r schema, o.Withdrawn) ↔ Withdrawn r.body := by
  unfold bodyFaults Withdrawn
  cases r.body with
  | malformed =>
    refine iff_of_false ?_ nofun
    rintro ⟨o, ho, hl, -⟩
    rw [List.mem_singleton.mp ho] at hl
    cases hl
  | unreadable => exact iff_of_false (fun ⟨_, ho, _⟩ => nomatch ho) nofun
  | value v =>
    simp only [List.mem_append, or_and_right, exists_or]
    rw [or_iff_right (fun ⟨o, ho, hw⟩ => not_withdrawn_header _ o ho hw)]
    by_cases hdict : ∃ es, v = .dict es
    · obtain ⟨es, rfl⟩ := hdict
      rw [hd es]
      simp only [HttpBody.value.injEq, PyValue.dict.injEq]
      constructor
      · rintro ⟨kind, hk⟩
        exact ⟨es, kind, rfl, hk⟩
      · rintro ⟨_, kind, rfl, hk⟩
        exact ⟨kind, hk⟩
    · rw [hv v fun es h => hdict ⟨es, h⟩]
      refine iff_of_false ?_ ?_
      · rintro ⟨o, ho, hl, -⟩
        rw [List.mem_singleton.mp ho] at hl
        exact absurd (Location.name.inj (Option.some.inj hl)) (by decide)
      · rintro ⟨es, kind, h, -⟩
        exact hdict ⟨es, HttpBody.value.inj h⟩

/-- A route without a body refuses no withdrawn kind. -/
theorem not_withdrawn_route (rd : Reader) (r : HttpRequest) {route : Route} (ha : route ≠ .announce)
    (hl : route ≠ .link) : ∀ o ∈ route.faults rd r, ¬ o.Withdrawn := by
  cases route with
  | announce => exact (ha rfl).elim
  | link => exact (hl rfl).elim
  | directory node => exact not_withdrawn_path node
  | operations limit offset =>
    intro o ho
    rcases List.mem_append.mp ho with ho | ho
    · exact not_withdrawn_query rd (by decide) _ _ o ho
    · exact not_withdrawn_query rd (by decide) _ _ o ho
  | unlink node =>
    intro o ho
    rcases List.mem_append.mp ho with ho | ho
    · exact not_withdrawn_path node o ho
    · exact not_withdrawn_header _ o ho
  | unlinkAll => exact not_withdrawn_header _
  | _ => exact fun _ ho => nomatch ho

theorem linkFaults_withdrawn {es : List (String × PyValue)} :
    (∃ o ∈ linkFaults (.dict es), o.Withdrawn) ↔
      ∃ kind, es.lookup "kind" = some (.str kind) ∧ kind ∈ withdrawnAnnouncements := by
  rw [← extraFaults_withdrawn (by decide : "kind" ∉ ["node", "mode"]), linkFaults]
  constructor
  · rintro ⟨o, ho, hw⟩
    rcases List.mem_append.mp ho with ho | ho
    · rcases List.mem_append.mp ho with ho | ho
      · exact (not_withdrawn_required (by decide) _ _ o ho hw).elim
      · exact (not_withdrawn_optional (by decide) _ _ o ho hw).elim
    · exact ⟨o, ho, hw⟩
  · rintro ⟨o, ho, hw⟩
    exact ⟨o, List.mem_append_right _ ho, hw⟩

/-- **Where a withdrawn kind is refused**: in the bodies of both routes that have one. -/
theorem kindFault_iff (rd : Reader) (r : HttpRequest) (route : Route) :
    (∃ o ∈ route.faults rd r, o.Withdrawn) ↔
      (route = .announce ∨ route = .link) ∧ Withdrawn r.body := by
  by_cases ha : route = .announce
  · subst ha
    rw [and_iff_right (.inl rfl)]
    refine bodyFaults_withdrawn rd r (fun es => announcementFaults_withdrawn) fun v hv => ?_
    cases v with
    | dict es => exact (hv es rfl).elim
    | _ => rfl
  by_cases hl : route = .link
  · subst hl
    rw [and_iff_right (.inr rfl)]
    refine bodyFaults_withdrawn rd r (fun es => linkFaults_withdrawn) fun v hv => ?_
    cases v with
    | dict es => exact (hv es rfl).elim
    | _ => rfl
  · refine iff_of_false ?_ fun h => h.1.elim ha hl
    rintro ⟨o, ho, hw⟩
    exact not_withdrawn_route rd r ha hl o ho hw

/-! ## The response -/

/-- What is relied on of pydantic and FastAPI: an error for every fault and no other, whose location ends
in the field and whose input is the value that was refused. -/
structure Reports (faults errors : List Fault) : Prop where
  sound : ∀ e ∈ errors, ∃ o ∈ faults, e.loc.getLast? = o.loc.getLast? ∧ e.input = o.input
  complete : ∀ o ∈ faults, ∃ e ∈ errors, e.loc.getLast? = o.loc.getLast? ∧ e.input = o.input

theorem Reports.withdrawn {faults errors : List Fault} (h : Reports faults errors) :
    (∃ e ∈ errors, e.Withdrawn) ↔ ∃ o ∈ faults, o.Withdrawn := by
  constructor
  · rintro ⟨e, he, hw⟩
    obtain ⟨o, ho, hl, hi⟩ := h.sound e he
    exact ⟨o, ho, hl ▸ hw.1, hi ▸ hw.2⟩
  · rintro ⟨o, ho, hw⟩
    obtain ⟨e, he, hl, hi⟩ := h.complete o ho
    exact ⟨e, he, hl ▸ hw.1, hi ▸ hw.2⟩

/-- What the code of the response to a request that does not match the schema is to be. -/
def Classified (route : Route) (r : HttpRequest) (errors : List Fault) : Prop :=
  ∃ p, validationHandler r.path errors = some p ∧ p.status = 422 ∧
    (p.code = "UNSUPPORTED_ANNOUNCEMENT" ↔ route = .announce ∧ Withdrawn r.body) ∧
    (p.code = "INVALID_REQUEST" ↔ ¬(route = .announce ∧ Withdrawn r.body))

/-- The code of the response, on every route. -/
theorem code_iff {rd : Reader} {route : Route} {r : HttpRequest} {errors : List Fault}
    (hr : route.Serves r) (h : Reports (route.faults rd r) errors) :
    ∃ p, validationHandler r.path errors = some p ∧ p.status = 422 ∧
      (p.code = "UNSUPPORTED_ANNOUNCEMENT" ↔ (route = .announce ∨ route = .link) ∧ Withdrawn r.body) ∧
      (p.code = "INVALID_REQUEST" ↔ ¬((route = .announce ∨ route = .link) ∧ Withdrawn r.body)) := by
  have hpath : "/v1/".toList <+: r.path.toList := by
    rw [hr.path, String.toList_append]
    exact List.prefix_append _ _
  have hkind : (withdrawnAnnouncement errors).isSome = true ↔
      (route = .announce ∨ route = .link) ∧ Withdrawn r.body := by
    rw [withdrawnAnnouncement_isSome, h.withdrawn, kindFault_iff]
  have hne : "INVALID_REQUEST" ≠ "UNSUPPORTED_ANNOUNCEMENT" := by decide
  rw [validationHandler, if_pos hpath, ← hkind]
  cases withdrawnAnnouncement errors with
  | none => exact ⟨_, rfl, rfl, iff_of_false hne Bool.false_ne_true, iff_of_true rfl Bool.false_ne_true⟩
  | some kind => exact ⟨_, rfl, rfl, iff_of_true rfl rfl, iff_of_false hne.symm fun h => h rfl⟩

/-- **The code of the response** to a request that does not match the schema is the right one, except for
a link body with an extra field `kind` that names a withdrawn announcement. -/
theorem withdrawn_or_invalid {rd : Reader} {route : Route} {r : HttpRequest} {errors : List Fault}
    (hr : route.Serves r) (h : Reports (route.faults rd r) errors) :
    Classified route r errors ↔ ¬(route = .link ∧ Withdrawn r.body) := by
  obtain ⟨p, hp, hstatus, hcode, hinvalid⟩ := code_iff hr h
  constructor
  · rintro ⟨q, hq, -, hq', -⟩ ⟨rfl, hw⟩
    obtain rfl : p = q := Option.some.inj (hp.symm.trans hq)
    obtain ⟨ha, -⟩ := hq'.mp (hcode.mpr ⟨.inr rfl, hw⟩)
    cases ha
  · intro hne
    have heq : (route = .announce ∨ route = .link) ∧ Withdrawn r.body ↔
        route = .announce ∧ Withdrawn r.body := by
      constructor
      · rintro ⟨ha | hl, hw⟩
        · exact ⟨ha, hw⟩
        · exact (hne ⟨hl, hw⟩).elim
      · rintro ⟨ha, hw⟩
        exact ⟨.inl ha, hw⟩
    exact ⟨p, hp, hstatus, hcode.trans heq, hinvalid.trans (not_congr heq)⟩

/-- A request with a body. -/
def posted (path : String) (body : List (String × PyValue)) : HttpRequest where
  method := "POST"
  path := path
  apiKey := none
  queryKey := none
  idempotencyKey := none
  body := .value (.dict body)
  limited := false

/-- An announcement of the time is unsupported. -/
theorem withdrawn_or_invalid_time : Classified .announce
    (posted "/v1/announcements" [("kind", .str "time")])
    [⟨[.name "body", .name "kind"], .str "time"⟩] := by
  have hfaults : Route.announce.faults ⟨fun _ => none, 0⟩
      (posted "/v1/announcements" [("kind", .str "time")]) =
        [⟨[.name "body", .name "kind"], .str "time"⟩] := rfl
  refine (@withdrawn_or_invalid ⟨fun _ => none, 0⟩ _ _ _ ⟨rfl, rfl⟩ ?_).mpr fun h => ?_
  · rw [hfaults]
    exact ⟨fun e he => ⟨e, he, rfl, rfl⟩, fun e he => ⟨e, he, rfl, rfl⟩⟩
  · cases h.1

/-- A link with an extra field is answered as an announcement that is unsupported. -/
theorem link_kind_unsupported : ¬ ∀ (rd : Reader) (route : Route) (r : HttpRequest) (errors : List Fault),
    route.Serves r → route.faults rd r ≠ [] → Reports (route.faults rd r) errors →
    Classified route r errors := by
  intro hall
  let r := posted "/v1/links" [("node", .str "2000"), ("kind", .str "time")]
  have hfaults : Route.link.faults ⟨fun _ => none, 0⟩ r = [⟨[.name "body", .name "kind"], .str "time"⟩] :=
    rfl
  have hr : Route.link.Serves r := ⟨rfl, rfl⟩
  have hreports : Reports (Route.link.faults ⟨fun _ => none, 0⟩ r) _ :=
    ⟨fun e he => ⟨e, he, rfl, rfl⟩, fun e he => ⟨e, he, rfl, rfl⟩⟩
  obtain ⟨p, hp, -, hcode, -⟩ := hall _ _ r _ hr (hfaults ▸ List.cons_ne_nil _ _) hreports
  obtain ⟨q, hq, -, hcode', -⟩ := code_iff hr hreports
  obtain rfl : p = q := Option.some.inj (hp.symm.trans hq)
  have hw : Withdrawn r.body := ⟨_, "time", rfl, rfl, by decide⟩
  obtain ⟨h, -⟩ := hcode.mp (hcode'.mpr ⟨.inr rfl, hw⟩)
  cases h

end Validation

end Asl3
