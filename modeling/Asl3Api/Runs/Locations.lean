import Asl3Api.Runs.Responses

/-!
# The `Location` of a response

* `matching_operations`, `endpoint_operations`: the route of `GET /v1/operations/{operation_id}`;
* `respond_accepted`, `document_of_answer`: an accepted operation is a document of the ledger;
* **`location_resolves`**: the `Location` of a 202 shows the operation from then on.
-/

set_option autoImplicit false

namespace Asl3

open Py Ledger Validation

/-- The operation of a 202. -/
def Response.operation? : Response → Option Operation
  | .accepted op _ => some op
  | _ => none

/-- No other route matches a path under `/v1/operations/`. -/
theorem matching_operations {id : String} (hne : id.toList ≠ []) (hs : '/' ∉ id.toList) :
    matching ("/v1/operations/" ++ id) = [("GET", .read .observe)] := by
  have hother : ∀ base ∈ ["/v1/directory/", "/v1/links/", "/lookup/"],
      pathParameter base ("/v1/operations/" ++ id) = none := by
    intro base hbase
    simp only [List.mem_cons, List.not_mem_nil, or_false] at hbase
    unfold pathParameter
    rw [String.toList_append]
    rcases hbase with rfl | rfl | rfl <;> rfl
  unfold matching
  rw [plainRoutes_append (by decide +kernel), List.nil_append]
  simp only [nodeRoutes, List.filterMap_cons, hother _ (by simp : "/v1/directory/" ∈ _),
    hother _ (by simp : "/v1/links/" ∈ _), hother _ (by simp : "/lookup/" ∈ _),
    pathParameter_append, if_pos (And.intro hne hs), Option.map_none, Option.map_some,
    List.filterMap_nil]

theorem endpoint_operations {id : String} (hne : id.toList ≠ []) (hs : '/' ∉ id.toList) :
    endpoint "GET" ("/v1/operations/" ++ id) = .ok (.read .observe) := by
  rw [endpoint, matching_operations hne hs]
  rfl

section

variable {py : Schema} {node : String} {s s₁ s' : Sys} {p p' : Platform} {r : HttpRequest}
  {env env' : Env} {report : Report} {op : Operation} {location : String} {t t' : Table}
  {ls ls' : List WebLabel}

/-- What is accepted is the answer of an admission. -/
theorem respond_accepted (h : respond py report p t r env = .accepted op location) :
    location = "/v1/operations/" ++ op.id ∧
      ∃ c, call py p.config r = some c ∧ c.answer p t env = .ok op := by
  unfold respond at h
  cases hh : handle py p.config r with
  | error d =>
    rw [hh] at h
    cases d with
    | raised e =>
      cases e with
      | py e => cases e <;> cases h
      | _ => cases h
    | invalid =>
      dsimp only [denied] at h
      split at h
      · cases h
      · split at h <;> cases h
    | http status detail =>
      dsimp only [denied, httpHandler] at h
      split_ifs at h
    | limited =>
      dsimp only [denied, rateLimitHandler] at h
      split_ifs at h
    | _ => cases h
  | ok o =>
    rw [hh] at h
    cases o with
    | none => cases h
    | some c =>
      dsimp only at h
      cases ha : c.answer p t env with
      | ok op' =>
        rw [ha] at h
        cases h
        refine ⟨rfl, c, ?_, ha⟩
        rw [call, hh]
        rfl
      | error e =>
        rw [ha] at h
        cases e with
        | py e => cases e <;> cases h
        | _ => cases h

/-- **The operation of an answer** is the document of a row. -/
theorem document_of_answer {c : Call}
    (ha : p.admitOperation t c.kind c.request c.credential c.key env = (.ok op, p', t')) :
    ∃ row ∈ t', row.document = op := by
  rcases admitOperation_cases ha with ⟨op', ho, -, -, -, -, -, rfl, -⟩ |
    ⟨-, rfl, ⟨op', ho, row, hrow, -, -, -, -, -, hdoc⟩ | ⟨e, he, -⟩⟩
  · cases ho
    exact ⟨_, List.mem_append_right _ (List.mem_singleton_self _), rfl⟩
  · cases ho
    exact ⟨row, hrow, hdoc⟩
  · cases he

/-- **The `Location` of a 202.** Once a request was accepted, its `Location` is a route, and as long
as the ledger can be read, whatever happened in between, it shows this operation: with the identity
that it was accepted with, and forward of the state that the response has shown. -/
theorem location_resolves (h : WebReaches py node ls s) (hp : s.life = .up p)
    (hr : respond py report p s.table r env = .accepted op location)
    (h₁ : Web.step py node s (.http r env) = some s₁)
    (hrun : Lts.exec (Web.step py node) s₁ ls' = some s') (hp' : s'.life = .up p') :
    (op.id.toList ≠ [] → '/' ∉ op.id.toList → endpoint "GET" location = .ok (.read .observe)) ∧
      location = "/v1/operations/" ++ op.id ∧
      ∀ env', p'.requireLedger = .ok () → env'.readOk = true →
        ∃ op', Api.operation p' s'.table op.id env' = .ok op' ∧ SameIdentity op op' ∧
          Relation.ReflTransGen Moves op op' := by
  obtain ⟨rfl, c, hc, ha⟩ := respond_accepted hr
  refine ⟨endpoint_operations, rfl, fun env' hl hread => ?_⟩
  -- the row of the operation behind the request
  obtain ⟨q, hq, -, ⟨hno, -⟩ | ⟨c₀, hc₀, hstep⟩⟩ := step_http_cases h₁
  · rw [hp] at hq
    cases hq
    rw [hc] at hno
    cases hno
  rw [hp] at hq
  cases hq
  obtain rfl : c = c₀ := Option.some.inj (hc.symm.trans hc₀)
  have hi₁ : Inv node s₁ := (webReaches_inv h).step hstep
  obtain ⟨row, hrow, hdoc⟩ : ∃ row ∈ s₁.table, row.document = op := by
    rcases hadm : p.admitOperation s.table c.kind c.request c.credential c.key env with ⟨x, p₁, t₁⟩
    have hx : x = .ok op := by rw [← ha, Call.answer, hadm]
    rw [hx] at hadm
    simp only [Sys.step, Call.label, hp, hadm] at hstep
    split_ifs at hstep
    cases hstep
    exact document_of_answer hadm
  -- and after the run
  obtain ⟨ls'', hsys, -⟩ := web_refines hrun
  have hi' := exec_inv hi₁ hsys
  have hid : row.id = op.id := by rw [← hdoc, (hi₁.sound.wf.agrees row hrow).documentId]
  have hget : get s₁.table node op.id = some op := by
    rw [← hid, ← hdoc]
    exact hi₁.sound.wf.get_row hrow
  obtain ⟨op', hget', hsame, hmoves⟩ := (exec_grows hi₁ hsys).get hi'.sound.wf hget
  have hnode : p'.node = node := by
    have hlife := hi'.life
    rw [hp'] at hlife
    exact hlife.number
  refine ⟨op', ?_, hsame, hmoves⟩
  rw [Api.operation, hl, hnode]
  dsimp only
  rw [if_neg (by simp [hread]), hget']

/-- An identification is accepted, and its `Location` shows it at the end. -/
theorem location_resolves_identify : ∃ (s : Sys) (p : Platform) (op : Operation),
    WebReaches sampleSchema "546051" identifyRun s ∧ s.life = .up p ∧
      Api.operation p s.table "a1" {} = .ok op ∧ op.id = "a1" := by
  have hpre : (Lts.exec (Web.step sampleSchema "546051") Sys.init (identifyRun.take 2)).map
      (fun s => s.upWith fun p => decide ((respond sampleSchema ⟨[], .ok ()⟩ p s.table sampleRequest
        { uuid := "a1" }).operation?.map Operation.id = some "a1")) = some true := by decide +kernel
  have hend : (Lts.exec (Web.step sampleSchema "546051") Sys.init identifyRun).map
      (fun s => s.upWith fun p => p.requireLedger.isOk) = some true := by decide +kernel
  obtain ⟨s', hs', hf'⟩ := Option.map_eq_some_iff.mp hend
  obtain ⟨p', hp', hl'⟩ := Sys.exists_up hf'
  have hl : p'.requireLedger = .ok () := requireLedger_isOk hl'
  have hsplit : identifyRun =
      identifyRun.take 2 ++ .http sampleRequest { uuid := "a1" } :: identifyRun.drop 3 := rfl
  rw [hsplit, Lts.exec_append] at hs'
  obtain ⟨s, hs, hrest⟩ := hs'
  obtain ⟨s₁, h₁, hrun⟩ := Lts.exec_cons.mp hrest
  rw [hs] at hpre
  obtain ⟨p, hp, hacc⟩ := Sys.exists_up (Option.some.inj hpre)
  cases hr : respond sampleSchema ⟨[], .ok ()⟩ p s.table sampleRequest { uuid := "a1" } with
  | accepted op location =>
    rw [hr] at hacc
    have hid : op.id = "a1" := Option.some.inj (of_decide_eq_true hacc)
    obtain ⟨op', hop, hsame, -⟩ := (location_resolves hs hp hr h₁ hrun hp').2.2 {} hl rfl
    refine ⟨s', p', op', ?_, hp', hid ▸ hop, hsame.id.trans hid⟩
    rw [WebReaches, hsplit, Lts.exec_append]
    exact ⟨s, hs, hrest⟩
  | _ =>
    rw [hr] at hacc
    cases hacc

end

end Asl3
