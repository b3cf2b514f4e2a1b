import Asl3Api.Alias
import Asl3Api.Runs.Admission
import Asl3Api.Runs.Idempotency

/-!
# Runs of the application

The clients call the service over HTTP only: a step is a request to some route of the application, or
a step of the service that is no admission.

* `WebLabel`, `Web.step`, `Web.output`, `Web.answer`: the system, what a step is observed to do and
  what `admit` answers;
* `web_refines`: a run of the application is a run of the service;
* `step_http_cases`: what a request does;
* **`legacy_and_v1_are_one_operation`**: the aliases, one by one and in whole runs.
-/

set_option autoImplicit false

namespace Asl3

open Py Ledger

/-- The label is a call of `admit`. -/
def Label.admits : Label → Bool
  | .request _ _ _ _ _ => true
  | _ => false

/-- What happens next. -/
inductive WebLabel where
  /-- A request reaches the application. -/
  | http (r : HttpRequest) (env : Env)
  /-- A step of the service that no client takes. -/
  | sys (l : Label)

/-- The step of the service that a call is. -/
def Call.label (c : Call) (env : Env) : Label :=
  .request c.kind c.request c.credential c.key env

/-- The answer of `admit` to a call. -/
def Call.answer (c : Call) (p : Platform) (t : Table) (env : Env) : Except Error Operation :=
  (p.admitOperation t c.kind c.request c.credential c.key env).1

namespace Web

variable (py : Schema) (node : String) (s : Sys)

/-- One step of the application for `node`. It serves requests while the process is up. -/
def step : WebLabel → Option Sys
  | .http r env => match s.life with
    | .up p =>
      if p.quiet then match call py p.config r with
        | some c => s.step node (c.label env)
        | none => some s
      else none
    | _ => none
  | .sys l => if l.admits then none else s.step node l

/-- What a step is observed to do. -/
def output (s : Sys) : WebLabel → List Event
  | .http _ _ => []
  | .sys l => s.output l

/-- What `admit` answers to a request, nothing when it is not called. -/
def answer : WebLabel → List (Option (Except Error Operation))
  | .http r env => match s.life with
    | .up p => [(call py p.config r).map fun c => c.answer p s.table env]
    | _ => []
  | .sys _ => []

end Web

variable {py : Schema} {node : String} {s s' : Sys} {r : HttpRequest} {env : Env}

/-- The labels `ls` lead from the empty ledger to `s`. -/
def WebReaches (py : Schema) (node : String) (ls : List WebLabel) (s : Sys) : Prop :=
  Lts.exec (Web.step py node) Sys.init ls = some s

/-- The events of a run from the empty ledger. -/
def webHistory (py : Schema) (node : String) (ls : List WebLabel) : List Event :=
  Lts.trace (Web.step py node) Web.output Sys.init ls

/-! ## The application and the service -/

/-- What a request does: nothing, or what its call does. -/
theorem step_http_cases (h : Web.step py node s (.http r env) = some s') :
    ∃ p, s.life = .up p ∧ p.quiet = true ∧
      ((call py p.config r = none ∧ s' = s) ∨
        ∃ c, call py p.config r = some c ∧ s.step node (c.label env) = some s') := by
  unfold Web.step at h
  cases hl : s.life with
  | up p =>
    simp only [hl] at h
    split_ifs at h with hq
    refine ⟨p, rfl, hq, ?_⟩
    cases hc : call py p.config r with
    | none =>
      rw [hc] at h
      exact Or.inl ⟨rfl, (Option.some.inj h).symm⟩
    | some c =>
      rw [hc] at h
      exact Or.inr ⟨c, rfl, h⟩
  | _ => simp [hl] at h

/-- A step of the application is no step or one step of the service. -/
theorem step_refines {l : WebLabel} (h : Web.step py node s l = some s') :
    ∃ ls, Lts.exec (Sys.step node) s ls = some s' ∧
      Lts.trace (Sys.step node) Sys.output s ls = Web.output s l := by
  have one : ∀ l, s.step node l = some s' → Lts.exec (Sys.step node) s [l] = some s' ∧
      Lts.trace (Sys.step node) Sys.output s [l] = s.output l := by
    intro l hl
    refine ⟨Lts.exec_cons.mpr ⟨s', hl, rfl⟩, ?_⟩
    rw [Lts.trace, hl, Option.elim_some, Lts.trace_nil, List.append_nil]
  cases l with
  | http r env =>
    obtain ⟨p, -, -, ⟨-, rfl⟩ | ⟨c, -, hc⟩⟩ := step_http_cases h
    · exact ⟨[], rfl, rfl⟩
    · exact ⟨[c.label env], one _ hc⟩
  | sys l =>
    change (if l.admits then none else s.step node l) = some s' at h
    split_ifs at h
    exact ⟨[l], one _ h⟩

/-- **A run of the application is a run of the service**, with the same events. -/
theorem web_refines {ls : List WebLabel} (h : Lts.exec (Web.step py node) s ls = some s') :
    ∃ ls', Lts.exec (Sys.step node) s ls' = some s' ∧
      Lts.trace (Sys.step node) Sys.output s ls' =
        Lts.trace (Web.step py node) Web.output s ls :=
  @Lts.exec_refine _ _ (Web.step py node) _ Web.output _ _ (Sys.step node) Sys.output id
    (fun _ _ _ => step_refines) _ _ _ h

theorem webReaches_inv {ls : List WebLabel} (h : WebReaches py node ls s) : Inv node s := by
  obtain ⟨ls', hr, -⟩ := web_refines h
  exact reaches_inv hr

/-! ## Replacing a request by its alias -/

/-- The same label, or two requests of which one is the alias of the other. -/
def Interchangeable (py : Schema) (l l' : WebLabel) : Prop :=
  l = l' ∨ ∃ r r' env, l = .http r env ∧ l' = .http r' env ∧ (Alias py r r' ∨ Alias py r' r)

namespace Interchangeable

variable {l l' : WebLabel} (h : Interchangeable py l l')

include h

/-- The two labels are one, or their requests come to the same call. -/
theorem cases : l = l' ∨ ∃ r r' env, l = .http r env ∧ l' = .http r' env ∧
    ∀ cfg, call py cfg r = call py cfg r' := by
  rcases h with rfl | ⟨r, r', env, rfl, rfl, ha | ha⟩
  · exact Or.inl rfl
  · exact Or.inr ⟨r, r', env, rfl, rfl, fun _ => ha.call_eq⟩
  · exact Or.inr ⟨r, r', env, rfl, rfl, fun _ => ha.call_eq.symm⟩

theorem step_eq : Web.step py node s l = Web.step py node s l' := by
  rcases h.cases with rfl | ⟨r, r', env, rfl, rfl, hc⟩
  · rfl
  · simp only [Web.step, hc]

theorem output_eq : Web.output s l = Web.output s l' := by
  rcases h.cases with rfl | ⟨r, r', env, rfl, rfl, -⟩ <;> rfl

theorem answer_eq : Web.answer py s l = Web.answer py s l' := by
  rcases h.cases with rfl | ⟨r, r', env, rfl, rfl, hc⟩
  · rfl
  · simp only [Web.answer, hc]

end Interchangeable

/-! ## A retry -/

/-- An admission that is answered leaves a row of its key, for this request. -/
theorem row_of_answer {p p' : Platform} {t t' : Table} {kind credential : String} {request : PyValue}
    {key : Option String} {op : Operation}
    (ha : p.admitOperation t kind request credential key env = (.ok op, p', t')) :
    ∃ row ∈ t', row.credential = credential ∧ row.idempotencyKey = key ∧
      row.canonical = canonical kind request ∧ row.document.id = op.id := by
  rcases admitOperation_cases ha with ⟨op', ho, -, -, -, -, -, rfl, -⟩ |
    ⟨-, rfl, ⟨op', ho, row, hrow, -, hc, hkey, -, hcan, hdoc⟩ | ⟨e, he, -⟩⟩
  · cases ho
    exact ⟨newRow p.node kind request credential key op, by simp, rfl, rfl, rfl, rfl⟩
  · cases ho
    exact ⟨row, hrow, hc, hkey, hcan, by rw [hdoc]⟩
  · cases he

/-- **A retry**: once a call was answered under a key, every later call under that key, whatever its
route, is answered with the same operation when it has the same canonical text, and refused when it has
another one; and it changes nothing. -/
theorem retry_answer {s₁ : Sys} {p p' : Platform} {c c' : Call} {op : Operation} {r' : HttpRequest}
    {ls : List WebLabel} (hi : Inv node s) (hp : s.life = .up p) (hc : call py p.config r = some c)
    (hk : c.key ≠ none) (ha : c.answer p s.table env = .ok op)
    (h₁ : Web.step py node s (.http r env) = some s₁)
    (hrun : Lts.exec (Web.step py node) s₁ ls = some s') (hp' : s'.life = .up p')
    (hl : p'.requireLedger = .ok ()) (hc' : call py p'.config r' = some c')
    (hcred : c'.credential = c.credential) (hkey : c'.key = c.key) (env' : Env) :
    ∃ doc, doc.id = op.id ∧
      p'.admitOperation s'.table c'.kind c'.request c'.credential c'.key env' =
        (if env'.readOk = false then .error sqliteError
          else if canonical c'.kind c'.request = canonical c.kind c.request then .ok doc
          else .error keyConflict, p', s'.table) := by
  -- the first answer has a row
  obtain ⟨q, hq, -, ⟨hno, -⟩ | ⟨c₀, hc₀, hstep⟩⟩ := step_http_cases h₁
  · rw [hp] at hq
    cases hq
    rw [hc] at hno
    cases hno
  rw [hp] at hq
  cases hq
  obtain rfl : c = c₀ := Option.some.inj (hc.symm.trans hc₀)
  have hi₁ := hi.step hstep
  obtain ⟨row, hrow, hrc, hrk, hcan, hid⟩ : ∃ row ∈ s₁.table, row.credential = c.credential ∧
      row.idempotencyKey = c.key ∧ row.canonical = canonical c.kind c.request ∧
      row.document.id = op.id := by
    rcases hadm : p.admitOperation s.table c.kind c.request c.credential c.key env with ⟨x, p₁, t₁⟩
    have hx : x = .ok op := by
      unfold Call.answer at ha
      rwa [hadm] at ha
    rw [hx] at hadm
    simp only [Sys.step, Call.label, hp, hadm] at hstep
    split_ifs at hstep
    cases hstep
    exact row_of_answer hadm
  -- which the run keeps
  obtain ⟨ls', hsys, -⟩ := web_refines hrun
  have hi' := exec_inv hi₁ hsys
  obtain ⟨row', hrow', heq, hsame, -⟩ := exec_grows hi₁ hsys row hrow
  have hrun' := hi'.life
  rw [hp'] at hrun'
  have hnode : isNode node = true := by
    rw [← hrun'.number]
    exact hrun'.valid.isNode
  obtain ⟨command, hcmd⟩ := (call_cases hc').1.commandFor hnode
  obtain ⟨k, hkk⟩ := Option.ne_none_iff_exists'.mp hk
  have hkey' : row'.idempotencyKey = some k := by
    rw [heq]
    exact hrk.trans hkk
  have hcred' : row'.credential = c'.credential := by
    rw [heq, hcred]
    exact hrc
  have hcan' : row'.canonical = canonical c.kind c.request := by
    rw [heq]
    exact hcan
  refine ⟨row'.document, hsame.id.trans hid, ?_⟩
  have := hrun'.retry hi'.sound.wf hrow' hkey' hl hcmd env'
  rwa [hcred', hcan', ← hkk, ← hkey] at this

/-! ## The aliases -/

/-- **Legacy and v1 routes are the same operation.** The validators of node numbers accept the same
texts and those of keys the same keys, whichever engine runs them, and the schemas of the v1 bodies
accept what `models.py` accepts. A legacy request and its alias come to the same call of `admit`, or
both to none. So requests can be replaced by their aliases anywhere in a run: states, events and answers
stay the same. And a retry under a key is answered from the first request, through whichever route
either came. -/
theorem legacy_and_v1_are_one_operation (py : Schema) (node : String) :
    (∀ n : String, nodeField n = isNode n ∧ Agent.nodeMustBeNumeric n = isNode n ∧
      fullmatchItems .python (anchored nodePattern) n.toList = isNode n ∧
      (validateNode (.str n)).toOption = (if isNode n then some n else none) ∧
      (fullmatch Config.nodeNumberPattern n.toList).isSome = isNode n) ∧
    (∀ key, headerKey key = Agent.legacyKey key) ∧
    (∀ v, linkBody v = (LinkRequest.make v).toOption ∧
      announcementBody v = (announcementRequest v).toOption) ∧
    (∀ cfg r r', Alias py r r' → call py cfg r = call py cfg r') ∧
    (∀ cfg (r : HttpRequest) n v es (mode : Mode), py.laxBool v = some (decide (mode = .monitor)) →
      call py cfg (r.on "POST" "/connect"
          (.value (.dict (("node", .str n) :: ("monitor_only", v) :: es)))) =
        call py cfg (r.on "POST" "/v1/links"
          (.value (.dict [("node", .str n), ("mode", .str mode.text)])))) ∧
    (∀ s ls ls', List.Forall₂ (Interchangeable py) ls ls' →
      Lts.exec (Web.step py node) s ls = Lts.exec (Web.step py node) s ls' ∧
      Lts.trace (Web.step py node) Web.output s ls = Lts.trace (Web.step py node) Web.output s ls' ∧
      Lts.trace (Web.step py node) (Web.answer py) s ls =
        Lts.trace (Web.step py node) (Web.answer py) s ls') ∧
    ∀ ls s r env p c op s₁ ls' s' p' r' c' env', WebReaches py node ls s → s.life = .up p →
      call py p.config r = some c → c.key ≠ none → c.answer p s.table env = .ok op →
      Web.step py node s (.http r env) = some s₁ →
      Lts.exec (Web.step py node) s₁ ls' = some s' → s'.life = .up p' →
      p'.requireLedger = .ok () → call py p'.config r' = some c' → c'.credential = c.credential →
      c'.key = c.key → ∃ doc, doc.id = op.id ∧
        p'.admitOperation s'.table c'.kind c'.request c'.credential c'.key env' =
          (if env'.readOk = false then .error sqliteError
            else if canonical c'.kind c'.request = canonical c.kind c.request then .ok doc
            else .error keyConflict, p', s'.table) := by
  refine ⟨fun n => ⟨nodeField_eq n, nodeMustBeNumeric_eq n, fullmatchItems_anchored, ?_, rfl⟩,
    headerKey_eq, fun v => ⟨linkBody_eq v, announcementBody_eq v⟩, fun cfg r r' h => h.call_eq,
    ?_, ?_, ?_⟩
  · by_cases hn : isNode n = true
    · have hv : validateNode (.str n) = .ok n := if_pos hn
      rw [hv, if_pos hn]
      rfl
    · have hv : validateNode (.str n) =
          .error (.py (.valueError "Node must be 1-6 ASCII digits with no leading zero")) := if_neg hn
      rw [hv, if_neg hn]
      rfl
  · intro cfg r n v es mode hv
    have hmode : Agent.monitorOnly py (some v) = modeField (some (.str mode.text)) := by
      rw [modeField_text, Agent.monitorOnly, hv]
      cases mode <;> rfl
    exact (@Alias.link py r (("node", .str n) :: ("monitor_only", v) :: es)
      [("node", .str n), ("mode", .str mode.text)] rfl hmode rfl).call_eq
  · intro s ls ls' h
    have hstep : ∀ s l l', Interchangeable py l l' → Web.step py node s l = Web.step py node s l' :=
      fun _ _ _ h => h.step_eq
    have houtput : ∀ s l l', Interchangeable py l l' → Web.output s l = Web.output s l' :=
      fun _ _ _ h => h.output_eq
    have hanswer : ∀ s l l', Interchangeable py l l' → Web.answer py s l = Web.answer py s l' :=
      fun _ _ _ h => h.answer_eq
    exact ⟨Lts.exec_congr hstep h s, Lts.trace_congr hstep houtput h s,
      Lts.trace_congr hstep hanswer h s⟩
  · intro ls s r env p c op s₁ ls' s' p' r' c' env' h hp hc hk ha h₁ hrun hp' hl hc' hcred hkey
    exact retry_answer (webReaches_inv h) hp hc hk ha h₁ hrun hp' hl hc' hcred hkey env'

/-- The schemas that read JSON truth values only. -/
def sampleSchema : Schema where
  laxBool
    | .bool b => some b
    | _ => none
  decimal := isDigit

/-- A request for an identification, with the configured key. -/
def sampleRequest : HttpRequest where
  method := "POST"
  path := "/cop/identify"
  apiKey := some "key"
  queryKey := none
  idempotencyKey := some "first"
  body := .value .none
  limited := false

/-- A monitor link, through the legacy route. -/
def connectRequest : HttpRequest :=
  sampleRequest.on "POST" "/connect"
    (.value (.dict [("node", .str "2000"), ("monitor_only", .bool true)]))

/-- The same link, through the v1 route. -/
def linkRequest : HttpRequest :=
  sampleRequest.on "POST" "/v1/links"
    (.value (.dict [("node", .str "2000"), ("mode", .str "monitor")]))

/-- The call has the key of the request and the text of the link. -/
def linkCall (c : Call) : Bool :=
  c.key = some "first" && c.credential = "legacy" && canonical c.kind c.request =
    canonical "link_node" (.dict [("node", .str "2000"), ("mode", .str "monitor")])

/-- The process starts, and the link is admitted through the legacy route. -/
def connectRun : List WebLabel :=
  [.sys (.start sampleConfig {}), .sys (.recover {}), .http connectRequest { uuid := "a1" }]

/-- The two requests are one call, and when the first is admitted, the other is answered with its
operation and changes nothing. -/
theorem legacy_and_v1_are_one_operation_connect : ∃ s p c op s' p' c' doc,
    WebReaches sampleSchema "546051" (connectRun.take 2) s ∧ s.life = .up p ∧
    call sampleSchema p.config connectRequest = some c ∧
    call sampleSchema p.config linkRequest = some c ∧
    c.answer p s.table { uuid := "a1" } = .ok op ∧
    Web.step sampleSchema "546051" s (.http connectRequest { uuid := "a1" }) = some s' ∧
    s'.life = .up p' ∧ call sampleSchema p'.config linkRequest = some c' ∧ doc.id = op.id ∧
    p'.admitOperation s'.table c'.kind c'.request c'.credential c'.key { uuid := "a2" } =
      (.ok doc, p', s'.table) := by
  obtain ⟨-, -, -, -, halias, -, hretry⟩ := legacy_and_v1_are_one_operation sampleSchema "546051"
  have hready : (Lts.exec (Web.step sampleSchema "546051") Sys.init (connectRun.take 2)).map
      (fun s => s.upWith fun p => (call sampleSchema p.config connectRequest).any fun c =>
        linkCall c && (c.answer p s.table { uuid := "a1" }).isOk) = some true := by decide +kernel
  have hconnected : (Lts.exec (Web.step sampleSchema "546051") Sys.init
      (connectRun.take 2 ++ connectRun.drop 2)).map (fun s => s.upWith fun p =>
        p.requireLedger.isOk && (call sampleSchema p.config linkRequest).any linkCall) =
          some true := by decide +kernel
  obtain ⟨s, s', hs, hstep, hf, hg⟩ := Lts.exists_exec_append _ _ hready hconnected
  obtain ⟨s₁, h₁, hnil⟩ := Lts.exec_cons.mp hstep
  obtain rfl : s₁ = s' := Option.some.inj hnil
  obtain ⟨p, hp, hf⟩ := Sys.exists_up hf
  obtain ⟨p', hp', hg⟩ := Sys.exists_up hg
  simp only [Option.any_eq_true, Bool.and_eq_true] at hf hg
  obtain ⟨c, hc, hcall, hok⟩ := hf
  obtain ⟨hl, c', hc', hcall'⟩ := hg
  simp only [linkCall, Bool.and_eq_true, decide_eq_true_eq] at hcall hcall'
  cases ha : c.answer p s.table { uuid := "a1" } with
  | error e =>
    rw [ha] at hok
    cases hok
  | ok op =>
    have hkey : c.key ≠ none := by
      rw [hcall.1.1]
      exact Option.some_ne_none _
    obtain ⟨doc, hid, hadm⟩ := hretry _ s connectRequest { uuid := "a1" } p c op s₁ [] s₁ p' linkRequest
      c' { uuid := "a2" } hs hp hc hkey ha h₁ rfl hp' (requireLedger_isOk hl) hc'
      (hcall'.1.2.trans hcall.1.2.symm) (hcall'.1.1.trans hcall.1.1.symm)
    have hsame := halias p.config sampleRequest "2000" (.bool true) [] .monitor rfl
    rw [if_neg (by decide), if_pos (hcall'.2.trans hcall.2.symm)] at hadm
    exact ⟨s, p, c, op, s₁, p', c', doc, hs, hp, hc, hsame.symm.trans hc, ha, h₁, hp', hc', hid, hadm⟩

end Asl3
