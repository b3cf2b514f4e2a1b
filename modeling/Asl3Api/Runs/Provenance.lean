import Asl3Api.Runs.ControlWrite
import Asl3Api.Runs.Permanence
import Asl3Api.Runs.Web

/-!
# Where rows and commands come from

* `Withdraws`, `call_withdrawn`: the requests for a withdrawn announcement come to no call;
* `entries_of_not_admits`, `entries_of_call`: only a call of `admit` adds an entry;
* `Origin`, `exec_origins`: the request an entry comes from;
* `written_row`: what is written is the command of a row;
* **`provenance`**: every row and every command comes from an authorised request.
-/

set_option autoImplicit false

namespace Asl3

open Py Ledger

variable {py : Schema} {node : String} {s s' : Sys} {r : HttpRequest} {env : Env}

/-! ## Requests for a withdrawn announcement -/

/-- The request is for a withdrawn announcement, on a route of its own or by its body. -/
def Withdraws (r : HttpRequest) : Prop :=
  onRoute "/cop/time" r.path ∨ onRoute "/cop/version" r.path ∨ onRoute "/v1/announcements" r.path ∧
    ∃ es k, r.body = .value (.dict es) ∧ es.lookup "kind" = some (.str k) ∧ k ∈ withdrawnAnnouncements

/-- The route of a request is one of those its path matches. -/
theorem endpoint_mem {method path : String} {e : Endpoint} (h : endpoint method path = .ok e) :
    (method, e) ∈ matching path := by
  unfold endpoint at h
  cases hl : (matching path).lookup method with
  | none =>
    rw [hl] at h
    cases h
  | some e' =>
    rw [hl] at h
    cases h
    obtain ⟨l₁, l₂, hm, -⟩ := List.lookup_eq_some_iff.mp hl
    rw [hm]
    simp

theorem announcementBody_withdrawn {es : List (String × PyValue)} {k : String}
    (hk : es.lookup "kind" = some (.str k)) (hw : k ∈ withdrawnAnnouncements) :
    announcementBody (.dict es) = none := by
  have hs : k ∉ supportedAnnouncements := by
    have hno : ∀ k ∈ withdrawnAnnouncements, k ∉ supportedAnnouncements := by decide
    exact hno k hw
  unfold announcementBody
  simp [hk, hs]

theorem call_withdrawn {cfg : Config} (h : Withdraws r) : call py cfg r = none := by
  refine Option.eq_none_iff_forall_ne_some.mpr fun c hc => ?_
  obtain ⟨e, he, hh⟩ := call_eq_some.mp hc
  have hmem := endpoint_mem he
  rcases h with hp | hp | ⟨hp, es, k, hb, hk, hw⟩
  · obtain rfl : e = .copTime := by
      rcases onRoute_iff.mp hp with hp | hp <;> rw [hp] at hmem <;>
        exact (Prod.mk.inj (List.mem_singleton.mp hmem)).2
    exact copWithdrawn_ne_ok (map_some_eq_ok.mp hh)
  · obtain rfl : e = .copVersion := by
      rcases onRoute_iff.mp hp with hp | hp <;> rw [hp] at hmem <;>
        exact (Prod.mk.inj (List.mem_singleton.mp hmem)).2
    exact copWithdrawn_ne_ok (map_some_eq_ok.mp hh)
  · obtain rfl : e = .announce := by
      rcases onRoute_iff.mp hp with hp | hp <;> rw [hp] at hmem <;>
        exact (Prod.mk.inj (List.mem_singleton.mp hmem)).2
    obtain ⟨v, hv, ha⟩ := decoded_eq_ok.mp (map_some_eq_ok.mp hh)
    rw [hb] at hv
    cases hv
    have hreq := (accepted_eq_ok.mp ha).request
    rw [announcementBody_withdrawn hk hw] at hreq
    cases hreq

/-! ## The entries a step adds -/

theorem Stretch.length {p p' : Platform} {t t' : Table} {w : Worker} {doc : Operation} {i : Input}
    {n : Next} (h : Stretch p t w doc i p' t' n) : t'.length = t.length := by
  cases h with
  | crossed | acked | saved => exact List.length_map _
  | _ => rfl

/-- Only a call of `admit` makes the table longer. -/
theorem Does.length {l : Label} {out : List Event} (h : Does node s l s' out) (hl : l.admits = false) :
    s'.table.length = s.table.length := by
  cases h with
  | recovered hs hd ht =>
    rcases ht with ⟨rfl, -⟩ | ⟨-, rfl⟩
    · rfl
    · exact List.length_map _
  | admitted => cases hl
  | worked hs ht hd hf hst => exact hst.length
  | _ => rfl

/-- A step that is no call of `admit` leaves the entries. -/
theorem entries_of_not_admits {l : Label} (hi : Inv node s) (hl : l.admits = false)
    (h : s.step node l = some s') : s'.table.map Row.entry = s.table.map Row.entry := by
  have hdo := hi.does h
  refine ((hdo.tableStep hi).entries hi.sound.wf).eq_of_length ?_ |>.symm
  rw [List.length_map, List.length_map, hdo.length hl]

/-- A call of `admit` leaves the table, or adds the row of its new operation. -/
theorem entries_of_call {p : Platform} {c : Call} (hi : Inv node s) (hp : s.life = .up p)
    (h : s.step node (c.label env) = some s') : s'.table = s.table ∨
      ∃ op, newOperation node c.kind c.request c.credential env = .ok op ∧
        violates s.table (newRow node c.kind c.request c.credential c.key op) = false ∧
        s'.table = s.table ++ [newRow node c.kind c.request c.credential c.key op] := by
  have hrun := hi.life
  rw [hp] at hrun
  rcases hadm : p.admitOperation s.table c.kind c.request c.credential c.key env with ⟨a, p', t'⟩
  simp only [Sys.step, Call.label, hp, hadm] at h
  split_ifs at h
  cases h
  rcases requested_cases hrun hadm with ⟨-, rfl, -⟩ | ⟨op, -, -, -, hnew, -, hv, -, rfl⟩
  · exact Or.inl rfl
  · exact Or.inr ⟨op, hnew, hv, rfl⟩

/-! ## The request an entry comes from -/

/-- In the state `s` the request `r` comes to the call `c`, with the key of a credential that has
control authority, and `e` is the new entry of that call. -/
structure Origin (py : Schema) (node : String) (s : Sys) (r : HttpRequest) (p : Platform) (c : Call)
    (e : Entry) : Prop where
  up : s.life = .up p
  valid : p.config.Valid
  asks : call py p.config r = some c
  presents : Presents p.config r e.credential
  fresh : ∀ row ∈ s.table, row.id ≠ e.id
  number : e.node = node
  credential : e.credential = c.credential
  key : e.idempotencyKey = r.idempotencyKey
  kind : e.kind.name = c.kind
  request : .dict e.request = c.request
  canonical : e.canonical = canonical c.kind c.request
  accepted : ∃ command, commandFor node e.kind.name (.dict e.request) = .ok command

/-- The row a call inserts has the request for its origin. -/
theorem origin_newRow {p : Platform} {c : Call} {op : Operation} (hi : Inv node s)
    (hp : s.life = .up p) (hc : call py p.config r = some c)
    (hnew : newOperation node c.kind c.request c.credential env = .ok op)
    (hv : violates s.table (newRow node c.kind c.request c.credential c.key op) = false) :
    Origin py node s r p c (newRow node c.kind c.request c.credential c.key op).entry := by
  have hrun := hi.life
  rw [hp] at hrun
  obtain ⟨hb, hcontrol, hkey⟩ := call_cases hc
  obtain ⟨hk, hreq, -⟩ := newOperation_eq_ok hnew
  refine ⟨hp, hrun.valid, hc, control_sound hrun.valid hcontrol, (not_violates hv).1, rfl, rfl, hkey,
    hk.symm, hreq.symm, rfl, ?_⟩
  have hn : isNode node = true := by
    rw [← hrun.number]
    exact hrun.valid.isNode
  obtain ⟨command, hcmd⟩ := hb.commandFor hn
  rw [hk, hreq] at hcmd
  exact ⟨command, hcmd⟩

/-- **Every entry has an origin** in the run. -/
theorem exec_origins {ls : List WebLabel} (h : WebReaches py node ls s) :
    ∀ e ∈ s.table.map Row.entry, ∃ pre r env post s₀ s₁ p c, ls = pre ++ .http r env :: post ∧
      WebReaches py node pre s₀ ∧ Web.step py node s₀ (.http r env) = some s₁ ∧
      e ∈ s₁.table.map Row.entry ∧ Origin py node s₀ r p c e := by
  refine Lts.exec_induction (fun ls s => ∀ e ∈ s.table.map Row.entry, ∃ pre r env post s₀ s₁ p c,
    ls = pre ++ .http r env :: post ∧ WebReaches py node pre s₀ ∧
    Web.step py node s₀ (.http r env) = some s₁ ∧ e ∈ s₁.table.map Row.entry ∧
    Origin py node s₀ r p c e) ?_ ?_ h
  · intro e he
    cases he
  · intro ls s l s' hr ih hs e he
    have hi := webReaches_inv hr
    -- an entry that was there has its origin before this step
    have old : e ∈ s.table.map Row.entry → ∃ pre r env post s₀ s₁ p c,
        ls ++ [l] = pre ++ .http r env :: post ∧ WebReaches py node pre s₀ ∧
        Web.step py node s₀ (.http r env) = some s₁ ∧ e ∈ s₁.table.map Row.entry ∧
        Origin py node s₀ r p c e := by
      intro he
      obtain ⟨pre, r, env, post, s₀, s₁, p, c, rfl, h₀⟩ := ih e he
      exact ⟨pre, r, env, post ++ [l], s₀, s₁, p, c, by simp, h₀⟩
    cases l with
    | sys l =>
      change (if l.admits then none else s.step node l) = some s' at hs
      split_ifs at hs with hl
      rw [entries_of_not_admits hi ((Bool.not_eq_true _).mp hl) hs] at he
      exact old he
    | http r env =>
      obtain ⟨p, hp, -, ⟨-, rfl⟩ | ⟨c, hc, hstep⟩⟩ := step_http_cases hs
      · exact old he
      · rcases entries_of_call hi hp hstep with ht | ⟨op, hnew, hv, ht⟩
        · rw [ht] at he
          exact old he
        · have he' := he
          rw [ht, List.map_append, List.mem_append] at he'
          rcases he' with he' | he'
          · exact old he'
          · refine ⟨ls, r, env, [], s, s', p, c, rfl, hr, hs, he, ?_⟩
            rw [List.mem_singleton.mp he']
            exact origin_newRow hi hp hc hnew hv

/-! ## Commands -/

/-- What is written to the wire is the command of a row. -/
theorem written_row {ls : List Label} (h : Reaches node ls s) {id actionId payload : String}
    (hw : .wrote id actionId payload ∈ history node ls) : ∃ row ∈ s.table, row.id = id ∧ ∃ command,
      commandFor node row.document.kind.name (.dict row.document.request) = .ok command ∧
      AMISession.encode (Dispatch.controlFields command) actionId = .ok payload := by
  obtain ⟨pre, l, post, a, rfl, ha, hout⟩ := Lts.mem_trace h hw
  obtain ⟨a', b, ha', hstep, -⟩ := Lts.exec_mem h
  obtain rfl : a = a' := Option.some.inj (ha.symm.trans ha')
  obtain ⟨pre', q, p, -, env, doc, -, command, rfl, hq, -, -, hd, -, -, -, -, hcmd, he⟩ :=
    commit_before_write ha hstep hout
  -- the row of the commit is still there
  obtain ⟨row, hrow, hid, -, rfl⟩ := row_of_get hd
  obtain ⟨m, hm, hrest⟩ := Lts.exec_append.mp h
  obtain ⟨m', hm', hlast⟩ := Lts.exec_append.mp hm
  obtain rfl : q = m' := Option.some.inj (hq.symm.trans hm')
  have hrun : Lts.exec (Sys.step node) q ([.worker id (.action actionId env)] ++ l :: post) = some s :=
    Lts.exec_append.mpr ⟨m, hlast, hrest⟩
  obtain ⟨row', hrow', heq, hsame, -⟩ := exec_grows (reaches_inv hq) hrun row hrow
  refine ⟨row', hrow', ?_, command, ?_, he⟩
  · rw [heq]
    exact hid
  · rw [hsame.kind, hsame.request]
    exact hcmd

/-- **Provenance.** In every run of the application, every row comes from a request whose key is that of
a configured credential with control authority; it has the name of that credential and the kind and
the request of its call, which `command_for` accepts. A request without such a key, or for a withdrawn
announcement, changes nothing and calls nothing. And what is written for an operation is `command_for`
of the kind and the request of its row. -/
theorem provenance {ls : List WebLabel} (h : WebReaches py node ls s) :
    (∀ row ∈ s.table, ∃ pre r env post s₀ s₁ p c, ls = pre ++ .http r env :: post ∧
      WebReaches py node pre s₀ ∧ Web.step py node s₀ (.http r env) = some s₁ ∧
      row.entry ∈ s₁.table.map Row.entry ∧ Origin py node s₀ r p c row.entry) ∧
    (∀ p r env s', s.life = .up p → Web.step py node s (.http r env) = some s' →
      (¬ ∃ name, Presents p.config r name) ∨ Withdraws r →
      s' = s ∧ Web.output s (.http r env) = [] ∧ Web.answer py s (.http r env) = [none]) ∧
    ∀ id actionId payload, .wrote id actionId payload ∈ webHistory py node ls →
      ∃ row ∈ s.table, row.id = id ∧ ∃ command,
        commandFor node row.document.kind.name (.dict row.document.request) = .ok command ∧
        AMISession.encode (Dispatch.controlFields command) actionId = .ok payload := by
  have hi := webReaches_inv h
  refine ⟨fun row hrow => exec_origins h _ (List.mem_map_of_mem hrow), ?_, ?_⟩
  · intro p r env s' hp hs hno
    have hrun := hi.life
    rw [hp] at hrun
    have hnone : call py p.config r = none := by
      rcases hno with hno | hw
      · refine Option.eq_none_iff_forall_ne_some.mpr fun c hc => hno ⟨c.credential, ?_⟩
        exact control_sound hrun.valid (call_cases hc).2.1
      · exact call_withdrawn hw
    refine ⟨?_, rfl, ?_⟩
    · obtain ⟨q, hq, -, ⟨-, rfl⟩ | ⟨c, hc, -⟩⟩ := step_http_cases hs
      · rfl
      · rw [hp] at hq
        cases hq
        rw [hnone] at hc
        cases hc
    · simp only [Web.answer, hp, hnone, Option.map_none]
  · intro id actionId payload hw
    obtain ⟨ls', hr, ht⟩ := web_refines h
    refine written_row hr ?_
    unfold history eventsFrom
    rw [ht]
    exact hw

/-- The identification is admitted through the legacy route, and its control action is written. -/
def identifyRun : List WebLabel :=
  [.sys (.start sampleConfig {}), .sys (.recover {}), .http sampleRequest { uuid := "a1" }] ++
    (writeRun.drop 3).map .sys

/-- The row of the run comes from its request, and what is written is its command. -/
theorem provenance_identify : ∃ s, WebReaches sampleSchema "546051" identifyRun s ∧
    (∃ row ∈ s.table, ∃ pre r env post s₀ p c, identifyRun = pre ++ .http r env :: post ∧
      Origin sampleSchema "546051" s₀ r p c row.entry) ∧
    ∃ row ∈ s.table, row.id = "a1" ∧ ∃ command,
      commandFor "546051" row.document.kind.name (.dict row.document.request) = .ok command ∧
      AMISession.encode (Dispatch.controlFields command) "c1" = .ok samplePayload := by
  have hrun : (Lts.exec (Web.step sampleSchema "546051") Sys.init identifyRun).map
      (fun s => s.table.length) = some 1 := by decide +kernel
  obtain ⟨s, hs, hlen⟩ := Option.map_eq_some_iff.mp hrun
  have hw : .wrote "a1" "c1" samplePayload ∈ webHistory sampleSchema "546051" identifyRun := by
    decide +kernel
  obtain ⟨row, hrow⟩ := List.exists_mem_of_length_pos (hlen ▸ Nat.one_pos)
  obtain ⟨horigin, -, hwrote⟩ := provenance hs
  obtain ⟨pre, r, env, post, s₀, -, p, c, hl, -, -, -, ho⟩ := horigin row hrow
  exact ⟨s, hs, ⟨row, hrow, pre, r, env, post, s₀, p, c, hl, ho⟩, hwrote "a1" "c1" _ hw⟩

end Asl3
