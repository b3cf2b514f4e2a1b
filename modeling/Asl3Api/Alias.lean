import Asl3Api.AslAgent

/-!
# The legacy aliases

* `Alias`: a legacy request and the v1 request for the same operation;
* `endpoint_links`: the route of `DELETE /v1/links/{node}`, for every text in the place of the node;
* **`Alias.call_eq`**: the two requests come to the same call, or both to none.
-/

set_option autoImplicit false

namespace Asl3

open Py

/-- The same client, headers and limiter on another route. -/
def HttpRequest.on (r : HttpRequest) (method path : String) (body : HttpBody) : HttpRequest :=
  { r with method, path, body }

/-- The legacy routes of announcements, with the kind they stand for. -/
def copRoutes : List (String × String) :=
  [("/cop/identify", "identify"), ("/cop/time", "time"), ("/cop/status", "status"),
    ("/cop/version", "version")]

/-- A legacy request and a v1 request for the same operation. -/
inductive Alias (py : Schema) : HttpRequest → HttpRequest → Prop
  /-- The same node, or none, and values that stand for the same mode, or for none; the legacy body may
  have other fields. -/
  | link (r : HttpRequest) {es es' : List (String × PyValue)} (hn : es.lookup "node" = es'.lookup "node")
      (hm : Agent.monitorOnly py (es.lookup "monitor_only") = modeField (es'.lookup "mode"))
      (hx : (es'.all fun e => e.1 = "node" || e.1 = "mode") = true) :
      Alias py (r.on "POST" "/connect" (.value (.dict es))) (r.on "POST" "/v1/links" (.value (.dict es')))
  /-- A body that is no object. -/
  | unreadable (r : HttpRequest) {body : HttpBody} (hb : ∀ es, body ≠ .value (.dict es)) :
      Alias py (r.on "POST" "/connect" body) (r.on "POST" "/v1/links" body)
  /-- The node in the body and in the path. -/
  | unlink (r : HttpRequest) {es : List (String × PyValue)} {node : String} {body : HttpBody}
      (hn : es.lookup "node" = some (.str node)) :
      Alias py (r.on "POST" "/disconnect" (.value (.dict es)))
        (r.on "DELETE" ("/v1/links/" ++ node) body)
  | unlinkAll (r : HttpRequest) {body body' : HttpBody} :
      Alias py (r.on "POST" "/disconnect-all" body) (r.on "DELETE" "/v1/links" body')
  | announce (r : HttpRequest) {path kind : String} {body : HttpBody}
      (hk : (path, kind) ∈ copRoutes) :
      Alias py (r.on "POST" path body)
        (r.on "POST" "/v1/announcements" (.value (.dict [("kind", .str kind)])))

/-! ## The route of a node -/

theorem pathParameter_append (base node : String) : pathParameter base (base ++ node) =
    if node.toList ≠ [] ∧ '/' ∉ node.toList then some node else none := by
  unfold pathParameter
  rw [String.toList_append, List.dropPrefix?_append_of_beq _ (beq_self_eq_true _)]
  simp

/-- A path under a base that no plain route has matches none of these. -/
theorem plainRoutes_append {base rest : String}
    (hno : ∀ x ∈ plainRoutes, (x.1 ++ "\n").toList.dropPrefix? base.toList = none) :
    plainRoutes.filterMap (fun x => if onRoute x.1 (base ++ rest) then some x.2 else none) = [] := by
  rw [List.filterMap_eq_nil_iff]
  intro x hx
  refine if_neg fun he => ?_
  have hprefix : ∃ t, (x.1 ++ "\n").toList = base.toList ++ t := by
    rcases onRoute_iff.mp he with he | he
    · rw [← he, String.toList_append, String.toList_append, List.append_assoc]
      exact ⟨_, rfl⟩
    · rw [← he, String.toList_append]
      exact ⟨_, rfl⟩
  obtain ⟨t, ht⟩ := hprefix
  have h := hno x hx
  rw [ht, List.dropPrefix?_append_of_beq _ (beq_self_eq_true _)] at h
  cases h

/-- No other route matches a path under `/v1/links/`. -/
theorem matching_links (node : String) : matching ("/v1/links/" ++ node) =
    if node.toList ≠ [] ∧ '/' ∉ node.toList then [("DELETE", .unlink node)] else [] := by
  have hdirectory : pathParameter "/v1/directory/" ("/v1/links/" ++ node) = none := by
    unfold pathParameter
    rw [String.toList_append]
    rfl
  have hoperations : pathParameter "/v1/operations/" ("/v1/links/" ++ node) = none := by
    unfold pathParameter
    rw [String.toList_append]
    rfl
  have hlookup : pathParameter "/lookup/" ("/v1/links/" ++ node) = none := by
    unfold pathParameter
    rw [String.toList_append]
    rfl
  unfold matching
  rw [plainRoutes_append (by decide +kernel), List.nil_append]
  simp only [nodeRoutes, List.filterMap_cons, hdirectory, hoperations, hlookup, pathParameter_append,
    Option.map_none, List.filterMap_nil]
  split_ifs <;> rfl

/-- **The route of a node**: a text that is one segment of a path comes to `unlink`, and any other one
to no route. -/
theorem endpoint_links (node : String) {e : Endpoint} :
    endpoint "DELETE" ("/v1/links/" ++ node) = .ok e ↔
      (node.toList ≠ [] ∧ '/' ∉ node.toList) ∧ e = .unlink node := by
  unfold endpoint
  rw [matching_links]
  by_cases h : node.toList ≠ [] ∧ '/' ∉ node.toList
  · rw [if_pos h]
    constructor
    · intro he
      exact ⟨h, (Except.ok.inj he).symm⟩
    · rintro ⟨-, rfl⟩
      rfl
  · rw [if_neg h]
    exact ⟨nofun, fun he => absurd he.1 h⟩

/-- A canonical node is one segment of a path. -/
theorem segment_of_isNode {node : String} (h : isNode node = true) :
    node.toList ≠ [] ∧ '/' ∉ node.toList := by
  have hn := Numeric.of_isNode h
  refine ⟨fun hnil => hn.nonempty (String.toList_eq_nil_iff.mp hnil), fun hs => ?_⟩
  have := hn.digits '/' hs
  revert this
  decide

/-! ## The calls of the routes -/

variable {py : Schema} {cfg : Config} {r : HttpRequest} {c : Call}

/-- What a request asks for does not depend on its route. -/
theorem asked_on {method path kind : String} {body : HttpBody} {request : Option PyValue} :
    Asked cfg (r.on method path body) kind request c ↔ Asked cfg r kind request c :=
  ⟨fun h => ⟨h.control, h.request, h.kind, h.key, h.header, h.limited⟩,
    fun h => ⟨h.control, h.request, h.kind, h.key, h.header, h.limited⟩⟩

theorem call_of_endpoint {e : Endpoint} (he : endpoint r.method r.path = .ok e) :
    call py cfg r = some c ↔ e.handle py cfg r = .ok (some c) := by
  rw [call_eq_some, he]
  constructor
  · rintro ⟨e', h, hc⟩
    cases h
    exact hc
  · intro hc
    exact ⟨e, rfl, hc⟩

/-- The dependency of a legacy route adds nothing to what is asked. -/
theorem operation_post {α : Type} {path kind : String} {body : HttpBody} {a : Option α}
    {f : α → PyValue} :
    Agent.route cfg (r.on "POST" path body) a
        (fun x => Agent.legacyOperation cfg (r.on "POST" path body) kind (f x)) = .ok c ↔
      Asked cfg r kind (a.map f) c := by
  rw [operation_eq_ok, asked_on]
  refine and_iff_right_of_imp fun h => ?_
  exact @verifyApiKey_of_control cfg (r.on "POST" path body) _ rfl h.control

theorem call_link {body : HttpBody} :
    call py cfg (r.on "POST" "/v1/links" body) = some c ↔
      ∃ v, body = .value v ∧ Asked cfg r "link_node" ((linkBody v).map LinkRequest.dump) c := by
  rw [call_of_endpoint (e := .link) rfl]
  dsimp only [Endpoint.handle, Api.link]
  rw [map_some_eq_ok, decoded_eq_ok]
  simp only [accepted_eq_ok, asked_on]
  rfl

theorem call_connectNode {body : HttpBody} :
    call py cfg (r.on "POST" "/connect" body) = some c ↔
      ∃ v, body = .value v ∧
        Asked cfg r "link_node" ((Agent.connectBody py v).map LinkRequest.dump) c := by
  rw [call_of_endpoint (e := .connectNode) rfl]
  dsimp only [Endpoint.handle, Agent.connectNode]
  rw [map_some_eq_ok, decoded_eq_ok]
  simp only [operation_post]
  rfl

theorem call_unlink {node : String} {body : HttpBody} :
    call py cfg (r.on "DELETE" ("/v1/links/" ++ node) body) = some c ↔ isNode node = true ∧
      Asked cfg r "unlink_node" (some (.dict [("node", .str node)])) c := by
  rw [call_eq_some]
  constructor
  · rintro ⟨e, he, h⟩
    obtain ⟨-, rfl⟩ := (endpoint_links node).mp he
    have ha := asked_on.mp (accepted_eq_ok.mp (map_some_eq_ok.mp h))
    rw [nodeField_eq] at ha
    by_cases hn : isNode node = true
    · rw [if_pos hn] at ha
      exact ⟨hn, ha⟩
    · rw [if_neg hn] at ha
      cases ha.request
  · rintro ⟨hn, ha⟩
    refine ⟨.unlink node, (endpoint_links node).mpr ⟨segment_of_isNode hn, rfl⟩, ?_⟩
    refine map_some_eq_ok.mpr (accepted_eq_ok.mpr (asked_on.mpr ?_))
    rw [nodeField_eq, if_pos hn]
    exact ha

theorem call_disconnectNode {es : List (String × PyValue)} {node : String}
    (hn : es.lookup "node" = some (.str node)) :
    call py cfg (r.on "POST" "/disconnect" (.value (.dict es))) = some c ↔ isNode node = true ∧
      Asked cfg r "unlink_node" (some (.dict [("node", .str node)])) c := by
  have hbody : Agent.disconnectBody (.dict es) = if isNode node then some node else none := by
    unfold Agent.disconnectBody
    simp only [hn, nodeMustBeNumeric_eq]
  rw [call_of_endpoint (e := .disconnectNode) rfl]
  dsimp only [Endpoint.handle, Agent.disconnectNode, HttpRequest.on, Api.decoded]
  rw [map_some_eq_ok]
  refine (operation_post (a := Agent.disconnectBody (.dict es))).trans ?_
  rw [hbody]
  by_cases h : isNode node = true
  · rw [if_pos h]
    exact (and_iff_right h).symm
  · rw [if_neg h]
    exact iff_of_false (fun ha => nomatch ha.request) fun ha => h ha.1

theorem call_unlinkAll {body : HttpBody} :
    call py cfg (r.on "DELETE" "/v1/links" body) = some c ↔
      Asked cfg r "unlink_all" (some (.dict [])) c := by
  rw [call_of_endpoint (e := .unlinkAll) rfl]
  dsimp only [Endpoint.handle, Api.unlinkAll]
  rw [map_some_eq_ok, accepted_eq_ok, asked_on]

theorem call_disconnectAll {body : HttpBody} :
    call py cfg (r.on "POST" "/disconnect-all" body) = some c ↔
      Asked cfg r "unlink_all" (some (.dict [])) c := by
  rw [call_of_endpoint (e := .disconnectAll) rfl]
  dsimp only [Endpoint.handle, Agent.disconnectAll]
  rw [map_some_eq_ok]
  exact operation_post (a := some ())

theorem call_announce {kind : String} :
    call py cfg (r.on "POST" "/v1/announcements" (.value (.dict [("kind", .str kind)]))) = some c ↔
      kind ∈ supportedAnnouncements ∧
        Asked cfg r "announce" (some (.dict [("kind", .str kind)])) c := by
  have hbody : announcementBody (.dict [("kind", .str kind)]) =
      if kind ∈ supportedAnnouncements then some kind else none := rfl
  rw [call_of_endpoint (e := .announce) rfl]
  dsimp only [Endpoint.handle, Api.announce, HttpRequest.on, Api.decoded]
  rw [map_some_eq_ok, hbody]
  refine accepted_eq_ok.trans (asked_on.trans ?_)
  by_cases h : kind ∈ supportedAnnouncements
  · rw [if_pos h]
    exact (and_iff_right h).symm
  · rw [if_neg h]
    exact iff_of_false (fun ha => nomatch ha.request) fun ha => h ha.1

/-- The route of a supported announcement. -/
theorem copAnnounce_post {path kind : String} {body : HttpBody} :
    Agent.copAnnounce cfg (r.on "POST" path body) kind = .ok c ↔
      Asked cfg r "announce" (some (.dict [("kind", .str kind)])) c :=
  operation_post (a := some ())

theorem call_cop {path kind : String} {body : HttpBody} (hk : (path, kind) ∈ copRoutes) :
    call py cfg (r.on "POST" path body) = some c ↔ kind ∈ supportedAnnouncements ∧
      Asked cfg r "announce" (some (.dict [("kind", .str kind)])) c := by
  simp only [copRoutes, List.mem_cons, Prod.mk.injEq, List.not_mem_nil, or_false] at hk
  obtain ⟨rfl, rfl⟩ | ⟨rfl, rfl⟩ | ⟨rfl, rfl⟩ | ⟨rfl, rfl⟩ := hk
  · rw [call_of_endpoint (e := .copIdentify) rfl]
    exact (map_some_eq_ok.trans copAnnounce_post).trans (and_iff_right (by decide)).symm
  · rw [call_of_endpoint (e := .copTime) rfl]
    exact iff_of_false (fun h => copWithdrawn_ne_ok (map_some_eq_ok.mp h)) fun h =>
      absurd h.1 (by decide)
  · rw [call_of_endpoint (e := .copStatus) rfl]
    exact (map_some_eq_ok.trans copAnnounce_post).trans (and_iff_right (by decide)).symm
  · rw [call_of_endpoint (e := .copVersion) rfl]
    exact iff_of_false (fun h => copWithdrawn_ne_ok (map_some_eq_ok.mp h)) fun h =>
      absurd h.1 (by decide)

/-- The two bodies of a link say the same. -/
theorem connectBody_eq {es es' : List (String × PyValue)} (hn : es.lookup "node" = es'.lookup "node")
    (hm : Agent.monitorOnly py (es.lookup "monitor_only") = modeField (es'.lookup "mode"))
    (hx : (es'.all fun e => e.1 = "node" || e.1 = "mode") = true) :
    Agent.connectBody py (.dict es) = linkBody (.dict es') := by
  unfold Agent.connectBody linkBody
  dsimp only
  rw [if_pos hx, hn, hm]
  generalize es'.lookup "node" = node
  generalize modeField (es'.lookup "mode") = mode
  cases node with
  | none => rfl
  | some v =>
    cases v with
    | str n => cases mode <;> simp only [nodeMustBeNumeric_eq, nodeField_eq]
    | _ => rfl

/-- **A legacy request and its alias** come to the same call, or both to none. -/
theorem Alias.call_eq {r' : HttpRequest} (h : Alias py r r') : call py cfg r = call py cfg r' := by
  refine Option.ext fun c => ?_
  cases h with
  | link r hn hm hx =>
    refine call_connectNode.trans (Iff.trans ?_ call_link.symm)
    constructor
    · rintro ⟨v, hv, ha⟩
      cases hv
      rw [connectBody_eq hn hm hx] at ha
      exact ⟨_, rfl, ha⟩
    · rintro ⟨v, hv, ha⟩
      cases hv
      rw [← connectBody_eq hn hm hx] at ha
      exact ⟨_, rfl, ha⟩
  | @unreadable r body hb =>
    refine call_connectNode.trans (Iff.trans ?_ call_link.symm)
    refine exists_congr fun v => and_congr_right fun hv => ?_
    subst hv
    have hl : Agent.connectBody py v = linkBody v := by
      cases v with
      | dict es => exact absurd rfl (hb es)
      | _ => rfl
    rw [hl]
  | unlink r hn => exact (call_disconnectNode hn).trans call_unlink.symm
  | unlinkAll r => exact call_disconnectAll.trans call_unlinkAll.symm
  | announce r hk => exact (call_cop hk).trans call_announce.symm

end Asl3
