import Asl3Api.Command
import Asl3Api.NodeCache
import Asl3Api.Runs.FailStop
import Asl3Api.Stream.Generator
import Asl3Api.Vnext.Software

/-!
# The published capabilities (`vnext/api.py`, `capabilities`)

* `TrafficPolicy.characteristics`, `Platform.controlEnabled`, `Api.capabilities`: the document of
  `GET /v1/capabilities`;
* `commandFor_isSome_iff`, `announce_iff`: what `command_for` supports;
* `Contract`: what a client reads in the document;
* `disabled_stays`: control that was not enabled stays so in this process;
* **`capabilities_contract`**: in every run the document says what the runtime does.

The handler reads `control_enabled` before it waits for the version probe, and the rest afterwards, so
two states of the runtime are in one document.
-/

set_option autoImplicit false

namespace Asl3

open Py

/-! ## The document -/

/-- `list(texts)` -/
def textList (texts : List String) : PyValue := .list (texts.map .str)

namespace TrafficPolicy

/-- The keys of `_DEFAULTS`. -/
def kinds : List String := ["link_node", "announce", "unlink_node", "unlink_all"]

/-- The settings of a kind. -/
def states (cfg : Config) (kind : String) : Except Error PyValue := do
  let active ← setting cfg kind "active"
  let unknown ← setting cfg kind "unknown"
  return .dict [("active", active), ("unknown", unknown)]

/-- `TrafficPolicy.characteristics` -/
def characteristics (cfg : Config) : Except Error PyValue := do
  let values ← kinds.mapM (states cfg)
  return .dict (kinds.zip values)

end TrafficPolicy

/-- The dict of an entry. -/
def Software.Entry.dump (e : Software.Entry) : PyValue :=
  .dict [("version", NodeCache.orNone e.version), ("detected", .bool e.detected),
    ("source", .str e.source)]

/-- The dict of the evidence. -/
def Software.Evidence.dump (ev : Software.Evidence) : PyValue :=
  .dict [("method", .str ev.method), ("asterisk", ev.asterisk.dump), ("app_rpt", ev.appRpt.dump)]

/-- `control_enabled`. `owner` is `None` when it does not hold its lock. -/
def Platform.controlEnabled (p : Platform) : Bool := p.healthy && p.owner && !p.closing

namespace Api

/-- `operations`. -/
def supportedOperations : List String := ["link_node", "unlink_node", "unlink_all", "announce"]

/-- What `capabilities` returns, once the versions are read. -/
def capabilities (cfg : Config) (controlEnabled : Bool) (ev : Software.Evidence) :
    Except Error PyValue := do
  let policy ← TrafficPolicy.characteristics cfg
  return .dict
    [("node", .str cfg.nodeNumber),
      ("api_version", .str "1"),
      ("result_contract_version", .str "1.0"),
      ("backend", .str "app_rpt-native-ami"),
      ("backend_contract_version", .str "app_rpt-rptstatus/1"),
      ("backend_software_version", NodeCache.orNone ev.appRpt.version),
      ("backend_software_version_detected", .bool ev.appRpt.detected),
      ("backend_software", ev.dump),
      ("observation", .dict
        [("source", .str "RptStatus/XStat+SawStat"),
          ("fresh_per_request", .bool true),
          ("unknown_is_fail_closed_for_correctness", .bool true)]),
      ("features", .dict
        [("fresh_state", .bool true),
          ("directory", .bool true),
          ("operations", .bool true),
          ("sse_snapshots", .bool cfg.eventsEnabled),
          ("control_enabled", .bool controlEnabled),
          ("supported_operations", textList supportedOperations),
          ("announcements", textList supportedAnnouncements),
          ("dtmf", .bool false),
          ("macros", .bool false),
          ("idempotency", .bool true),
          ("single_control_owner", .bool true),
          ("automatic_control_replay", .bool false)]),
      ("idempotency", .dict
        [("header", .str "Idempotency-Key"),
          ("scope", .str "configured node and credential name"),
          ("retention", .str "indefinite in v1")]),
      ("traffic_policy", policy),
      ("events", .dict
        [("delivery", .str "periodic fresh snapshots"),
          ("authentication", .str "X-API-Key header"),
          ("replay", .bool false)])]

end Api

/-! ## What a client reads -/

/-- The value under a path of keys. -/
def valueAt : PyValue → List String → Option PyValue
  | v, [] => some v
  | .dict es, key :: keys => (es.lookup key).bind fun v => valueAt v keys
  | _, _ :: _ => none

/-- A text of the list under a path of keys. -/
def Contains (doc : PyValue) (keys : List String) (text : String) : Prop :=
  ∃ texts, valueAt doc keys = some (textList texts) ∧ text ∈ texts

/-- What the document says of a runtime that was `read` before the probe and is `p` after it. -/
structure Contract (read p : Platform) (doc : PyValue) : Prop where
  node : valueAt doc ["node"] = some (.str p.node)
  /-- Control was enabled when an admission would have found its ledger. -/
  control : valueAt doc ["features", "control_enabled"] = some (.bool true) ↔
    read.requireLedger = .ok ()
  /-- The operations are those that have commands. -/
  operations : ∀ kind, Contains doc ["features", "supported_operations"] kind ↔
    ∃ request text, commandFor p.node kind request = .ok text
  announcements : ∀ kind, Contains doc ["features", "announcements"] kind ↔
    ∃ text, commandFor p.node "announce" (.dict [("kind", .str kind)]) = .ok text
  /-- The policy decides over which traffic a control is eligible. -/
  policy : ∀ (kind : Kind) (state : NodeState),
    TrafficPolicy.enforce p.config kind.name state = .ok () ↔ state.trafficState = .clear ∨
      (state.trafficState = .active ∧
        valueAt doc ["traffic_policy", kind.name, "active"] = some (.str "allow")) ∨
      (state.trafficState = .unknown ∧
        valueAt doc ["traffic_policy", kind.name, "unknown"] = some (.str "allow"))
  /-- The installed app_rpt is the one of the evidence. -/
  version : valueAt doc ["backend_software_version"] =
      valueAt doc ["backend_software", "app_rpt", "version"] ∧
    (valueAt doc ["backend_software_version_detected"] = some (.bool true) ↔
      ∃ text, valueAt doc ["backend_software_version"] = some (.str text))

/-! ## Operations and announcements -/

section

variable {node kind : String}

theorem mem_supportedOperations_of_ok {request : PyValue} {text : String}
    (h : commandFor node kind request = .ok text) : kind ∈ Api.supportedOperations := by
  by_contra hk
  simp only [Api.supportedOperations, List.mem_cons, List.not_mem_nil, or_false, not_or] at hk
  obtain ⟨hlink, hunlink, hall, hann⟩ := hk
  unfold commandFor at h
  cases hv : validateNode (.str node) with
  | error e =>
    rw [hv] at h
    cases h
  | ok n => simp [hv, hlink, hunlink, hall, hann] at h

/-- **The supported operations** are the kinds that have a command. -/
theorem commandFor_isSome_iff (hn : isNode node = true) :
    kind ∈ Api.supportedOperations ↔ ∃ request text, commandFor node kind request = .ok text := by
  constructor
  · intro h
    obtain ⟨target, -⟩ := exists_target hn
    have hc : ∃ c : Command, c.kind = kind := by
      simp only [Api.supportedOperations, List.mem_cons, List.not_mem_nil, or_false] at h
      rcases h with rfl | rfl | rfl | rfl
      · exact ⟨.link .transceive target, rfl⟩
      · exact ⟨.unlink target, rfl⟩
      · exact ⟨.unlinkAll, rfl⟩
      · exact ⟨.announce .identify, rfl⟩
    obtain ⟨c, rfl⟩ := hc
    exact ⟨_, _, commandFor_request hn c⟩
  · rintro ⟨request, text, h⟩
    exact mem_supportedOperations_of_ok h

/-- **The supported announcements** are those that have a command. -/
theorem announce_iff (hn : isNode node = true) : kind ∈ supportedAnnouncements ↔
    ∃ text, commandFor node "announce" (.dict [("kind", .str kind)]) = .ok text := by
  constructor
  · intro h
    obtain ⟨a, rfl⟩ := Announcement.exists_name h
    exact ⟨_, commandFor_request hn (.announce a)⟩
  · rintro ⟨text, h⟩
    by_contra hk
    unfold commandFor at h
    cases hv : validateNode (.str node) with
    | error e =>
      rw [hv] at h
      cases h
    | ok n => simp [hv, hk] at h

end

/-! ## The policy -/

section

variable {cfg : Config}

theorem isAllow_iff {v : PyValue} : TrafficPolicy.isAllow v = true ↔ v = .str "allow" := by
  cases v <;> simp [TrafficPolicy.isAllow]

/-- The settings of all kinds. -/
def policyValue (cfg : Config) (kind : String) (active unknown : String) : PyValue :=
  .dict [("active", cfg.get (Config.policyKey kind "active") (.str active)),
    ("unknown", cfg.get (Config.policyKey kind "unknown") (.str unknown))]

theorem characteristics_eq : TrafficPolicy.characteristics cfg =
    .ok (.dict [("link_node", policyValue cfg "link_node" "deny" "deny"),
      ("announce", policyValue cfg "announce" "deny" "deny"),
      ("unlink_node", policyValue cfg "unlink_node" "allow" "allow"),
      ("unlink_all", policyValue cfg "unlink_all" "allow" "allow")]) := rfl

variable {controlEnabled : Bool} {ev : Software.Evidence} {doc : PyValue}

/-- The document shows the settings that `enforce` looks up. -/
theorem valueAt_policy (h : Api.capabilities cfg controlEnabled ev = .ok doc) (kind : Kind)
    {state : String} (hs : state = "active" ∨ state = "unknown") :
    ∃ v, TrafficPolicy.setting cfg kind.name state = .ok v ∧
      valueAt doc ["traffic_policy", kind.name, state] = some v := by
  unfold Api.capabilities at h
  rw [characteristics_eq] at h
  cases h
  rcases hs with rfl | rfl <;> cases kind <;> exact ⟨_, rfl, rfl⟩

theorem allows_iff (h : Api.capabilities cfg controlEnabled ev = .ok doc) (kind : Kind) {state : String}
    (hs : state = "active" ∨ state = "unknown") : TrafficPolicy.Allows cfg kind state ↔
      valueAt doc ["traffic_policy", kind.name, state] = some (.str "allow") := by
  obtain ⟨v, hset, hat⟩ := valueAt_policy h kind hs
  rw [hat, TrafficPolicy.Allows, hset, Option.some.injEq, ← isAllow_iff]
  constructor
  · rintro ⟨_, ⟨⟩, hv⟩
    exact hv
  · exact fun hv => ⟨v, rfl, hv⟩

end

/-! ## The entries of the document -/

section

variable {cfg : Config} {controlEnabled : Bool} {ev : Software.Evidence} {doc : PyValue}

/-- The entries that a client looks up. -/
structure Shown (cfg : Config) (controlEnabled : Bool) (ev : Software.Evidence) (doc : PyValue) :
    Prop where
  node : valueAt doc ["node"] = some (.str cfg.nodeNumber)
  control : valueAt doc ["features", "control_enabled"] = some (.bool controlEnabled)
  operations : valueAt doc ["features", "supported_operations"] =
    some (textList Api.supportedOperations)
  announcements : valueAt doc ["features", "announcements"] =
    some (textList supportedAnnouncements)
  version : valueAt doc ["backend_software_version"] = some (NodeCache.orNone ev.appRpt.version)
  mirrored : valueAt doc ["backend_software", "app_rpt", "version"] =
    some (NodeCache.orNone ev.appRpt.version)
  detected : valueAt doc ["backend_software_version_detected"] = some (.bool ev.appRpt.detected)

theorem shown (h : Api.capabilities cfg controlEnabled ev = .ok doc) :
    Shown cfg controlEnabled ev doc := by
  unfold Api.capabilities at h
  rw [characteristics_eq] at h
  cases h
  exact ⟨rfl, rfl, rfl, rfl, rfl, rfl, rfl⟩

theorem textList_injective : Function.Injective textList := by
  intro xs ys h
  exact (List.map_injective_iff.mpr fun _ _ h => PyValue.str.inj h) (PyValue.list.inj h)

theorem contains_textList {keys texts : List String} {text : String}
    (h : valueAt doc keys = some (textList texts)) : Contains doc keys text ↔ text ∈ texts := by
  rw [Contains, h]
  constructor
  · rintro ⟨ts, hts, hm⟩
    rwa [textList_injective (Option.some.inj hts)]
  · exact fun hm => ⟨texts, rfl, hm⟩

/-- A version is detected when there is one. -/
theorem detected_of_evidence {peer : Peer} {turns : List AMISession.Turn}
    (h : Platform.softwareEvidence cfg peer = (.ok ev, turns)) :
    ev.appRpt.detected = ev.appRpt.version.isSome := by
  unfold Platform.softwareEvidence at h
  split at h
  · cases h
    rfl
  · split_ifs at h
    · cases h
      rfl
    · cases h

end

/-! ## Control -/

section

variable {node : String} {ls ls' : List Label} {s s' : Sys} {p : Platform}

/-- A started runtime that is not closing has its ledger and its lock. -/
theorem controlEnabled_iff (h : Reaches node ls s) (hp : s.life = .up p) :
    p.controlEnabled = true ↔ p.requireLedger = .ok () := by
  have hrun := (reaches_inv h).life
  rw [hp] at hrun
  rw [requireLedger_eq_ok, Platform.controlEnabled]
  simp only [Bool.and_eq_true, Bool.not_eq_true']
  constructor
  · rintro ⟨⟨hhealthy, howner⟩, hclosing⟩
    exact ⟨(hrun.opened (Or.inl hclosing)).2, howner, hclosing, hhealthy⟩
  · rintro ⟨-, howner, hclosing, hhealthy⟩
    exact ⟨⟨hhealthy, howner⟩, hclosing⟩

theorem stopped_of_disabled (h : Reaches node ls s) (hp : s.life = .up p)
    (hc : p.controlEnabled = false) : p.stopped := by
  have hrun := (reaches_inv h).life
  rw [hp] at hrun
  by_contra hstop
  rw [Platform.stopped, not_or, Bool.not_eq_false, Bool.not_eq_true] at hstop
  rw [Platform.controlEnabled, hstop.1, hstop.2, (hrun.opened (Or.inl hstop.2)).1] at hc
  cases hc

/-- **Control that is not enabled stays so in this process.** -/
theorem disabled_stays (h : Reaches node ls s) (hp : s.life = .up p) (hc : p.controlEnabled = false)
    (hls : ∀ l ∈ ls', l.sameProcess = true) (hr : Lts.exec (Sys.step node) s ls' = some s') :
    ∃ p' e, s'.life = .up p' ∧ e.status = 503 ∧ ∀ kind request credential key env,
      p'.admitOperation s'.table kind request credential key env =
        (.error (.problem e), p', s'.table) := by
  have hinv := reaches_inv h
  have hstop : ∃ p', s'.life = .up p' ∧ p'.stopped := by
    revert hls
    refine Lts.exec_induction (fun ls' s' => (∀ l ∈ ls', l.sameProcess = true) →
      ∃ p', s'.life = .up p' ∧ p'.stopped) ?_ ?_ hr
    · exact fun _ => ⟨p, hp, stopped_of_disabled h hp hc⟩
    · intro ls₁ m l m' hm ih hs hls
      obtain ⟨q, hq, hqs⟩ := ih fun x hx => hls x (List.mem_append_left _ hx)
      have hi := exec_inv hinv hm
      obtain ⟨q', hq', hhealthy, hclosing, -⟩ :=
        (hi.does hs).stopped hi (hls l (List.mem_append_right _ (List.mem_singleton_self l))) hq hqs
      exact ⟨q', hq', hqs.imp hhealthy hclosing⟩
  obtain ⟨p', hp', hs'⟩ := hstop
  have hstatus : (if p'.ledger = false ∨ p'.owner = false ∨ p'.closing then
      Platform.controlUnavailable else Platform.ledgerUnavailable).status = 503 := by
    split_ifs <;> rfl
  refine ⟨p', _, hp', hstatus, fun kind request credential key env => ?_⟩
  unfold Platform.admitOperation
  rw [requireLedger_stopped hs']

/-- **The contract of the capabilities.** In every run, and whatever happens while the handler waits for
the probe, the document says what the runtime does: control is enabled exactly when an admission would
have found its ledger when the handler began, and if it was not, every later admission of the process
ends in a 503; the operations and the announcements are those that have commands; the settings are those
that decide over which traffic a control is eligible; the installed version is that of the evidence. -/
theorem capabilities_contract {between : List Label} {s₁ : Sys} {p₁ : Platform}
    (h : Reaches node ls s) (hp : s.life = .up p)
    (hb : Lts.exec (Sys.step node) s between = some s₁) (hp₁ : s₁.life = .up p₁) {peer : Peer}
    {ev : Software.Evidence} {turns : List AMISession.Turn}
    (hev : Platform.softwareEvidence p.config peer = (.ok ev, turns)) :
    ∃ doc, Api.capabilities p₁.config p.controlEnabled ev = .ok doc ∧ Contract p p₁ doc ∧
      (valueAt doc ["features", "control_enabled"] = some (.bool false) → ∀ ls' s',
        (∀ l ∈ ls', l.sameProcess = true) → Lts.exec (Sys.step node) s ls' = some s' →
        ∃ p' e, s'.life = .up p' ∧ e.status = 503 ∧ ∀ kind request credential key env,
          p'.admitOperation s'.table kind request credential key env =
            (.error (.problem e), p', s'.table)) := by
  have hdoc : ∃ doc, Api.capabilities p₁.config p.controlEnabled ev = .ok doc := by
    unfold Api.capabilities
    rw [characteristics_eq]
    exact ⟨_, rfl⟩
  obtain ⟨doc, hdoc⟩ := hdoc
  have hrun := (exec_inv (reaches_inv h) hb).life
  rw [hp₁] at hrun
  have hn : isNode p₁.node = true := hrun.valid.isNode
  have hflag := (shown hdoc).control
  refine ⟨doc, hdoc, ?_, fun hfalse ls' s' hls hr => ?_⟩
  · constructor
    case node => exact (shown hdoc).node
    case control =>
      rw [hflag, ← controlEnabled_iff h hp]
      simp
    case operations =>
      intro kind
      rw [← commandFor_isSome_iff hn, contains_textList (shown hdoc).operations]
    case announcements =>
      intro kind
      rw [← announce_iff hn, contains_textList (shown hdoc).announcements]
    case policy =>
      intro kind state
      rw [TrafficPolicy.enforce_eq_ok, TrafficPolicy.Eligible, allows_iff hdoc kind (Or.inl rfl),
        allows_iff hdoc kind (Or.inr rfl)]
    case version =>
      rw [(shown hdoc).version, (shown hdoc).mirrored, (shown hdoc).detected,
        detected_of_evidence hev]
      refine ⟨rfl, ?_⟩
      cases ev.appRpt.version <;> simp [NodeCache.orNone]
  · rw [hflag] at hfalse
    exact disabled_stays h hp (by simpa using hfalse) hls hr

/-- A node that does not answer. -/
def unreachablePeer : Peer :=
  { connect := .error (.error (.py .osError)), banner := .ok "", epoch := "", actionId := fun _ => "",
    drain := fun _ => .ok (), frames := fun _ => .ok [], closed := .ok () }

/-- The runtime closes while the handler waits for a node that does not answer: the document still
says that control is enabled. -/
theorem capabilities_contract_closing :
    ∃ s p s₁ p₁ doc, Reaches "546051" (admitRun ++ [.worker "a1" (.run {})]) s ∧ s.life = .up p ∧
      Lts.exec (Sys.step "546051") s [.close] = some s₁ ∧ s₁.life = .up p₁ ∧ p₁.closing = true ∧
      Api.capabilities p₁.config p.controlEnabled Software.undetected = .ok doc ∧ Contract p p₁ doc ∧
      valueAt doc ["features", "control_enabled"] = some (.bool true) := by
  obtain ⟨s, s₁, hs, hb, hf, hg⟩ := exists_reaches_append "546051"
    (admitRun ++ [.worker "a1" (.run {})]) [.close]
    (fun s => s.upWith Platform.controlEnabled) (fun s => s.upWith Platform.closing) true true
    (by decide +kernel) (by decide +kernel)
  obtain ⟨p, hp, he⟩ := Sys.exists_up hf
  obtain ⟨p₁, hp₁, hc⟩ := Sys.exists_up hg
  have hev : Platform.softwareEvidence p.config unreachablePeer = (.ok Software.undetected, []) := rfl
  obtain ⟨doc, hdoc, hcontract, -⟩ := capabilities_contract hs hp hb hp₁ hev
  exact ⟨s, p, s₁, p₁, doc, hs, hp, hb, hp₁, hc, hdoc, hcontract,
    hcontract.control.mpr ((controlEnabled_iff hs hp).mp he)⟩

end

end Asl3
