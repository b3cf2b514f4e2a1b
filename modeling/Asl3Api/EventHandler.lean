import Asl3Api.Listener

/-!
# Webhook notifications (`event_handler.py`)

* `getConnectedNodes`: the direct links, or an exception;
* `EventHandler.sendWebhook`: the POST of a notification, if there is one;
* `EventHandler.checkNodeChanges`: the POSTs of one poll, and what is known after it;
* `sendWebhook_eq`: every delivery is attempted where webhooks are in use, and none raises;
* `checkNodeChanges_failed`, `checkNodeChanges_ok`: a poll that failed, and one that did not;
* `kinds_changes`: the notifications of a name in one more poll;
* **`notifications_alternate`**: the notifications of all polls.
-/

set_option autoImplicit false

namespace Asl3

open Py

namespace Config

def webhooksEnabled (cfg : Config) : Bool := (cfg.get "webhooks.enabled" (.bool false)).truthy

def webhookUrl (cfg : Config) : PyValue := cfg.get "webhooks.url" (.str "")

end Config

/-- The text of a mode. -/
def LinkMode.name : LinkMode → String
  | .T => "T"
  | .R => "R"
  | .L => "L"
  | .C => "C"
  | .unknown => "UNKNOWN"

/-- `AMIClient.get_connected_nodes`, from what `snapshot()` returns or raises. -/
def getConnectedNodes (snapshot : Except Error NodeState) : Except Error (List DirectLink) := do
  let state ← snapshot
  if state.complete = false then
    throw (.py (.runtimeError "STATE_UNKNOWN: direct adjacency evidence is incomplete"))
  match state.directLinks with
  | some links => return links
  | none => throw (.py (.typeError "'NoneType' object is not iterable"))

namespace EventHandler

/-! ## Notifications -/

/-- The arguments of a call of `_send_webhook`. -/
inductive Notice where
  | connect (node mode : String)
  | disconnect (node : String)
  deriving DecidableEq, Repr

/-- `event_type`. -/
def Notice.eventType : Notice → String
  | .connect _ _ => "node_connected"
  | .disconnect _ => "node_disconnected"

/-- `data`. -/
def Notice.data : Notice → List (String × String)
  | .connect node mode => [("connected_node", node), ("mode", mode)]
  | .disconnect node => [("disconnected_node", node)]

/-- The payload of a POST. -/
structure Payload where
  eventType : String
  timestamp : String
  node : String
  callsign : PyValue
  data : List (String × String)

/-- An attempt to deliver a notification. -/
structure Post where
  url : PyValue
  payload : Payload

/-- The name a notification is about. -/
def Post.subject (post : Post) : Option String :=
  (post.payload.data.lookup "connected_node").or (post.payload.data.lookup "disconnected_node")

/-- A notification of a connection. -/
def Post.isConnect (post : Post) : Bool := post.payload.eventType = "node_connected"

/-- What the environment decides in one poll. -/
structure Poll where
  /-- What `snapshot()` returns or raises. -/
  snapshot : Except Error NodeState
  order : SetOrder
  now : String
  /-- The status of a POST, or what it raises. -/
  post : Post → Except Error ℕ

/-- The handler: whether it has a session, and `_known_nodes`. Nothing sets its `event_listener`. -/
structure Handler where
  session : Bool
  knownNodes : Finset String := ∅

/-- The POST of a notification. -/
def postOf (cfg : Config) (p : Poll) (notice : Notice) : Post :=
  ⟨cfg.webhookUrl, ⟨notice.eventType, p.now, cfg.nodeNumber, cfg.nodeCallsign, notice.data⟩⟩

/-- `_send_webhook`: the POST it attempts, and how it ends. Both of its `except` clauses log, as it does
for the status. -/
def sendWebhook (cfg : Config) (session : Bool) (p : Poll) (notice : Notice) :
    List Post × Except Error Unit :=
  if cfg.webhooksEnabled = false ∨ session = false then ([], return ())
  else
    ([postOf cfg p notice], tryCatch (do
      let _status ← p.post (postOf cfg p notice)
      return ()) fun _ => return ())

/-- The callbacks, one after the other: their POSTs, and whether the last one raised. -/
def callbacks (send : Notice → List Post × Except Error Unit) :
    List Notice → List Post × Except Error Unit
  | [] => ([], .ok ())
  | notice :: rest =>
    match send notice with
    | (posts, .error e) => (posts, .error e)
    | (posts, .ok ()) => (posts ++ (callbacks send rest).1, (callbacks send rest).2)

/-- The mode of the first link with the name. -/
def modeOf (nodes : List DirectLink) (node : String) : String :=
  ((nodes.find? fun n => n.node = node).map fun n => n.mode.name).getD ""

/-- The names of the links of a poll. -/
def currentSet (nodes : List DirectLink) : Finset String := (nodes.map DirectLink.node).toFinset

/-- The callbacks of a poll, in order. -/
def changes (h : Handler) (p : Poll) (nodes : List DirectLink) : List Notice :=
  ((p.order.list (currentSet nodes \ h.knownNodes)).map fun node => .connect node (modeOf nodes node)) ++
    (p.order.list (h.knownNodes \ currentSet nodes)).map .disconnect

/-- `_check_node_changes`: the POSTs, and the handler after it. -/
def checkNodeChanges (cfg : Config) (h : Handler) (p : Poll) : List Post × Handler :=
  match getConnectedNodes p.snapshot with
  | .error _ => ([], h)
  | .ok nodes =>
    match callbacks (sendWebhook cfg h.session p) (changes h p nodes) with
    | (posts, .ok ()) => (posts, { h with knownNodes := currentSet nodes })
    | (posts, .error _) => (posts, h)

/-- The POSTs of some polls, in order, and the handler after them. -/
def run (cfg : Config) (session : Bool) (ps : List Poll) : List Post × Handler :=
  ps.foldl (fun r p => (r.1 ++ (checkNodeChanges cfg r.2 p).1, (checkNodeChanges cfg r.2 p).2))
    ([], { session })

/-! ## One poll -/

/-- The POSTs of some notifications, where webhooks are in use. -/
def posted (cfg : Config) (session : Bool) (p : Poll) (notices : List Notice) : List Post :=
  if cfg.webhooksEnabled = true ∧ session = true then notices.map (postOf cfg p) else []

/-- A delivery is attempted where webhooks are in use, and it does not raise. -/
theorem sendWebhook_eq (cfg : Config) (session : Bool) (p : Poll) (notice : Notice) :
    sendWebhook cfg session p notice = (posted cfg session p [notice], .ok ()) := by
  have hcaught : (tryCatch (do
      let _status ← p.post (postOf cfg p notice)
      return ()) fun _ => return () : Except Error Unit) = .ok () := by
    cases p.post (postOf cfg p notice) <;> rfl
  rw [sendWebhook, posted]
  by_cases hcfg : cfg.webhooksEnabled = true
  · by_cases hsession : session = true
    · rw [if_neg (by simp [hcfg, hsession]), if_pos ⟨hcfg, hsession⟩]
      exact Prod.ext rfl hcaught
    · rw [if_pos (Or.inr (Bool.eq_false_iff.mpr hsession)), if_neg fun h => hsession h.2]
      rfl
  · rw [if_pos (Or.inl (Bool.eq_false_iff.mpr hcfg)), if_neg fun h => hcfg h.1]
    rfl

theorem posted_cons (cfg : Config) (session : Bool) (p : Poll) (notice : Notice)
    (rest : List Notice) : posted cfg session p (notice :: rest) =
      posted cfg session p [notice] ++ posted cfg session p rest := by
  unfold posted
  split_ifs <;> rfl

theorem callbacks_eq (cfg : Config) (session : Bool) (p : Poll) (notices : List Notice) :
    callbacks (sendWebhook cfg session p) notices = (posted cfg session p notices, .ok ()) := by
  induction notices with
  | nil =>
    unfold posted
    split_ifs <;> rfl
  | cons notice rest ih =>
    rw [callbacks, sendWebhook_eq]
    dsimp only
    rw [ih, ← posted_cons]

/-- A poll that fails notifies of nothing and changes nothing. -/
theorem checkNodeChanges_failed (cfg : Config) (h : Handler) {p : Poll} {e : Error}
    (hp : getConnectedNodes p.snapshot = .error e) : checkNodeChanges cfg h p = ([], h) := by
  rw [checkNodeChanges, hp]

theorem checkNodeChanges_ok (cfg : Config) (h : Handler) {p : Poll} {nodes : List DirectLink}
    (hp : getConnectedNodes p.snapshot = .ok nodes) : checkNodeChanges cfg h p =
      (posted cfg h.session p (changes h p nodes), { h with knownNodes := currentSet nodes }) := by
  rw [checkNodeChanges, hp]
  simp only
  rw [callbacks_eq]

/-- No poll opens or closes the session. -/
theorem checkNodeChanges_session (cfg : Config) (h : Handler) (p : Poll) :
    (checkNodeChanges cfg h p).2.session = h.session := by
  cases hp : getConnectedNodes p.snapshot with
  | error e => rw [checkNodeChanges_failed cfg h hp]
  | ok nodes => rw [checkNodeChanges_ok cfg h hp]

@[simp] theorem run_snoc (cfg : Config) (session : Bool) (ps : List Poll) (p : Poll) :
    run cfg session (ps ++ [p]) =
      ((run cfg session ps).1 ++ (checkNodeChanges cfg (run cfg session ps).2 p).1,
        (checkNodeChanges cfg (run cfg session ps).2 p).2) := by
  rw [run, List.foldl_append]
  rfl

/-! ## The notifications of a name -/

/-- Whether each notification of the name is one of a connection. -/
def kinds (name : String) (log : List Post) : List Bool :=
  (log.filter fun post => post.subject = some name).map Post.isConnect

/-- A connection first, and then by turns. -/
def Alternates (ks : List Bool) : Prop := ∀ i b, ks[i]? = some b → (b = true ↔ i % 2 = 0)

theorem Alternates.snoc {ks : List Bool} (h : Alternates ks) {b : Bool}
    (hb : b = true ↔ ks.length % 2 = 0) : Alternates (ks ++ [b]) := by
  intro i c hi
  rcases lt_trichotomy i ks.length with hlt | rfl | hgt
  · rw [List.getElem?_append_left hlt] at hi
    exact h i c hi
  · rw [List.getElem?_concat_length] at hi
    obtain rfl := Option.some.inj hi
    exact hb
  · rw [List.getElem?_eq_none (by rw [List.length_append, List.length_singleton]; omega)] at hi
    cases hi

/-- The last of them is a connection when their number is odd. -/
theorem Alternates.getLast? {ks : List Bool} (h : Alternates ks) :
    ks.getLast? = some true ↔ ks.length % 2 = 1 := by
  rcases List.eq_nil_or_concat ks with rfl | ⟨ks, b, rfl⟩
  · simp
  · rw [List.concat_eq_append] at h ⊢
    have hb := h ks.length b List.getElem?_concat_length
    rw [List.getLast?_concat, Option.some.injEq, hb, List.length_append, List.length_singleton]
    omega

/-- The notifications for a set of names, of one name. -/
theorem kinds_map (name : String) (order : SetOrder) (s : Finset String) (f : String → Post)
    (hf : ∀ n, (f n).subject = some n) (b : Bool) (hb : ∀ n, (f n).isConnect = b) :
    kinds name ((order.list s).map f) = if name ∈ s then [b] else [] := by
  have hn : ((order.list s).filter fun n => (f n).subject = some name) =
      List.replicate ((order.list s).count name) name := by
    simp only [hf, Option.some.injEq]
    exact List.filter_eq name
  rw [kinds, List.filter_map, List.map_map]
  refine (congrArg (List.map (Post.isConnect ∘ f)) hn).trans ?_
  rw [(order.nodup s).count, List.map_replicate, Function.comp_apply, hb]
  simp only [order.mem]
  split_ifs <;> rfl

theorem kinds_append (name : String) (log log' : List Post) :
    kinds name (log ++ log') = kinds name log ++ kinds name log' := by
  rw [kinds, List.filter_append, List.map_append]
  rfl

/-- A name that is new is notified as connected, one that is gone as disconnected. -/
theorem kinds_changes (cfg : Config) (name : String) (h : Handler) (p : Poll)
    (nodes : List DirectLink) : kinds name ((changes h p nodes).map (postOf cfg p)) =
      (if name ∈ currentSet nodes \ h.knownNodes then [true] else []) ++
        if name ∈ h.knownNodes \ currentSet nodes then [false] else [] := by
  rw [changes, List.map_append, kinds_append, List.map_map, List.map_map,
    kinds_map name p.order _ _ (fun _ => rfl) true fun _ => rfl,
    kinds_map name p.order _ _ (fun _ => rfl) false fun _ => rfl]

/-! ## All polls -/

/-- The notifications of a name alternate, and it is known when the last one was of a connection. -/
structure Balanced (name : String) (log : List Post) (h : Handler) : Prop where
  session : h.session = true
  alternates : Alternates (kinds name log)
  known : name ∈ h.knownNodes ↔ (kinds name log).length % 2 = 1

/-- A poll keeps the balance of every name. -/
theorem Balanced.poll {name : String} {log : List Post} {h : Handler} (hb : Balanced name log h)
    {cfg : Config} (hcfg : cfg.webhooksEnabled = true) (p : Poll) :
    Balanced name (log ++ (checkNodeChanges cfg h p).1) (checkNodeChanges cfg h p).2 := by
  cases hp : getConnectedNodes p.snapshot with
  | error e =>
    rw [checkNodeChanges_failed cfg h hp, List.append_nil]
    exact hb
  | ok nodes =>
    rw [checkNodeChanges_ok cfg h hp, posted, if_pos ⟨hcfg, hb.session⟩]
    have hkinds : kinds name (log ++ (changes h p nodes).map (postOf cfg p)) = kinds name log ++
        ((if name ∈ currentSet nodes \ h.knownNodes then [true] else []) ++
          if name ∈ h.knownNodes \ currentSet nodes then [false] else []) := by
      rw [kinds_append, kinds_changes]
    simp only [Finset.mem_sdiff] at hkinds
    by_cases hc : name ∈ currentSet nodes <;> by_cases hk : name ∈ h.knownNodes <;>
      simp only [hc, hk, true_and, false_and, and_self, not_true_eq_false, not_false_eq_true, if_true,
        if_false, List.append_nil, List.nil_append] at hkinds
    · -- it stays
      refine ⟨hb.session, hkinds ▸ hb.alternates, ?_⟩
      rw [hkinds, ← hb.known]
      exact iff_of_true hc hk
    · -- it is new, so its notifications are an even number
      have heven : (kinds name log).length % 2 = 0 := by
        have := mt hb.known.mpr hk
        omega
      refine ⟨hb.session, hkinds ▸ hb.alternates.snoc (iff_of_true rfl heven), ?_⟩
      rw [hkinds, List.length_append, List.length_singleton]
      exact iff_of_true hc (by omega)
    · -- it is gone, so they are an odd number
      have hodd := hb.known.mp hk
      refine ⟨hb.session, hkinds ▸ hb.alternates.snoc (iff_of_false Bool.false_ne_true (by omega)), ?_⟩
      rw [hkinds, List.length_append, List.length_singleton]
      exact iff_of_false hc (by omega)
    · -- it stays away
      refine ⟨hb.session, hkinds ▸ hb.alternates, ?_⟩
      rw [hkinds, ← hb.known]
      exact iff_of_false hc hk

theorem run_balanced {cfg : Config} (hcfg : cfg.webhooksEnabled = true) (ps : List Poll)
    (name : String) : Balanced name (run cfg true ps).1 (run cfg true ps).2 := by
  induction ps using List.reverseRecOn with
  | nil =>
    refine ⟨rfl, fun i b hi => ?_, ?_⟩
    · cases hi
    · exact iff_of_false (Finset.notMem_empty name) Nat.zero_ne_one
  | append_singleton ps p ih =>
    rw [run_snoc]
    exact ih.poll hcfg p

/-- Where webhooks are not in use nothing is attempted. -/
theorem run_silent {cfg : Config} {session : Bool}
    (hno : ¬(cfg.webhooksEnabled = true ∧ session = true)) (ps : List Poll) :
    (run cfg session ps).1 = [] ∧ (run cfg session ps).2.session = session := by
  induction ps using List.reverseRecOn with
  | nil => exact ⟨rfl, rfl⟩
  | append_singleton ps p ih =>
    obtain ⟨hlog, hsession⟩ := ih
    rw [run_snoc, hlog]
    refine ⟨?_, (checkNodeChanges_session cfg _ p).trans hsession⟩
    cases hp : getConnectedNodes p.snapshot with
    | error e => rw [checkNodeChanges_failed cfg _ hp, List.append_nil]
    | ok nodes =>
      rw [checkNodeChanges_ok cfg _ hp, posted, hsession, if_neg hno]
      rfl

/-- **The notifications of a name alternate**, the first one of a connection; a poll that fails attempts
none and changes nothing; where webhooks are in use, after a poll that does not fail the names whose last
notification was of a connection are the names of its links; elsewhere nothing is attempted. -/
theorem notifications_alternate (cfg : Config) (session : Bool) (ps : List Poll) :
    (∀ name, Alternates (kinds name (run cfg session ps).1)) ∧
    (∀ p e, getConnectedNodes p.snapshot = .error e →
      run cfg session (ps ++ [p]) = run cfg session ps) ∧
    (cfg.webhooksEnabled = true → session = true → ∀ p nodes,
      getConnectedNodes p.snapshot = .ok nodes → ∀ name,
        (kinds name (run cfg session (ps ++ [p])).1).getLast? = some true ↔
          name ∈ nodes.map DirectLink.node) ∧
    (¬(cfg.webhooksEnabled = true ∧ session = true) → (run cfg session ps).1 = []) := by
  refine ⟨fun name => ?_, fun p e hp => ?_, ?_, fun hno => (run_silent hno ps).1⟩
  · by_cases huse : cfg.webhooksEnabled = true ∧ session = true
    · obtain ⟨hcfg, rfl⟩ := huse
      exact (run_balanced hcfg ps name).alternates
    · rw [(run_silent huse ps).1]
      exact fun i b hi => nomatch hi
  · rw [run_snoc, checkNodeChanges_failed cfg _ hp, List.append_nil]
  · rintro hcfg rfl p nodes hp name
    have hb := run_balanced hcfg (ps ++ [p]) name
    have hset : (run cfg true (ps ++ [p])).2.knownNodes = currentSet nodes := by
      rw [run_snoc, checkNodeChanges_ok cfg _ hp]
    rw [hb.alternates.getLast?, ← hb.known, hset]
    exact List.mem_toFinset

/-- Webhooks are in use. -/
def hookConfig : Config :=
  ⟨.dict [("webhooks", .dict [("enabled", .bool true), ("url", .str "http")])]⟩

/-- A poll whose deliveries time out. -/
def hookPoll (snapshot : Except Error NodeState) : Poll where
  snapshot := snapshot
  order := .sorted
  now := ""
  post _ := .error (.py .timeoutError)

/-- A link comes, a poll fails, and the link is gone: two notifications. -/
theorem notifications_alternate_hook :
    (kinds "2000" (run hookConfig true [hookPoll (.ok (AMIEventListener.sampleLinked "2000")),
      hookPoll (.error (.py .osError)), hookPoll (.ok (AMIEventListener.sampleState false))]).1 =
        [true, false]) ∧
    ((kinds "2000" (run hookConfig true ([hookPoll (.ok (AMIEventListener.sampleLinked "2000"))] ++
      [hookPoll (.ok (AMIEventListener.sampleLinked "2000"))])).1).getLast? = some true ↔
        "2000" ∈ ["2000"]) ∧
    ((run ⟨.dict []⟩ true [hookPoll (.ok (AMIEventListener.sampleLinked "2000"))]).1 = []) := by
  obtain ⟨-, -, huse, -⟩ := notifications_alternate hookConfig true
    [hookPoll (.ok (AMIEventListener.sampleLinked "2000"))]
  obtain ⟨-, -, -, hsilent⟩ := notifications_alternate ⟨.dict []⟩ true
    [hookPoll (.ok (AMIEventListener.sampleLinked "2000"))]
  have hon : hookConfig.webhooksEnabled = true := by decide +kernel
  have hoff : Config.webhooksEnabled ⟨.dict []⟩ = false := by decide +kernel
  exact ⟨by decide +kernel,
    huse hon rfl (hookPoll (.ok (AMIEventListener.sampleLinked "2000"))) _ rfl "2000",
    hsilent (by simp [hoff])⟩

end EventHandler

end Asl3
