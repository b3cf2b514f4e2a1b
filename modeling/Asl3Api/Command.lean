import Asl3Api.Runs.Provenance

/-!
# The commands (`command_for`)

* `Target`, `Command`: the commands that can be dispatched, whatever the request is;
* `Command.args`, `Command.text`: the words of a command and its text;
* `commandFor_eq_ok`: `command_for` returns the text of a command or raises;
* `splitOn_text`, `text_injective`: the words are what the text splits into, so no two commands
  have one text;
* `Command.request`, `Built.command`: the routes build one request for every command;
* `stored_built`: what is stored for an operation is such a request;
* **`commands_closed_and_injective`**: the command mapping is closed, and injective on the requests of
  the routes.
-/

set_option autoImplicit false

namespace Asl3

open Py

/-! ## The commands -/

/-- A text of 1 to 6 ASCII digits, the first of which is not `0`. -/
structure Target where
  text : String
  length : 1 ≤ text.toList.length ∧ text.toList.length ≤ 6
  digits : ∀ c ∈ text.toList, '0' ≤ c ∧ c ≤ '9'
  leading : text.toList.head? ≠ some '0'

theorem Target.eq_of_text {t t' : Target} (h : t.text = t'.text) : t = t' := by
  cases t
  cases t'
  cases h
  rfl

/-- The canonical node numbers are the targets. -/
theorem exists_target {s : String} (h : isNode s = true) : ∃ t : Target, t.text = s := by
  have hn := Numeric.of_isNode h
  obtain ⟨gs, hs, hf⟩ := fullmatch_isSome.mp h
  obtain ⟨g, gs₁, ⟨-, hg1, hg2⟩, hf₁, rfl⟩ := List.forall₂_cons_left_iff.mp hf
  obtain ⟨g', gs₂, ⟨-, -, hg'⟩, hf₂, rfl⟩ := List.forall₂_cons_left_iff.mp hf₁
  obtain rfl := List.forall₂_nil_left_iff.mp hf₂
  have hlen : s.toList.length = g.length + g'.length := by
    rw [hs]
    simp
  have h1 := hg2 1 rfl
  have h5 := hg' 5 rfl
  refine ⟨⟨s, ⟨by omega, by omega⟩, fun c hc => ?_, hn.leading⟩, rfl⟩
  have := hn.digits c hc
  unfold isDigit at this
  simpa using this

/-- The two announcements. -/
inductive Announcement where
  | identify
  | status
  deriving DecidableEq, Repr

/-- What can be dispatched. -/
inductive Command where
  | link (mode : Mode) (target : Target)
  | unlink (target : Target)
  | unlinkAll
  | announce (a : Announcement)

namespace Command

/-- The words of a command after the node. -/
def args : Command → List String
  | link .monitor t => ["ilink", "2", t.text]
  | link .transceive t => ["ilink", "3", t.text]
  | unlink t => ["ilink", "11", t.text]
  | unlinkAll => ["ilink", "6"]
  | announce .identify => ["status", "1"]
  | announce .status => ["ilink", "5"]

/-- The words of a command after the node, in one text. -/
def command : Command → String
  | link .monitor t => "ilink 2 " ++ t.text
  | link .transceive t => "ilink 3 " ++ t.text
  | unlink t => "ilink 11 " ++ t.text
  | unlinkAll => "ilink 6"
  | announce .identify => "status 1"
  | announce .status => "ilink 5"

/-- The text of a command. -/
def text (node : String) (c : Command) : String := "rpt cmd " ++ node ++ " " ++ c.command

end Command

/-- Digits, lower-case letters and blanks. -/
def plainChar (c : Char) : Bool := c = ' ' || isDigit c || ('a' ≤ c && c ≤ 'z')

/-! ## The mapping is closed -/

theorem validateNode_eq_ok {v : PyValue} {n : String} (h : validateNode v = .ok n) :
    v = .str n ∧ isNode n = true := by
  cases v with
  | str s =>
    unfold validateNode at h
    dsimp only at h
    split_ifs at h with hs
    cases h
    exact ⟨rfl, hs⟩
  | _ => cases h

theorem LinkRequest.make_eq_ok {v : PyValue} {body : LinkRequest}
    (h : LinkRequest.make v = .ok body) : isNode body.node = true := by
  have hb : linkBody v = some body := by
    rw [linkBody_eq, h]
    rfl
  exact linkBody_node hb

theorem announcementRequest_eq_ok {v : PyValue} {k : String}
    (h : announcementRequest v = .ok k) : k ∈ supportedAnnouncements := by
  have hb : announcementBody v = some k := by
    rw [announcementBody_eq, h]
    rfl
  exact announcementBody_supported hb

/-- The text of an announcement. -/
theorem announcement_text {node k : String} (h : k ∈ supportedAnnouncements) :
    ∃ c : Command, "rpt cmd " ++ node ++ " " ++ (if k = "identify" then "status 1" else "ilink 5") =
      c.text node := by
  have hk : k = "identify" ∨ k = "status" := by simpa [supportedAnnouncements] using h
  rcases hk with rfl | rfl
  · exact ⟨.announce .identify, rfl⟩
  · exact ⟨.announce .status, rfl⟩

/-- **`command_for` returns the text of a command**, or it raises. -/
theorem commandFor_eq_ok {node kind text : String} {request : PyValue}
    (h : commandFor node kind request = .ok text) : ∃ c : Command, text = c.text node := by
  unfold commandFor at h
  cases hv : validateNode (.str node) with
  | error e => rw [hv] at h; cases h
  | ok n =>
    simp only [hv] at h
    by_cases hlink : kind = "link_node"
    · rw [if_pos hlink] at h
      cases hl : LinkRequest.make request with
      | error e => simp only [hl] at h; cases h
      | ok body =>
        simp only [hl] at h
        cases h
        obtain ⟨t, ht⟩ := exists_target (LinkRequest.make_eq_ok hl)
        refine ⟨.link body.mode t, ?_⟩
        rw [← ht]
        cases body.mode <;> rfl
    rw [if_neg hlink] at h
    by_cases hunlink : kind = "unlink_node"
    · rw [if_pos hunlink] at h
      cases hs : subscriptNode request with
      | error e => simp only [hs] at h; cases h
      | ok v =>
        cases hn : validateNode v with
        | error e => simp only [hs, hn] at h; cases h
        | ok m =>
          simp only [hs, hn] at h
          cases h
          obtain ⟨t, ht⟩ := exists_target (validateNode_eq_ok hn).2
          exact ⟨.unlink t, by rw [← ht]; rfl⟩
    rw [if_neg hunlink] at h
    by_cases hall : kind = "unlink_all" ∧ request.truthy = false
    · simp only [if_pos hall] at h
      cases h
      exact ⟨.unlinkAll, rfl⟩
    rw [if_neg hall] at h
    by_cases hann : kind = "announce"
    · rw [if_pos hann] at h
      cases ha : announcementRequest request with
      | error e =>
        simp only [ha] at h
        split at h
        · cases h
        · rename_i hx
          split at hx
          · split_ifs at hx
          · cases hx
      | ok k =>
        -- with or without a text to look at, the request is checked in the same way
        obtain ⟨c, hc⟩ := announcement_text (announcementRequest_eq_ok ha)
        simp only [ha] at h
        split at h
        · cases h
        · rename_i x hx
          cases h
          refine ⟨c, hc.symm ▸ ?_⟩
          split at hx
          · split at hx
            · cases hx
            · rw [Except.ok.inj hx]
          · rw [Except.ok.inj hx]
    · simp only [if_neg hann] at h
      cases h

/-! ## The words of a command -/

/-- A word of a command holds no blank and nothing but digits and letters. -/
theorem plain_args {node : String} (hn : isNode node = true) (c : Command) :
    ∀ w ∈ "rpt" :: "cmd" :: node :: c.args, ∀ x ∈ w.toList, plainChar x = true ∧ x ≠ ' ' := by
  have hdigit : ∀ x, isDigit x = true → plainChar x = true ∧ x ≠ ' ' := by
    intro x hx
    refine ⟨by simp [plainChar, hx], ?_⟩
    rintro rfl
    exact absurd hx (by decide)
  have htarget : ∀ (t : Target), ∀ x ∈ t.text.toList, plainChar x = true ∧ x ≠ ' ' := by
    intro t x hx
    refine hdigit x ?_
    have := t.digits x hx
    simpa [isDigit] using this
  -- the words that are there whatever the request is
  have hfixed : ∀ w ∈ ["rpt", "cmd", "ilink", "status", "1", "2", "3", "5", "6", "11"],
      ∀ x ∈ w.toList, plainChar x = true ∧ x ≠ ' ' := by
    simp [plainChar, isDigit]
  intro w hw
  simp only [List.mem_cons] at hw
  rcases hw with rfl | rfl | rfl | hw
  · exact hfixed _ (by simp)
  · exact hfixed _ (by simp)
  · exact fun x hx => hdigit x ((Numeric.of_isNode hn).digits x hx)
  · unfold Command.args at hw
    split at hw <;> simp only [List.mem_cons, List.not_mem_nil, or_false] at hw
    · rcases hw with rfl | rfl | rfl
      · exact hfixed _ (by simp)
      · exact hfixed _ (by simp)
      · exact htarget _
    · rcases hw with rfl | rfl | rfl
      · exact hfixed _ (by simp)
      · exact hfixed _ (by simp)
      · exact htarget _
    · rcases hw with rfl | rfl | rfl
      · exact hfixed _ (by simp)
      · exact hfixed _ (by simp)
      · exact htarget _
    all_goals
      rcases hw with rfl | rfl <;> exact hfixed _ (by simp)

/-- The text of a command is its words with blanks between them. -/
theorem text_toList (node : String) (c : Command) : (c.text node).toList =
    [' '].intercalate (("rpt" :: "cmd" :: node :: c.args).map String.toList) := by
  have hc : c.command.toList = [' '].intercalate (c.args.map String.toList) := by
    unfold Command.command Command.args
    split <;> simp
  have hne : c.args ≠ [] := by
    unfold Command.args
    split <;> exact List.cons_ne_nil _ _
  obtain ⟨w, ws, hw⟩ := List.exists_cons_of_ne_nil hne
  rw [Command.text, String.toList_append, String.toList_append, String.toList_append, hc, hw]
  simp

/-- **A command splits into its words.** -/
theorem splitOn_text {node : String} (hn : isNode node = true) (c : Command) :
    ((c.text node).toList.splitOn ' ').map String.ofList = "rpt" :: "cmd" :: node :: c.args := by
  rw [text_toList, List.splitOn_intercalate]
  · rw [List.map_map]
    simp [Function.comp_def]
  · intro l hl hmem
    obtain ⟨w, hw, rfl⟩ := List.mem_map.mp hl
    exact (plain_args hn c w hw ' ' hmem).2 rfl
  · simp

/-- A command holds nothing but digits, letters and blanks. -/
theorem plain_text {node : String} (hn : isNode node = true) (c : Command) :
    ∀ x ∈ (c.text node).toList, plainChar x = true := by
  have key : ∀ ws : List String, (∀ w ∈ ws, ∀ x ∈ w.toList, plainChar x = true) →
      ∀ x ∈ [' '].intercalate (ws.map String.toList), plainChar x = true := by
    intro ws
    induction ws with
    | nil => simp
    | cons w ws ih =>
      intro hws x hx
      cases ws with
      | nil =>
        rw [List.map_singleton, List.intercalate_singleton] at hx
        exact hws w List.mem_cons_self x hx
      | cons w' ws =>
        rw [List.map_cons, List.map_cons, List.intercalate_cons_cons, List.mem_append,
          List.mem_append] at hx
        rcases hx with (hx | hx) | hx
        · exact hws w List.mem_cons_self x hx
        · rw [List.mem_singleton.mp hx]
          decide
        · exact ih (fun v hv => hws v (List.mem_cons_of_mem _ hv)) x hx
  rw [text_toList]
  exact key _ fun w hw x hx => (plain_args hn c w hw x hx).1

theorem args_injective : Function.Injective Command.args := by
  intro c c' h
  unfold Command.args at h
  split at h <;> split at h <;>
    simp only [List.cons.injEq, and_true, true_and, reduceCtorEq, and_false] at h <;>
    first
      | rfl
      | exact absurd h (by decide)
      | exact absurd h.1 (by decide)
      | (rw [Target.eq_of_text h])

/-- No two commands have one text. -/
theorem text_injective {node : String} (hn : isNode node = true) :
    Function.Injective (Command.text node) := by
  intro c c' h
  have hw := splitOn_text hn c
  rw [h, splitOn_text hn c'] at hw
  simp only [List.cons.injEq, true_and] at hw
  exact (args_injective hw).symm

/-! ## The requests of the routes -/

namespace Announcement

/-- The text of an announcement in a request. -/
def name : Announcement → String
  | identify => "identify"
  | status => "status"

theorem name_supported (a : Announcement) : a.name ∈ supportedAnnouncements := by
  cases a <;> decide

theorem exists_name {k : String} (h : k ∈ supportedAnnouncements) :
    ∃ a : Announcement, a.name = k := by
  have hk : k = "identify" ∨ k = "status" := by simpa [supportedAnnouncements] using h
  rcases hk with rfl | rfl
  · exact ⟨identify, rfl⟩
  · exact ⟨status, rfl⟩

end Announcement

namespace Command

/-- The kind of the request for a command. -/
def kind : Command → String
  | link _ _ => "link_node"
  | unlink _ => "unlink_node"
  | unlinkAll => "unlink_all"
  | announce _ => "announce"

/-- The request for a command, with its defaults filled in. -/
def request : Command → PyValue
  | link mode t => (LinkRequest.mk t.text mode).dump
  | unlink t => .dict [("node", .str t.text)]
  | unlinkAll => .dict []
  | announce a => .dict [("kind", .str a.name)]

end Command

/-- What a route builds is the request for a command. -/
theorem Built.command {kind : String} {request : PyValue} (h : Built kind request) :
    ∃ c : Command, kind = c.kind ∧ request = c.request := by
  cases h with
  | link body hb =>
    obtain ⟨t, ht⟩ := exists_target hb
    exact ⟨.link body.mode t, rfl, by rw [Command.request, ht]⟩
  | unlink hn =>
    obtain ⟨t, rfl⟩ := exists_target hn
    exact ⟨.unlink t, rfl, rfl⟩
  | unlinkAll => exact ⟨.unlinkAll, rfl, rfl⟩
  | announce hk =>
    obtain ⟨a, rfl⟩ := Announcement.exists_name hk
    exact ⟨.announce a, rfl, rfl⟩

/-- Every stored operation holds a request of the routes. -/
theorem stored_built {py : Schema} {node : String} {ls : List WebLabel} {s : Sys}
    (h : WebReaches py node ls s) :
    ∀ row ∈ s.table, Built row.document.kind.name (.dict row.document.request) := by
  intro row hrow
  obtain ⟨_, _, _, _, _, _, _, c, -, -, -, -, ho⟩ := exec_origins h _ (List.mem_map_of_mem hrow)
  have hb := (call_cases ho.asks).1
  rw [← ho.kind, ← ho.request] at hb
  exact hb

/-- A target is a canonical node number. -/
theorem Target.isNode (t : Target) : isNode t.text = true := by
  obtain ⟨c, cs, hcs⟩ := List.exists_cons_of_ne_nil (List.length_pos_iff.mp t.length.1)
  have hlead : c ≠ '0' := by
    rintro rfl
    exact t.leading (by rw [hcs]; rfl)
  have hdig : ∀ x ∈ c :: cs, '0' ≤ x ∧ x ≤ '9' := by
    rw [← hcs]
    exact t.digits
  have hlen : cs.length ≤ 5 := by
    have := t.length.2
    rw [hcs, List.length_cons] at this
    omega
  have hc : '1' ≤ c := by
    have h0 : '0'.val < c.val := by
      refine UInt32.lt_iff_toNat_lt.mpr (Nat.lt_of_le_of_ne (hdig c List.mem_cons_self).1 fun he => ?_)
      exact hlead (Char.ext (UInt32.toNat_inj.mp he.symm))
    exact Nat.succ_le_of_lt h0
  -- the first digit, and the others
  refine fullmatch_isSome.mpr ⟨[[c], cs], by rw [hcs]; simp, .cons ?_ (.cons ?_ .nil)⟩
  · refine ⟨fun x hx => ?_, le_refl 1, fun m hm => ?_⟩
    · rw [List.mem_singleton.mp hx]
      simp [hc, (hdig c List.mem_cons_self).2]
    · rw [← Option.some.inj hm]
      rfl
  · refine ⟨fun x hx => ?_, Nat.zero_le _, fun m hm => ?_⟩
    · have := hdig x (List.mem_cons_of_mem _ hx)
      simpa [isDigit] using this
    · rw [← Option.some.inj hm]
      exact hlen

/-- **`command_for` on the request for a command** returns its text. -/
theorem commandFor_request {node : String} (hn : isNode node = true) (c : Command) :
    commandFor node c.kind c.request = .ok (c.text node) := by
  have hv : ∀ n, isNode n = true → validateNode (.str n) = .ok n := fun n h => if_pos h
  cases c with
  | link mode t =>
    have ht := t.isNode
    have hmake : LinkRequest.make (LinkRequest.mk t.text mode).dump = .ok ⟨t.text, mode⟩ := by
      cases mode <;> simp [LinkRequest.make, LinkRequest.dump, Mode.text, List.lookup_cons, ht]
    unfold commandFor
    cases mode <;> simp [Command.kind, Command.request, Command.text, Command.command, hv node hn, hmake]
  | unlink t =>
    unfold commandFor
    simp [Command.kind, Command.request, Command.text, Command.command, subscriptNode, hv node hn,
      hv _ t.isNode]
  | unlinkAll =>
    unfold commandFor
    simp [Command.kind, Command.request, Command.text, Command.command, PyValue.truthy, hv node hn]
  | announce a =>
    have hreq : announcementRequest (.dict [("kind", .str a.name)]) = .ok a.name := by
      simp [announcementRequest, a.name_supported]
    unfold commandFor
    simp only [Command.kind, Command.request, hv node hn, List.lookup_cons, beq_self_eq_true, if_true,
      a.name_supported, not_true_eq_false, if_false, hreq]
    cases a <;> rfl

/-- **The command mapping** is closed, and injective on the requests of the routes; and every operation
that a run of the application stores has one of its commands. -/
theorem commands_closed_and_injective {node : String} (hn : isNode node = true) :
    (∀ kind request text, commandFor node kind request = .ok text →
      ∃ c : Command, text = c.text node) ∧
    (∀ c : Command,
      ((c.text node).toList.splitOn ' ').map String.ofList = "rpt" :: "cmd" :: node :: c.args ∧
        ∀ x ∈ (c.text node).toList, plainChar x = true) ∧
    (∀ py cfg cfg' r r' c c', call py cfg r = some c → call py cfg' r' = some c' →
      (commandFor node c.kind c.request = commandFor node c'.kind c'.request ↔
        c.kind = c'.kind ∧ c.request = c'.request)) ∧
    ∀ py ls s, WebReaches py node ls s → ∀ row ∈ s.table, ∃ c : Command,
      commandFor node row.document.kind.name (.dict row.document.request) = .ok (c.text node) := by
  refine ⟨fun kind request text h => commandFor_eq_ok h,
    fun c => ⟨splitOn_text hn c, plain_text hn c⟩, fun py cfg cfg' r r' c c' hc hc' => ⟨?_, ?_⟩,
    fun py ls s hs row hrow => ?_⟩
  · intro h
    obtain ⟨x, hk, hr⟩ := (call_cases hc).1.command
    obtain ⟨x', hk', hr'⟩ := (call_cases hc').1.command
    rw [hk, hr, hk', hr', commandFor_request hn, commandFor_request hn] at h
    rw [hk, hr, hk', hr', text_injective hn (Except.ok.inj h)]
    exact ⟨rfl, rfl⟩
  · rintro ⟨hk, hr⟩
    rw [hk, hr]
  · obtain ⟨c, hk, hr⟩ := (stored_built hs row hrow).command
    rw [hk, hr]
    exact ⟨c, commandFor_request hn c⟩

/-- The request for an identification through the other route. -/
def sampleAnnouncement : HttpRequest :=
  { sampleRequest with
    path := "/v1/announcements"
    body := .value (.dict [("kind", .str "identify")]) }

/-- On the node `546051` the two routes of the identification give one command. -/
theorem commands_identify :
    (∀ text, commandFor "546051" "announce" (.dict [("kind", .str "identify")]) = .ok text →
      ∃ c : Command, text = c.text "546051") ∧
    ∃ c c', call sampleSchema sampleConfig sampleRequest = some c ∧
      call sampleSchema sampleConfig sampleAnnouncement = some c' ∧
      commandFor "546051" c.kind c.request = commandFor "546051" c'.kind c'.request := by
  have hn : isNode "546051" = true := by decide
  obtain ⟨hclosed, -, hinj, -⟩ := commands_closed_and_injective hn
  have hc : call sampleSchema sampleConfig sampleRequest =
      some ⟨"announce", .dict [("kind", .str "identify")], "legacy", some "first"⟩ := rfl
  have hc' : call sampleSchema sampleConfig sampleAnnouncement =
      some ⟨"announce", .dict [("kind", .str "identify")], "legacy", some "first"⟩ := rfl
  exact ⟨fun text h => hclosed _ _ text h, _, _, hc, hc',
    (hinj _ _ _ _ _ _ _ hc hc').mpr ⟨rfl, rfl⟩⟩

end Asl3
