import Asl3Api.Vnext.ReadSession

/-!
# Servers that answer

What a server writes is a stream of frames; between its replies it may write events. A session that
reads takes its replies out of that stream byte by byte.

* `streamFrames`, `streamFrames_sent`: the frames of a stream, and those of one that was written;
* `IsEvent`, `IsReply`, `answers_of_sent`: the reply to a call behind the events before it;
* `Script`, `Script.Served`: what a server writes in one session;
* **`Script.Served.answered`**: both actions of the session are answered, with what was written.
-/

set_option autoImplicit false

namespace Asl3

open Py AMISession AMITransport

section

variable (lower : String → String)

/-- The calls of `frame` on a stream, one after another. -/
def streamFrames : ℕ → List UInt8 → Except Raised Message
  | 0, stream => match frame lower stream with
    | .ok (m, _) => .ok m
    | .error e => .error (.error e)
  | n + 1, stream => match frame lower stream with
    | .ok (_, rest) => streamFrames n rest
    | .error e => .error (.error e)

/-- The bytes of frames that are written one after another. -/
def octets (sent : List (List (String × String))) : List UInt8 :=
  sent.flatMap fun headers => encodeUtf8 (payload headers).toList

/-- Headers that make a frame. -/
structure Frameable (headers : List (String × String)) : Prop where
  sendable : Sendable headers
  repeats : Repeats (received lower headers)
  size : (encodeUtf8 (payload headers).toList).length ≤ frameLimit

/-- An event: it is no reply. -/
def IsEvent (headers : List (String × String)) : Prop :=
  valuesOf (received lower headers) "event" ≠ [] ∧ valuesOf (received lower headers) "response" = []

/-- The successful reply to a call. -/
def IsReply (actionId : String) (headers : List (String × String)) : Prop :=
  valuesOf (received lower headers) "response" = ["Success"] ∧
    valuesOf (received lower headers) "actionid" = [actionId]

end

variable {lower : String → String}

/-- **What was written is read**, frame by frame. -/
theorem streamFrames_sent {sent : List (List (String × String))} {rest : List UInt8}
    (h : ∀ headers ∈ sent, Frameable lower headers) (i : ℕ) (headers : List (String × String))
    (hi : sent[i]? = some headers) : ∃ m, streamFrames lower i (octets sent ++ rest) = .ok m ∧
      Decodes (received lower headers) m := by
  induction sent generalizing i with
  | nil => cases hi
  | cons first sent ih =>
    obtain ⟨hfirst, hsent⟩ := List.forall_mem_cons.mp h
    obtain ⟨m, hm, hd⟩ := frame_payload hfirst.sendable hfirst.repeats hfirst.size
      (octets sent ++ rest)
    have hbytes : octets (first :: sent) ++ rest =
        encodeUtf8 (payload first).toList ++ (octets sent ++ rest) := by
      rw [octets, List.flatMap_cons, List.append_assoc]
      rfl
    cases i with
    | zero =>
      cases hi
      refine ⟨m, ?_, hd⟩
      rw [streamFrames, hbytes, hm]
    | succ i =>
      rw [streamFrames, hbytes, hm]
      exact ih hsent i hi

section

variable {headers : List (String × String)} {m : Message}

theorem pureEvent_of_isEvent (hd : Decodes (received lower headers) m)
    (h : IsEvent lower headers) : PureEvent m := by
  refine ⟨?_, ?_⟩
  · rw [hd.fields, Option.isSome_iff_ne_none, ne_eq, fieldOf_eq_none]
    exact h.1
  · rw [hd.fields, h.2]
    rfl

/-- A header that came once. -/
theorem lookup_of_values (hd : Decodes (received lower headers) m) {key value : String}
    (h : valuesOf (received lower headers) key = [value]) : m.lookup key = some (.one value) := by
  rw [hd.fields, h]
  rfl

theorem reply_not_event (hd : Decodes (received lower headers) m) {actionId : String}
    (h : IsReply lower actionId headers) : ¬PureEvent m := by
  rintro ⟨-, hno⟩
  rw [lookup_of_values hd h.1] at hno
  cases hno

end

/-- **The reply to a call** is the frame behind the events before it. -/
theorem answers_of_sent {frames : ℕ → Except Raised Message}
    {before events after : List (List (String × String))} {reply : List (String × String)}
    {actionId : String} (hframes : ∀ i headers,
      (before ++ (events ++ reply :: after))[i]? = some headers →
        ∃ m, frames i = .ok m ∧ Decodes (received lower headers) m)
    (hevents : ∀ e ∈ events, IsEvent lower e) (hlen : events.length < frameBudget)
    (hreply : IsReply lower actionId reply) :
    ∃ m, Answers frames before.length actionId m (before.length + events.length + 1) ∧
      Decodes (received lower reply) m := by
  have hat : ∀ i, (before ++ (events ++ reply :: after))[before.length + i]? =
      (events ++ reply :: after)[i]? := fun i => by
    rw [List.getElem?_append_right (Nat.le_add_right _ _), Nat.add_sub_cancel_left]
  obtain ⟨m, hm, hd⟩ := hframes (before.length + events.length) reply (by
    rw [hat, List.getElem?_append_right (le_refl _), Nat.sub_self]
    rfl)
  refine ⟨m, ⟨events.length, hlen, fun i hi => ?_, hm, reply_not_event hd hreply,
    lookup_of_values hd hreply.2, rfl⟩, hd⟩
  obtain ⟨x, hx, hxd⟩ := hframes (before.length + i) events[i] (by
    rw [hat, List.getElem?_append_left hi]
    exact List.getElem?_eq_getElem hi)
  exact ⟨x, hx, pureEvent_of_isEvent hxd (hevents _ (List.getElem_mem hi))⟩

/-! ## A session with a server -/

/-- What a server writes in a session with two actions: its replies, with events before them. -/
structure Script where
  booting : List (List (String × String))
  login : List (String × String)
  before : List (List (String × String))
  first : List (String × String)
  between : List (List (String × String))
  second : List (String × String)

/-- The frames in order. -/
def Script.frames (x : Script) : List (List (String × String)) :=
  x.booting ++ x.login :: (x.before ++ x.first :: (x.between ++ [x.second]))

/-- The server writes this, and the rest of the connection goes well. -/
structure Script.Served (lower : String → String) (cfg : Config) (peer : Peer)
    (first second : List (String × String)) (x : Script) : Prop where
  connect : peer.connect = .ok ()
  banner : ∃ text, peer.banner = .ok text ∧ "Asterisk Call Manager/".toList <+: text.toList
  closed : closing peer = none
  sent : ∀ c ∈ calls cfg peer first second,
    (∃ p, encode c.fields c.actionId = .ok p) ∧ c.drain = .ok ()
  stream : ∃ rest, peer.frames = fun n => streamFrames lower n (octets x.frames ++ rest)
  frameable : ∀ headers ∈ x.frames, Frameable lower headers
  events : ∀ e ∈ x.booting ++ x.before ++ x.between, IsEvent lower e
  budget : x.booting.length < frameBudget ∧ x.before.length < frameBudget ∧
    x.between.length < frameBudget
  replies : IsReply lower (peer.actionId 0) x.login ∧ IsReply lower (peer.actionId 1) x.first ∧
    IsReply lower (peer.actionId 2) x.second

/-- **Both actions are answered with what the server wrote**, whatever events it writes between its
replies. -/
theorem Script.Served.answered {cfg : Config} {peer : Peer} {first second : List (String × String)}
    {x : Script} (h : x.Served lower cfg peer first second) :
    ∃ m m', AMITransport.Answered cfg peer first second m m' ∧
      Decodes (received lower x.first) m ∧ Decodes (received lower x.second) m' := by
  obtain ⟨rest, hstream⟩ := h.stream
  have hread : ∀ i headers, x.frames[i]? = some headers →
      ∃ m, peer.frames i = .ok m ∧ Decodes (received lower headers) m := by
    rw [hstream]
    exact streamFrames_sent h.frameable
  have hevents := h.events
  rw [List.forall_mem_append, List.forall_mem_append] at hevents
  obtain ⟨m₀, ha₀, hd₀⟩ : ∃ m, Answers peer.frames 0 (peer.actionId 0) m
      (0 + x.booting.length + 1) ∧ Decodes (received lower x.login) m :=
    @answers_of_sent lower peer.frames [] x.booting _ x.login _ hread hevents.1.1 h.budget.1
      h.replies.1
  have hsplit₁ : x.frames =
      (x.booting ++ [x.login]) ++ (x.before ++ x.first :: (x.between ++ [x.second])) := by
    rw [Script.frames, List.append_assoc, List.singleton_append]
  obtain ⟨m₁, ha₁, hd₁⟩ := answers_of_sent (hsplit₁ ▸ hread) hevents.1.2 h.budget.2.1 h.replies.2.1
  have hsplit₂ : x.frames =
      (x.booting ++ [x.login] ++ (x.before ++ [x.first])) ++ (x.between ++ x.second :: []) := by
    rw [hsplit₁]
    simp
  obtain ⟨m₂, ha₂, hd₂⟩ := answers_of_sent (hsplit₂ ▸ hread) hevents.2 h.budget.2.2 h.replies.2.2
  have hp₁ : (x.booting ++ [x.login]).length = 0 + x.booting.length + 1 := by simp
  have hp₂ : (x.booting ++ [x.login] ++ (x.before ++ [x.first])).length =
      0 + x.booting.length + 1 + x.before.length + 1 := by
    simp
    omega
  rw [hp₁] at ha₁
  rw [hp₂] at ha₂
  exact ⟨m₁, m₂, ⟨h.connect, h.banner, h.closed, h.sent, m₀, _, _, _, ha₀,
    lookup_of_values hd₀ h.replies.1.1, ha₁, ha₂⟩, hd₁, hd₂⟩

/-! ## Checks -/

/-- The octets of a text are at most four for each character. -/
theorem length_encodeUtf8 (text : List Char) : (encodeUtf8 text).length ≤ 4 * text.length := by
  induction text with
  | nil => exact le_refl 0
  | cons c text ih =>
    have hc : (String.utf8EncodeChar c).length ≤ 4 := by
      rw [String.length_utf8EncodeChar]
      exact Char.utf8Size_le_four c
    have htext : (text.flatMap String.utf8EncodeChar).length ≤ 4 * text.length := ih
    rw [encodeUtf8, List.flatMap_cons, List.length_append, List.length_cons]
    omega

/-- Texts with separators between them are no longer than texts with one behind each. -/
theorem length_intercalate {α : Type*} (sep : List α) (ls : List (List α)) :
    (sep.intercalate ls).length ≤ (ls.flatMap fun l => l ++ sep).length := by
  induction ls with
  | nil => exact Nat.zero_le _
  | cons l ls ih =>
    cases ls with
    | nil => simp
    | cons l' ls =>
      rw [List.intercalate_cons_cons, List.length_append, List.length_append, List.flatMap_cons,
        List.length_append, List.length_append]
      omega

/-- The characters of a frame. -/
def frameSize (headers : List (String × String)) : ℕ :=
  (headers.flatMap fun h => headerLine h ++ crlf).length + 4

theorem length_payload (headers : List (String × String)) :
    (encodeUtf8 (payload headers).toList).length ≤ 4 * frameSize headers := by
  have hjoined := length_intercalate crlf (headers.map headerLine)
  have hblank : blankLine.length = 4 := rfl
  refine (length_encodeUtf8 _).trans ?_
  rw [payload_toList, List.length_append, frameSize]
  rw [List.flatMap_map] at hjoined
  omega

/-- Few headers with plain keys and values, that come once unless they may be repeated. -/
def checkFrame (lower : String → String) (headers : List (String × String)) : Bool :=
  decide (headers ≠ []) &&
    headers.all (fun h => h.1 ≠ "" && !h.1.toList.contains ':' &&
      h.1.toList.all fun c => !isUnicodeSpace c) &&
    headers.all (fun h => !h.2.toList.contains '\r') &&
    decide ((headers.map fun h => lower h.1).filter fun k => decide (k ∉ repeatable)).Nodup &&
    decide (4 * frameSize headers ≤ frameLimit)

theorem repeats_of_filter {headers : List (String × String)}
    (h : ((headers.map Prod.fst).filter fun k => decide (k ∉ repeatable)).Nodup) :
    Repeats headers := by
  intro key hkey
  have hc := List.nodup_iff_count_le_one.mp h key
  have hcount : ((headers.map Prod.fst).filter fun k => decide (k ∉ repeatable)).count key =
      (headers.map Prod.fst).count key :=
    List.count_filter (by simpa using hkey)
  rw [hcount, List.count_eq_countP, List.countP_map,
    List.countP_eq_length_filter] at hc
  rw [valuesOf, List.length_map]
  convert hc using 4
  exact (beq_eq_decide _ _).symm

theorem frameable_of_check {headers : List (String × String)} (h : checkFrame lower headers = true) :
    Frameable lower headers := by
  simp only [checkFrame, Bool.and_eq_true, decide_eq_true_eq] at h
  obtain ⟨⟨⟨⟨hne, hkeys⟩, hvalues⟩, honce⟩, hsize⟩ := h
  refine ⟨⟨hne, fun f hf => ?_, fun f hf hi => ?_⟩, repeats_of_filter ?_,
    (length_payload headers).trans hsize⟩
  · have hk := List.all_eq_true.mp hkeys f hf
    simp only [Bool.and_eq_true, decide_eq_true_eq, Bool.not_eq_true', List.contains_eq_mem,
      decide_eq_false_iff_not] at hk
    exact ⟨hk.1.1, hk.1.2, fun c hc => by simpa using List.all_eq_true.mp hk.2 c hc⟩
  · have hv := List.all_eq_true.mp hvalues f hf
    simp only [Bool.not_eq_true', List.contains_eq_mem, decide_eq_false_iff_not] at hv
    exact hv (hi.subset List.mem_cons_self)
  · rw [received, List.map_map]
    exact honce

/-- Calls that can be sent. -/
theorem sent_of_check {cs : List AMISession.Call}
    (h : cs.all (fun c => (encode c.fields c.actionId).toOption.isSome && c.drain = .ok ()) = true) :
    ∀ c ∈ cs, (∃ p, encode c.fields c.actionId = .ok p) ∧ c.drain = .ok () := by
  intro c hc
  have hcheck := List.all_eq_true.mp h c hc
  simp only [Bool.and_eq_true, decide_eq_true_eq] at hcheck
  refine ⟨?_, hcheck.2⟩
  cases he : encode c.fields c.actionId with
  | ok p => exact ⟨p, rfl⟩
  | error e =>
    rw [he] at hcheck
    cases hcheck.1

end Asl3
