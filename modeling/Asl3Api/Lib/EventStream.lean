import Asl3Api.Lib.PyValue

/-!
# Event streams

The text format of `text/event-stream`: lines `field: value`, an empty line behind each event, and
comments that begin with a colon.

* `Reader`, `feed`: a client, which is fed one character after the other;
* `feed_append`: a stream may be cut anywhere;
* `Frame.text`: the frames a server writes;
* `feed_encode`, `feed_comment`: one frame;
* **`feed_frames`**: a client reads the messages that were written, and no others;
* **`feed_cut`**: of a stream that breaks off it reads the first ones.

The fields `id` and `retry` make no message; a client here ignores them.
-/

set_option autoImplicit false

namespace EventStream

open Py

/-! ## The client -/

/-- An event, as a client dispatches it. -/
structure Message where
  type : List Char
  data : List Char
  deriving DecidableEq, Repr

/-- A client: the line that has not ended, whether a carriage return has just ended one, and the
buffers of the event that has not ended. -/
structure Reader where
  line : List Char := []
  afterReturn : Bool := false
  type : List Char := []
  data : List Char := []
  deriving DecidableEq, Repr

namespace Reader

/-- An empty line: the event is dispatched when it has data. -/
def dispatch (r : Reader) : Reader × List Message :=
  ({}, if r.data = [] then []
    else [⟨if r.type = [] then "message".toList else r.type, r.data.dropLast⟩])

/-- A field of the event. -/
def field (r : Reader) (name value : List Char) : Reader :=
  if name = "event".toList then { r with type := value }
  else if name = "data".toList then { r with data := r.data ++ value ++ ['\n'] }
  else r

/-- The value of a field: one space after the colon does not belong to it. -/
def valueOf : List Char → List Char
  | ' ' :: cs => cs
  | cs => cs

/-- The end of a line. -/
def endLine (r : Reader) : Reader × List Message :=
  if r.line = [] then r.dispatch
  else
    let (name, _, value) := partition ':' r.line
    -- a comment is a field without a name
    (({ r with line := [] }).field name (valueOf value), [])

/-- One character. A newline behind a carriage return ends no line of its own. -/
def step (r : Reader) (c : Char) : Reader × List Message :=
  if c = '\n' then
    if r.afterReturn then ({ r with afterReturn := false }, []) else r.endLine
  else if c = '\r' then
    let (r', ms) := r.endLine
    ({ r' with afterReturn := true }, ms)
  else ({ r with line := r.line ++ [c], afterReturn := false }, [])

end Reader

/-- The characters of a stream, one after the other. -/
def feed (r : Reader) : List Char → Reader × List Message
  | [] => (r, [])
  | c :: cs =>
    let (r', ms) := r.step c
    let (r'', ms') := feed r' cs
    (r'', ms ++ ms')

/-- The messages of a stream. -/
def read (text : List Char) : List Message := (feed {} text).2

theorem feed_append (r : Reader) (s t : List Char) :
    feed r (s ++ t) = ((feed (feed r s).1 t).1, (feed r s).2 ++ (feed (feed r s).1 t).2) := by
  induction s generalizing r with
  | nil => rfl
  | cons c s ih => simp only [List.cons_append, feed, ih, List.append_assoc]

/-! ## The server -/

/-- What a server writes. -/
inductive Frame where
  /-- `event: {type}`, `data: {data}` and an empty line. -/
  | event (m : Message)
  /-- `: {text}` and an empty line. -/
  | comment (text : List Char)
  deriving DecidableEq, Repr

/-- The line of a field. -/
def fieldLine (name value : List Char) : List Char := name ++ ':' :: ' ' :: value ++ ['\n']

/-- A text that fits on one line. -/
def OneLine (s : List Char) : Prop := '\n' ∉ s ∧ '\r' ∉ s

instance (s : List Char) : Decidable (OneLine s) := by
  unfold OneLine
  infer_instance

namespace Frame

/-- The text of a frame. -/
def text : Frame → List Char
  | .event m => fieldLine "event".toList m.type ++ (fieldLine "data".toList m.data ++ ['\n'])
  | .comment s => fieldLine [] s ++ ['\n']

/-- The message of a frame. -/
def message? : Frame → Option Message
  | .event m => some m
  | .comment _ => none

/-- A frame that is read back: its texts fit on their lines, and its event has a type. -/
def Clean : Frame → Prop
  | .event m => m.type ≠ [] ∧ OneLine m.type ∧ OneLine m.data
  | .comment s => OneLine s

end Frame

/-! ## Reading what was written -/

/-- Characters within a line. -/
theorem feed_oneLine (r : Reader) {s : List Char} (hs : OneLine s) (hr : r.afterReturn = false) :
    feed r s = ({ r with line := r.line ++ s }, []) := by
  induction s generalizing r with
  | nil => rw [List.append_nil]; rfl
  | cons c s ih =>
    obtain ⟨hn, hcr⟩ := hs
    have hc : c ≠ '\n' := fun h => hn (h ▸ List.mem_cons_self)
    have hc' : c ≠ '\r' := fun h => hcr (h ▸ List.mem_cons_self)
    have hs' : OneLine s :=
      ⟨fun h => hn (List.mem_cons_of_mem _ h), fun h => hcr (List.mem_cons_of_mem _ h)⟩
    have hstep : r.step c = ({ r with line := r.line ++ [c], afterReturn := false }, []) := by
      rw [Reader.step, if_neg hc, if_neg hc']
    rw [feed, hstep]
    dsimp only
    rw [ih _ hs' rfl, hr, List.append_assoc, List.singleton_append, List.append_nil]

/-- A line with its end. -/
theorem feed_line (r : Reader) {s : List Char} (hs : OneLine s) (hr : r.afterReturn = false)
    (hl : r.line = []) : feed r (s ++ ['\n']) = ({ r with line := s } : Reader).endLine := by
  rw [feed_append, feed_oneLine r hs hr, hl, List.nil_append]
  have hstep : ({ r with line := s } : Reader).step '\n' = ({ r with line := s } : Reader).endLine := by
    rw [Reader.step, if_pos rfl, if_neg (by rw [hr]; exact Bool.false_ne_true)]
  simp only [feed, hstep, List.append_nil, List.nil_append]

/-- The end of the line of a field. -/
theorem endLine_field (r : Reader) {name : List Char} (value : List Char) (hname : ':' ∉ name) :
    ({ r with line := name ++ ':' :: ' ' :: value } : Reader).endLine =
      (({ r with line := [] } : Reader).field name value, []) := by
  rw [Reader.endLine, if_neg (List.append_ne_nil_of_right_ne_nil _ (List.cons_ne_nil _ _)),
    partition_append hname]
  rfl

theorem oneLine_append {s t : List Char} (hs : OneLine s) (ht : OneLine t) : OneLine (s ++ t) := by
  simp only [OneLine, List.mem_append, not_or] at hs ht ⊢
  exact ⟨⟨hs.1, ht.1⟩, hs.2, ht.2⟩

/-- The line of a field. -/
theorem feed_field (r : Reader) {name value : List Char} (hname : ':' ∉ name) (hn : OneLine name)
    (hv : OneLine value) (hr : r.afterReturn = false) (hl : r.line = []) :
    feed r (fieldLine name value) = (r.field name value, []) := by
  have hline : OneLine (name ++ ':' :: ' ' :: value) :=
    oneLine_append hn (oneLine_append (s := [':', ' ']) (by decide) hv)
  have hr' : ({ r with line := [] } : Reader) = r := by rw [← hl]
  rw [fieldLine, feed_line r hline hr hl, endLine_field r value hname, hr']

/-- An event is read as it was written. -/
theorem feed_event {m : Message} (hm : Frame.Clean (.event m)) :
    feed {} (Frame.event m).text = ({}, [m]) := by
  obtain ⟨hne, ht, hd⟩ := hm
  have hevent : ':' ∉ "event".toList ∧ OneLine "event".toList := by decide
  have hdata : ':' ∉ "data".toList ∧ OneLine "data".toList := by decide
  have htype : feed {} (fieldLine "event".toList m.type) = ({ type := m.type }, []) :=
    feed_field {} hevent.1 hevent.2 ht rfl rfl
  have hbody : feed { type := m.type } (fieldLine "data".toList m.data) =
      ({ type := m.type, data := m.data ++ ['\n'] }, []) :=
    feed_field { type := m.type } hdata.1 hdata.2 hd rfl rfl
  have hend : feed { type := m.type, data := m.data ++ ['\n'] } ['\n'] = ({}, [m]) := by
    simp [feed, Reader.step, Reader.endLine, Reader.dispatch, hne]
  rw [Frame.text, feed_append, htype, feed_append, hbody, hend]
  rfl

/-- A comment is no message. -/
theorem feed_comment {s : List Char} (hs : OneLine s) : feed {} (Frame.comment s).text = ({}, []) := by
  rw [Frame.text, feed_append, feed_field {} List.not_mem_nil (by decide) hs rfl rfl]
  simp [Reader.field, feed, Reader.step, Reader.endLine, Reader.dispatch]

theorem feed_frame {f : Frame} (hf : f.Clean) : feed {} f.text = ({}, f.message?.toList) := by
  cases f with
  | event m => exact feed_event hf
  | comment s => exact feed_comment hf

/-- **What was written is read**: the messages of the frames, in order, and no others. -/
theorem feed_frames {fs : List Frame} (h : ∀ f ∈ fs, f.Clean) :
    feed {} (fs.flatMap Frame.text) = ({}, fs.filterMap Frame.message?) := by
  induction fs with
  | nil => rfl
  | cons f fs ih =>
    obtain ⟨hf, hfs⟩ := List.forall_mem_cons.mp h
    rw [List.flatMap_cons, feed_append, feed_frame hf]
    dsimp only
    rw [ih hfs]
    cases hm : f.message? <;> simp [hm]

/-! ## Streams that break off -/

/-- The messages of a part of a stream are the first of the stream. -/
theorem read_prefix (s t : List Char) : read s <+: read (s ++ t) := by
  rw [read, read, feed_append]
  exact List.prefix_append _ _

/-- **Of a stream that breaks off** a client reads the first messages, each of them whole. -/
theorem feed_cut {fs : List Frame} (h : ∀ f ∈ fs, f.Clean) (n : ℕ) :
    read ((fs.flatMap Frame.text).take n) <+: fs.filterMap Frame.message? := by
  have hpre := read_prefix ((fs.flatMap Frame.text).take n) ((fs.flatMap Frame.text).drop n)
  rwa [List.take_append_drop, read.eq_def (fs.flatMap Frame.text), feed_frames h] at hpre

end EventStream
