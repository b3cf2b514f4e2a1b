import Mathlib.Data.List.Nodup
import Asl3Api.Lib.Dict
import Asl3Api.Lib.Wire
import Asl3Api.Vnext.Transport

/-!
# AMI frames on the wire (`vnext/transport.py`)

* `AMISession.frame`: one frame read from the stream;
* `Decodes`: a message holds the values of its headers, and nothing else;
* `readHeaders_eq_ok`, `readHeaders_error`: which lines are a message;
* `frame_payload`: the text of an action is read as its fields;
* **`framing_round_trip`**: what is written is what is read, and no value adds a header or a frame.

Nothing is assumed of `str.lower()`, which stands as the parameter `lower`.
-/

set_option autoImplicit false

namespace Asl3

open Py

/-- `result[key]` as a list. -/
def Field.texts : Field → List String
  | .one s => [s]
  | .many xs => xs

namespace AMISession

/-- The limit of the reader, and of a frame. -/
def frameLimit : Nat := 262144

/-- `readuntil(b"\r\n\r\n")` on a stream that brings these bytes and then ends. -/
def readFrame (stream : List UInt8) : Except Error (List UInt8 × List UInt8) :=
  match readUntil (encodeUtf8 blankLine) stream with
  | some (raw, rest) =>
    if frameLimit < raw.length - 4 then .error (.py .limitOverrunError) else .ok (raw, rest)
  | none =>
    if frameLimit + 3 < stream.length then .error (.py .limitOverrunError)
    else .error (.py .incompleteReadError)

/-- The headers that may come more than once. -/
def repeatable : List String := ["var", "conn", "output"]

/-- `char.isspace()`. -/
def isUnicodeSpace (c : Char) : Bool :=
  let n := c.toNat
  (9 ≤ n && n ≤ 13) || (28 ≤ n && n ≤ 32) || n = 0x85 || n = 0xa0 || n = 0x1680 ||
    (0x2000 ≤ n && n ≤ 0x200a) || n = 0x2028 || n = 0x2029 || n = 0x202f || n = 0x205f || n = 0x3000

/-- `value.lstrip(" ")`. -/
def lstrip (value : List Char) : List Char := value.dropWhile (· = ' ')

section

variable (lower : String → String)

/-- The body of the loop of `frame`, up to the duplicate check. -/
def headerOf (line : List Char) : Except Error (String × String) :=
  let (key, separator, value) := partition ':' line
  if separator = false ∨ key = [] ∨ key.any isUnicodeSpace = true then
    .error (.protocol "Malformed AMI header")
  else .ok (lower (String.ofList key), String.ofList (lstrip value))

/-- The rest of the body: a key that is there already becomes a list. -/
def addHeader (result : Message) (key value : String) : Except Error Message :=
  match result.lookup key with
  | none => .ok (result ++ [(key, .one value)])
  | some old =>
    if key ∉ repeatable then .error (.protocol "Duplicate AMI header")
    else .ok (result.map fun f => if f.1 = key then (key, .many (old.texts ++ [value])) else f)

/-- The loop of `frame`. -/
def readHeaders (result : Message) : List (List Char) → Except Error Message
  | [] => .ok result
  | line :: lines => match headerOf lower line with
    | .error e => .error e
    | .ok header => match addHeader result header.1 header.2 with
      | .error e => .error e
      | .ok result => readHeaders result lines

/-- What `frame` makes of the bytes it has read. -/
def decodeFrame (raw : List UInt8) : Except Error Message :=
  if frameLimit < raw.length then .error (.protocol "AMI frame too large")
  else match decodeUtf8 (raw.take (raw.length - 4)) with
    | none => .error (.protocol "Invalid AMI encoding")
    | some text => readHeaders lower [] (splitLines text)

/-- `frame`: the message, and what stays in the stream. -/
def frame (stream : List UInt8) : Except Error (Message × List UInt8) :=
  match readFrame stream with
  | .error e => .error e
  | .ok (raw, rest) => match decodeFrame lower raw with
    | .error e => .error e
    | .ok m => .ok (m, rest)

end

/-! ## Messages and their headers -/

/-- The values of a key, in order. -/
def valuesOf (headers : List (String × String)) (key : String) : List String :=
  (headers.filter fun h => h.1 = key).map Prod.snd

/-- The field of a key that has these values. -/
def fieldOf : List String → Option Field
  | [] => none
  | [v] => some (.one v)
  | vs => some (.many vs)

/-- The message has one entry for every key of the headers, with all its values in order, and no
other. -/
structure Decodes (headers : List (String × String)) (m : Message) : Prop where
  keys : (m.map Prod.fst).Nodup
  fields : ∀ key, m.lookup key = fieldOf (valuesOf headers key)

/-- Only `var`, `conn` and `output` come more than once. -/
def Repeats (headers : List (String × String)) : Prop :=
  ∀ key, key ∉ repeatable → (valuesOf headers key).length ≤ 1

theorem valuesOf_append (hs hs' : List (String × String)) (key : String) :
    valuesOf (hs ++ hs') key = valuesOf hs key ++ valuesOf hs' key := by
  simp [valuesOf]

theorem valuesOf_singleton (key key' value : String) :
    valuesOf [(key, value)] key' = if key = key' then [value] else [] := by
  unfold valuesOf
  by_cases h : key = key' <;> simp [h]

theorem fieldOf_eq_none {vs : List String} : fieldOf vs = none ↔ vs = [] := by
  unfold fieldOf
  split <;> simp_all

theorem fieldOf_eq_some {vs : List String} {f : Field} (h : fieldOf vs = some f) : f.texts = vs := by
  unfold fieldOf at h
  split at h <;> cases h <;> rfl

/-- More than one value is a list. -/
theorem fieldOf_append {vs : List String} (hne : vs ≠ []) (v : String) :
    fieldOf (vs ++ [v]) = some (.many (vs ++ [v])) := by
  obtain ⟨w, ws, rfl⟩ := List.exists_cons_of_ne_nil hne
  cases ws <;> rfl

theorem Repeats.left {hs hs' : List (String × String)} (h : Repeats (hs ++ hs')) : Repeats hs := by
  intro key hk
  have := h key hk
  rw [valuesOf_append, List.length_append] at this
  omega

section

variable {hs : List (String × String)} {m : Message} {key : String} (value : String)

theorem Decodes.nil : Decodes [] [] := ⟨List.nodup_nil, fun _ => rfl⟩

theorem Decodes.new (hm : Decodes hs m) (hv : valuesOf hs key = []) :
    Decodes (hs ++ [(key, value)]) (m ++ [(key, .one value)]) := by
  have hlook : m.lookup key = none := by rw [hm.fields, hv]; rfl
  constructor
  · rw [List.map_append, List.map_singleton, List.nodup_append]
    refine ⟨hm.keys, List.pairwise_singleton _ _, ?_⟩
    rintro k hk _ hk' rfl
    rw [List.mem_singleton.mp hk', ← lookup_isSome_iff_mem, hlook] at hk
    cases hk
  · intro key'
    rw [valuesOf_append, valuesOf_singleton, List.lookup_append, hm.fields, List.lookup_cons,
      List.lookup_nil]
    by_cases hk : key = key'
    · subst hk
      rw [hv]
      simp [fieldOf]
    · have hb : (key' == key) = false := beq_false_of_ne (Ne.symm hk)
      simp [hb, hk]

theorem Decodes.more (hm : Decodes hs m) {old : Field} (ho : m.lookup key = some old) :
    Decodes (hs ++ [(key, value)])
      (m.map fun f => if f.1 = key then (key, .many (old.texts ++ [value])) else f) := by
  have hf := hm.fields key
  rw [ho] at hf
  have hne : valuesOf hs key ≠ [] := by
    intro h
    rw [h] at hf
    cases hf
  constructor
  · have hkeys : (m.map fun f => if f.1 = key then (key, .many (old.texts ++ [value])) else f).map
        Prod.fst = m.map Prod.fst := by
      rw [List.map_map]
      refine List.map_congr_left fun f _ => ?_
      by_cases hk : f.1 = key <;> simp [hk]
    rw [hkeys]
    exact hm.keys
  · intro key'
    rw [lookup_replace, valuesOf_append, valuesOf_singleton]
    by_cases hk : key' = key
    · subst hk
      rw [if_pos rfl, if_pos rfl, ho, fieldOf_append hne, fieldOf_eq_some hf.symm]
      rfl
    · rw [if_neg hk, if_neg (Ne.symm hk), List.append_nil, hm.fields]

/-- One more header, when its key is new or may come again. -/
theorem addHeader_ok (hm : Decodes hs m) (h : key ∈ repeatable ∨ valuesOf hs key = []) :
    ∃ m', addHeader m key value = .ok m' ∧ Decodes (hs ++ [(key, value)]) m' := by
  unfold addHeader
  cases ho : m.lookup key with
  | none => exact ⟨_, rfl, hm.new value (fieldOf_eq_none.mp ((hm.fields key).symm.trans ho))⟩
  | some old =>
    have hr : key ∈ repeatable := by
      refine h.resolve_right fun hv => ?_
      rw [hm.fields, hv] at ho
      cases ho
    exact ⟨_, if_neg (not_not.mpr hr), hm.more value ho⟩

theorem addHeader_error (hm : Decodes hs m) (hr : key ∉ repeatable) (hv : valuesOf hs key ≠ []) :
    addHeader m key value = .error (.protocol "Duplicate AMI header") := by
  unfold addHeader
  cases ho : m.lookup key with
  | none => exact absurd (fieldOf_eq_none.mp ((hm.fields key).symm.trans ho)) hv
  | some old => exact if_pos hr

end

/-! ## Lines and their headers -/

/-- A key that `frame` accepts. -/
structure GoodKey (key : String) : Prop where
  nonempty : key ≠ ""
  colon : ':' ∉ key.toList
  space : ∀ c ∈ key.toList, isUnicodeSpace c = false

instance (key : String) : Decidable (GoodKey key) :=
  decidable_of_iff (key ≠ "" ∧ ':' ∉ key.toList ∧ (key.toList.all fun c => !isUnicodeSpace c) = true)
    ⟨fun ⟨h, h', h''⟩ => ⟨h, h', by simpa using h''⟩,
      fun ⟨h, h', h''⟩ => ⟨h, h', by simpa using h''⟩⟩

/-- A line is the text of a header: a key, a colon and the value, after spaces. -/
def HeaderLine (lower : String → String) (line : List Char) (header : String × String) : Prop :=
  ∃ (key : String) (value : List Char), GoodKey key ∧ line = key.toList ++ ':' :: value ∧
    header = (lower key, String.ofList (lstrip value))

variable {lower : String → String}

theorem headerOf_iff {line : List Char} {header : String × String} :
    headerOf lower line = .ok header ↔ HeaderLine lower line header := by
  constructor
  · intro h
    unfold headerOf at h
    rcases hp : partition ':' line with ⟨key, separator, value⟩
    simp only [hp] at h
    split_ifs at h with hc
    rw [not_or, not_or, Bool.not_eq_false, Bool.not_eq_true, List.any_eq_false] at hc
    obtain ⟨rfl, hne, hsp⟩ := hc
    refine ⟨String.ofList key, value, ⟨?_, ?_, ?_⟩, ?_, (Except.ok.inj h).symm⟩
    · exact fun he => hne (String.ofList_eq_empty_iff.mp he)
    · rw [String.toList_ofList]
      exact partition_head hp
    · rw [String.toList_ofList]
      exact fun c hm => Bool.eq_false_iff.mpr (hsp c hm)
    · rw [String.toList_ofList]
      exact partition_found hp
  · rintro ⟨key, value, hk, rfl, rfl⟩
    have hne : key.toList ≠ [] := by simpa using hk.nonempty
    have hsp : key.toList.any isUnicodeSpace = false :=
      List.any_eq_false.mpr fun c hc => by simp [hk.space c hc]
    unfold headerOf
    rw [partition_append hk.colon]
    simp [hne, hsp]

theorem readHeaders_ok {lines : List (List Char)} {pre entries : List (String × String)}
    {m : Message} (hm : Decodes pre m) (hl : List.Forall₂ (HeaderLine lower) lines entries)
    (hr : Repeats (pre ++ entries)) :
    ∃ m', readHeaders lower m lines = .ok m' ∧ Decodes (pre ++ entries) m' := by
  induction hl generalizing pre m with
  | nil => exact ⟨m, rfl, by rwa [List.append_nil]⟩
  | @cons line entry lines entries hline _ ih =>
    have happ : pre ++ entry :: entries = pre ++ [entry] ++ entries := by simp
    rw [happ] at hr ⊢
    have hnew : entry.1 ∈ repeatable ∨ valuesOf pre entry.1 = [] := by
      by_contra hc
      rw [not_or] at hc
      have hlen := hr.left entry.1 hc.1
      rw [valuesOf_append, valuesOf_singleton, if_pos rfl, List.length_append,
        List.length_singleton] at hlen
      exact hc.2 (List.eq_nil_of_length_eq_zero (by omega))
    obtain ⟨m₁, h₁, hm₁⟩ := addHeader_ok entry.2 hm hnew
    obtain ⟨m', h', hm'⟩ := ih hm₁ hr
    refine ⟨m', ?_, hm'⟩
    rw [readHeaders, headerOf_iff.mpr hline]
    simp only [h₁, h']

/-- Lines that are read are headers, and repeat only what may be repeated. -/
theorem headers_of_readHeaders {lines : List (List Char)} {pre : List (String × String)}
    {m m' : Message} (hm : Decodes pre m) (hr : Repeats pre)
    (h : readHeaders lower m lines = .ok m') :
    ∃ entries, List.Forall₂ (HeaderLine lower) lines entries ∧ Repeats (pre ++ entries) := by
  induction lines generalizing pre m with
  | nil => exact ⟨[], .nil, by rwa [List.append_nil]⟩
  | cons line lines ih =>
    rw [readHeaders] at h
    cases hh : headerOf lower line with
    | error e => rw [hh] at h; cases h
    | ok entry =>
      simp only [hh] at h
      by_cases hnew : entry.1 ∈ repeatable ∨ valuesOf pre entry.1 = []
      · obtain ⟨m₁, h₁, hm₁⟩ := addHeader_ok entry.2 hm hnew
        rw [h₁] at h
        have hr₁ : Repeats (pre ++ [entry]) := by
          intro key hk
          rw [valuesOf_append, valuesOf_singleton, List.length_append]
          by_cases he : entry.1 = key
          · subst he
            rw [hnew.resolve_left hk, if_pos rfl]
            exact le_refl 1
          · rw [if_neg he]
            exact hr key hk
        obtain ⟨entries, hf, hrs⟩ := ih hm₁ hr₁ h
        refine ⟨entry :: entries, .cons (headerOf_iff.mp hh) hf, ?_⟩
        rwa [List.append_cons]
      · rw [not_or] at hnew
        rw [addHeader_error entry.2 hm hnew.1 hnew.2] at h
        cases h

/-- Every error of the loop is a `ProtocolError`. -/
theorem readHeaders_error {lines : List (List Char)} {m : Message} {e : Error}
    (h : readHeaders lower m lines = .error e) : ∃ text, e = .protocol text := by
  induction lines generalizing m with
  | nil => cases h
  | cons line lines ih =>
    rw [readHeaders] at h
    cases hh : headerOf lower line with
    | error e' =>
      rw [hh] at h
      cases h
      unfold headerOf at hh
      dsimp only at hh
      split_ifs at hh
      cases hh
      exact ⟨_, rfl⟩
    | ok entry =>
      simp only [hh] at h
      cases ha : addHeader m entry.1 entry.2 with
      | error e' =>
        rw [ha] at h
        cases h
        unfold addHeader at ha
        split at ha
        · cases ha
        · split_ifs at ha
          cases ha
          exact ⟨_, rfl⟩
      | ok m₁ =>
        rw [ha] at h
        exact ih h

/-! ## The text of an action -/

/-- Headers as `frame` gives them back: the key in lower case, the value without leading spaces. -/
def received (lower : String → String) (headers : List (String × String)) : List (String × String) :=
  headers.map fun h => (lower h.1, String.ofList (lstrip h.2.toList))

/-- The line of a header. -/
def headerLine (h : String × String) : List Char := h.1.toList ++ ':' :: ' ' :: h.2.toList

/-- Headers whose text is a frame: good keys, and no value holds a line separator. -/
structure Sendable (headers : List (String × String)) : Prop where
  nonempty : headers ≠ []
  keys : ∀ h ∈ headers, GoodKey h.1
  values : ∀ h ∈ headers, ¬ crlf <:+: h.2.toList

theorem headerLine_spec {h : String × String} (hk : GoodKey h.1) :
    HeaderLine lower (headerLine h) (lower h.1, String.ofList (lstrip h.2.toList)) :=
  ⟨h.1, ' ' :: h.2.toList, hk, rfl, rfl⟩

/-- A separator behind a text without a carriage return is behind it as a whole. -/
theorem crlf_infix_append {s t : List Char} (hs : '\r' ∉ s) (h : crlf <:+: s ++ t) : crlf <:+: t := by
  induction s with
  | nil => exact h
  | cons c s ih =>
    rw [List.mem_cons, not_or] at hs
    rcases List.infix_cons_iff.mp h with hp | hi
    · exact absurd (List.cons_prefix_cons.mp hp).1 hs.1
    · exact ih hs.2 hi

theorem headerLine_crlf {h : String × String} (hk : GoodKey h.1) (hv : ¬ crlf <:+: h.2.toList) :
    ¬ crlf <:+: headerLine h := by
  intro hi
  refine hv (crlf_infix_append (s := h.1.toList ++ [':', ' ']) ?_ (by simpa [headerLine] using hi))
  rw [List.mem_append, not_or]
  exact ⟨fun hc => absurd (hk.space _ hc) (by decide), by decide⟩

/-- The text of an action is its lines and a blank line. -/
theorem payload_toList (headers : List (String × String)) :
    (payload headers).toList = crlf.intercalate (headers.map headerLine) ++ blankLine := by
  have hline : String.toList ∘ (fun f : String × String => f.1 ++ ": " ++ f.2) = headerLine := by
    funext h
    simp [headerLine]
  rw [payload, String.toList_append, String.toList_intercalate, List.map_map, hline]
  rfl

section

variable {headers : List (String × String)} (hs : Sendable headers)

include hs

theorem splitLines_payload :
    splitLines (crlf.intercalate (headers.map headerLine)) = headers.map headerLine := by
  refine splitLines_join (by simpa using hs.nonempty) ?_
  rw [List.forall_mem_map]
  exact fun h hm => headerLine_crlf (hs.keys h hm) (hs.values h hm)

theorem no_empty_line : [] ∉ splitLines (crlf.intercalate (headers.map headerLine)) := by
  rw [splitLines_payload hs, List.mem_map]
  rintro ⟨h, -, he⟩
  exact absurd he (by simp [headerLine])

/-- **The text of an action is read as its headers**, whatever bytes come next. -/
theorem frame_payload (hr : Repeats (received lower headers))
    (hlen : (encodeUtf8 (payload headers).toList).length ≤ frameLimit) (rest : List UInt8) :
    ∃ m, frame lower (encodeUtf8 (payload headers).toList ++ rest) = .ok (m, rest) ∧
      Decodes (received lower headers) m := by
  have hread : readFrame (encodeUtf8 (payload headers).toList ++ rest) =
      .ok (encodeUtf8 (payload headers).toList, rest) := by
    rw [readFrame, payload_toList, readUntil_encode (no_empty_line hs)]
    rw [payload_toList] at hlen
    exact if_neg (by omega)
  have htake : (encodeUtf8 (payload headers).toList).take
      ((encodeUtf8 (payload headers).toList).length - 4) =
        encodeUtf8 (crlf.intercalate (headers.map headerLine)) := by
    rw [payload_toList, encodeUtf8_append]
    exact List.take_left' (by rw [List.length_append]; rfl)
  have hlines : List.Forall₂ (HeaderLine lower) (headers.map headerLine)
      (received lower headers) := by
    rw [received, List.forall₂_map_left_iff, List.forall₂_map_right_iff, List.forall₂_same]
    exact fun h hm => headerLine_spec (hs.keys h hm)
  obtain ⟨m, hm, hd⟩ := @readHeaders_ok lower _ [] _ [] .nil hlines hr
  refine ⟨m, ?_, hd⟩
  rw [frame, hread]
  simp only [decodeFrame, if_neg (not_lt.mpr hlen), htake, decodeUtf8_encodeUtf8,
    splitLines_payload hs, hm]

/-- The only frame separator of the text is the one at its end. -/
theorem payload_terminator {before after : List UInt8}
    (h : encodeUtf8 (payload headers).toList = before ++ (encodeUtf8 blankLine ++ after)) :
    after = [] := by
  obtain ⟨hi, he⟩ := no_blankLine (no_empty_line hs)
  have hlen := h
  rw [payload_toList, encodeUtf8_append, ← List.append_nil (encodeUtf8 blankLine),
    List.append_assoc] at h
  have hle := (first_encode hi he []).length_le h
  have h' := congrArg List.length h
  simp only [List.length_append, List.length_nil] at h'
  exact List.eq_nil_of_length_eq_zero (by omega)

end

/-! ## Lines that are no message -/

/-- The lower-case key of a line. -/
def keyOf (lower : String → String) (line : List Char) : String :=
  lower (String.ofList (line.takeWhile (· ≠ ':')))

/-- A line without a colon (an empty line is one), with an empty key or with white space in its key,
or a key that comes twice and may not. -/
inductive Malformed (lower : String → String) (lines : List (List Char)) : Prop where
  | noColon (line : List Char) (mem : line ∈ lines) (none : ':' ∉ line)
  | emptyKey (line : List Char) (mem : line ∈ lines) (first : line.head? = some ':')
  | spaceInKey (line : List Char) (mem : line ∈ lines) (c : Char)
    (key : c ∈ line.takeWhile (· ≠ ':')) (space : isUnicodeSpace c = true)
  | repeated (key : String) (once : key ∉ repeatable)
    (twice : 1 < lines.countP fun line => keyOf lower line = key)

theorem takeWhile_key {key : String} (hk : GoodKey key) (value : List Char) :
    (key.toList ++ ':' :: value).takeWhile (· ≠ ':') = key.toList := by
  rw [List.takeWhile_append_of_pos]
  · simp
  · intro c hc
    rw [decide_eq_true_eq]
    rintro rfl
    exact hk.colon hc

theorem keyOf_headerLine {line : List Char} {header : String × String}
    (h : HeaderLine lower line header) : keyOf lower line = header.1 := by
  obtain ⟨key, value, hk, rfl, rfl⟩ := h
  rw [keyOf, takeWhile_key hk, String.ofList_toList]

theorem length_valuesOf {lines : List (List Char)} {headers : List (String × String)}
    (h : List.Forall₂ (HeaderLine lower) lines headers) (key : String) :
    (valuesOf headers key).length = lines.countP fun line => keyOf lower line = key := by
  induction h with
  | nil => rfl
  | @cons line header lines headers hh _ ih =>
    rw [List.countP_cons, keyOf_headerLine hh, ← ih]
    unfold valuesOf
    by_cases hk : header.1 = key <;> simp [hk]

theorem Malformed.not_headers {lines : List (List Char)} (h : Malformed lower lines)
    {headers : List (String × String)} (hl : List.Forall₂ (HeaderLine lower) lines headers) :
    ¬ Repeats headers := by
  intro hr
  cases h with
  | noColon line mem none =>
    obtain ⟨header, -, key, value, -, rfl, -⟩ := forall₂_mem_left hl mem
    exact none (by simp)
  | emptyKey line mem first =>
    obtain ⟨header, -, key, value, hk, rfl, -⟩ := forall₂_mem_left hl mem
    obtain ⟨c, cs, hc⟩ := List.exists_cons_of_ne_nil
      (show key.toList ≠ [] by simpa using hk.nonempty)
    rw [hc, List.cons_append, List.head?_cons, Option.some.injEq] at first
    exact hk.colon (by rw [hc, first]; exact List.mem_cons_self)
  | spaceInKey line mem c key space =>
    obtain ⟨header, -, key', value, hk, rfl, -⟩ := forall₂_mem_left hl mem
    rw [takeWhile_key hk] at key
    rw [hk.space c key] at space
    cases space
  | repeated key once twice =>
    have := hr key once
    rw [length_valuesOf hl] at this
    omega

/-- A frame with such lines is refused. -/
theorem frame_malformed {stream raw rest : List UInt8} {text : List Char}
    (hread : readUntil (encodeUtf8 blankLine) stream = some (raw, rest))
    (hlen : raw.length ≤ frameLimit) (htext : decodeUtf8 (raw.take (raw.length - 4)) = some text)
    (h : Malformed lower (splitLines text)) :
    ∃ reason, frame lower stream = .error (.protocol reason) := by
  have hframe : readFrame stream = .ok (raw, rest) := by
    rw [readFrame, hread]
    exact if_neg (by omega)
  rw [frame, hframe]
  simp only [decodeFrame, if_neg (not_lt.mpr hlen), htext]
  cases hh : readHeaders lower [] (splitLines text) with
  | ok m =>
    obtain ⟨headers, hl, hr⟩ := headers_of_readHeaders .nil (fun _ _ => Nat.zero_le _) hh
    exact absurd hr (h.not_headers hl)
  | error e =>
    obtain ⟨reason, rfl⟩ := readHeaders_error hh
    exact ⟨reason, rfl⟩

/-! ## The action and the frame -/

theorem repeats_of_nodup {headers : List (String × String)} (h : (headers.map Prod.fst).Nodup) :
    Repeats headers := by
  intro key _
  have hc := List.nodup_iff_count_le_one.mp h key
  rw [List.count_eq_countP, List.countP_map, List.countP_eq_length_filter] at hc
  rw [valuesOf, List.length_map]
  convert hc using 4
  exact (beq_eq_decide _ _).symm

theorem lstrip_of_head {value : String} (h : value.toList.head? ≠ some ' ') :
    String.ofList (lstrip value.toList) = value := by
  rw [← String.toList_inj, String.toList_ofList, lstrip]
  cases hv : value.toList with
  | nil => rfl
  | cons c cs =>
    rw [hv] at h
    rw [List.dropWhile_cons_of_neg]
    rw [decide_eq_true_eq]
    exact fun hc => h (congrArg some hc)

theorem goodKey_actionID : GoodKey "ActionID" := by decide +kernel

/-- What an accepted action sends: its fields and the fresh id, none of which breaks a line. -/
theorem encode_sendable {fields : List (String × String)} {actionId p : String}
    (h : encode fields actionId = .ok p) (hk : ∀ f ∈ fields, GoodKey f.1)
    (hid : ∀ f ∈ fields, f.1 ≠ "ActionID") :
    p = payload (fields ++ [("ActionID", actionId)]) ∧
      Sendable (fields ++ [("ActionID", actionId)]) := by
  have hwith : withActionId fields actionId = fields ++ [("ActionID", actionId)] := by
    refine if_neg ?_
    rw [Bool.not_eq_true, List.any_eq_false]
    exact fun f hf => by simpa using hid f hf
  rw [encode_eq_ok, hwith] at h
  refine ⟨h.2, by simp, fun f hf => ?_, fun f hf hi => ?_⟩
  · rcases List.mem_append.mp hf with hf | hf
    · exact hk f hf
    · rw [List.mem_singleton.mp hf]
      exact goodKey_actionID
  · exact (h.1 f hf).1 (hi.subset List.mem_cons_self)

/-- **Framing.** The text of headers is read as these headers; lines that are no headers, or repeat
one, are refused; and what an action sends is one frame, read as its fields and its id. -/
theorem framing_round_trip (lower : String → String) :
    (∀ headers rest, Sendable headers → (∀ h ∈ headers, h.2.toList.head? ≠ some ' ') →
      Repeats (headers.map fun h => (lower h.1, h.2)) →
      (encodeUtf8 (payload headers).toList).length ≤ frameLimit →
      ∃ m, frame lower (encodeUtf8 (payload headers).toList ++ rest) = .ok (m, rest) ∧
        Decodes (headers.map fun h => (lower h.1, h.2)) m) ∧
    (∀ stream raw rest text, readUntil (encodeUtf8 blankLine) stream = some (raw, rest) →
      raw.length ≤ frameLimit → decodeUtf8 (raw.take (raw.length - 4)) = some text →
      Malformed lower (splitLines text) →
      ∃ reason, frame lower stream = .error (.protocol reason)) ∧
    ∀ fields actionId p rest, encode fields actionId = .ok p → (∀ f ∈ fields, GoodKey f.1) →
      ((fields.map fun f => lower f.1) ++ [lower "ActionID"]).Nodup →
      (encodeUtf8 p.toList).length ≤ frameLimit →
      blankLine <:+ p.toList ∧
      (∀ before after, encodeUtf8 p.toList = before ++ (encodeUtf8 blankLine ++ after) →
        after = []) ∧
      ∃ m, frame lower (encodeUtf8 p.toList ++ rest) = .ok (m, rest) ∧
        Decodes (received lower (fields ++ [("ActionID", actionId)])) m := by
  refine ⟨fun headers rest hs hv hr hlen => ?_, fun stream raw rest text hread hlen htext h => ?_,
    fun fields actionId p rest h hk hn hlen => ?_⟩
  · have hrec : received lower headers = headers.map fun h => (lower h.1, h.2) :=
      List.map_congr_left fun h hm => by rw [lstrip_of_head (hv h hm)]
    rw [← hrec] at hr ⊢
    exact frame_payload hs hr hlen rest
  · exact frame_malformed hread hlen htext h
  · have hid : ∀ f ∈ fields, f.1 ≠ "ActionID" := by
      intro f hf he
      rw [List.nodup_append] at hn
      exact hn.2.2 _ (List.mem_map_of_mem hf) _ List.mem_cons_self (congrArg lower he)
    obtain ⟨rfl, hs⟩ := encode_sendable h hk hid
    have hr : Repeats (received lower (fields ++ [("ActionID", actionId)])) := by
      refine repeats_of_nodup ?_
      simpa [received, Function.comp_def] using hn
    refine ⟨?_, fun before after he => payload_terminator hs he, frame_payload hs hr hlen rest⟩
    rw [payload_toList]
    exact List.suffix_append _ _

/-- A reply with a variable that comes twice, and a value with a colon. -/
def sampleHeaders : List (String × String) :=
  [("Response", "Success"), ("Var", "RPT_TXKEYED=0"), ("Message", "sent: 10:30"),
    ("Var", "RPT_NUMLINKS=0")]

/-- The repeated variable is a list, the colon stays in its value, and an action with such a value is
read as its fields and its id. -/
theorem framing_round_trip_repeated : (∃ m,
    frame String.toLower (encodeUtf8 (payload sampleHeaders).toList ++ []) = .ok (m, []) ∧
    m.lookup "var" = some (.many ["RPT_TXKEYED=0", "RPT_NUMLINKS=0"]) ∧
    m.lookup "message" = some (.one "sent: 10:30") ∧ m.lookup "sent" = none) ∧
    ∃ p m, encode [("Action", "Command"), ("Command", "a: b")] "x1" = .ok p ∧
      frame String.toLower (encodeUtf8 p.toList ++ []) = .ok (m, []) ∧
      m.lookup "command" = some (.one "a: b") ∧ m.lookup "actionid" = some (.one "x1") := by
  obtain ⟨htext, -, haction⟩ := framing_round_trip String.toLower
  have hlower : (sampleHeaders.map fun h => (h.1.toLower, h.2)) =
      [("response", "Success"), ("var", "RPT_TXKEYED=0"), ("message", "sent: 10:30"),
        ("var", "RPT_NUMLINKS=0")] := by decide +kernel
  have hrepeats : Repeats (sampleHeaders.map fun h => (h.1.toLower, h.2)) := by
    rw [hlower]
    intro key hk
    rw [repeatable, List.mem_cons, not_or] at hk
    by_cases hresponse : "response" = key
    · subst hresponse
      decide
    · by_cases hmessage : "message" = key
      · subst hmessage
        decide
      · simp [valuesOf, hresponse, hmessage, Ne.symm hk.1]
  constructor
  · obtain ⟨m, hm, hd⟩ := htext sampleHeaders [] ⟨by decide, by decide +kernel, by decide +kernel⟩
      (by decide +kernel) hrepeats (by decide +kernel)
    rw [hlower] at hd
    exact ⟨m, hm, hd.fields "var", hd.fields "message", hd.fields "sent"⟩
  · obtain ⟨p, hp⟩ : ∃ p, encode [("Action", "Command"), ("Command", "a: b")] "x1" = .ok p :=
      ⟨_, rfl⟩
    have hlength : (encodeUtf8 p.toList).length ≤ frameLimit := by
      cases hp
      decide +kernel
    obtain ⟨-, -, m, hm, hd⟩ := haction _ _ p [] hp (by decide +kernel) (by decide +kernel) hlength
    have hreceived : received String.toLower ([("Action", "Command"), ("Command", "a: b")] ++
        [("ActionID", "x1")]) = [("action", "Command"), ("command", "a: b"), ("actionid", "x1")] := by
      decide +kernel
    rw [hreceived] at hd
    exact ⟨p, m, hp, hm, hd.fields "command", hd.fields "actionid"⟩

end AMISession

end Asl3
