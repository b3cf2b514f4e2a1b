import Mathlib.Tactic.IntervalCases
import Asl3Api.Lib.Text
import Asl3Api.Vnext.Framing

/-!
# The audit log (`asl_agent.py`)

* `Moment`: the time stamps;
* `auditLog`, `getAuditLog`: the writer of the log, and the reader of its last lines;
* `AuditCall`, `entryOf_line`: a call of the writer, and what the reader makes of its line;
* `RoundTrips`, **`audit_round_trip`**: when the reader returns what was written;
* `Window`, **`audit_window`**: when the reader returns the last lines it is asked for.

The file is UTF-8 text, and every write succeeds.
-/

set_option autoImplicit false

namespace Asl3

open Py
open AMISession (isUnicodeSpace)

/-! ## Time stamps -/

/-- A `datetime` in UTC. -/
structure Moment where
  year : ℕ
  month : ℕ
  day : ℕ
  hour : ℕ
  minute : ℕ
  second : ℕ
  microsecond : ℕ
  date : 1 ≤ year ∧ year ≤ 9999 ∧ 1 ≤ month ∧ month ≤ 12 ∧ 1 ≤ day ∧ day ≤ 31
  time : hour ≤ 23 ∧ minute ≤ 59 ∧ second ≤ 59 ∧ microsecond ≤ 999999

/-- The last `width` decimal digits of a number. -/
def digits : ℕ → ℕ → List Char
  | 0, _ => []
  | width + 1, n => digits width (n / 10) ++ [Nat.digitChar (n % 10)]

/-- `isoformat()`, without the fraction when there are no microseconds. -/
def Moment.isoformat (m : Moment) : List Char :=
  digits 4 m.year ++ '-' :: (digits 2 m.month ++ '-' :: (digits 2 m.day ++ 'T' ::
    (digits 2 m.hour ++ ':' :: (digits 2 m.minute ++ ':' :: (digits 2 m.second ++
      ((if m.microsecond = 0 then [] else '.' :: digits 6 m.microsecond) ++ "+00:00".toList))))))

/-! ## The writer -/

/-- `" | "`. -/
def separator : List Char := [' ', '|', ' ']

/-- A call `audit_log(command, details)` with the time it is made at. -/
structure AuditCall where
  moment : Moment
  command : String
  details : String := ""

/-- The entry of a call without the end of its line. -/
def AuditCall.line (c : AuditCall) : List Char :=
  c.moment.isoformat ++ separator ++ (c.command.toList ++ separator ++ c.details.toList)

/-- `audit_log`: the file after the call. -/
def auditLog (file : Option (List Char)) (c : AuditCall) : Option (List Char) :=
  some (file.getD [] ++ (c.line ++ ['\n']))

/-! ## The reader -/

/-- An entry of the answer. -/
structure AuditEntry where
  timestamp : Option String
  command : Option String
  details : Option String
  raw : String
  deriving DecidableEq, Repr

/-- `xs[start:]`. -/
def sliceFrom {α : Type} (xs : List α) (start : ℤ) : List α :=
  xs.drop (if start < 0 then xs.length + start else start).toNat

/-- `all_lines[-lines:] if len(all_lines) > lines else all_lines`. -/
def recentLines {α : Type} (all : List α) (lines : ℤ) : List α :=
  if lines < all.length then sliceFrom all (-lines) else all

/-- The body of the loop over the lines. -/
def entryOf (line : List Char) : Option AuditEntry :=
  let line := Text.strip isUnicodeSpace line
  if line = [] then none
  else
    let parts := (Text.splitMax separator 2 line).map String.ofList
    some { timestamp := parts[0]?, command := parts[1]?, details := parts[2]?, raw := String.ofList line }

/-- `get_audit_log`: the entries and their count. -/
def getAuditLog (file : Option (List Char)) (lines : ℤ) : List AuditEntry × ℕ :=
  match file with
  | none => ([], 0)
  | some text =>
    let entries := (recentLines (Text.lines '\n' (Text.universalNewlines text)) lines).filterMap entryOf
    (entries, entries.length)

/-! ## Time stamps are single words -/

theorem mem_digits {width n : ℕ} {c : Char} (h : c ∈ digits width n) :
    ∃ d < 10, c = Nat.digitChar d := by
  induction width generalizing n with
  | zero => cases h
  | succ width ih =>
    rcases List.mem_append.mp h with h | h
    · exact ih h
    · exact ⟨n % 10, Nat.mod_lt _ (by decide), List.mem_singleton.mp h⟩

/-- A character of a time stamp. -/
def stampChar (c : Char) : Bool := c ≠ '|' && !isUnicodeSpace c && c ≠ '\n' && c ≠ '\r'

theorem stampChar_digits {width n : ℕ} : ∀ c ∈ digits width n, stampChar c = true := by
  intro c hc
  obtain ⟨d, hd, rfl⟩ := mem_digits hc
  interval_cases d <;> decide

theorem Moment.stampChar (m : Moment) : ∀ c ∈ m.isoformat, stampChar c = true := by
  have hfraction : ∀ c ∈ if m.microsecond = 0 then [] else '.' :: digits 6 m.microsecond,
      Asl3.stampChar c = true := by
    split_ifs
    · nofun
    · exact List.forall_mem_cons.mpr ⟨by decide, stampChar_digits⟩
  have hzone : ∀ c ∈ "+00:00".toList, Asl3.stampChar c = true := by
    simp [Asl3.stampChar, isUnicodeSpace]
  unfold isoformat
  simp only [List.forall_mem_append, List.forall_mem_cons]
  exact ⟨stampChar_digits, by decide, stampChar_digits, by decide, stampChar_digits, by decide,
    stampChar_digits, by decide, stampChar_digits, by decide, stampChar_digits, hfraction, hzone⟩

/-- A time stamp starts with a digit of its year. -/
theorem Moment.exists_cons (m : Moment) : ∃ c cs, m.isoformat = c :: cs := by
  simp [isoformat, digits]

/-! ## What a line is read as -/

/-- A call as the routes make them: a command of one line without `|`, and details of one line, neither
of them with blanks around it. The details may be empty. -/
structure AuditCall.WellFormed (c : AuditCall) : Prop where
  nonempty : c.command ≠ ""
  mark : '|' ∉ c.command.toList
  commandLine : '\n' ∉ c.command.toList ∧ '\r' ∉ c.command.toList
  commandTrimmed : Text.Trimmed isUnicodeSpace c.command.toList
  detailsLine : '\n' ∉ c.details.toList ∧ '\r' ∉ c.details.toList
  detailsTrimmed : Text.Trimmed isUnicodeSpace c.details.toList

/-- The fields of an entry that is read back as it was written. -/
def AuditCall.fields (c : AuditCall) : Option String × Option String × Option String :=
  (some (String.ofList c.moment.isoformat), some c.command, some c.details)

def AuditEntry.fields (e : AuditEntry) : Option String × Option String × Option String :=
  (e.timestamp, e.command, e.details)

theorem splitMax_separator {n : ℕ} {a : List Char} (ha : '|' ∉ a) (b : List Char) :
    Text.splitMax separator (n + 1) (a ++ separator ++ b) = a :: Text.splitMax separator n b :=
  Text.splitMax_append (x := [' ']) ha (by decide)

/-- A field with the mark at its end only is not split. -/
theorem splitMax_mark {n : ℕ} {a : List Char} (ha : '|' ∉ a) :
    Text.splitMax separator n (a ++ [' ', '|']) = [a ++ [' ', '|']] := by
  refine Text.splitMax_eq_self ?_
  rintro ⟨p, q, h⟩
  -- the mark occurs once
  have hpq : '|' ∉ p ∧ '|' ∉ q := by
    have hcount := congrArg (List.count '|') h
    simp [separator, List.count_eq_zero.mpr ha] at hcount
    exact ⟨List.count_eq_zero.mp (by omega), List.count_eq_zero.mp (by omega)⟩
  have hsplit : (p ++ [' ']) ++ '|' :: ' ' :: q = (a ++ [' ']) ++ '|' :: [] := by
    simpa [separator] using h
  obtain ⟨-, -, hnil⟩ := (List.append_cons_inj_of_notMem (by simpa using hpq.1)
    (by simpa using hpq.2)).mp hsplit
  cases hnil

section

variable {c : AuditCall}

theorem AuditCall.WellFormed.notMem_line (hc : c.WellFormed) : '\n' ∉ c.line ∧ '\r' ∉ c.line := by
  have hstamp : '\n' ∉ c.moment.isoformat ∧ '\r' ∉ c.moment.isoformat :=
    ⟨fun h => absurd (c.moment.stampChar _ h) (by decide),
      fun h => absurd (c.moment.stampChar _ h) (by decide)⟩
  unfold AuditCall.line separator
  simp [hstamp.1, hstamp.2, hc.commandLine.1, hc.commandLine.2, hc.detailsLine.1, hc.detailsLine.2]

/-- What starts with a time stamp and ends with no blank is trimmed. -/
theorem trimmed_stamp (m : Moment) {s : List Char} (hs : s ≠ [])
    (hlast : ∀ a ∈ s.getLast?, isUnicodeSpace a = false) :
    Text.Trimmed isUnicodeSpace (m.isoformat ++ s) := by
  constructor
  · obtain ⟨a, l, hm⟩ := m.exists_cons
    have ha := m.stampChar a (by rw [hm]; exact List.mem_cons_self)
    intro b hb
    rw [hm, List.cons_append, List.head?_cons, Option.mem_some_iff] at hb
    rw [← hb]
    simp only [stampChar, Bool.and_eq_true, Bool.not_eq_true'] at ha
    exact ha.1.1.2
  · intro a ha
    rw [List.getLast?_append_of_ne_nil _ hs] at ha
    exact hlast a ha

/-- The mark is not in a time stamp. -/
theorem Moment.mark (m : Moment) : '|' ∉ m.isoformat :=
  fun h => absurd (m.stampChar _ h) (by decide)

/-- The line of a call with details is read as it was written. -/
theorem AuditCall.WellFormed.entryOf_details (hc : c.WellFormed) (hd : c.details ≠ "") :
    (entryOf (c.line ++ ['\n'])).map AuditEntry.fields = some c.fields := by
  have hne : c.details.toList ≠ [] := by simpa using hd
  have htrim : Text.Trimmed isUnicodeSpace c.line := by
    unfold AuditCall.line
    rw [List.append_assoc]
    refine trimmed_stamp _ (by simp [separator]) fun a ha => ?_
    rw [← List.append_assoc, ← List.append_assoc, List.getLast?_append_of_ne_nil _ hne] at ha
    exact hc.detailsTrimmed.last a ha
  have hline : c.line ≠ [] := by simp [AuditCall.line, separator]
  have hstrip : Text.strip isUnicodeSpace (c.line ++ ['\n']) = c.line :=
    Text.strip_append htrim hline (List.forall_mem_singleton.mpr rfl)
  have hparts : Text.splitMax separator 2 c.line =
      [c.moment.isoformat, c.command.toList, c.details.toList] := by
    rw [AuditCall.line, splitMax_separator c.moment.mark, splitMax_separator hc.mark, Text.splitMax]
  simp only [entryOf, hstrip, if_neg hline, hparts]
  simp [AuditEntry.fields, AuditCall.fields]

/-- The line of a call without details loses the blank of its last separator. -/
theorem AuditCall.WellFormed.entryOf_empty (hc : c.WellFormed) (hd : c.details = "") :
    (entryOf (c.line ++ ['\n'])).map AuditEntry.fields =
      some (some (String.ofList c.moment.isoformat), some (c.command ++ " |"), none) := by
  have hsplit : c.line ++ ['\n'] =
      c.moment.isoformat ++ separator ++ (c.command.toList ++ [' ', '|']) ++ [' ', '\n'] := by
    simp [AuditCall.line, separator, hd]
  have htrim : Text.Trimmed isUnicodeSpace
      (c.moment.isoformat ++ separator ++ (c.command.toList ++ [' ', '|'])) := by
    rw [List.append_assoc]
    refine trimmed_stamp _ (by simp [separator]) fun a ha => ?_
    rw [← List.append_assoc, List.getLast?_append_of_ne_nil _ (by simp)] at ha
    cases ha
    decide
  have hline : c.moment.isoformat ++ separator ++ (c.command.toList ++ [' ', '|']) ≠ [] := by
    simp [separator]
  have hstrip := Text.strip_append htrim hline (t := [' ', '\n'])
    (List.forall_mem_cons.mpr ⟨rfl, List.forall_mem_singleton.mpr rfl⟩)
  have hparts : Text.splitMax separator 2
      (c.moment.isoformat ++ separator ++ (c.command.toList ++ [' ', '|'])) =
        [c.moment.isoformat, c.command.toList ++ [' ', '|']] := by
    rw [splitMax_separator c.moment.mark, splitMax_mark hc.mark]
  rw [hsplit]
  simp only [entryOf, hstrip, if_neg hline, hparts]
  simp [AuditEntry.fields]

/-- **A line is read as it was written** exactly when there are details. -/
theorem AuditCall.WellFormed.entryOf_line (hc : c.WellFormed) : ∃ e, entryOf (c.line ++ ['\n']) = some e ∧
    (e.fields = c.fields ↔ c.details ≠ "") := by
  by_cases hd : c.details = ""
  · obtain ⟨e, he, hf⟩ := Option.map_eq_some_iff.mp (hc.entryOf_empty hd)
    refine ⟨e, he, iff_of_false (fun h => ?_) fun h => h hd⟩
    rw [hf] at h
    cases congrArg (fun f => f.2.2) h
  · obtain ⟨e, he, hf⟩ := Option.map_eq_some_iff.mp (hc.entryOf_details hd)
    exact ⟨e, he, iff_of_true hf hd⟩

end

/-! ## The round trip -/

/-- The file after the calls, when there was none before. -/
def written (calls : List AuditCall) : Option (List Char) := calls.foldl auditLog none

theorem foldl_auditLog (calls : List AuditCall) (text : List Char) :
    calls.foldl auditLog (some text) = some (text ++ calls.flatMap fun c => c.line ++ ['\n']) := by
  induction calls generalizing text with
  | nil => simp
  | cons c calls ih =>
    rw [List.foldl_cons, auditLog, ih, List.flatMap_cons, Option.getD_some, List.append_assoc]

/-- The lines that are read are those that were written. -/
theorem getAuditLog_written {calls : List AuditCall} (hc : ∀ c ∈ calls, c.WellFormed) {lines : ℤ}
    (hl : calls.length ≤ lines) : getAuditLog (written calls) lines =
      let entries := calls.filterMap fun c => entryOf (c.line ++ ['\n'])
      (entries, entries.length) := by
  cases calls with
  | nil => rfl
  | cons c calls =>
    have htext : written (c :: calls) = some ((c :: calls).flatMap fun c => c.line ++ ['\n']) := by
      rw [written, List.foldl_cons, auditLog, foldl_auditLog, Option.getD_none, List.nil_append,
        List.flatMap_cons]
    have hnewlines : '\r' ∉ (c :: calls).flatMap fun c => c.line ++ ['\n'] := by
      intro hm
      obtain ⟨d, hd, hm⟩ := List.mem_flatMap.mp hm
      rcases List.mem_append.mp hm with hm | hm
      · exact (hc d hd).notMem_line.2 hm
      · exact absurd hm (by decide)
    have hlines := Text.lines_flatMap (f := AuditCall.line) fun d hd => (hc d hd).notMem_line.1
    have hrecent : recentLines ((c :: calls).map fun c => c.line ++ ['\n']) lines =
        (c :: calls).map fun c => c.line ++ ['\n'] := if_neg (by rw [List.length_map]; omega)
    simp only [getAuditLog, htext, Text.universalNewlines_eq_self hnewlines, hlines, hrecent,
      List.filterMap_map, Function.comp_def]

/-- `get_audit_log` returns one entry for each call, in order, with the fields that were written. -/
def RoundTrips (calls : List AuditCall) (lines : ℤ) : Prop :=
  (getAuditLog (written calls) lines).1.map AuditEntry.fields = calls.map AuditCall.fields ∧
    (getAuditLog (written calls) lines).2 = calls.length

instance (calls : List AuditCall) (lines : ℤ) : Decidable (RoundTrips calls lines) :=
  inferInstanceAs (Decidable (_ ∧ _))

/-- The entries of the lines, one for each. -/
theorem filterMap_entryOf {calls : List AuditCall} (hc : ∀ c ∈ calls, c.WellFormed) :
    ((calls.filterMap fun c => entryOf (c.line ++ ['\n'])).map AuditEntry.fields =
      calls.map AuditCall.fields ↔ ∀ c ∈ calls, c.details ≠ "") ∧
    (calls.filterMap fun c => entryOf (c.line ++ ['\n'])).length = calls.length := by
  induction calls with
  | nil => simp
  | cons c calls ih =>
    obtain ⟨e, he, hf⟩ := (hc c List.mem_cons_self).entryOf_line
    obtain ⟨hiff, hlen⟩ := ih fun d hd => hc d (List.mem_cons_of_mem _ hd)
    have hcons : (c :: calls).filterMap (fun c => entryOf (c.line ++ ['\n'])) =
        e :: calls.filterMap fun c => entryOf (c.line ++ ['\n']) := List.filterMap_cons_some he
    rw [hcons]
    refine ⟨?_, by rw [List.length_cons, List.length_cons, hlen]⟩
    rw [List.map_cons, List.map_cons, List.cons.injEq, hf, hiff, List.forall_mem_cons]

/-- **The round trip of the audit log.** What was written is read back exactly when every call has
details. -/
theorem audit_round_trip {calls : List AuditCall} (hc : ∀ c ∈ calls, c.WellFormed) {lines : ℤ}
    (hl : calls.length ≤ lines) : RoundTrips calls lines ↔ ∀ c ∈ calls, c.details ≠ "" := by
  obtain ⟨hiff, hlen⟩ := filterMap_entryOf hc
  unfold RoundTrips
  rw [getAuditLog_written hc hl, ← hiff]
  exact and_iff_left hlen

/-- The call of the route `/status`. -/
def statusCall : AuditCall where
  moment := ⟨2024, 5, 17, 9, 30, 0, 250000, by decide, by decide⟩
  command := "status"

theorem statusCall_wellFormed : statusCall.WellFormed :=
  ⟨by decide, by decide, by decide, ⟨by simp [statusCall, isUnicodeSpace],
    by simp [statusCall, isUnicodeSpace]⟩, by decide, ⟨nofun, nofun⟩⟩

/-- Its entry is not what was written. -/
theorem audit_status : ¬ ∀ (calls : List AuditCall) (lines : ℤ), (∀ c ∈ calls, c.WellFormed) →
    calls.length ≤ lines → RoundTrips calls lines := by
  intro h
  have hbad : ¬ RoundTrips [statusCall] 50 := by decide +kernel
  exact hbad (h [statusCall] 50 (List.forall_mem_singleton.mpr statusCall_wellFormed) (by decide))

/-- A call with details is read back. -/
theorem audit_nodes :
    RoundTrips [{ statusCall with command := "nodes", details := "2 connected | 1 keyed" }] 50 := by
  refine (audit_round_trip (List.forall_mem_singleton.mpr ?_) (by decide)).mpr ?_
  · exact ⟨by decide, by decide, by decide, ⟨by simp [isUnicodeSpace], by simp [isUnicodeSpace]⟩,
      by decide, ⟨by simp [isUnicodeSpace], by simp [isUnicodeSpace]⟩⟩
  · exact List.forall_mem_singleton.mpr (by decide)

/-! ## The window -/

/-- The lines of the log. A file that is missing has none. -/
def auditLines : Option (List Char) → List (List Char)
  | none => []
  | some text => Text.lines '\n' (Text.universalNewlines text)

/-- No line of the log is blank. -/
def NonBlank (file : Option (List Char)) : Prop :=
  ∀ line ∈ auditLines file, Text.strip isUnicodeSpace line ≠ []

instance (file : Option (List Char)) : Decidable (NonBlank file) :=
  inferInstanceAs (Decidable (∀ line ∈ auditLines file, _))

/-- `get_audit_log(lines)` returns the last `min(lines, n)` of the `n` lines, oldest first. -/
structure Window (file : Option (List Char)) (lines : ℕ) : Prop where
  entries : (getAuditLog file lines).1.map some =
    ((auditLines file).rtake (min lines (auditLines file).length)).map entryOf
  raw : (getAuditLog file lines).1.map AuditEntry.raw =
    ((auditLines file).rtake (min lines (auditLines file).length)).map fun line =>
      String.ofList (Text.strip isUnicodeSpace line)
  count : (getAuditLog file lines).2 = min lines (auditLines file).length
  extended : ∀ more, lines ≤ more → (getAuditLog file lines).1 <:+ (getAuditLog file more).1
  nothing : lines = 0 → (getAuditLog file lines).1 = []

/-- The answer is read off the lines. -/
theorem getAuditLog_eq (file : Option (List Char)) (lines : ℤ) : getAuditLog file lines =
    (((recentLines (auditLines file) lines).filterMap entryOf),
      ((recentLines (auditLines file) lines).filterMap entryOf).length) := by
  cases file with
  | none =>
    have hnil : recentLines (auditLines none) lines = [] := by
      unfold recentLines sliceFrom auditLines
      split_ifs <;> simp
    rw [hnil]
    rfl
  | some text => rfl

section

variable {α : Type}

/-- A slice of a positive number of lines is the end of the list. -/
theorem recentLines_pos (all : List α) {lines : ℕ} (h : 0 < lines) :
    recentLines all lines = all.rtake lines := by
  unfold recentLines sliceFrom List.rtake
  split_ifs with hlt hneg
  · congr 1
    omega
  · omega
  · rw [Nat.sub_eq_zero_of_le (by omega), List.drop_zero]

/-- `-0` is no negative index, so the slice for no lines is the whole list. -/
theorem recentLines_zero (all : List α) : recentLines all 0 = all := by
  unfold recentLines sliceFrom
  split_ifs <;> simp_all

/-- The last lines are those of a longer end. -/
theorem rtake_suffix_rtake (all : List α) {m n : ℕ} (h : m ≤ n) : all.rtake m <:+ all.rtake n :=
  List.drop_suffix_drop_left all (Nat.sub_le_sub_left h _)

theorem rtake_min_length (all : List α) (n : ℕ) : all.rtake (min n all.length) = all.rtake n := by
  unfold List.rtake
  congr 1
  omega

end

/-- A line that is not blank has an entry, with the text of the line. -/
theorem entryOf_eq {line : List Char} (h : Text.strip isUnicodeSpace line ≠ []) :
    ∃ e, entryOf line = some e ∧ e.raw = String.ofList (Text.strip isUnicodeSpace line) := by
  unfold entryOf
  rw [if_neg h]
  exact ⟨_, rfl, rfl⟩

/-- Lines that are not blank have one entry each. -/
theorem filterMap_nonBlank {log : List (List Char)}
    (h : ∀ line ∈ log, Text.strip isUnicodeSpace line ≠ []) :
    (log.filterMap entryOf).map some = log.map entryOf ∧
    (log.filterMap entryOf).map AuditEntry.raw =
      log.map fun line => String.ofList (Text.strip isUnicodeSpace line) := by
  induction log with
  | nil => exact ⟨rfl, rfl⟩
  | cons line log ih =>
    obtain ⟨hline, hlog⟩ := List.forall_mem_cons.mp h
    obtain ⟨e, he, hraw⟩ := entryOf_eq hline
    obtain ⟨hsome, htexts⟩ := ih hlog
    rw [List.filterMap_cons_some he]
    simp only [List.map_cons, he, hraw, hsome, htexts, and_self]

/-- The window that is asked for is the end of the log, unless no lines are asked for. -/
theorem recentLines_window {file : Option (List Char)} {lines : ℕ}
    (h : lines ≠ 0 ∨ auditLines file = []) :
    recentLines (auditLines file) lines = (auditLines file).rtake lines := by
  rcases Nat.eq_zero_or_pos lines with rfl | hpos
  · obtain hne | hnil := h
    · exact absurd rfl hne
    · rw [hnil, List.rtake_nil]
      exact recentLines_zero []
  · exact recentLines_pos _ hpos

/-- **The window of the audit log.** The last lines are returned exactly when at least one is asked
for, or there is none. -/
theorem audit_window {file : Option (List Char)} (h : NonBlank file) (lines : ℕ) :
    Window file lines ↔ lines ≠ 0 ∨ auditLines file = [] := by
  constructor
  · intro hw
    by_contra hbad
    rw [not_or, not_not] at hbad
    obtain ⟨rfl, hne⟩ := hbad
    -- every line has its entry in the answer
    have hcount : ((auditLines file).filterMap entryOf).length = 0 := by
      have hc := hw.count
      rwa [getAuditLog_eq, Nat.cast_zero, recentLines_zero, Nat.zero_min] at hc
    have hlen := congrArg List.length (filterMap_nonBlank h).1
    rw [List.length_map, List.length_map, hcount] at hlen
    exact hne (List.eq_nil_of_length_eq_zero hlen.symm)
  · intro hc
    have hlast : ∀ line ∈ (auditLines file).rtake lines, Text.strip isUnicodeSpace line ≠ [] :=
      fun line hl => h line (List.mem_of_mem_drop hl)
    obtain ⟨hsome, hraw⟩ := filterMap_nonBlank hlast
    have hlen : (((auditLines file).rtake lines).filterMap entryOf).length =
        min lines (auditLines file).length := by
      rw [← List.length_map some, hsome, List.length_map, List.rtake, List.length_drop]
      omega
    constructor
    · rw [getAuditLog_eq, recentLines_window hc, rtake_min_length]
      exact hsome
    · rw [getAuditLog_eq, recentLines_window hc, rtake_min_length]
      exact hraw
    · rw [getAuditLog_eq, recentLines_window hc]
      exact hlen
    · intro more hmore
      have hc' : more ≠ 0 ∨ auditLines file = [] := hc.imp_left (by omega)
      rw [getAuditLog_eq, getAuditLog_eq, recentLines_window hc, recentLines_window hc']
      exact (rtake_suffix_rtake _ hmore).filterMap entryOf
    · rintro rfl
      rw [getAuditLog_eq, recentLines_window hc, List.rtake_zero]
      rfl

/-- A log of one line. -/
def oneLine : Option (List Char) := some "2024-05-17T09:30:00+00:00 | nodes | 2 connected\n".toList

/-- A window of no lines returns it. -/
theorem audit_no_lines :
    ¬ ∀ (file : Option (List Char)) (lines : ℕ), NonBlank file → Window file lines := by
  intro h
  have hcount := (h oneLine 0 (by decide +kernel)).count
  exact absurd hcount (by decide +kernel)

/-- A window of one line returns it too. -/
theorem audit_one_line : Window oneLine 1 :=
  (audit_window (by decide +kernel) 1).mpr (Or.inl Nat.one_ne_zero)

end Asl3
