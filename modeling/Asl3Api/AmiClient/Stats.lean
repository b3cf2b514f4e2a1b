import Asl3Api.Config
import Asl3Api.Lib.Dict
import Asl3Api.Lib.Duration
import Asl3Api.Lib.Text
import Asl3Api.Vnext.Framing

/-!
# The statistics of the node (`ami_client.py`, `_parse_stats_response`)

* `parseTxTime`, `parseUptime`: the durations of the report;
* `lineEntry`, `addLine`, `parseStatsResponse`: the report, line by line;
* `parseTxTime_eq`, `parseUptime_eq`: the durations that are read, and every other text;
* **`durations_read`**: what is read as a duration, its seconds, and what its display says;
* `lineEntry_iff`: the lines that carry a value;
* **`stats_last_line`**: the fields of the result are those of the last lines with their labels.
-/

set_option autoImplicit false

namespace Asl3

namespace AMIClient

open Py
open AMISession (isUnicodeSpace)

/-! ## Durations -/

/-- The dict that `_parse_tx_time` and `_parse_uptime` return. -/
structure Span where
  raw : String
  seconds : Option ℕ
  display : String
  deriving DecidableEq, Repr

/-- The dict as a value. -/
def Span.value (t : Span) : PyValue :=
  .dict [("raw", .str t.raw),
    ("seconds", match t.seconds with
      | some n => .int n
      | none => .none),
    ("display", .str t.display)]

section

variable (d : Decimals)

/-- `\d+`. -/
def digits : Piece := .run d.isDecimal 1 none

/-- `\d{2}`. -/
def twoDigits : Piece := .run d.isDecimal 2 (some 2)

/-- `:`. -/
def colon : Piece := .word [[':']]

/-- `_parse_tx_time`. The groups hold digits, so that `int` reads no sign. -/
def parseTxTime (raw : List Char) : Except PyError Span :=
  let raw := Text.strip isUnicodeSpace raw
  match fullmatch [digits d, colon, twoDigits d, colon, twoDigits d, colon, digits d] raw with
  | some [hours, _, minutes, _, secs, _, milliseconds] => do
    let hours ← d.nat hours
    let minutes ← d.nat minutes
    let secs ← d.nat secs
    let _ ← d.nat milliseconds
    let parts := (if hours ≠ 0 then [unitText (hours, 'h')] else []) ++
      (if minutes ≠ 0 ∨ hours ≠ 0 then [unitText (minutes, 'm')] else []) ++ [unitText (secs, 's')]
    .ok ⟨String.ofList raw, some (hours * 3600 + minutes * 60 + secs),
      String.ofList (join [' '] parts)⟩
  | _ => .ok ⟨String.ofList raw, none, String.ofList raw⟩

/-- The end of `_parse_uptime`, with the numbers of the text. -/
def uptimeSpan (raw : List Char) (days hours minutes secs : ℕ) : Span :=
  let parts := (if days ≠ 0 then [unitText (days, 'd')] else []) ++
    (if hours ≠ 0 ∨ days ≠ 0 then [unitText (hours, 'h')] else []) ++
    (if minutes ≠ 0 ∨ hours ≠ 0 ∨ days ≠ 0 then [unitText (minutes, 'm')] else []) ++
    [unitText (secs, 's')]
  ⟨String.ofList raw, some (days * 86400 + hours * 3600 + minutes * 60 + secs),
    String.ofList (join [' '] parts)⟩

/-- `_parse_uptime`: first with days, then without. -/
def parseUptime (raw : List Char) : Except PyError Span :=
  let raw := Text.strip isUnicodeSpace raw
  match fullmatch [digits d, colon, twoDigits d, colon, twoDigits d, colon, twoDigits d] raw with
  | some [days, _, hours, _, minutes, _, secs] => do
    let days ← d.nat days
    let hours ← d.nat hours
    let minutes ← d.nat minutes
    let secs ← d.nat secs
    .ok (uptimeSpan raw days hours minutes secs)
  | _ =>
    match fullmatch [digits d, colon, twoDigits d, colon, twoDigits d] raw with
    | some [hours, _, minutes, _, secs] => do
      let hours ← d.nat hours
      let minutes ← d.nat minutes
      let secs ← d.nat secs
      .ok (uptimeSpan raw 0 hours minutes secs)
    | _ => .ok ⟨String.ofList raw, none, String.ofList raw⟩

/-! ## The report -/

/-- How the value of a field is made. -/
inductive Kind where
  | uptime
  | count
  | txTime
  | command
  deriving DecidableEq, Repr

/-- The labels of the report, and the fields that the branches on `key` assign. -/
def fields : List (String × String × Kind) :=
  [("Uptime", "uptime", .uptime),
    ("Keyups today", "keyups_today", .count),
    ("Keyups since system initialization", "keyups_total", .count),
    ("Kerchunks today", "kerchunks_today", .count),
    ("Kerchunks since system initialization", "kerchunks_total", .count),
    ("DTMF commands today", "dtmf_commands_today", .count),
    ("DTMF commands since system initialization", "dtmf_commands_total", .count),
    ("TX time today", "tx_time_today", .txTime),
    ("TX time since system initialization", "tx_time_total", .txTime),
    ("Last DTMF command executed", "last_dtmf_command", .command)]

/-- The value of a field. A count that `int` does not read stays a text. -/
def Kind.convert (val : List Char) : Kind → Except PyError PyValue
  | .uptime => (parseUptime d val).map Span.value
  | .count => match d.int val with
    | .ok n => .ok (.int n)
    | .error _ => .ok (.str (String.ofList val))
  | .txTime => (parseTxTime d val).map Span.value
  | .command => .ok (if val = "N/A".toList then .none else .str (String.ofList val))

/-- The key and the value of a line that has both. -/
def lineEntry (line : List Char) : Option (List Char × List Char) :=
  let line := Text.strip isUnicodeSpace line
  if line = [] ∨ ':' ∉ line then none
  else
    let (key, _, val) := partition ':' line
    let key := (Text.strip isUnicodeSpace key).rdropWhile (· = '.')
    let val := Text.strip isUnicodeSpace val
    if val = [] then none else some (key, val)

/-- The dict `stats`. -/
abbrev Stats := List (String × PyValue)

/-- The body of the loop over the lines. -/
def addLine (stats : Stats) (line : List Char) : Except PyError Stats :=
  match lineEntry line with
  | none => .ok stats
  | some (key, val) =>
    match fields.lookup (String.ofList key) with
    | none => .ok stats
    | some (name, kind) => (kind.convert d val).map (assign stats name)

/-- `response.get("Output", [])` as a list. -/
def outputLines : Option Field → List String
  | none => []
  | some (.one text) => [text]
  | some (.many texts) => texts

/-- The dict before the loop. -/
def initialStats (cfg : Config) (output : List String) : Stats :=
  [("node", .str cfg.nodeNumber), ("callsign", cfg.nodeCallsign)] ++
    fields.map (fun f => (f.2.1, .none)) ++ [("raw_output", .list (output.map .str))]

/-- `_parse_stats_response`, from the header `Output` of the response. -/
def parseStatsResponse (cfg : Config) (output : Option Field) : Except PyError Stats :=
  (outputLines output).foldlM (fun stats line => addLine d stats line.toList)
    (initialStats cfg (outputLines output))

end

/-! ## The durations that are read -/

section

variable {d : Decimals} {raw text g : List Char} {days hours minutes secs n : ℕ} {t : Span}

/-- `days:hh:mm:ss`, or `hours:mm:ss` when there are no days. -/
inductive UptimeText (d : Decimals) (text : List Char) : ℕ → ℕ → ℕ → ℕ → Prop
  | days {a h m s : List Char} (split : text.splitOn ':' = [a, h, m, s]) (ha : (digits d).Matches a)
    (hh : (twoDigits d).Matches h) (hm : (twoDigits d).Matches m) (hs : (twoDigits d).Matches s) :
    UptimeText d text (d.value a) (d.value h) (d.value m) (d.value s)
  | hours {h m s : List Char} (split : text.splitOn ':' = [h, m, s]) (hh : (digits d).Matches h)
    (hm : (twoDigits d).Matches m) (hs : (twoDigits d).Matches s) :
    UptimeText d text 0 (d.value h) (d.value m) (d.value s)

/-- `hours:mm:ss:milliseconds`. -/
inductive TxTimeText (d : Decimals) (text : List Char) : ℕ → ℕ → ℕ → Prop
  | mk {h m s ms : List Char} (split : text.splitOn ':' = [h, m, s, ms])
    (hh : (digits d).Matches h) (hm : (twoDigits d).Matches m) (hs : (twoDigits d).Matches s)
    (hms : (digits d).Matches ms) : TxTimeText d text (d.value h) (d.value m) (d.value s)

theorem digits_of_twoDigits (h : (twoDigits d).Matches g) : (digits d).Matches g :=
  ⟨h.1, (Nat.le_succ 1).trans h.2.1, by rintro _ ⟨⟩⟩

theorem colon_notMem (h : (digits d).Matches g) : ':' ∉ g := fun hc => by
  have := h.1 _ hc
  rw [Decimals.isDecimal_eq_false (by decide) (by decide)] at this
  cases this

theorem nat_eq_ok (h : (digits d).Matches g) :
    d.nat g = .ok n ↔ d.tooLong g = false ∧ n = d.value g := by
  have hne : g ≠ [] := List.ne_nil_of_length_pos h.2.1
  rw [Decimals.nat_digits hne h.1]
  cases d.tooLong g
  · simp [eq_comm]
  · simp

/-- A pattern of digits between colons, by the fields of the text. -/
theorem fullmatch_digits (text : List Char) (gs : List (List Char)) (ps : List Piece)
    (hne : ps ≠ []) (hp : ∀ p ∈ ps, p = digits d ∨ p = twoDigits d) :
    fullmatch (ps.intersperse colon) text = some gs ↔
      List.Forall₂ Piece.Matches ps (text.splitOn ':') ∧ gs = (text.splitOn ':').intersperse [':'] := by
  refine fullmatch_intersperse hne fun p hpm w hw => ?_
  rcases hp p hpm with rfl | rfl
  · exact colon_notMem hw
  · exact colon_notMem (digits_of_twoDigits hw)

/-- The first pattern of `_parse_uptime`, by the fields of the text. -/
theorem fullmatch_days {gs : List (List Char)} :
    fullmatch [digits d, colon, twoDigits d, colon, twoDigits d, colon, twoDigits d] text = some gs ↔
      ∃ a h m s, text.splitOn ':' = [a, h, m, s] ∧ gs = [a, [':'], h, [':'], m, [':'], s] ∧
        (digits d).Matches a ∧ (twoDigits d).Matches h ∧ (twoDigits d).Matches m ∧
        (twoDigits d).Matches s := by
  have hps := fullmatch_digits (d := d) text gs
    [digits d, twoDigits d, twoDigits d, twoDigits d] (by simp) (by simp)
  refine hps.trans ?_
  generalize text.splitOn ':' = fields
  constructor
  · rintro ⟨_ | ⟨ha, _ | ⟨hh, _ | ⟨hm, _ | ⟨hs, _ | _⟩⟩⟩⟩, rfl⟩
    exact ⟨_, _, _, _, rfl, rfl, ha, hh, hm, hs⟩
  · rintro ⟨a, h, m, s, rfl, rfl, ha, hh, hm, hs⟩
    exact ⟨.cons ha (.cons hh (.cons hm (.cons hs .nil))), rfl⟩

/-- The second pattern of `_parse_uptime`. -/
theorem fullmatch_hours {gs : List (List Char)} :
    fullmatch [digits d, colon, twoDigits d, colon, twoDigits d] text = some gs ↔
      ∃ h m s, text.splitOn ':' = [h, m, s] ∧ gs = [h, [':'], m, [':'], s] ∧
        (digits d).Matches h ∧ (twoDigits d).Matches m ∧ (twoDigits d).Matches s := by
  have hps := fullmatch_digits (d := d) text gs
    [digits d, twoDigits d, twoDigits d] (by simp) (by simp)
  refine hps.trans ?_
  generalize text.splitOn ':' = fields
  constructor
  · rintro ⟨_ | ⟨hh, _ | ⟨hm, _ | ⟨hs, _ | _⟩⟩⟩, rfl⟩
    exact ⟨_, _, _, rfl, rfl, hh, hm, hs⟩
  · rintro ⟨h, m, s, rfl, rfl, hh, hm, hs⟩
    exact ⟨.cons hh (.cons hm (.cons hs .nil)), rfl⟩

/-- The pattern of `_parse_tx_time`. -/
theorem fullmatch_milliseconds {gs : List (List Char)} :
    fullmatch [digits d, colon, twoDigits d, colon, twoDigits d, colon, digits d] text = some gs ↔
      ∃ h m s ms, text.splitOn ':' = [h, m, s, ms] ∧ gs = [h, [':'], m, [':'], s, [':'], ms] ∧
        (digits d).Matches h ∧ (twoDigits d).Matches m ∧ (twoDigits d).Matches s ∧
        (digits d).Matches ms := by
  have hps := fullmatch_digits (d := d) text gs
    [digits d, twoDigits d, twoDigits d, digits d] (by simp) (by simp)
  refine hps.trans ?_
  generalize text.splitOn ':' = fields
  constructor
  · rintro ⟨_ | ⟨hh, _ | ⟨hm, _ | ⟨hs, _ | ⟨hms, _ | _⟩⟩⟩⟩, rfl⟩
    exact ⟨_, _, _, _, rfl, rfl, hh, hm, hs, hms⟩
  · rintro ⟨h, m, s, ms, rfl, rfl, hh, hm, hs, hms⟩
    exact ⟨.cons hh (.cons hm (.cons hs (.cons hms .nil))), rfl⟩

/-- The numbers of a text that is read. -/
def uptimeUnits (days hours minutes secs : ℕ) : List (ℕ × Char) :=
  [(days, 'd'), (hours, 'h'), (minutes, 'm'), (secs, 's')]

def txTimeUnits (hours minutes secs : ℕ) : List (ℕ × Char) :=
  [(hours, 'h'), (minutes, 'm'), (secs, 's')]

theorem uptimeSpan_eq : uptimeSpan text days hours minutes secs =
    ⟨String.ofList text, some (days * 86400 + hours * 3600 + minutes * 60 + secs),
      String.ofList (display (uptimeUnits days hours minutes secs))⟩ := by
  rw [uptimeSpan]
  congr 2
  rw [display, uptimeUnits, leading, leading, leading, leading]
  by_cases hd : days = 0 <;> by_cases hh : hours = 0 <;> by_cases hm : minutes = 0 <;>
    simp [hd, hh, hm]

/-- A duration is read, unless one of its numbers has too many digits. -/
theorem parseUptime_of_text (hraw : Text.strip isUnicodeSpace raw = text)
    (h : UptimeText d text days hours minutes secs) : parseUptime d raw = .ok t ↔
      (∀ g ∈ text.splitOn ':', d.tooLong g = false) ∧ t = uptimeSpan text days hours minutes secs := by
  rw [parseUptime, hraw]
  cases h with
  | days split ha hh hm hs =>
    rw [fullmatch_days.mpr ⟨_, _, _, _, split, rfl, ha, hh, hm, hs⟩, split]
    simp only [bind_eq_ok, nat_eq_ok ha, nat_eq_ok (digits_of_twoDigits hh),
      nat_eq_ok (digits_of_twoDigits hm), nat_eq_ok (digits_of_twoDigits hs), List.forall_mem_cons,
      List.not_mem_nil]
    constructor
    · rintro ⟨_, ⟨h₁, rfl⟩, _, ⟨h₂, rfl⟩, _, ⟨h₃, rfl⟩, _, ⟨h₄, rfl⟩, ⟨⟩⟩
      exact ⟨⟨h₁, h₂, h₃, h₄, by rintro _ ⟨⟩⟩, rfl⟩
    · rintro ⟨⟨h₁, h₂, h₃, h₄, -⟩, rfl⟩
      exact ⟨_, ⟨h₁, rfl⟩, _, ⟨h₂, rfl⟩, _, ⟨h₃, rfl⟩, _, ⟨h₄, rfl⟩, rfl⟩
  | hours split hh hm hs =>
    have hnone : fullmatch [digits d, colon, twoDigits d, colon, twoDigits d, colon, twoDigits d]
        text = none := by
      rw [Option.eq_none_iff_forall_ne_some]
      intro gs hgs
      obtain ⟨_, _, _, _, split', -⟩ := fullmatch_days.mp hgs
      rw [split] at split'
      cases split'
    rw [hnone, fullmatch_hours.mpr ⟨_, _, _, split, rfl, hh, hm, hs⟩, split]
    simp only [bind_eq_ok, nat_eq_ok hh, nat_eq_ok (digits_of_twoDigits hm),
      nat_eq_ok (digits_of_twoDigits hs), List.forall_mem_cons, List.not_mem_nil]
    constructor
    · rintro ⟨_, ⟨h₁, rfl⟩, _, ⟨h₂, rfl⟩, _, ⟨h₃, rfl⟩, ⟨⟩⟩
      exact ⟨⟨h₁, h₂, h₃, by rintro _ ⟨⟩⟩, rfl⟩
    · rintro ⟨⟨h₁, h₂, h₃, -⟩, rfl⟩
      exact ⟨_, ⟨h₁, rfl⟩, _, ⟨h₂, rfl⟩, _, ⟨h₃, rfl⟩, rfl⟩

/-- Every other text stays as it is. -/
theorem parseUptime_other (hraw : Text.strip isUnicodeSpace raw = text)
    (h : ∀ days hours minutes secs, ¬ UptimeText d text days hours minutes secs) :
    parseUptime d raw = .ok ⟨String.ofList text, none, String.ofList text⟩ := by
  rw [parseUptime, hraw]
  cases h₄ : fullmatch [digits d, colon, twoDigits d, colon, twoDigits d, colon, twoDigits d] text with
  | some gs =>
    obtain ⟨_, _, _, _, split, -, ha, hh, hm, hs⟩ := fullmatch_days.mp h₄
    exact absurd (.days split ha hh hm hs) (h _ _ _ _)
  | none =>
    dsimp only
    cases h₃ : fullmatch [digits d, colon, twoDigits d, colon, twoDigits d] text with
    | some gs =>
      obtain ⟨_, _, _, split, -, hh, hm, hs⟩ := fullmatch_hours.mp h₃
      exact absurd (.hours split hh hm hs) (h _ _ _ _)
    | none => rfl

/-- The display of a time on air. -/
theorem txTime_parts : join [' '] ((if hours ≠ 0 then [unitText (hours, 'h')] else []) ++
      (if minutes ≠ 0 ∨ hours ≠ 0 then [unitText (minutes, 'm')] else []) ++ [unitText (secs, 's')]) =
    display (txTimeUnits hours minutes secs) := by
  rw [display, txTimeUnits, leading, leading, leading]
  by_cases hh : hours = 0 <;> by_cases hm : minutes = 0 <;> simp [hh, hm]

theorem parseTxTime_of_text (hraw : Text.strip isUnicodeSpace raw = text)
    (h : TxTimeText d text hours minutes secs) : parseTxTime d raw = .ok t ↔
      (∀ g ∈ text.splitOn ':', d.tooLong g = false) ∧
        t = ⟨String.ofList text, some (hours * 3600 + minutes * 60 + secs),
          String.ofList (display (txTimeUnits hours minutes secs))⟩ := by
  rw [parseTxTime, hraw]
  obtain ⟨split, hh, hm, hs, hms⟩ := h
  rw [fullmatch_milliseconds.mpr ⟨_, _, _, _, split, rfl, hh, hm, hs, hms⟩, split]
  simp only [bind_eq_ok, nat_eq_ok hh, nat_eq_ok (digits_of_twoDigits hm),
    nat_eq_ok (digits_of_twoDigits hs), nat_eq_ok hms, List.forall_mem_cons, List.not_mem_nil,
    txTime_parts]
  constructor
  · rintro ⟨_, ⟨h₁, rfl⟩, _, ⟨h₂, rfl⟩, _, ⟨h₃, rfl⟩, _, ⟨h₄, rfl⟩, ⟨⟩⟩
    exact ⟨⟨h₁, h₂, h₃, h₄, by rintro _ ⟨⟩⟩, rfl⟩
  · rintro ⟨⟨h₁, h₂, h₃, h₄, -⟩, rfl⟩
    exact ⟨_, ⟨h₁, rfl⟩, _, ⟨h₂, rfl⟩, _, ⟨h₃, rfl⟩, _, ⟨h₄, rfl⟩, rfl⟩

theorem parseTxTime_other (hraw : Text.strip isUnicodeSpace raw = text)
    (h : ∀ hours minutes secs, ¬ TxTimeText d text hours minutes secs) :
    parseTxTime d raw = .ok ⟨String.ofList text, none, String.ofList text⟩ := by
  rw [parseTxTime, hraw]
  cases h₄ : fullmatch [digits d, colon, twoDigits d, colon, twoDigits d, colon, digits d] text with
  | some gs =>
    obtain ⟨_, _, _, _, split, -, hh, hm, hs, hms⟩ := fullmatch_milliseconds.mp h₄
    exact absurd (.mk split hh hm hs hms) (h _ _ _)
  | none => rfl

/-- The seconds of an uptime. -/
def UptimeSeconds (d : Decimals) (text : List Char) (n : ℕ) : Prop :=
  ∃ days hours minutes secs, UptimeText d text days hours minutes secs ∧
    n = days * 86400 + hours * 3600 + minutes * 60 + secs

/-- The seconds of a time on air. -/
def TxTimeSeconds (d : Decimals) (text : List Char) (n : ℕ) : Prop :=
  ∃ hours minutes secs, TxTimeText d text hours minutes secs ∧
    n = hours * 3600 + minutes * 60 + secs

/-- A function reads the durations that have seconds. -/
structure ReadsDurations (d : Decimals) (parse : List Char → Except PyError Span)
    (Seconds : List Char → ℕ → Prop) : Prop where
  /-- It raises when a number of a duration is too long for `int`. -/
  raises : ∀ raw, (∀ t, parse raw ≠ .ok t) ↔ (∃ n, Seconds (Text.strip isUnicodeSpace raw) n) ∧
    ∃ g ∈ (Text.strip isUnicodeSpace raw).splitOn ':', d.tooLong g = true
  raw : ∀ raw t, parse raw = .ok t → t.raw = String.ofList (Text.strip isUnicodeSpace raw)
  seconds : ∀ raw t n, parse raw = .ok t →
    (t.seconds = some n ↔ Seconds (Text.strip isUnicodeSpace raw) n)
  /-- What is no duration is displayed as it is. -/
  other : ∀ raw t, parse raw = .ok t → t.seconds = none → t.display = t.raw
  /-- The display of a duration tells its seconds. -/
  display : ∀ raw raw' t t', parse raw = .ok t → parse raw' = .ok t' → t.seconds.isSome →
    t'.seconds.isSome → t.display = t'.display → t.seconds = t'.seconds

/-- The seconds of a unit. -/
def unitSeconds : Char → ℕ
  | 'd' => 86400
  | 'h' => 3600
  | 'm' => 60
  | _ => 1

/-- The seconds of a duration. -/
def totalSeconds (us : List (ℕ × Char)) : ℕ := us.foldr (fun u n => u.1 * unitSeconds u.2 + n) 0

theorem totalSeconds_uptime : totalSeconds (uptimeUnits days hours minutes secs) =
    days * 86400 + hours * 3600 + minutes * 60 + secs := by
  show days * 86400 + (hours * 3600 + (minutes * 60 + (secs * 1 + 0))) = _
  omega

theorem totalSeconds_txTime : totalSeconds (txTimeUnits hours minutes secs) =
    hours * 3600 + minutes * 60 + secs := by
  show hours * 3600 + (minutes * 60 + (secs * 1 + 0)) = _
  omega

/-- A function that is given by the units of a text reads the durations. -/
theorem readsDurations (names : List Char) (Units : List Char → List (ℕ × Char) → Prop)
    {parse : List Char → Except PyError Span} {Seconds : List Char → ℕ → Prop}
    (hsec : ∀ {text n}, Seconds text n ↔ ∃ us, Units text us ∧ n = totalSeconds us)
    (hsp : ' ' ∉ names) (hnames : ∀ {text us}, Units text us → us.map Prod.snd = names)
    (hread : ∀ {raw text t us}, Text.strip isUnicodeSpace raw = text → Units text us →
      (parse raw = .ok t ↔ (∀ g ∈ text.splitOn ':', d.tooLong g = false) ∧
        t = ⟨String.ofList text, some (totalSeconds us), String.ofList (display us)⟩))
    (hother : ∀ {raw text}, Text.strip isUnicodeSpace raw = text → (∀ us, ¬ Units text us) →
      parse raw = .ok ⟨String.ofList text, none, String.ofList text⟩) :
    ReadsDurations d parse Seconds := by
  have split : ∀ {raw t}, parse raw = .ok t →
      (∃ us, Units (Text.strip isUnicodeSpace raw) us ∧
        t = ⟨String.ofList (Text.strip isUnicodeSpace raw), some (totalSeconds us),
          String.ofList (display us)⟩) ∨
      (∀ us, ¬ Units (Text.strip isUnicodeSpace raw) us) ∧
        t = ⟨String.ofList (Text.strip isUnicodeSpace raw), none,
          String.ofList (Text.strip isUnicodeSpace raw)⟩ := by
    intro raw t h
    by_cases hu : ∃ us, Units (Text.strip isUnicodeSpace raw) us
    · obtain ⟨us, hu⟩ := hu
      exact .inl ⟨us, hu, ((hread rfl hu).mp h).2⟩
    · have hu : ∀ us, ¬ Units (Text.strip isUnicodeSpace raw) us := fun us h => hu ⟨us, h⟩
      rw [hother rfl hu] at h
      exact .inr ⟨hu, (Except.ok.inj h).symm⟩
  constructor
  case raises =>
    intro raw
    constructor
    · intro h
      by_cases hu : ∃ us, Units (Text.strip isUnicodeSpace raw) us
      · obtain ⟨us, hu⟩ := hu
        refine ⟨⟨_, hsec.mpr ⟨us, hu, rfl⟩⟩, ?_⟩
        by_contra hg
        refine h _ ((hread rfl hu).mpr ⟨fun g hm => ?_, rfl⟩)
        exact Bool.eq_false_iff.mpr fun ht => hg ⟨g, hm, ht⟩
      · exact absurd (hother rfl fun us h => hu ⟨us, h⟩) (h _)
    · rintro ⟨⟨n, hn⟩, g, hm, hg⟩ t ht
      obtain ⟨us, hu, -⟩ := hsec.mp hn
      rw [((hread rfl hu).mp ht).1 g hm] at hg
      cases hg
  case raw =>
    intro raw t h
    rcases split h with ⟨us, -, rfl⟩ | ⟨-, rfl⟩ <;> rfl
  case seconds =>
    intro raw t n h
    rw [hsec]
    rcases split h with ⟨us, hu, rfl⟩ | ⟨hu, rfl⟩
    · constructor
      · rintro ⟨⟩
        exact ⟨us, hu, rfl⟩
      · rintro ⟨us', hu', rfl⟩
        have := (Option.some.inj (congrArg Span.seconds ((hread rfl hu').mp h).2))
        exact congrArg some this
    · constructor
      · rintro ⟨⟩
      · rintro ⟨us, hu', -⟩
        exact absurd hu' (hu us)
  case other =>
    intro raw t h hn
    rcases split h with ⟨us, -, rfl⟩ | ⟨-, rfl⟩
    · cases hn
    · rfl
  case display =>
    intro raw raw' t t' h h' hs hs' hd
    rcases split h with ⟨us, hu, rfl⟩ | ⟨-, rfl⟩
    · rcases split h' with ⟨us', hu', rfl⟩ | ⟨-, rfl⟩
      · have hd := String.ofList_injective hd
        rw [display_inj ((hnames hu).trans (hnames hu').symm) (hnames hu ▸ hsp) hd]
      · cases hs'
    · cases hs

/-- **The durations of the report.** Both functions read exactly the texts of their formats, give the
sum of the units as the seconds, raise only for a number that is too long for `int`, and two durations
with the same display have the same seconds. -/
theorem durations_read (d : Decimals) :
    ReadsDurations d (parseUptime d) (UptimeSeconds d) ∧
      ReadsDurations d (parseTxTime d) (TxTimeSeconds d) := by
  constructor
  · refine readsDurations ['d', 'h', 'm', 's'] (fun text us =>
      ∃ days hours minutes secs, UptimeText d text days hours minutes secs ∧
        us = uptimeUnits days hours minutes secs) ?_ (by decide) ?_ ?_ ?_
    · intro text n
      constructor
      · rintro ⟨days, hours, minutes, secs, h, rfl⟩
        exact ⟨_, ⟨_, _, _, _, h, rfl⟩, totalSeconds_uptime.symm⟩
      · rintro ⟨_, ⟨days, hours, minutes, secs, h, rfl⟩, rfl⟩
        exact ⟨_, _, _, _, h, totalSeconds_uptime⟩
    · rintro text _ ⟨days, hours, minutes, secs, -, rfl⟩
      rfl
    · rintro raw text t _ hraw ⟨days, hours, minutes, secs, h, rfl⟩
      rw [parseUptime_of_text hraw h, uptimeSpan_eq, totalSeconds_uptime]
    · intro raw text hraw h
      exact parseUptime_other hraw fun _ _ _ _ hu => h _ ⟨_, _, _, _, hu, rfl⟩
  · refine readsDurations ['h', 'm', 's'] (fun text us =>
      ∃ hours minutes secs, TxTimeText d text hours minutes secs ∧
        us = txTimeUnits hours minutes secs) ?_ (by decide) ?_ ?_ ?_
    · intro text n
      constructor
      · rintro ⟨hours, minutes, secs, h, rfl⟩
        exact ⟨_, ⟨_, _, _, h, rfl⟩, totalSeconds_txTime.symm⟩
      · rintro ⟨_, ⟨hours, minutes, secs, h, rfl⟩, rfl⟩
        exact ⟨_, _, _, h, totalSeconds_txTime⟩
    · rintro text _ ⟨hours, minutes, secs, -, rfl⟩
      rfl
    · rintro raw text t _ hraw ⟨hours, minutes, secs, h, rfl⟩
      rw [parseTxTime_of_text hraw h, totalSeconds_txTime]
    · intro raw text hraw h
      exact parseTxTime_other hraw fun _ _ _ hu => h _ ⟨_, _, _, hu, rfl⟩

end

example : parseUptime .ofAscii "2:14:33:22".toList =
    .ok ⟨"2:14:33:22", some 225202, "2d 14h 33m 22s"⟩ := by rfl

example : parseTxTime .ofAscii " 00:02:14:30".toList = .ok ⟨"00:02:14:30", some 134, "2m 14s"⟩ := by
  rfl

/-! ## The lines that carry a value -/

/-- A line of the report: a label, dots, a colon and a value, with white space around them. -/
structure StatLine (label value line : List Char) : Prop where
  nonempty : value ≠ []
  trimmed : Text.Trimmed isUnicodeSpace value
  shape : ∃ a dots b c e, line = a ++ (label ++ (dots ++ (b ++ ':' :: (c ++ (value ++ e))))) ∧
    (∀ x ∈ dots, x = '.') ∧ ∀ x ∈ a ++ b ++ c ++ e, isUnicodeSpace x = true

/-- A label has no colon, and neither white space nor a dot at its ends. -/
structure ReportLabel (label : List Char) : Prop where
  nonempty : label ≠ []
  trimmed : Text.Trimmed isUnicodeSpace label
  colon : ':' ∉ label
  dot : label.getLast? ≠ some '.'

section

variable {label value line : List Char}

theorem trimmed_append {s t : List Char} (hs : s ≠ []) (ht : t ≠ [])
    (hfirst : ∀ a ∈ s.head?, isUnicodeSpace a = false)
    (hlast : ∀ a ∈ t.getLast?, isUnicodeSpace a = false) :
    Text.Trimmed isUnicodeSpace (s ++ t) where
  first := by rwa [List.head?_append_of_ne_nil _ hs]
  last := by rwa [List.getLast?_append_of_ne_nil _ ht]

/-- A line of the report has its entry. -/
theorem lineEntry_of_statLine (hl : ReportLabel label) (h : StatLine label value line) :
    lineEntry line = some (label, value) := by
  obtain ⟨hne, hv, a, dots, b, c, e, rfl, hdots, hsp⟩ := h
  simp only [List.mem_append] at hsp
  have hkey : Text.Trimmed isUnicodeSpace (label ++ dots) := by
    refine ⟨by rw [List.head?_append_of_ne_nil _ hl.nonempty]; exact hl.trimmed.first, ?_⟩
    rcases eq_or_ne dots [] with rfl | hd
    · rw [List.append_nil]
      exact hl.trimmed.last
    · rw [List.getLast?_append_of_ne_nil _ hd]
      intro x hx
      rw [hdots x (List.mem_of_getLast? hx)]
      decide
  have hkeyne : label ++ dots ≠ [] := List.append_ne_nil_of_left_ne_nil hl.nonempty _
  have htext : Text.strip isUnicodeSpace
      (a ++ (label ++ (dots ++ (b ++ ':' :: (c ++ (value ++ e)))))) =
      (label ++ dots ++ b) ++ ':' :: (c ++ value) := by
    have hassoc : label ++ (dots ++ (b ++ ':' :: (c ++ (value ++ e)))) =
        (label ++ dots ++ b) ++ (':' :: (c ++ value)) ++ e := by simp
    rw [Text.strip_append_left _ fun x hx => hsp x (by simp [hx]), hassoc]
    refine Text.strip_append ?_ (by simp) fun x hx => hsp x (by simp [hx])
    refine trimmed_append (by simp [hl.nonempty]) (by simp) ?_ ?_
    · rw [List.append_assoc, List.head?_append_of_ne_nil _ hl.nonempty]
      exact hl.trimmed.first
    · rw [← List.cons_append, List.getLast?_append_of_ne_nil _ hne]
      exact hv.last
  have hcolon : ':' ∉ label ++ dots ++ b := by
    simp only [List.mem_append, not_or]
    refine ⟨⟨hl.colon, fun hm => ?_⟩, fun hm => ?_⟩
    · cases hdots _ hm
    · have := hsp _ (.inl (.inl (.inr hm)))
      revert this
      decide
  have hdot : (label ++ dots).rdropWhile (· = '.') = label := by
    rw [Text.rdropWhile_append (fun x hx => by simp [hdots x hx]), List.rdropWhile_eq_self_iff]
    intro hlast
    simpa [List.getLast?_eq_some_getLast hlast] using hl.dot
  rw [lineEntry, htext]
  dsimp only
  rw [if_neg (by simp), partition_append hcolon]
  dsimp only
  rw [Text.strip_append hkey hkeyne fun x hx => hsp x (by simp [hx]), hdot,
    Text.strip_append_left _ fun x hx => hsp x (by simp [hx])]
  have hval : Text.strip isUnicodeSpace value = value := by
    have := Text.strip_append (t := []) hv hne (by simp)
    rwa [List.append_nil] at this
  rw [hval, if_neg hne]

/-- An entry is that of a line of the report. -/
theorem statLine_of_lineEntry (h : lineEntry line = some (label, value)) :
    StatLine label value line := by
  rw [lineEntry] at h
  dsimp only at h
  split_ifs at h with hline hval
  rw [not_or, not_not] at hline
  obtain ⟨key, tail, htext, hkey⟩ := List.eq_append_cons_of_mem hline.2
  rw [htext, partition_append hkey] at h hval
  dsimp only at h hval
  obtain ⟨rfl, rfl⟩ := Prod.mk.inj (Option.some.inj h)
  obtain ⟨a₁, e₁, h₁, ha₁, he₁⟩ := @Text.exists_strip _ isUnicodeSpace line
  obtain ⟨a₂, b, h₂, ha₂, hb⟩ := @Text.exists_strip _ isUnicodeSpace key
  obtain ⟨c, e₂, h₃, hc, he₂⟩ := @Text.exists_strip _ isUnicodeSpace tail
  refine ⟨hval, Text.trimmed_strip tail, a₁ ++ a₂,
    (Text.strip isUnicodeSpace key).rtakeWhile (· = '.'), b, c, e₂ ++ e₁, ?_, ?_, ?_⟩
  · -- the line, stripped, around its first colon, with both sides stripped
    conv_lhs => rw [h₁, htext, h₂, h₃]
    simp only [List.append_assoc, List.cons_append]
    rw [← List.append_assoc (List.rdropWhile _ _), List.rdropWhile_append_rtakeWhile]
  · intro x hx
    simpa using List.mem_rtakeWhile_imp hx
  · intro x hx
    simp only [List.mem_append] at hx
    rcases hx with (((hx | hx) | hx) | hx) | hx | hx
    · exact ha₁ x hx
    · exact ha₂ x hx
    · exact hb x hx
    · exact hc x hx
    · exact he₂ x hx
    · exact he₁ x hx

/-- **The entry of a line of the report.** -/
theorem lineEntry_iff (hl : ReportLabel label) :
    lineEntry line = some (label, value) ↔ StatLine label value line :=
  ⟨statLine_of_lineEntry, lineEntry_of_statLine hl⟩

end

/-! ## The whole report -/

section

variable {d : Decimals} {cfg : Config} {output : Option Field} {stats stats' : Stats}
variable {line : List Char} {label name : String} {kind : Kind}

/-- The field that a line assigns, and the text of its value. -/
def fieldEntry (line : List Char) : Option (String × Kind × List Char) :=
  (lineEntry line).bind fun (key, val) =>
    (fields.lookup (String.ofList key)).map fun (name, kind) => (name, kind, val)

theorem addLine_eq : addLine d stats line = match fieldEntry line with
    | none => .ok stats
    | some (name, kind, val) => (kind.convert d val).map (assign stats name) := by
  rw [addLine, fieldEntry]
  cases lineEntry line with
  | none => rfl
  | some e =>
    dsimp only [Option.bind_some]
    cases fields.lookup (String.ofList e.1) <;> rfl

/-- The labels of the report are labels. -/
def isLabel (label : List Char) : Bool :=
  !label.isEmpty && label.head?.all (!isUnicodeSpace ·) && label.getLast?.all (!isUnicodeSpace ·) &&
    !decide (':' ∈ label) && label.getLast? != some '.'

theorem label_of_isLabel {label : List Char} (h : isLabel label = true) : ReportLabel label := by
  simp only [isLabel, Bool.and_eq_true, Bool.not_eq_true', List.isEmpty_eq_false_iff,
    Option.all_eq_true, decide_eq_false_iff_not, bne_iff_ne] at h
  obtain ⟨⟨⟨⟨hne, hfirst⟩, hlast⟩, hcolon⟩, hdot⟩ := h
  exact ⟨hne, ⟨hfirst, hlast⟩, hcolon, hdot⟩

theorem fields_isLabel : fields.all (fun f => isLabel f.1.toList) = true := by decide +kernel

theorem label_of_fields (h : (label, name, kind) ∈ fields) : ReportLabel label.toList := by
  have hall := List.all_eq_true.mp fields_isLabel (label, name, kind) h
  exact label_of_isLabel hall

theorem labels_nodup : (fields.map Prod.fst).Nodup := by decide

theorem names_nodup : (fields.map fun f => f.2.1).Nodup := by decide

/-- A label with the name of a field is its label. -/
theorem fields_name {label' : String} {kind' : Kind} (h : (label, name, kind) ∈ fields)
    (h' : (label', name, kind') ∈ fields) : label' = label ∧ kind' = kind := by
  have := List.inj_on_of_nodup_map names_nodup h' h rfl
  simpa using this

/-- **The lines that assign a field are those with its label.** -/
theorem fieldEntry_iff (h : (label, name, kind) ∈ fields) {kind' : Kind} {val : List Char} :
    fieldEntry line = some (name, kind', val) ↔ kind' = kind ∧ StatLine label.toList val line := by
  rw [fieldEntry, Option.bind_eq_some_iff]
  constructor
  · rintro ⟨⟨key, val'⟩, hentry, hfield⟩
    obtain ⟨⟨name', kind''⟩, hlook, he⟩ := Option.map_eq_some_iff.mp hfield
    obtain ⟨rfl, rfl, rfl⟩ : name' = name ∧ kind'' = kind' ∧ val' = val := by simpa using he
    obtain ⟨hkey, rfl⟩ := fields_name h ((lookup_eq_some_iff_mem labels_nodup).mp hlook)
    rw [← hkey, String.toList_ofList]
    exact ⟨rfl, statLine_of_lineEntry hentry⟩
  · rintro ⟨rfl, hline⟩
    refine ⟨_, (lineEntry_iff (label_of_fields h)).mpr hline, ?_⟩
    dsimp only
    rw [String.ofList_toList, (lookup_eq_some_iff_mem labels_nodup).mpr h]
    rfl

/-- The lines of a response. -/
def reportLines (output : Option Field) : List (List Char) := (outputLines output).map String.toList

/-- The values of the lines that assign a field. -/
def Converts (d : Decimals) (f : String × Kind × List Char) (e : String × PyValue) : Prop :=
  e.1 = f.1 ∧ f.2.1.convert d f.2.2 = .ok e.2

/-- **The loop over the lines**: it raises when a value is not read, and else assigns the values, one
after the other. -/
theorem foldlM_addLine {lines : List (List Char)} :
    lines.foldlM (addLine d) stats = .ok stats' ↔ ∃ es,
      List.Forall₂ (Converts d) (lines.filterMap fieldEntry) es ∧ stats' = assignAll stats es := by
  induction lines generalizing stats with
  | nil =>
    rw [List.foldlM_nil, List.filterMap_nil]
    constructor
    · rintro ⟨⟩
      exact ⟨[], .nil, rfl⟩
    · rintro ⟨es, hes, rfl⟩
      rw [List.forall₂_nil_left_iff.mp hes]
      rfl
  | cons line lines ih =>
    rw [List.foldlM_cons, bind_eq_ok, addLine_eq]
    cases hf : fieldEntry line with
    | none =>
      rw [List.filterMap_cons_none hf]
      constructor
      · rintro ⟨_, ⟨⟩, h⟩
        exact ih.mp h
      · exact fun h => ⟨stats, rfl, ih.mpr h⟩
    | some f =>
      obtain ⟨name, kind, val⟩ := f
      rw [List.filterMap_cons_some hf]
      constructor
      · rintro ⟨stats₁, h₁, h⟩
        dsimp only at h₁
        cases hx : kind.convert d val with
        | error e =>
          rw [hx] at h₁
          cases h₁
        | ok x =>
          rw [hx] at h₁
          obtain rfl := Except.ok.inj h₁
          obtain ⟨es, hes, rfl⟩ := ih.mp h
          exact ⟨(name, x) :: es, .cons ⟨rfl, hx⟩ hes, rfl⟩
      · rintro ⟨es, hes, rfl⟩
        obtain ⟨⟨name', x⟩, es', ⟨rfl, hx⟩, hes', rfl⟩ := List.forall₂_cons_left_iff.mp hes
        refine ⟨assign stats name' x, ?_, ih.mpr ⟨es', hes', rfl⟩⟩
        dsimp only at hx ⊢
        rw [hx]
        rfl

theorem parseStatsResponse_eq_ok : parseStatsResponse d cfg output = .ok stats ↔ ∃ es,
    List.Forall₂ (Converts d) ((reportLines output).filterMap fieldEntry) es ∧
      stats = assignAll (initialStats cfg (outputLines output)) es := by
  rw [parseStatsResponse, ← foldlM_addLine, reportLines, List.foldlM_map]

theorem lookup_initialStats (h : (label, name, kind) ∈ fields) {lines : List String} :
    (initialStats cfg lines).lookup name = some .none := by
  have hnames : ∀ f ∈ fields, f.2.1 ≠ "node" ∧ f.2.1 ≠ "callsign" := by decide
  obtain ⟨h₁, h₂⟩ := hnames _ h
  have hmem : (name, PyValue.none) ∈ fields.map fun f => (f.2.1, PyValue.none) :=
    List.mem_map.mpr ⟨_, h, rfl⟩
  have hnd : ((fields.map fun f => (f.2.1, PyValue.none)).map Prod.fst).Nodup := by
    rw [List.map_map]
    exact names_nodup
  rw [initialStats, List.append_assoc, List.lookup_append, List.lookup_append,
    (lookup_eq_some_iff_mem hnd).mpr hmem]
  simp [List.lookup_cons, List.lookup_nil, beq_false_of_ne h₁, beq_false_of_ne h₂]

/-- The names of the entries are those of fields. -/
theorem name_of_entry {name : String} {kind : Kind} {val : List Char}
    (h : fieldEntry line = some (name, kind, val)) : ∃ label, (label, name, kind) ∈ fields := by
  rw [fieldEntry, Option.bind_eq_some_iff] at h
  obtain ⟨⟨key, val'⟩, -, hfield⟩ := h
  obtain ⟨⟨name', kind'⟩, hlook, he⟩ := Option.map_eq_some_iff.mp hfield
  obtain ⟨rfl, rfl, rfl⟩ : name' = name ∧ kind' = kind ∧ val' = val := by simpa using he
  exact ⟨_, (lookup_eq_some_iff_mem labels_nodup).mp hlook⟩

/-- The names that are assigned are those of the entries. -/
theorem names_of_converts {fs : List (String × Kind × List Char)} {es : List (String × PyValue)}
    (h : List.Forall₂ (Converts d) fs es) : es.map Prod.fst = fs.map Prod.fst := by
  induction h with
  | nil => rfl
  | cons hfe _ ih => rw [List.map_cons, List.map_cons, hfe.1, ih]

/-- A name that no line has is not assigned. -/
theorem name_notMem (h : (label, name, kind) ∈ fields) {lines : List (List Char)}
    {es : List (String × PyValue)} (hes : List.Forall₂ (Converts d) (lines.filterMap fieldEntry) es)
    (hno : ∀ l ∈ lines, ∀ v, ¬ StatLine label.toList v l) : name ∉ es.map Prod.fst := by
  rw [names_of_converts hes]
  intro hm
  obtain ⟨⟨_, kind', val⟩, hf, rfl⟩ := List.mem_map.mp hm
  obtain ⟨l, hl, hentry⟩ := List.mem_filterMap.mp hf
  exact hno l hl val ((fieldEntry_iff h).mp hentry).2

theorem exists_converts (fs : List (String × Kind × List Char))
    (h : ∀ f ∈ fs, ∃ x, f.2.1.convert d f.2.2 = .ok x) : ∃ es, List.Forall₂ (Converts d) fs es := by
  induction fs with
  | nil => exact ⟨[], .nil⟩
  | cons f fs ih =>
    rw [List.forall_mem_cons] at h
    obtain ⟨x, hx⟩ := h.1
    obtain ⟨es, hes⟩ := ih h.2
    exact ⟨(f.1, x) :: es, .cons ⟨rfl, hx⟩ hes⟩

theorem lookup_eq_none {es : Stats} {key : String} (h : key ∉ es.map Prod.fst) :
    es.reverse.lookup key = none := by
  rw [← Option.not_isSome_iff_eq_none, lookup_isSome_iff_mem, List.map_reverse, List.mem_reverse]
  exact h

/-- What is assigned are fields. -/
theorem field_of_mem {es : Stats} {lines : List (List Char)} {key : String}
    (hes : List.Forall₂ (Converts d) (lines.filterMap fieldEntry) es) (h : key ∈ es.map Prod.fst) :
    key ∈ fields.map fun f => f.2.1 := by
  rw [names_of_converts hes] at h
  obtain ⟨⟨_, kind, val⟩, hf, rfl⟩ := List.mem_map.mp h
  obtain ⟨l, -, hentry⟩ := List.mem_filterMap.mp hf
  obtain ⟨label, hmem⟩ := name_of_entry hentry
  exact List.mem_map.mpr ⟨_, hmem, rfl⟩

/-- What `_parse_stats_response` makes of a report. -/
structure StatsRead (d : Decimals) (initial stats : Stats) (lines : List (List Char)) : Prop where
  keys : stats.map Prod.fst = initial.map Prod.fst
  /-- The other fields stay. -/
  other : ∀ key ∉ fields.map (fun f => f.2.1), stats.lookup key = initial.lookup key
  /-- A field has the value of the last line with its label. -/
  last : ∀ label name kind, (label, name, kind) ∈ fields → ∀ pre line post val,
    lines = pre ++ line :: post → StatLine label.toList val line →
    (∀ l ∈ post, ∀ v, ¬ StatLine label.toList v l) →
    ∃ x, kind.convert d val = .ok x ∧ stats.lookup name = some x
  /-- A field without a line is null. -/
  missing : ∀ label name kind, (label, name, kind) ∈ fields →
    (∀ l ∈ lines, ∀ v, ¬ StatLine label.toList v l) → stats.lookup name = some .none

/-- **The report, by its lines.** `_parse_stats_response` raises for a line whose value cannot be read
and for nothing else; what it returns has the value of the last line with the label of a field, null
for a field without a line, and everything else as it was. -/
theorem stats_last_line (d : Decimals) (cfg : Config) (output : Option Field) :
    ((∃ stats, parseStatsResponse d cfg output = .ok stats) ↔
      ∀ line ∈ reportLines output, ∀ label name kind, (label, name, kind) ∈ fields → ∀ val,
        StatLine label.toList val line → ∃ x, kind.convert d val = .ok x) ∧
    ∀ stats, parseStatsResponse d cfg output = .ok stats →
      StatsRead d (initialStats cfg (outputLines output)) stats (reportLines output) := by
  constructor
  · constructor
    · rintro ⟨stats, h⟩ line hline label name kind hf val hval
      obtain ⟨es, hes, -⟩ := parseStatsResponse_eq_ok.mp h
      have hm : (name, kind, val) ∈ (reportLines output).filterMap fieldEntry :=
        List.mem_filterMap.mpr ⟨line, hline, (fieldEntry_iff hf).mpr ⟨rfl, hval⟩⟩
      obtain ⟨e, -, -, he⟩ := forall₂_mem_left hes hm
      exact ⟨_, he⟩
    · intro h
      obtain ⟨es, hes⟩ := exists_converts (d := d)
        ((reportLines output).filterMap fieldEntry) fun f hf => by
          obtain ⟨line, hline, hentry⟩ := List.mem_filterMap.mp hf
          obtain ⟨name, kind, val⟩ := f
          obtain ⟨label, hmem⟩ := name_of_entry hentry
          exact h line hline label name kind hmem val ((fieldEntry_iff hmem).mp hentry).2
      exact ⟨_, parseStatsResponse_eq_ok.mpr ⟨es, hes, rfl⟩⟩
  · intro stats h
    obtain ⟨es, hes, rfl⟩ := parseStatsResponse_eq_ok.mp h
    constructor
    case keys =>
      refine keys_assignAll fun key hkey => ?_
      obtain ⟨⟨label, name, kind⟩, hmem, rfl⟩ := List.mem_map.mp (field_of_mem hes hkey)
      rw [← lookup_isSome_iff_mem, lookup_initialStats hmem, Option.isSome_some]
    case other =>
      intro key hkey
      rw [lookup_assignAll, lookup_eq_none fun h => hkey (field_of_mem hes h), Option.none_or]
    case last =>
      intro label name kind hf pre line post val hlines hval hpost
      rw [hlines, List.filterMap_append, List.filterMap_cons_some ((fieldEntry_iff hf).mpr ⟨rfl, hval⟩)]
        at hes
      have hdrop := (List.forall₂_drop_append _ _ _ hes.flip).flip
      obtain ⟨⟨_, x⟩, es', ⟨rfl, hx⟩, hes', he⟩ := List.forall₂_cons_left_iff.mp hdrop
      rw [← List.take_append_drop (pre.filterMap fieldEntry).length es, he]
      exact ⟨x, hx, lookup_assignAll_last (name_notMem hf hes' hpost)⟩
    case missing =>
      intro label name kind hf hno
      rw [lookup_assignAll, lookup_eq_none (name_notMem hf hes hno), Option.none_or,
        lookup_initialStats hf]

end

end AMIClient

end Asl3
