import Asl3Api.Lib.Regex
import Asl3Api.Lib.Text
import Asl3Api.Vnext.ReadSession

/-!
# Software version evidence (`vnext/software.py`)

* `parseAsteriskVersion`, `parseAppRptVersion`, `evidence`, `undetected`: what a reply is evidence of;
* `AMITransport.softwareVersions`, `Platform.softwareEvidence`: the probe, for all that the peer and the
  system can do;
* `parseAsteriskVersion_iff`, `parseAppRptVersion_iff`: the replies that show a version;
* **`version_evidence`**: a version is reported when the right reply shows it, and never else.
-/

set_option autoImplicit false

namespace Asl3

open Py AMISession AMITransport

namespace Software

/-! ## The replies -/

/-- `ASTERISK_VERSION_ACTION` -/
def asteriskVersionAction : List (String × String) := [("Action", "CoreSettings")]

/-- `APP_RPT_VERSION_ACTION` -/
def appRptVersionAction : List (String × String) :=
  [("Action", "Command"), ("Command", "rpt show version")]

def asteriskSource : String := "ami:CoreSettings/AsteriskVersion"

def appRptSource : String := "ami:Command/rpt show version"

def method : String := "read-only local AMI reads; no node targeting and no control dispatch"

/-- `[0-9]{1,4}` -/
def numberPattern : Regex Char := .rep (.cls isDigit) 1 (some 4)

/-- `[.+~:_-]` -/
def isMark (c : Char) : Bool := ['.', '+', '~', ':', '_', '-'].contains c

/-- `[0-9A-Za-z.+~:_-]` -/
def isTail (c : Char) : Bool :=
  isDigit c || ('A' ≤ c && c ≤ 'Z') || ('a' ≤ c && c ≤ 'z') || isMark c

/-- `[0-9]{1,4}(\.[0-9]{1,4})+([.+~:_-][0-9A-Za-z.+~:_-]{0,40})?` -/
def asteriskVersionPattern : Regex Char :=
  .seq numberPattern (.seq (.rep (.seq (.cls (· = '.')) numberPattern) 1 none)
    (.rep (.seq (.cls isMark) (.rep (.cls isTail) 0 (some 40))) 0 (some 1)))

/-- The text in front of the version. -/
def bannerText : List Char := "app_rpt version: ".toList

/-- `([0-9]{1,4}\.[0-9]{1,4}\.[0-9]{1,4})` -/
def appRptVersionGroup : List Piece :=
  [.run isDigit 1 (some 4), .word [['.']], .run isDigit 1 (some 4), .word [['.']],
    .run isDigit 1 (some 4)]

/-- `app_rpt version: ([0-9]{1,4}\.[0-9]{1,4}\.[0-9]{1,4})` -/
def appRptVersionPattern : List Piece := .word [bannerText] :: appRptVersionGroup

/-- `_scalar`: the one non-empty value of a key; what is no mapping has none. -/
def scalar (message : Option Message) (key : String) : Option String :=
  match message with
  | none => none
  | some m => match m.lookup key with
    | some (.one value) => if value = "" then none else some value
    | _ => none

/-- `[line.strip() for line in value if line.strip()]` -/
def stripped (value : List String) : List (List Char) :=
  value.filterMap fun line =>
    if Text.strip isUnicodeSpace line.toList = [] then none
    else some (Text.strip isUnicodeSpace line.toList)

/-- `_output_lines`: the lines that are not blank, stripped. -/
def outputLines (message : Option Message) : Option (List (List Char)) :=
  match message with
  | none => none
  | some m => some (stripped (match m.lookup "output" with
    | none => []
    | some (.one line) => [line]
    | some (.many lines) => lines))

/-- `parse_asterisk_version` -/
def parseAsteriskVersion (response : Option Message) : Option String :=
  if scalar response "response" ≠ some "Success" then none
  else match scalar response "asteriskversion" with
    | none => none
    | some version => if asteriskVersionPattern.fullmatch version.toList then some version else none

/-- `parse_app_rpt_version` -/
def parseAppRptVersion (response : Option Message) : Option String :=
  if scalar response "response" ≠ some "Success" then none
  else match outputLines response with
    | some [line] => (fullmatch appRptVersionPattern line).map fun gs =>
      String.ofList (gs.drop 1).flatten
    | _ => none

/-- An entry of the evidence. -/
structure Entry where
  version : Option String
  detected : Bool
  source : String
  deriving DecidableEq, Repr

/-- `_entry` -/
def entry (version : Option String) (source : String) : Entry :=
  { version, detected := version.isSome, source }

/-- The block of the capabilities. -/
structure Evidence where
  method : String
  asterisk : Entry
  appRpt : Entry
  deriving DecidableEq, Repr

/-- `evidence` -/
def evidence (asteriskResponse appRptResponse : Option Message) : Evidence :=
  { method := method
    asterisk := entry (parseAsteriskVersion asteriskResponse) asteriskSource
    appRpt := entry (parseAppRptVersion appRptResponse) appRptSource }

/-- `undetected` -/
def undetected : Evidence := evidence none none

end Software

/-! ## The probe -/

/-- `AMITransport.software_versions` -/
def AMITransport.softwareVersions (cfg : Config) (peer : Peer) :
    Except Raised (Message × Message) × List Turn :=
  readSession cfg peer Software.asteriskVersionAction Software.appRptVersionAction

namespace Platform

/-- The exceptions that `software_evidence` catches. -/
def evidenceCatches : Raised → Bool
  | .error (.py .osError) => true
  | .error (.py .timeoutError) => true
  | .error (.py .incompleteReadError) => true
  | .error (.py .limitOverrunError) => true
  | .error (.protocol _) => true
  | .error (.py (.valueError _)) => true
  | _ => false

/-- `software_evidence`, with its calls of `action`. -/
def softwareEvidence (cfg : Config) (peer : Peer) : Except Raised Software.Evidence × List Turn :=
  match AMITransport.softwareVersions cfg peer with
  | (.ok (asterisk, appRpt), turns) => (.ok (Software.evidence (some asterisk) (some appRpt)), turns)
  | (.error e, turns) =>
    if evidenceCatches e then (.ok Software.undetected, turns) else (.error e, turns)

end Platform

/-! ## What a reply shows -/

namespace Software

theorem scalar_eq_some {m : Message} {key value : String} :
    scalar (some m) key = some value ↔ m.lookup key = some (.one value) ∧ value ≠ "" := by
  simp only [scalar]
  split
  · rename_i text hf
    rw [hf, Option.ite_none_left_eq_some, Option.some.injEq, Option.some.injEq, Field.one.injEq]
    constructor
    · rintro ⟨hne, rfl⟩
      exact ⟨rfl, hne⟩
    · rintro ⟨rfl, hne⟩
      exact ⟨hne, rfl⟩
  · rename_i hno
    exact iff_of_false (Option.some_ne_none value).symm fun h => hno _ h.1

theorem scalar_response {m : Message} :
    scalar (some m) "response" ≠ some "Success" ↔ m.lookup "response" ≠ some (.one "Success") := by
  rw [ne_eq, ne_eq, scalar_eq_some, and_iff_left (by decide)]

/-- A pattern that begins with a digit accepts no empty text. -/
theorem asteriskVersion_ne {s : List Char} (h : asteriskVersionPattern.Matches s) : s ≠ [] := by
  obtain ⟨a, b, ⟨ws, hws, hlen, -, rfl⟩, -, rfl⟩ := h
  obtain ⟨w, ws, rfl⟩ := List.exists_cons_of_length_pos hlen
  obtain ⟨c, -, rfl⟩ := hws w List.mem_cons_self
  exact List.cons_ne_nil _ _

/-- **The replies that show an Asterisk version.** -/
theorem parseAsteriskVersion_iff {m : Message} {v : String} :
    parseAsteriskVersion (some m) = some v ↔ m.lookup "response" = some (.one "Success") ∧
      m.lookup "asteriskversion" = some (.one v) ∧ asteriskVersionPattern.Matches v.toList := by
  unfold parseAsteriskVersion
  by_cases hr : m.lookup "response" = some (.one "Success")
  · rw [if_neg (scalar_response.not.mpr (not_not.mpr hr)), and_iff_right hr]
    cases hs : scalar (some m) "asteriskversion" with
    | none =>
      refine iff_of_false (Option.some_ne_none v).symm ?_
      rintro ⟨hl, hm⟩
      have hne : v ≠ "" := by
        rintro rfl
        exact asteriskVersion_ne hm rfl
      rw [scalar_eq_some.mpr ⟨hl, hne⟩] at hs
      cases hs
    | some version =>
      obtain ⟨hl, -⟩ := scalar_eq_some.mp hs
      rw [hl, Option.some.injEq, Field.one.injEq]
      dsimp only
      rw [Option.ite_none_right_eq_some, Option.some.injEq, Regex.fullmatch_iff]
      constructor
      · rintro ⟨hm, rfl⟩
        exact ⟨rfl, hm⟩
      · rintro ⟨rfl, hm⟩
        exact ⟨hm, rfl⟩
  · rw [if_pos (scalar_response.mpr hr)]
    exact iff_of_false (Option.some_ne_none v).symm fun h => hr h.1

/-- Three numbers with a point between them. -/
def IsVersion (v : List Char) : Prop :=
  ∃ gs, v = gs.flatten ∧ List.Forall₂ Piece.Matches appRptVersionGroup gs

/-- A pattern that begins with a word, and what the rest of it takes. -/
theorem fullmatch_word {w line v : List Char} {ps : List Piece} :
    (∃ gs, fullmatch (.word [w] :: ps) line = some gs ∧ (gs.drop 1).flatten = v) ↔
      line = w ++ v ∧ ∃ gs, v = gs.flatten ∧ List.Forall₂ Piece.Matches ps gs := by
  have hsound : ∀ {gs}, fullmatch (.word [w] :: ps) line = some gs → ∃ gs', gs = w :: gs' ∧
      line = w ++ gs'.flatten ∧ List.Forall₂ Piece.Matches ps gs' := by
    intro gs hgs
    obtain ⟨rfl, hm⟩ := fullmatch_sound hgs
    obtain ⟨g, gs', hg, hm', rfl⟩ := List.forall₂_cons_left_iff.mp hm
    obtain rfl := List.mem_singleton.mp hg
    exact ⟨gs', rfl, List.flatten_cons, hm'⟩
  constructor
  · rintro ⟨gs, hgs, rfl⟩
    obtain ⟨gs', rfl, hline, hm⟩ := hsound hgs
    exact ⟨hline, gs', rfl, hm⟩
  · rintro ⟨rfl, gs, rfl, hm⟩
    have hsome : (fullmatch (.word [w] :: ps) (w ++ gs.flatten)).isSome = true :=
      fullmatch_isSome.mpr ⟨w :: gs, List.flatten_cons.symm, .cons (List.mem_singleton_self w) hm⟩
    obtain ⟨gs', hgs'⟩ := Option.isSome_iff_exists.mp hsome
    obtain ⟨vs, rfl, heq, -⟩ := hsound hgs'
    exact ⟨_, hgs', (List.append_cancel_left heq).symm⟩

/-- The line of `rpt show version`. -/
def banner (v : List Char) : List Char := bannerText ++ v

theorem fullmatch_banner {line : List Char} {v : String} :
    ((fullmatch appRptVersionPattern line).map fun gs => String.ofList (gs.drop 1).flatten) = some v ↔
      line = banner v.toList ∧ IsVersion v.toList := by
  rw [Option.map_eq_some_iff]
  refine Iff.trans ?_ fullmatch_word
  refine exists_congr fun gs => and_congr_right fun _ => ?_
  constructor
  · rintro rfl
    exact String.toList_ofList.symm
  · intro h
    rw [h, String.ofList_toList]

/-- **The replies that show an app_rpt version.** -/
theorem parseAppRptVersion_iff {m : Message} {v : String} :
    parseAppRptVersion (some m) = some v ↔ m.lookup "response" = some (.one "Success") ∧
      outputLines (some m) = some [banner v.toList] ∧ IsVersion v.toList := by
  unfold parseAppRptVersion
  by_cases hr : m.lookup "response" = some (.one "Success")
  · rw [if_neg (scalar_response.not.mpr (not_not.mpr hr)), and_iff_right hr]
    split
    · rename_i line hl
      rw [hl, fullmatch_banner, Option.some.injEq, List.cons.injEq, and_iff_left rfl]
    · rename_i hno
      exact iff_of_false (Option.some_ne_none v).symm fun h => hno _ h.1
  · rw [if_pos (scalar_response.mpr hr)]
    exact iff_of_false (Option.some_ne_none v).symm fun h => hr h.1

end Software

/-! ## The evidence -/

open Platform Software

/-- Both reads of a probe are answered. -/
def Software.Probed (cfg : Config) (peer : Peer) (asterisk appRpt : Message) : Prop :=
  AMITransport.Answered cfg peer asteriskVersionAction appRptVersionAction asterisk appRpt

/-- **The evidence of a probe.** It writes the first of three constant actions, each once and none
with a barrier. It raises only what the peer or the system raises, and no error that it should catch. It
reports a version when the two reads are answered and the reply shows that version, and else none. -/
theorem version_evidence (cfg : Config) (peer : Peer) :
    ((softwareEvidence cfg peer).2.map Turn.call <+:
        calls cfg peer asteriskVersionAction appRptVersionAction ∧
      ∀ t ∈ (softwareEvidence cfg peer).2, AMISession.Event.beforeWrite ∉ t.events ∧
        t.events.countP AMISession.Event.isWrite ≤ 1 ∧
        ∀ p, AMISession.Event.write p ∈ t.events → encode t.call.fields t.call.actionId = .ok p) ∧
    (∀ e, (softwareEvidence cfg peer).1 = .error e → evidenceCatches e = false ∧ peer.Raises e) ∧
    ∀ ev, (softwareEvidence cfg peer).1 = .ok ev →
      ev.asterisk.detected = ev.asterisk.version.isSome ∧
      ev.appRpt.detected = ev.appRpt.version.isSome ∧
      (∀ v, ev.asterisk.version = some v ↔ ∃ asterisk appRpt, Probed cfg peer asterisk appRpt ∧
        asterisk.lookup "response" = some (.one "Success") ∧
        asterisk.lookup "asteriskversion" = some (.one v) ∧
        asteriskVersionPattern.Matches v.toList) ∧
      ∀ v, ev.appRpt.version = some v ↔ ∃ asterisk appRpt, Probed cfg peer asterisk appRpt ∧
        appRpt.lookup "response" = some (.one "Success") ∧
        outputLines (some appRpt) = some [Software.banner v.toList] ∧ IsVersion v.toList := by
  have hturns : (softwareEvidence cfg peer).2 = (softwareVersions cfg peer).2 := by
    unfold softwareEvidence
    split
    · rename_i h
      rw [h]
    · rename_i h
      rw [h]
      split_ifs <;> rfl
  refine ⟨?_, fun e he => ?_, fun ev hev => ?_⟩
  · rw [hturns]
    exact ⟨(readSession_calls cfg peer _ _).1, fun t ht => readSession_writes ht⟩
  · unfold softwareEvidence at he
    split at he
    · cases he
    · rename_i x turns h
      split_ifs at he with hc
      cases he
      refine ⟨Bool.eq_false_iff.mpr hc, ?_⟩
      rcases readSession_raises (congrArg Prod.fst h) with ⟨text, rfl | rfl⟩ | hr
      · exact absurd rfl hc
      · exact absurd rfl hc
      · exact hr
  · unfold softwareEvidence at hev
    split at hev
    · rename_i asterisk appRpt turns h
      have hprobed : Probed cfg peer asterisk appRpt := readSession_iff.mp (congrArg Prod.fst h)
      cases hev
      refine ⟨rfl, rfl, fun v => parseAsteriskVersion_iff.trans ?_,
        fun v => parseAppRptVersion_iff.trans ?_⟩
      · refine ⟨fun hv => ⟨asterisk, appRpt, hprobed, hv⟩, ?_⟩
        rintro ⟨x, y, hxy, hv⟩
        rwa [(hprobed.unique hxy).1] at hv
      · refine ⟨fun hv => ⟨asterisk, appRpt, hprobed, hv⟩, ?_⟩
        rintro ⟨x, y, hxy, hv⟩
        rwa [(hprobed.unique hxy).2] at hv
    · rename_i x turns h
      have hnone : ∀ {y z}, ¬Probed cfg peer y z := by
        intro y z hyz
        cases (readSession_iff.mpr hyz).symm.trans (congrArg Prod.fst h)
      split_ifs at hev with hc
      cases hev
      refine ⟨rfl, rfl, fun v => iff_of_false (Option.some_ne_none v).symm ?_,
        fun v => iff_of_false (Option.some_ne_none v).symm ?_⟩
      · rintro ⟨x, y, hxy, -⟩
        exact hnone hxy
      · rintro ⟨x, y, hxy, -⟩
        exact hnone hxy

end Asl3
