import Asl3Api.Lib.Dict
import Asl3Api.Vnext.Transport

/-!
# Native observations (`vnext/observation.py`)

* `safeLinkName`, `xstatConn`, `sawstatConn`: the row grammars;
* `parseAlinks`, `parseXstat`, `parseSawstat`: the three sources of one sample;
* `parseSnapshot`: their conservative combination;
* `Observer.snapshot`: what `snapshot()` makes of one `transport.observe`.
-/

set_option autoImplicit false

namespace Asl3

open Py

/-! ## Row grammars -/

/-- `SAFE_LINK_NAME = r"^[^\s,\x00-\x1f\x7f]{1,64}$"`. -/
def safeLinkName : List Piece :=
  [.run (fun c => !isSpace c && c ≠ ',' && 32 ≤ c.toNat && c.toNat ≠ 127) 1 (some 64)]

/-- `\S+`. -/
def wordPiece : Piece := .run nonSpace 1 none

/-- `\s+`. -/
def spacePiece : Piece := .run isSpace 1 none

/-- `XSTAT_CONN`. -/
def xstatConn : List Piece :=
  [wordPiece, spacePiece, wordPiece, spacePiece, .run isDigit 1 none, spacePiece,
    .word ["IN".toList, "OUT".toList], spacePiece,
    .run isDigit 2 none, .word [":".toList], .run (fun c => '0' ≤ c && c ≤ '5') 1 (some 1),
    .run isDigit 1 (some 1), .word [":".toList], .run (fun c => '0' ≤ c && c ≤ '5') 1 (some 1),
    .run isDigit 1 (some 1), spacePiece,
    .word ["ESTABLISHED".toList, "CONNECTING".toList], .run isSpace 0 none]

/-- `SAWSTAT_CONN`. -/
def sawstatConn : List Piece :=
  [wordPiece, spacePiece, .run (fun c => c = '0' || c = '1') 1 (some 1), spacePiece,
    .run (fun c => c = '-') 0 (some 1), .run isDigit 1 none, spacePiece,
    .run (fun c => c = '-') 0 (some 1), .run isDigit 1 none, .run isSpace 0 none]

/-- `_safe_name`. -/
def safeName (name : String) : Except PyError String :=
  if (fullmatch safeLinkName name.toList).isNone then
    .error (.valueError "Malformed adjacent-link identifier")
  else if name = "000000" then
    .error (.valueError "Truncation sentinel in adjacent-link evidence")
  else .ok name

/-- `_values`: the texts of a header. -/
def fieldValues (message : Message) (key : String) : List String :=
  match message.lookup key with
  | none => []
  | some (.one s) => [s]
  | some (.many xs) => xs

/-- `_scalar`: the text of a header that occurs once. -/
def fieldScalar (message : Message) (key : String) : Except PyError String :=
  match fieldValues message key with
  | [s] => .ok s
  | _ => .error (.valueError ("Missing or repeated " ++ key ++ " field"))

/-! ## ALINKS -/

/-- The mode and keyed evidence of an ALINKS entry. -/
structure Alink where
  mode : LinkMode
  keyed : Bool
  deriving DecidableEq, Repr

/-- `mode not in {"T", "R", "L", "C"}`. -/
def linkMode? (c : Char) : Option LinkMode :=
  if c = 'T' then some .T else if c = 'R' then some .R
  else if c = 'L' then some .L else if c = 'C' then some .C else none

/-- `keyed not in {"K", "U"}`. -/
def keyed? (c : Char) : Option Bool :=
  if c = 'K' then some true else if c = 'U' then some false else none

/-- The body of the loop of `parse_alinks`, up to the duplicate check. -/
def alinkEntry (token : List Char) : Except PyError (String × Alink) :=
  match token.reverse with
  | k :: m :: c :: rest =>
    match safeName (String.ofList (c :: rest).reverse) with
    | .error e => .error e
    | .ok name => match linkMode? m, keyed? k with
      | some mode, some keyed => .ok (name, ⟨mode, keyed⟩)
      | _, _ => .error (.valueError "Malformed ALINKS mode/key state")
  | _ => .error (.valueError "Malformed ALINKS entry")

/-- `re.fullmatch(r"0|[1-9][0-9]*", count, flags=re.ASCII)`. -/
def isCount (count : String) : Bool :=
  count = "0" ||
    (fullmatch [.run (fun c => '1' ≤ c && c ≤ '9') 1 (some 1), .run isDigit 0 none]
      count.toList).isSome

/-- The error of a value without as many entries as its count. `int` reads no count of more digits than
this, and no value has so many entries. -/
def alinksMismatch (count : String) : PyError :=
  .valueError (if 4300 < count.length then excessDigits count.length
    else "Truncated or inconsistent ALINKS")

/-- `parse_alinks`. -/
def parseAlinks : Option String → Option String → Except PyError (List (String × Alink))
  | some value, some count =>
    if isCount count = false then .error (.valueError "Malformed ALINKS count")
    else if parseNat count.toList = 0 then
      if value ≠ "" then .error (.valueError "ALINKS count/value mismatch") else .ok []
    else match value.toList.splitOn ',' with
      | [] => .error (alinksMismatch count)
      | head :: tokens =>
        if head ≠ count.toList ∨ tokens.length ≠ parseNat count.toList then
          .error (alinksMismatch count)
        else collect alinkEntry (.valueError "Duplicate ALINKS entry") [] tokens
  | _, _ => .error (.typeError "Missing ALINKS evidence")

/-! ## XStat and SawStat -/

/-- `{str(k).lower(): v for k, v in response.items()}`: of two keys that lower to one the later
stands, so it comes first in the list. -/
def lowerKeys (response : Message) : Message :=
  (response.map fun f => (lower f.1, f.2)).reverse

/-- The error of a `Var` row, and of its duplicate check. -/
def varError : PyError := .valueError "Malformed or duplicate XStat variable"

/-- The body of the loop over the `Var` rows, up to the duplicate check. -/
def varEntry (row : String) : Except PyError (String × String) :=
  let (key, found, value) := partition '=' row.toList
  if found = false ∨ key = [] then .error varError
  else .ok (String.ofList key, String.ofList value)

/-- `vars.get(key) not in {"0", "1"}`, negated. -/
def binary (vars : List (String × String)) (key : String) : Bool :=
  vars.lookup key = some "0" || vars.lookup key = some "1"

/-- The connection state of an XStat row. -/
def connStatus (text : List Char) : ConnectionStatus :=
  if text = "ESTABLISHED".toList then .established else .connecting

/-- The body of the loop over the `Conn` rows of XStat, up to the duplicate check. -/
def xstatEntry (row : String) : Except PyError (String × ConnectionStatus) :=
  match fullmatch xstatConn row.toList with
  | none => .error (.valueError "Malformed XStat Conn")
  | some groups => match safeName (String.ofList (groups.getD 0 [])) with
    | .error e => .error e
    | .ok name => .ok (name, connStatus (groups.getD 16 []))

/-- What `_parse_xstat` returns. -/
structure Xstat where
  vars : List (String × String)
  connections : List (String × ConnectionStatus)
  alinks : List (String × Alink)
  deriving DecidableEq, Repr

/-- The first checks of both parsers. -/
def checkReply (fields : Message) (node text : String) : Except PyError Unit := do
  let response ← fieldScalar fields "response"
  if response ≠ "Success" then throw (.valueError text)
  let name ← fieldScalar fields "node"
  if name ≠ node then throw (.valueError text)

/-- `_parse_xstat`. -/
def parseXstat (response : Message) (node : String) : Except PyError Xstat := do
  let fields := lowerKeys response
  checkReply fields node "XStat failed or node mismatch"
  let vars ← collect varEntry varError [] (fieldValues fields "var")
  if binary vars "RPT_RXKEYED" = false then
    throw (.valueError "Missing or malformed RPT_RXKEYED")
  else if binary vars "RPT_TXKEYED" = false then
    throw (.valueError "Missing or malformed RPT_TXKEYED")
  else if contains ((vars.lookup "RPT_LINKS").getD "") "000000" then
    throw (.valueError "Truncated RPT_LINKS")
  else
    let connections ← collect xstatEntry (.valueError "Duplicate XStat Conn") []
      (fieldValues fields "conn")
    let alinks ← parseAlinks (vars.lookup "RPT_ALINKS") (vars.lookup "RPT_NUMALINKS")
    if alinks.any fun a => (connections.lookup a.1).isNone then
      throw (.valueError "ALINKS names are not a subset of XStat direct connections")
    else return ⟨vars, connections, alinks⟩

/-- The body of the loop over the `Conn` rows of SawStat, up to the duplicate check. -/
def sawstatEntry (row : String) : Except PyError (String × Bool) :=
  match fullmatch sawstatConn row.toList with
  | none => .error (.valueError "Malformed SawStat Conn")
  | some groups => match safeName (String.ofList (groups.getD 0 [])) with
    | .error e => .error e
    | .ok name => .ok (name, decide (groups.getD 2 [] = ['1']))

/-- `_parse_sawstat`. -/
def parseSawstat (response : Message) (node : String) : Except PyError (List (String × Bool)) := do
  let fields := lowerKeys response
  checkReply fields node "SawStat failed or node mismatch"
  collect sawstatEntry (.valueError "Duplicate SawStat Conn") [] (fieldValues fields "conn")

/-! ## Snapshots -/

/-- `unknown`. -/
def unknownState (node : String) (epoch : Option String) (reason now : String) : NodeState where
  node := node
  observedAt := now
  connectionEpoch := epoch
  stateStatus := .stateUnknown
  trafficState := .unknown
  complete := false
  reasons := [reason]

/-- The loop of `parse_snapshot` over the connections. -/
def buildLinks (alinks : List (String × Alink)) (sawKeyed : List (String × Bool)) :
    List (String × ConnectionStatus) → Except PyError (List DirectLink)
  | [] => .ok []
  | (name, status) :: rest =>
    match sawKeyed.lookup name with
    | none => .error (.keyError name)
    | some keyed =>
      let alink := alinks.lookup name
      if alink.any fun a => a.keyed ≠ keyed then
        .error (.valueError "Keyed state changed during observation")
      else match buildLinks alinks sawKeyed rest with
        | .error e => .error e
        | .ok links => .ok (⟨name, if isNode name then some name else none,
            (alink.map Alink.mode).getD .unknown, keyed, status⟩ :: links)

/-- The two sets of names are equal. -/
def sameNames (connections : List (String × ConnectionStatus)) (keyed : List (String × Bool)) :
    Bool :=
  (connections.all fun c => (keyed.lookup c.1).isSome) &&
    keyed.all fun k => (connections.lookup k.1).isSome

/-- A reply: a mapping, or a value of another type. -/
inductive Reply where
  | mapping (m : Message)
  | other
  deriving DecidableEq, Repr

/-- The body of the `try` of `parse_snapshot`. -/
def combine (xstat sawstat : Reply) (node epoch now : String) : Except PyError NodeState :=
  match xstat, sawstat with
  | .mapping xs, .mapping saw => do
    let x ← parseXstat xs node
    let sawKeyed ← parseSawstat saw node
    if sameNames x.connections sawKeyed = false then
      throw (.valueError "Direct-link set changed during observation")
    else
      let links ← buildLinks x.alinks sawKeyed x.connections
      let rxKeyed : Bool := x.vars.lookup "RPT_RXKEYED" = some "1"
      let txKeyed : Bool := x.vars.lookup "RPT_TXKEYED" = some "1"
      let active := rxKeyed || txKeyed || links.any DirectLink.keyed
      return { node, observedAt := now, connectionEpoch := some epoch, stateStatus := .complete,
               trafficState := if active then .active else .clear, complete := true,
               rxKeyed := some rxKeyed, txKeyed := some txKeyed, directLinks := some links }
  | _, _ => .error (.typeError "Malformed RptStatus response")

/-- `parse_snapshot`: `KeyError`, `TypeError` and `ValueError` become unknown evidence. -/
def parseSnapshot (xstat sawstat : Reply) (node epoch now : String) : Except PyError NodeState :=
  match combine xstat sawstat node epoch now with
  | .ok state => .ok state
  | .error (.valueError text) => .ok (unknownState node (some epoch) text now)
  | .error (.typeError text) => .ok (unknownState node (some epoch) text now)
  | .error (.keyError key) =>
    .ok (unknownState node (some epoch) (String.ofList (reprStr key)) now)
  | .error e => .error e

/-- What one `transport.observe` brings: two replies of one connection epoch, with whether the
observer was invalidated meanwhile, or an exception. -/
inductive Observation where
  | replies (xstat sawstat : Message) (epoch : String) (stale : Bool)
  | failed (e : Error)
  deriving DecidableEq, Repr

/-- The exceptions `Observer.snapshot` turns into unknown evidence. -/
def observationError : Error → Bool
  | .protocol _ => true
  | .py (.valueError _) => true
  | .py .osError => true
  | .py .timeoutError => true
  | .py .incompleteReadError => true
  | .py .limitOverrunError => true
  | _ => false

/-- `Observer.snapshot`, from what its `transport.observe` brought; `uuid` is `uuid4().hex`. -/
def Observer.snapshot (node : String) (o : Observation) (now uuid : String) :
    Except Error NodeState :=
  match o with
  | .replies xstat sawstat epoch stale =>
    if stale then .ok (unknownState node (some epoch) "STALE_CONNECTION_EPOCH" now)
    else match parseSnapshot (.mapping xstat) (.mapping sawstat) node epoch now with
      | .ok state => .ok state
      | .error e => .error (.py e)
  | .failed e =>
    if observationError e then
      .ok (unknownState node (some uuid) "AMI_OBSERVATION_UNAVAILABLE" now)
    else .error e

end Asl3
