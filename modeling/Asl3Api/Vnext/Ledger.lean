import Asl3Api.Lib.Json
import Asl3Api.Vnext.Models

/-!
# The operation ledger (`vnext/ledger.py`)

* `Row`, `Table`: the SQLite table `operations`, its rows by `rowid`;
* `canonical`: the canonical text of a request;
* `get`, `findIdempotent`, `existing`, `admitOperation`, `update`, `startDispatch`, `recoverRow`: the
  operations, on the table of one file and for the node of one `Ledger` object.

A transaction is atomic: it is applied whole, or it raises `sqlite3.Error` and leaves the table as
it was. Which of the two happens is in `Env`.
-/

set_option autoImplicit false

namespace Asl3

open Py

/-- A row of `operations`; the document column is kept decoded. -/
structure Row where
  id : String
  node : String
  credential : String
  idempotencyKey : Option String
  canonical : String
  document : Operation

/-- The table, by `rowid`. -/
abbrev Table := List Row

/-- What the environment decides in one stretch of code without an `await`. -/
structure Env where
  /-- `now()`. -/
  now : String := ""
  /-- `asyncio.get_running_loop().time()`. -/
  time : Rat := 0
  /-- `uuid4().hex`. -/
  uuid : String := ""
  /-- A `SELECT` outside a transaction succeeds. -/
  readOk : Bool := true
  /-- The transaction commits. -/
  commitOk : Bool := true
  deriving DecidableEq, Repr

namespace Ledger

/-- `sqlite3.Error`. -/
def sqliteError : Error := .py .sqliteError

/-- `Ledger.canonical`. -/
def canonical (kind : String) (request : PyValue) : String :=
  String.ofList (dumps (.dict [("kind", .str kind), ("request", request)]))

/-- `Ledger.get`. -/
def get (t : Table) (node id : String) : Option Operation :=
  (t.find? fun r => r.id = id && r.node = node).map Row.document

/-- The row of an idempotency key, as both lookups select it. -/
def keyRow (t : Table) (node credential key : String) : Option Row :=
  t.find? fun r => r.node = node && r.credential = credential && r.idempotencyKey = some key

/-- `Ledger.find_idempotent`. -/
def findIdempotent (t : Table) (node kind : String) (request : PyValue) (credential : String)
    (key : Option String) (readOk : Bool) : Except Error (Option Operation) :=
  match key with
  | none => .ok none
  | some key =>
    if readOk = false then .error sqliteError
    else match keyRow t node credential key with
      | none => .ok none
      | some row =>
        if row.canonical ≠ canonical kind request then
          .error (.problem ⟨409, "IDEMPOTENCY_CONFLICT",
            "This Idempotency-Key already identifies a different request."⟩)
        else .ok (some row.document)

/-- `Ledger.existing`: the same lookup inside the transaction, with its own message. -/
def existing (t : Table) (node kind : String) (request : PyValue) (credential : String)
    (key : Option String) : Except Error (Option Operation) :=
  match key with
  | none => .ok none
  | some key =>
    match keyRow t node credential key with
    | none => .ok none
    | some row =>
      if row.canonical ≠ canonical kind request then
        .error (.problem ⟨409, "IDEMPOTENCY_CONFLICT",
          "This key already identifies a different canonical request."⟩)
      else .ok (some row.document)

/-- `Operation(...)` in `admit`: the kind must be one of the four and the request a dict. -/
def newOperation (node kind : String) (request : PyValue) (credential : String) (env : Env) :
    Except Error Operation :=
  match Kind.ofName? kind, request with
  | some k, .dict es =>
    if isNode node then
      .ok { id := env.uuid, node, kind := k, request := es, credential,
            createdAt := env.now, updatedAt := env.now,
            dispatchStatus := .queued, effectStatus := .pending, terminal := false }
    else .error validationError
  | _, _ => .error validationError

/-- `PRIMARY KEY` and `UNIQUE(node, credential, idempotency_key)`: two keys that are `NULL` do not
collide. -/
def violates (t : Table) (row : Row) : Bool :=
  t.any fun r => r.id = row.id ||
    (r.node = row.node && r.credential = row.credential && row.idempotencyKey.isSome &&
      r.idempotencyKey = row.idempotencyKey)

/-- `Ledger.admit`: the operation and whether it was created, with the table after the call. -/
def admitOperation (t : Table) (node kind : String) (request : PyValue) (credential : String)
    (key : Option String) (env : Env) : Except Error (Operation × Bool) × Table :=
  if env.commitOk = false then (.error sqliteError, t)
  else match existing t node kind request credential key with
    | .error e => (.error e, t)
    | .ok (some op) => (.ok (op, false), t)
    | .ok none => match newOperation node kind request credential env with
      | .error e => (.error e, t)
      | .ok op =>
        let row : Row := ⟨op.id, node, credential, key, canonical kind request, op⟩
        if violates t row then (.error sqliteError, t) else (.ok (op, true), t ++ [row])

/-- `UPDATE operations SET document=? WHERE id=? AND node=?`. -/
def setDocument (t : Table) (node id : String) (op : Operation) : Table :=
  t.map fun r => if r.id = id && r.node = node then { r with document := op } else r

/-- `Ledger.update`. -/
def update (t : Table) (node id : String) (c : Changes) (env : Env) :
    Except Error Operation × Table :=
  if env.commitOk = false then (.error sqliteError, t)
  else match get t node id with
    | none => (.error (.py (.valueError "Unknown operation")), t)
    | some op => (.ok (op.merge c env.now), setDocument t node id (op.merge c env.now))

/-- `Ledger.start_dispatch`: the crash boundary before control bytes may be written. -/
def startDispatch (t : Table) (node id : String) (env : Env) : Except Error Operation × Table :=
  if env.readOk = false then (.error sqliteError, t)
  else match get t node id with
    | some op =>
      if op.terminal = false ∧ op.dispatchStatus = .queued then
        update t node id { dispatchStatus := some .dispatchStarted } env
      else (.error (.py (.runtimeError "Operation cannot cross dispatch boundary again")), t)
    | none => (.error (.py (.runtimeError "Operation cannot cross dispatch boundary again")), t)

/-- The documents `recover` fetches before its loop. -/
def documents (t : Table) (node : String) : List Operation :=
  (t.filter fun r => r.node = node).map Row.document

/-- The change `recover` makes to an unfinished operation. -/
def recoveryChange (op : Operation) : Changes :=
  if op.dispatchStatus ≠ .queued then
    { dispatchStatus := some .outcomeUnknown, effectStatus := some .unknown, terminal := some true,
      semanticError := some "PROCESS_RESTART_AFTER_POSSIBLE_DISPATCH" }
  else
    { dispatchStatus := some .notDispatched, effectStatus := some .notAttempted,
      terminal := some true, semanticError := some "PROCESS_RESTART_BEFORE_DISPATCH" }

/-- The body of the loop of `recover`, for one fetched document. -/
def recoverRow (t : Table) (node : String) (op : Operation) (env : Env) : Except Error Unit × Table :=
  if op.terminal then (.ok (), t)
  else match update t node op.id (recoveryChange op) env with
    | (.ok _, t') => (.ok (), t')
    | (.error e, t') => (.error e, t')

/-- `Ledger.list`: the newest admissions first. -/
def list (t : Table) (node : String) (limit offset : Nat) : List Operation :=
  ((documents t node).reverse.drop offset).take limit

end Ledger

end Asl3
