import Asl3Api.Vnext.Service

/-!
# Operation reads (`vnext/api.py`)

* `Api.operations`, `Api.operation`: the two read endpoints, behind `require_ledger`.
-/

set_option autoImplicit false

namespace Asl3

namespace Api

/-- `GET /operations`; `list` cannot bind an offset that is no integer of 64 bits. -/
def operations (p : Platform) (t : Table) (limit offset : Nat) (env : Env) :
    Except Error (List Operation) :=
  match p.requireLedger with
  | .error e => .error (.problem e)
  | .ok () =>
    if env.readOk = false then .error Ledger.sqliteError
    else if 2 ^ 63 ≤ offset then .error (.py .overflowError)
    else .ok (Ledger.list t p.node limit offset)

/-- `GET /operations/{operation_id}`. -/
def operation (p : Platform) (t : Table) (id : String) (env : Env) : Except Error Operation :=
  match p.requireLedger with
  | .error e => .error (.problem e)
  | .ok () =>
    if env.readOk = false then .error Ledger.sqliteError
    else match Ledger.get t p.node id with
      | none => .error (.problem ⟨404, "OPERATION_NOT_FOUND", "No operation has this identity."⟩)
      | some op => .ok op

end Api

end Asl3
