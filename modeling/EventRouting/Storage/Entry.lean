import EventRouting.Contract.Codec
import EventRouting.Dialogue

namespace EventRouting

inductive StorageCall where
  /-- Obtains the entry, creating it if it is missing, with its payload if it has one. -/
  | obtain
  | write (p : Payload)
  deriving DecidableEq, Repr

abbrev StorageCall.Answer : StorageCall → Type
  | .obtain => Except ContractError (Option Payload)
  | .write _ => Except ContractError Unit

/-- A program over a storage entry. -/
abbrev StorageProgram := Dialogue StorageCall StorageCall.Answer

def obtainEntry : StorageProgram (Except ContractError (Option Payload)) := .put StorageCall.obtain

def writeEntry (p : Payload) : StorageProgram (Except ContractError Unit) :=
  .put (StorageCall.write p)

/-- A storage entry in memory, and how many of the next calls of each kind are to fail. -/
structure Entry where
  payload? : Option Payload := none
  failingWrites : Nat := 0
  failingObtains : Nat := 0
  deriving DecidableEq, Repr

def Entry.answer (call : StorageCall) : StateM Entry call.Answer := fun e =>
  match call with
  | .obtain =>
    if e.failingObtains = 0 then (.ok e.payload?, e)
    else (.error (.storage "injected get failure"),
      { e with failingObtains := e.failingObtains - 1 })
  | .write p =>
    if e.failingWrites = 0 then (.ok (), { e with payload? := some p })
    else (.error (.storage "injected write failure"),
      { e with failingWrites := e.failingWrites - 1 })

end EventRouting
