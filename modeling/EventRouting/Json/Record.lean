import EventRouting.Json.Document
import EventRouting.Json.Mismatch

namespace EventRouting.Json

/-- Why data is refused: it is no JSON, or it has the wrong shape. -/
inductive DecodeError where
  | fault (f : Fault)
  | mismatch (m : Mismatch)
  deriving DecidableEq, Repr

abbrev Reader (ν α : Type) := ν → Except DecodeError α

variable {ν α : Type}

/-- Puts a value into the slot of a field, which must be empty. -/
def fill (slot : Option α) (name : String) (value : Except DecodeError α) :
    Except DecodeError (Option α) :=
  match slot with
  | some _ => .error (.mismatch (.duplicateField name))
  | none => some <$> value

def require (slot : Option α) (name : String) : Except DecodeError α :=
  match slot with
  | some a => .ok a
  | none => .error (.mismatch (.missingField name))

/-- The elements of an array that are still to be read as fields, and how many are read. -/
structure Elements (ν : Type) where
  items : List ν
  fault? : Option Fault := none
  count : Nat := 0

abbrev FieldReader (ν α : Type) := StateT (Elements ν) (Except DecodeError) α

/-- The next field, if the array does not end here. -/
def nextField? (reader : Reader ν α) : FieldReader ν (Option α) := fun e =>
  match e.items, e.fault? with
  | n :: items, _ => do return (some (← reader n), { e with items, count := e.count + 1 })
  | [], some f => .error (.fault f)
  | [], none => .ok (none, e)

def nextFieldD (reader : Reader ν α) (default : α) : FieldReader ν α :=
  return (← nextField? reader).getD default

def nextField (reader : Reader ν α) (wanted : String) : FieldReader ν α := do
  match ← nextField? reader with
  | some a => return a
  | none => throw (.mismatch (.invalidLength (← get).count wanted))

/-- How a record is read: the members of an object go into a draft one after the other, the elements
of an array are taken in the order of the fields. -/
structure Record (ν α : Type) where
  /-- The record as errors name it. -/
  name : String
  Draft : Type
  empty : Draft
  put : Draft → String → Reader ν Draft
  finish : Draft → Except DecodeError α
  elements : FieldReader ν α

def variant (variants : List (String × α)) (name : String) : Except DecodeError α :=
  match variants.lookup name with
  | some a => .ok a
  | none => .error (.mismatch (.unknownVariant name (variants.map Prod.fst)))

end EventRouting.Json
