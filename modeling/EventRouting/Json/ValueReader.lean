import EventRouting.Json.Record
import EventRouting.Json.Value

namespace EventRouting.Json

variable {α : Type}

def Value.found : Value → Found
  | .null => .null
  | .bool b => .boolean b
  | .int i => .integer i
  | .float _ => .floating
  | .string s => .string s
  | .array _ => .sequence
  | .object _ => .map

namespace Value

/-- The error of a value that is not of the wanted kind. -/
def refuse (wanted : String) (v : Value) : DecodeError :=
  .mismatch (.invalidType v.found wanted)

def readString : Reader Value String
  | .string s => .ok s
  | v => .error (v.refuse "a string")

def readBool : Reader Value Bool
  | .bool b => .ok b
  | v => .error (v.refuse "a boolean")

/-- An integer of a range. -/
def readInt (low high : Int) (wanted : String) : Reader Value Int
  | .int i =>
    if low ≤ i ∧ i ≤ high then .ok i else .error (.mismatch (.invalidValue (.integer i) wanted))
  | v => .error (v.refuse wanted)

def readUInt64 : Reader Value UInt64 := fun v =>
  (UInt64.ofNat ·.toNat) <$> v.readInt 0 18446744073709551615 "u64"

def readUInt32 : Reader Value UInt32 := fun v =>
  (UInt32.ofNat ·.toNat) <$> v.readInt 0 4294967295 "u32"

def readInt64 : Reader Value Int :=
  readInt (-9223372036854775808) 9223372036854775807 "i64"

def readOption (reader : Reader Value α) : Reader Value (Option α)
  | .null => .ok none
  | v => some <$> reader v

def readList (reader : Reader Value α) : Reader Value (List α)
  | .array items => items.mapM reader
  | v => .error (v.refuse "a sequence")

def readMap (reader : Reader Value α) : Reader Value (List (String × α))
  | .object members => members.mapM fun (name, v) => return (name, ← reader v)
  | v => .error (v.refuse "a map")

/-- A variant is named by a string, or by the one member of an object, whose value is null. -/
def readVariant (variants : List (String × α)) : Reader Value α
  | .string name => variant variants name
  | .object [(name, v)] => do
    let a ← variant variants name
    if v = .null then return a else throw (v.refuse "unit")
  | .object _ => .error (.mismatch (.invalidValue .map "map with a single key"))
  | v => .error (v.refuse "string or map")

end Value

def Record.ofValue (r : Record Value α) : Reader Value α
  | .object members => do
    let draft ← members.foldlM (fun draft (name, v) => r.put draft name v) r.empty
    r.finish draft
  | .array items => do
    let (a, rest) ← r.elements.run { items }
    if rest.items.isEmpty then return a
    else throw (.mismatch (.invalidLength items.length "fewer elements in array"))
  | v => .error (v.refuse ("struct " ++ r.name))

end EventRouting.Json
