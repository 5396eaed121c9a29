import EventRouting.Json.Record

namespace EventRouting.Json

variable {α : Type}

/-- The bytes of a spelled string. A high surrogate must be followed by a low one. -/
def Piece.bytes : List Piece → Option Fault → Except Fault (List UInt8)
  | [], none => .ok []
  | [], some f => .error f
  | .byte b :: pieces, f => (b :: ·) <$> Piece.bytes pieces f
  | .unit u :: pieces, f =>
    if u < 0xD800 ∨ 0xE000 ≤ u then
      (Utf8.encodeChar (.ofNat u) ++ ·) <$> Piece.bytes pieces f
    else if 0xDC00 ≤ u then .error .malformed
    else match pieces, f with
      | .unit v :: pieces, f =>
        if 0xDC00 ≤ v ∧ v < 0xE000 then
          (Utf8.encodeChar (.ofNat (0x10000 + (u - 0xD800) * 1024 + (v - 0xDC00))) ++ ·)
            <$> Piece.bytes pieces f
        else .error .malformed
      | [], some f => .error f
      | _, _ => .error .malformed

def Spelling.decode (s : Spelling) : Except DecodeError String :=
  match Piece.bytes s.pieces s.fault? with
  | .error f => .error (.fault f)
  | .ok bytes =>
    match Utf8.decode? bytes with
    | some text => .ok text
    | none => .error (.fault .malformed)

namespace Node

/-- The error of a node that is not of the wanted kind. -/
def refuse (wanted : String) : Node → DecodeError
  | .scalar .null => .mismatch (.invalidType .null wanted)
  | .scalar (.bool b) => .mismatch (.invalidType (.boolean b) wanted)
  | .scalar (.number (.integer i)) => .mismatch (.invalidType (.integer i) wanted)
  | .scalar (.number .floating) => .mismatch (.invalidType .floating wanted)
  | .scalar (.number .beyond) => .fault .malformed
  | .scalar (.broken f) | .broken f => .fault f
  | .string s =>
    match s.decode with
    | .ok text => .mismatch (.invalidType (.string text) wanted)
    | .error e => e
  | .array _ _ => .mismatch (.invalidType .sequence wanted)
  | .object _ _ => .mismatch (.invalidType .map wanted)

def readString : Reader Node String
  | .string s => s.decode
  | n => .error (n.refuse "a string")

/-- A natural number below a bound. -/
def readNat (bound : Nat) (wanted : String) : Reader Node Nat
  | .scalar (.number (.integer i)) =>
    if 0 ≤ i ∧ i < bound then .ok i.toNat
    else .error (.mismatch (.invalidValue (.integer i) wanted))
  | n => .error (n.refuse wanted)

def readUInt64 : Reader Node UInt64 := fun n => UInt64.ofNat <$> n.readNat UInt64.size "u64"

def readUInt32 : Reader Node UInt32 := fun n => UInt32.ofNat <$> n.readNat UInt32.size "u32"

def readOption (reader : Reader Node α) : Reader Node (Option α)
  | .scalar .null => .ok none
  | n => some <$> reader n

/-- A part of a text that is looked at without being decoded. -/
def skip (n : Node) : Except DecodeError Unit :=
  match n.fault? with
  | some f => .error (.fault f)
  | none => .ok ()

/-- The end of an array. -/
def endArray : Option Fault → Except DecodeError Unit
  | none => .ok ()
  | some f => .error (.fault f)

def readList (reader : Reader Node α) : Reader Node (List α)
  | .array items fault? => do
    let l ← items.mapM reader
    endArray fault?
    return l
  | n => .error (n.refuse "a sequence")

/-- The payload of a variant without data. -/
def readUnit : Reader Node Unit
  | .scalar .null => .ok ()
  | n => .error (n.refuse "unit")

/-- A variant is named by a string, or by the one member of an object, whose value is null. -/
def readVariant (variants : List (String × α)) : Reader Node α
  | .string s => do variant variants (← s.decode)
  | .object [] (.nameless found) => .error (found.refuse "variant identifier")
  | .object [] (.broken f) | .broken f => .error (.fault f)
  | .object ((name, n) :: members) ending => do
    let a ← variant variants (← name.decode)
    readUnit n
    match members, ending with
    | [], .closed => return a
    | [], .broken f => .error (.fault f)
    | _, _ => .error (.fault .malformed)
  | .object [] .closed | .scalar _ | .array _ _ => .error (.fault .malformed)

end Node

def Record.putMember (r : Record Node α) (draft : r.Draft) (member : Spelling × Node) :
    Except DecodeError r.Draft := do
  r.put draft (← member.1.decode) member.2

/-- The end of an object. -/
def Ending.close : Ending → Except DecodeError Unit
  | .closed => .ok ()
  | .broken f => .error (.fault f)
  | .nameless found => .error (.fault found.misnameFault)

def Record.read (r : Record Node α) : Reader Node α
  | .object members ending => do
    let draft ← members.foldlM r.putMember r.empty
    ending.close
    r.finish draft
  | .array items fault? => do
    let (a, rest) ← r.elements.run { items, fault? }
    if rest.items.isEmpty then Node.endArray rest.fault? else throw (.fault .malformed)
    return a
  | n => .error (n.refuse ("struct " ++ r.name))

/-- Reads a whole text. -/
def decode (reader : Reader Node α) (text : List UInt8) : Except DecodeError α := do
  let document := Json.read text
  let a ← reader document.root
  if document.trailing then throw (.fault .malformed)
  return a

end EventRouting.Json
