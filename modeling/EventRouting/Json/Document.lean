import EventRouting.Text.Utf8

/-! Reading JSON text without failing: a `Document` is the tree that the text spells up to the place
where it breaks off, with the `Fault` left standing there. -/

namespace EventRouting.Json

/-- Why a text cannot be read on: it is over too early, or what follows is not JSON. -/
inductive Fault where
  | ended
  | malformed
  deriving DecidableEq, Repr

/-- One element of a string's spelling: a byte, or a UTF-16 unit given in hexadecimal. -/
inductive Piece where
  | byte (b : UInt8)
  | unit (u : Nat)
  deriving DecidableEq, Repr

structure Spelling where
  pieces : List Piece
  fault? : Option Fault := none
  deriving DecidableEq, Repr

/-- A number as far as readers tell numbers apart: an integer of 64 bits, a floating point number,
or one that is beyond the largest double. -/
inductive Number where
  | integer (i : Int)
  | floating
  | beyond
  deriving DecidableEq, Repr

inductive Scalar where
  | null
  | bool (b : Bool)
  | number (n : Number)
  | broken (f : Fault)
  deriving DecidableEq, Repr

mutual

inductive Node where
  | scalar (s : Scalar)
  | string (s : Spelling)
  | array (items : List Node) (fault? : Option Fault)
  | object (members : List (Spelling × Node)) (ending : Ending)
  /-- No value begins here. -/
  | broken (f : Fault)

/-- What follows the last member of an object: the closing brace, a fault, or something else in the
place of a name. -/
inductive Ending where
  | closed
  | broken (f : Fault)
  | nameless (found : Node)

end

instance : Inhabited Node := ⟨.broken .ended⟩

structure Document where
  root : Node
  /-- More than blanks follows the root. -/
  trailing : Bool

def two64 : Nat := 18446744073709551616

/-- The nearest number of 53 binary digits, ties to even. -/
def roundTo53 (n : Nat) : Nat :=
  let ulp := 1 <<< (n.log2 - 52)
  let (q, r) := (n / ulp, n % ulp)
  if 2 * r < ulp ∨ (2 * r = ulp ∧ q % 2 = 0) then q * ulp else (q + 1) * ulp

/-- A number literal, digits first to last. -/
structure Literal where
  negative : Bool := false
  whole : List Nat := []
  fraction : List Nat := []
  fractional : Bool := false
  exponentNegative : Bool := false
  exponent : List Nat := []
  deriving DecidableEq, Repr

def ofDigits (digits : List Nat) : Nat :=
  digits.foldl (fun n d => 10 * n + d) 0

/-- Digits appended to a number while it stays below 2^64, and the count of those left over. -/
def appendDigits (n : Nat) : List Nat → Nat × Nat
  | [] => (n, 0)
  | d :: digits =>
    if 10 * n + d < two64 then appendDigits (10 * n + d) digits else (n, digits.length + 1)

/-- Whether the product of a significand below 2^64 and a power of ten, each rounded to a double,
rounds beyond the largest double. -/
def exceedsDouble (significand : Nat) (exponent : Int) : Bool :=
  significand ≠ 0 && 0 ≤ exponent
    && (308 < exponent
      || 1 <<< 1024 ≤ roundTo53 (roundTo53 significand * roundTo53 (Nat.pow 10 exponent.toNat)))

def Literal.number (l : Literal) : Number :=
  let n := ofDigits l.whole
  if !l.fractional && l.exponent.isEmpty && !l.negative && n < two64 then .integer n
  else if !l.fractional && l.exponent.isEmpty && l.negative && 0 < n && n ≤ two64 / 2 then
    .integer (-n)
  else
    let (whole, skipped) := appendDigits 0 l.whole
    let (significand, left) := appendDigits whole l.fraction
    let scale : Int := skipped - (l.fraction.length - left : Nat)
    let exponent : Int := ofDigits l.exponent
    if exceedsDouble significand (if l.exponentNegative then scale - exponent else scale + exponent)
    then .beyond else .floating

/-- Where the reading of a string stands. -/
inductive StringPoint where
  | plain
  | escape
  /-- After a backslash and a `u`, with the bytes read since. -/
  | hex (read : List UInt8)
  deriving DecidableEq, Repr

/-- Where the reading of a number stands: the part that the last byte belonged to. -/
inductive NumberPoint where
  | sign
  | lead
  | whole
  | dot
  | fraction
  | mark
  | markSign
  | exponent
  deriving DecidableEq, Repr

/-- Whether a number may end here. -/
def NumberPoint.complete : NumberPoint → Bool
  | .lead | .whole | .fraction | .exponent => true
  | .sign | .dot | .mark | .markSign => false

/-- A container that is still to be closed, its parts last to first. -/
inductive Frame where
  | array (items : List Node)
  | object (members : List (Spelling × Node)) (name? : Option Spelling)
  /-- An object whose next member has another value in the place of its name. -/
  | misnamed (members : List (Spelling × Node))

inductive Place where
  | value
  /-- After an opening bracket. -/
  | firstItem
  /-- After an opening brace. -/
  | firstName
  /-- After the comma of an object. -/
  | name
  | colon
  /-- After a value inside a container. -/
  | next
  | string (pieces : List Piece) (point : StringPoint)
  | nameString (pieces : List Piece) (point : StringPoint)
  | word (left : List UInt8) (s : Scalar)
  | number (l : Literal) (point : NumberPoint)

inductive State where
  | reading (frames : List Frame) (place : Place)
  | done (root : Node) (trailing : Bool)
  | failed (root : Node)

def isBlank (b : UInt8) : Bool :=
  b == 0x20 || b == 0x09 || b == 0x0A || b == 0x0D

def digit? (b : UInt8) : Option Nat :=
  if 0x30 ≤ b.toNat ∧ b.toNat ≤ 0x39 then some (b.toNat - 0x30) else none

def hexValue? (b : UInt8) : Option Nat :=
  let n := b.toNat
  if 0x30 ≤ n ∧ n ≤ 0x39 then some (n - 0x30)
  else if 0x41 ≤ n ∧ n ≤ 0x46 then some (n - 0x37)
  else if 0x61 ≤ n ∧ n ≤ 0x66 then some (n - 0x57)
  else none

/-- The byte that a letter after a backslash stands for. -/
def escaped? (b : UInt8) : Option UInt8 :=
  match b with
  | 0x22 | 0x5C | 0x2F => some b
  | 0x62 => some 0x08
  | 0x66 => some 0x0C
  | 0x6E => some 0x0A
  | 0x72 => some 0x0D
  | 0x74 => some 0x09
  | _ => none

inductive StringStep where
  | more (pieces : List Piece) (point : StringPoint)
  | closed
  | malformed

def stringStep (pieces : List Piece) (point : StringPoint) (b : UInt8) : StringStep :=
  match point with
  | .plain =>
    if b = 0x22 then .closed
    else if b = 0x5C then .more pieces .escape
    else if b < 0x20 then .malformed
    else .more (.byte b :: pieces) .plain
  | .escape =>
    if b = 0x75 then .more pieces (.hex [])
    else match escaped? b with
      | some c => .more (.byte c :: pieces) .plain
      | none => .malformed
  | .hex read =>
    if read.length < 3 then .more pieces (.hex (read ++ [b]))
    else match (read ++ [b]).mapM hexValue? with
      | some digits => .more (.unit (digits.foldl (fun n d => 16 * n + d) 0) :: pieces) .plain
      | none => .malformed

/-- The literal after one more byte, if the byte belongs to it. -/
def numberStep (l : Literal) (point : NumberPoint) (b : UInt8) : Option (Literal × NumberPoint) :=
  match point, digit? b with
  | .sign, some d => some ({ l with whole := [d] }, if d = 0 then .lead else .whole)
  | .whole, some d => some ({ l with whole := l.whole ++ [d] }, .whole)
  | .dot, some d | .fraction, some d => some ({ l with fraction := l.fraction ++ [d] }, .fraction)
  | .mark, some d | .markSign, some d | .exponent, some d =>
    some ({ l with exponent := l.exponent ++ [d] }, .exponent)
  | .lead, none | .whole, none =>
    if b = 0x2E then some ({ l with fractional := true }, .dot)
    else if b = 0x65 ∨ b = 0x45 then some (l, .mark) else none
  | .fraction, none => if b = 0x65 ∨ b = 0x45 then some (l, .mark) else none
  | .mark, none =>
    if b = 0x2B then some (l, .markSign)
    else if b = 0x2D then some ({ l with exponentNegative := true }, .markSign) else none
  | .lead, some _ | .sign, none | .dot, none | .markSign, none | .exponent, none => none

/-- Closes every open container around what was read last. -/
def collapse : List Frame → Node → Node
  | [], n => n
  | .array items :: frames, n => collapse frames (.array (n :: items).reverse none)
  | .object members (some name) :: frames, n =>
    collapse frames (.object ((name, n) :: members).reverse .closed)
  | .object members none :: frames, n | .misnamed members :: frames, n =>
    collapse frames (.object members.reverse (.nameless n))

/-- The tree of a text that breaks off at a place. -/
def breakOff (frames : List Frame) (place : Place) (f : Fault) : Node :=
  match place, frames with
  | .firstItem, .array items :: frames | .next, .array items :: frames =>
    collapse frames (.array items.reverse (some f))
  | .next, .object members _ :: frames => collapse frames (.object members.reverse (.broken f))
  | .string pieces _, frames => collapse frames (.string ⟨pieces.reverse, some f⟩)
  | .nameString pieces _, .object members _ :: frames =>
    collapse frames (.object ((⟨pieces.reverse, some f⟩, .broken f) :: members).reverse .closed)
  | .word _ _, frames | .number _ _, frames => collapse frames (.scalar (.broken f))
  | _, frames => collapse frames (.broken f)

/-- A value is complete. -/
def deliver (frames : List Frame) (n : Node) : State :=
  match frames with
  | [] => .done n false
  | .array items :: frames => .reading (.array (n :: items) :: frames) .next
  | .object members (some name) :: frames =>
    .reading (.object ((name, n) :: members) none :: frames) .next
  | .object members none :: frames | .misnamed members :: frames =>
    .failed (collapse (.misnamed members :: frames) n)

/-- A byte where a value begins. -/
def beginValue (frames : List Frame) (b : UInt8) : State :=
  if b = 0x22 then .reading frames (.string [] .plain)
  else if b = 0x5B then .reading (.array [] :: frames) .firstItem
  else if b = 0x7B then .reading (.object [] none :: frames) .firstName
  else if b = 0x6E then .reading frames (.word [0x75, 0x6C, 0x6C] .null)
  else if b = 0x74 then .reading frames (.word [0x72, 0x75, 0x65] (.bool true))
  else if b = 0x66 then .reading frames (.word [0x61, 0x6C, 0x73, 0x65] (.bool false))
  else if b = 0x2D then .reading frames (.number { negative := true } .sign)
  else match numberStep {} .sign b with
    | some (l, point) => .reading frames (.number l point)
    | none => .failed (breakOff frames .value .malformed)

/-- A byte where a name begins. -/
def beginName (frames : List Frame) (b : UInt8) : State :=
  if b = 0x22 then .reading frames (.nameString [] .plain)
  else match frames with
    | .object members _ :: frames => beginValue (.misnamed members :: frames) b
    | frames => .failed (breakOff frames .name .malformed)

/-- A byte after a value. -/
def continueAfter (frames : List Frame) (b : UInt8) : State :=
  match frames with
  | .array items :: outer =>
    if b = 0x2C then .reading frames .value
    else if b = 0x5D then deliver outer (.array items.reverse none)
    else .failed (breakOff frames .next .malformed)
  | .object members _ :: outer =>
    if b = 0x2C then .reading frames .name
    else if b = 0x7D then deliver outer (.object members.reverse .closed)
    else .failed (breakOff frames .next .malformed)
  | frames => .failed (breakOff frames .next .malformed)

def State.step (st : State) (b : UInt8) : State :=
  match st with
  | .failed root => .failed root
  | .done root trailing => .done root (trailing || !isBlank b)
  | .reading frames place =>
    match place with
    | .value => if isBlank b then st else beginValue frames b
    | .firstItem =>
      if isBlank b then st else if b = 0x5D then continueAfter frames b else beginValue frames b
    | .firstName =>
      if isBlank b then st else if b = 0x7D then continueAfter frames b else beginName frames b
    | .name => if isBlank b then st else beginName frames b
    | .colon =>
      if isBlank b then st
      else if b = 0x3A then .reading frames .value
      else .failed (breakOff frames .colon .malformed)
    | .next => if isBlank b then st else continueAfter frames b
    | .string pieces point =>
      match stringStep pieces point b with
      | .more pieces point => .reading frames (.string pieces point)
      | .closed => deliver frames (.string ⟨pieces.reverse, none⟩)
      | .malformed => .failed (breakOff frames place .malformed)
    | .nameString pieces point =>
      match stringStep pieces point b, frames with
      | .more pieces point, frames => .reading frames (.nameString pieces point)
      | .closed, .object members _ :: outer =>
        .reading (.object members (some ⟨pieces.reverse, none⟩) :: outer) .colon
      | _, frames => .failed (breakOff frames place .malformed)
    | .word [] s => deliver frames (.scalar s)
    | .word (c :: left) s =>
      if b ≠ c then .failed (breakOff frames place .malformed)
      else if left.isEmpty then deliver frames (.scalar s)
      else .reading frames (.word left s)
    | .number l point =>
      match numberStep l point b with
      | some (l, point) => .reading frames (.number l point)
      | none =>
        if !point.complete || (point = .lead && (digit? b).isSome) then
          .failed (breakOff frames place .malformed)
        else
          match deliver frames (.scalar (.number l.number)) with
          | .reading frames .next =>
            if isBlank b then .reading frames .next else continueAfter frames b
          | .done root trailing => .done root (trailing || !isBlank b)
          | st => st

/-- The document when the text is over. -/
def State.finish : State → Document
  | .failed root => ⟨root, false⟩
  | .done root trailing => ⟨root, trailing⟩
  | .reading frames (.number l point) =>
    if point.complete then
      match deliver frames (.scalar (.number l.number)) with
      | .reading frames place => ⟨breakOff frames place .ended, false⟩
      | .done root trailing => ⟨root, trailing⟩
      | .failed root => ⟨root, false⟩
    else ⟨breakOff frames (.number l point) .ended, false⟩
  | .reading frames place => ⟨breakOff frames place .ended, false⟩

def State.start : State := .reading [] .value

def read (text : List UInt8) : Document :=
  (text.foldl State.step .start).finish

/-- The fault of what stands in the place of a name, for a reader who skips it. -/
def Node.misnameFault : Node → Fault
  | .broken f => f
  | _ => .malformed

mutual

/-- The first fault of a node that is skipped: its strings are not decoded. -/
def Node.fault? : Node → Option Fault
  | .scalar (.broken f) | .broken f => some f
  | .scalar _ => none
  | .string s => s.fault?
  | .array items fault? => Node.faultItems? items <|> fault?
  | .object members ending => Node.faultMembers? members <|> ending.fault?

def Node.faultItems? : List Node → Option Fault
  | [] => none
  | n :: items => n.fault? <|> Node.faultItems? items

def Node.faultMembers? : List (Spelling × Node) → Option Fault
  | [] => none
  | (name, n) :: members => name.fault? <|> n.fault? <|> Node.faultMembers? members

def Ending.fault? : Ending → Option Fault
  | .closed => none
  | .broken f => some f
  | .nameless found => some found.misnameFault

end

end EventRouting.Json
