import EventRouting.Text.Utf8

namespace EventRouting.Json

inductive Value where
  | null
  | bool (b : Bool)
  | int (i : Int)
  | float (literal : String)
  | string (s : String)
  | array (items : List Value)
  | object (members : List (String × Value))
  deriving Inhabited, Repr

mutual

def Value.decEq (v w : Value) : Decidable (v = w) :=
  match v, w with
  | .null, .null => isTrue rfl
  | .bool a, .bool b => decidable_of_iff (a = b) (by simp)
  | .int a, .int b => decidable_of_iff (a = b) (by simp)
  | .float a, .float b => decidable_of_iff (a = b) (by simp)
  | .string a, .string b => decidable_of_iff (a = b) (by simp)
  | .array a, .array b => @decidable_of_iff _ (a = b) (by simp) (Value.decEqItems a b)
  | .object a, .object b => @decidable_of_iff _ (a = b) (by simp) (Value.decEqMembers a b)
  | .null, .bool _ | .null, .int _ | .null, .float _ | .null, .string _ | .null, .array _
  | .null, .object _ | .bool _, .null | .bool _, .int _ | .bool _, .float _ | .bool _, .string _
  | .bool _, .array _ | .bool _, .object _ | .int _, .null | .int _, .bool _ | .int _, .float _
  | .int _, .string _ | .int _, .array _ | .int _, .object _ | .float _, .null | .float _, .bool _
  | .float _, .int _ | .float _, .string _ | .float _, .array _ | .float _, .object _
  | .string _, .null | .string _, .bool _ | .string _, .int _ | .string _, .float _
  | .string _, .array _ | .string _, .object _ | .array _, .null | .array _, .bool _
  | .array _, .int _ | .array _, .float _ | .array _, .string _ | .array _, .object _
  | .object _, .null | .object _, .bool _ | .object _, .int _ | .object _, .float _
  | .object _, .string _ | .object _, .array _ => isFalse nofun

def Value.decEqItems (v w : List Value) : Decidable (v = w) :=
  match v, w with
  | [], [] => isTrue rfl
  | a :: v, b :: w =>
    @decidable_of_iff _ (a = b ∧ v = w) (by simp)
      (@instDecidableAnd _ _ (Value.decEq a b) (Value.decEqItems v w))
  | [], _ :: _ | _ :: _, [] => isFalse nofun

def Value.decEqMembers (v w : List (String × Value)) : Decidable (v = w) :=
  match v, w with
  | [], [] => isTrue rfl
  | (k, a) :: v, (l, b) :: w =>
    @decidable_of_iff _ ((k = l ∧ a = b) ∧ v = w) (by simp)
      (@instDecidableAnd _ _ (@instDecidableAnd _ _ (instDecidableEqString k l) (Value.decEq a b))
        (Value.decEqMembers v w))
  | [], _ :: _ | _ :: _, [] => isFalse nofun

end

instance : DecidableEq Value := Value.decEq

/-- The member of an object under a name. -/
def Value.get? (v : Value) (name : String) : Option Value :=
  match v with
  | .object members => members.lookup name
  | _ => none

/-- The value that a path of names leads to. -/
def Value.at? (v : Value) : List String → Option Value
  | [] => some v
  | name :: path => do (← v.get? name).at? path

def Value.string? : Value → Option String
  | .string s => some s
  | _ => none

def Value.ofNat (n : Nat) : Value := .int n

def Value.strings (l : List String) : Value := .array (l.map .string)

/-- An object without the members that are absent. -/
def Value.record (members : List (String × Option Value)) : Value :=
  .object (members.filterMap fun (name, v) => v.map (name, ·))

/-- The digits of a number, most significant first. -/
def decimal (n : Nat) : List UInt8 :=
  if n < 10 then [.ofNat (0x30 + n)] else decimal (n / 10) ++ [.ofNat (0x30 + n % 10)]

def decimalInt (i : Int) : List UInt8 :=
  if i < 0 then 0x2D :: decimal i.natAbs else decimal i.natAbs

def hexDigit (n : Nat) : UInt8 :=
  if n < 10 then .ofNat (0x30 + n) else .ofNat (0x57 + n)

/-- A character inside a string: quotes, backslashes and control characters are escaped. -/
def quoteChar (c : Char) : List UInt8 :=
  if c = '"' then [0x5C, 0x22]
  else if c = '\\' then [0x5C, 0x5C]
  else if c.toNat = 0x8 then [0x5C, 0x62]
  else if c.toNat = 0x9 then [0x5C, 0x74]
  else if c.toNat = 0xA then [0x5C, 0x6E]
  else if c.toNat = 0xC then [0x5C, 0x66]
  else if c.toNat = 0xD then [0x5C, 0x72]
  else if c.toNat < 0x20 then
    [0x5C, 0x75, 0x30, 0x30, hexDigit (c.toNat / 16), hexDigit (c.toNat % 16)]
  else Utf8.encodeChar c

def quote (s : String) : List UInt8 :=
  0x22 :: s.toList.flatMap quoteChar ++ [0x22]

mutual

/-- The text of a value, without blanks. -/
def Value.render : Value → List UInt8
  | .null => [0x6E, 0x75, 0x6C, 0x6C]
  | .bool true => [0x74, 0x72, 0x75, 0x65]
  | .bool false => [0x66, 0x61, 0x6C, 0x73, 0x65]
  | .int i => decimalInt i
  | .float literal => Utf8.bytes literal
  | .string s => quote s
  | .array [] => [0x5B, 0x5D]
  | .array (v :: items) => 0x5B :: v.render ++ Value.renderItems items ++ [0x5D]
  | .object [] => [0x7B, 0x7D]
  | .object ((name, v) :: members) =>
    0x7B :: quote name ++ 0x3A :: v.render ++ Value.renderMembers members ++ [0x7D]

def Value.renderItems : List Value → List UInt8
  | [] => []
  | v :: items => 0x2C :: v.render ++ Value.renderItems items

def Value.renderMembers : List (String × Value) → List UInt8
  | [] => []
  | (name, v) :: members =>
    0x2C :: quote name ++ 0x3A :: v.render ++ Value.renderMembers members

end

end EventRouting.Json
