import EventRouting.Json.Value

namespace EventRouting.Json

def insertMember (name : String) (v : Value) : List (String × Value) → List (String × Value)
  | [] => [(name, v)]
  | (k, w) :: members =>
    if name = k then (name, v) :: members
    else if name < k then (name, v) :: (k, w) :: members
    else (k, w) :: insertMember name v members

def eraseMember (name : String) (members : List (String × Value)) : List (String × Value) :=
  members.filter (·.1 ≠ name)

namespace Value

mutual

/-- The value with all members in the order of their names. -/
def sorted : Value → Value
  | .array items => .array (sortedItems items)
  | .object members => .object (sortedMembers members)
  | v => v

def sortedItems : List Value → List Value
  | [] => []
  | v :: items => v.sorted :: sortedItems items

def sortedMembers : List (String × Value) → List (String × Value)
  | [] => []
  | (name, v) :: members => insertMember name v.sorted (sortedMembers members)

end

/-- Sets a member. A value that is no object becomes one. -/
def set (v : Value) (name : String) (w : Value) : Value :=
  match v with
  | .object members => .object (insertMember name w members)
  | _ => .object [(name, w)]

def members : Value → List (String × Value)
  | .object members => members
  | _ => []

mutual

/-- Applies a merge patch. -/
def merge (target : Value) : Value → Value
  | .object changes => .object (mergeMembers target.members changes)
  | v => v

def mergeMembers (members : List (String × Value)) : List (String × Value) → List (String × Value)
  | [] => members
  | (name, .null) :: changes => mergeMembers (eraseMember name members) changes
  | (name, v) :: changes =>
    mergeMembers (insertMember name (((members.lookup name).getD .null).merge v) members) changes

end

/-- The position that a part of a path names. -/
def index? (token : String) : Option Nat :=
  if token.toList.all Char.isDigit then token.toNat? else none

def child? (v : Value) (token : String) : Option Value :=
  match v with
  | .object members => members.lookup token
  | .array items => (index? token).bind (items[·]?)
  | _ => none

def setChild (v : Value) (token : String) (w : Value) : Value :=
  match v, index? token with
  | .object members, _ => .object (insertMember token w members)
  | .array items, some i => .array (items.set i w)
  | v, _ => v

/-- The value at the end of a path. -/
def resolve? (v : Value) : List String → Option Value
  | [] => some v
  | token :: path => do (← v.child? token).resolve? path

/-- Changes the container at the end of a path. -/
def changeAt? (v : Value) (f : Value → Option Value) : List String → Option Value
  | [] => f v
  | token :: path => do return v.setChild token (← (← v.child? token).changeAt? f path)

/-- Adds an element or member; a dash stands for the end of an array. -/
def addChild? (w : Value) (token : String) : Value → Option Value
  | .object members => some (.object (insertMember token w members))
  | .array items =>
    if token = "-" then some (.array (items ++ [w]))
    else (index? token).bind fun i =>
      if i ≤ items.length then some (.array (items.take i ++ w :: items.drop i)) else none
  | _ => none

def removeChild? (token : String) : Value → Option Value
  | .object members =>
    if (members.lookup token).isSome then some (.object (eraseMember token members)) else none
  | .array items =>
    (index? token).bind fun i =>
      if i < items.length then some (.array (items.eraseIdx i)) else none
  | _ => none

end Value

/-- An operation at a path, whose last part is given apart. -/
inductive PatchOperation where
  /-- Fails unless the value is there; null stands for no value as well. -/
  | test (path : List String) (token : String) (v : Value)
  | add (path : List String) (token : String) (v : Value)
  | remove (path : List String) (token : String)
  deriving DecidableEq, Repr

namespace PatchOperation

def run? (v : Value) : PatchOperation → Option Value
  | .test path token w =>
    if (v.resolve? (path ++ [token])).getD .null = w then some v else none
  | .add path token w => v.changeAt? (Value.addChild? w token) path
  | .remove path token => v.changeAt? (Value.removeChild? token) path

def runAll? (v : Value) (operations : List PatchOperation) : Option Value :=
  operations.foldlM run? v

def escapeChar (c : Char) : List Char :=
  if c = '~' then ['~', '0'] else if c = '/' then ['~', '1'] else [c]

/-- The text of a path. -/
def pointer (path : List String) : String :=
  .ofList (path.flatMap fun token => '/' :: token.toList.flatMap escapeChar)

def toValue : PatchOperation → Value
  | .test path token v =>
    .object [("op", .string "test"), ("path", .string (pointer (path ++ [token]))), ("value", v)]
  | .add path token v =>
    .object [("op", .string "add"), ("path", .string (pointer (path ++ [token]))), ("value", v)]
  | .remove path token =>
    .object [("op", .string "remove"), ("path", .string (pointer (path ++ [token])))]

end PatchOperation

end EventRouting.Json
