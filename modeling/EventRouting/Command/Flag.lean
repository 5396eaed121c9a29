import EventRouting.Command.Log
import EventRouting.Text.Number
import EventRouting.Text.SocketAddress

namespace EventRouting.Command

open Text

/-- What the value of a flag has to be. -/
inductive FlagKind where
  | text
  /-- A path, which is not empty. -/
  | path
  /-- A number from zero to a greatest one, which is read as a signed number of 64 bits first. -/
  | number (greatest : Nat)
  /-- A number of 64 bits. -/
  | wideNumber
  | socketAddress
  | level
  /-- No value: giving the flag turns something on. -/
  | switch
  deriving DecidableEq, Repr

/-- The value of a flag. -/
inductive FlagValue where
  | text (s : String)
  | number (n : Nat)
  | socketAddress (a : SocketAddress)
  | level (l : LogLevel)
  | switch (on : Bool)
  deriving DecidableEq, Repr

structure Flag where
  name : String
  about : String
  kind : FlagKind
  /-- The environment variable that gives the value if the arguments do not. -/
  setBy? : Option String := none
  /-- The text of the value if nothing gives one. -/
  default? : Option String := none
  deriving DecidableEq, Repr

/-- Why the arguments of a program, or its environment, are refused. -/
inductive UsageError where
  | unexpectedArgument (argument : String)
  /-- A value for a flag that takes none. -/
  | unexpectedValue (value flag : String)
  | missingValue (flag : String)
  | repeatedFlag (flag : String)
  | invalidValue (value flag : String) (reason? : Option String)
  deriving DecidableEq, Repr

def UsageError.message : UsageError → String
  | .unexpectedArgument argument => s!"unexpected argument '{argument}' found"
  | .unexpectedValue value flag =>
    s!"unexpected value '{value}' for '{flag}' found; no more were expected"
  | .missingValue flag => s!"a value is required for '{flag}' but none was supplied"
  | .repeatedFlag flag => s!"the argument '{flag}' cannot be used multiple times"
  | .invalidValue value flag none => s!"invalid value '{value}' for '{flag}'"
  | .invalidValue value flag (some reason) => s!"invalid value '{value}' for '{flag}': {reason}"

/-- A level by its name, in letters of any case, or by its number. -/
def readLevel? (s : String) : Option LogLevel :=
  match unsigned (UInt64.size - 1) s with
  | .ok n => LogLevel.all.find? (·.verbosity == n)
  | .error _ => LogLevel.all.find? (·.name == s.toLower)

/-- The ways to name a level. -/
def levelChoice : String :=
  ", ".intercalate (LogLevel.all.map fun l => "\"" ++ l.name ++ "\"") ++ ", or a number 1-5"

namespace Flag

def isSwitch (f : Flag) : Bool := f.kind == .switch

def argument (f : Flag) : String := "--" ++ f.name

/-- The word that stands for the value in usage texts. -/
def placeholder (f : Flag) : String := (f.name.map fun c => if c = '-' then '_' else c).toUpper

/-- The flag as usage texts name it. -/
def shown (f : Flag) : String :=
  if f.isSwitch then f.argument else s!"{f.argument} <{f.placeholder}>"

/-- Reads the text of a value. -/
def read (f : Flag) (s : String) : Except UsageError FlagValue :=
  let refuse {α : Type} (reason : String) : Except UsageError α :=
    .error (.invalidValue s f.shown (some reason))
  match f.kind with
  | .text => .ok (.text s)
  | .path => if s.isEmpty then .error (.missingValue f.shown) else .ok (.text s)
  | .number greatest =>
    match signed 64 s with
    | .error e => refuse e.message
    | .ok i =>
      if 0 ≤ i ∧ i ≤ greatest then .ok (.number i.toNat)
      else refuse s!"{i} is not in 0..={greatest}"
  | .wideNumber =>
    match unsigned (UInt64.size - 1) s with
    | .error e => refuse e.message
    | .ok n => .ok (.number n)
  | .socketAddress =>
    match SocketAddress.parse? s with
    | none => refuse "invalid socket address syntax"
    | some a => .ok (.socketAddress a)
  | .level =>
    match readLevel? s with
    | none =>
      refuse ("error parsing level: expected one of " ++ levelChoice)
    | some l => .ok (.level l)
  | .switch =>
    if s = "true" then .ok (.switch true)
    else if s = "false" then .ok (.switch false)
    else if s.isEmpty then .error (.missingValue f.shown)
    else .error (.invalidValue s f.shown none)

end Flag

end EventRouting.Command
