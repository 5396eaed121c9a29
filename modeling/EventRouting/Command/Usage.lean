import EventRouting.Command.Flag
import EventRouting.Json.Yaml
import EventRouting.Table

namespace EventRouting.Command

open Json

structure Usage where
  program : String
  about : String
  flags : List Flag

/-- The values of flags by their names. -/
abbrev FlagValues := Table String FlagValue

namespace FlagValues

def text (t : FlagValues) (name : String) : String :=
  match t.get? name with
  | some (.text s) => s
  | _ => ""

def text? (t : FlagValues) (name : String) : Option String :=
  match t.get? name with
  | some (.text s) => some s
  | _ => none

def number (t : FlagValues) (name : String) : Nat :=
  match t.get? name with
  | some (.number n) => n
  | _ => 0

def level (t : FlagValues) (name : String) : LogLevel :=
  match t.get? name with
  | some (.level l) => l
  | _ => .info

def switch (t : FlagValues) (name : String) : Bool := t.get? name == some (.switch true)

end FlagValues

/-- Why a program does not start its work. -/
inductive Halt where
  | help
  | version
  | refused (e : UsageError)
  deriving DecidableEq, Repr

/-- A flag whose value may still come, as the argument after it. -/
structure PendingFlag where
  flag : Flag
  value? : Option String := none
  deriving DecidableEq, Repr

/-- How far the arguments are read. -/
structure Progress where
  values : FlagValues := []
  pending? : Option PendingFlag := none
  /-- Two hyphens came by, after which nothing is a flag. -/
  trailing : Bool := false
  deriving DecidableEq, Repr

namespace Progress

/-- Gives a flag its value, which it may have only once. -/
def give (p : Progress) (f : Flag) (value : String) : Except Halt Progress :=
  if p.values.contains f.name then .error (.refused (.repeatedFlag f.shown))
  else match f.read value with
    | .ok v => .ok { p with values := p.values.insert f.name v }
    | .error e => .error (.refused e)

/-- Settles the flag before, as another one begins or the arguments end. -/
def settle (p : Progress) : Except Halt Progress :=
  match p.pending? with
  | none => .ok p
  | some ⟨f, none⟩ => .error (.refused (.missingValue f.shown))
  | some ⟨f, some value⟩ => { p with pending? := none }.give f value

end Progress

/-- The shapes of an argument. -/
inductive Argument where
  /-- Two hyphens and a name, and perhaps a value after an equals sign. -/
  | long (name : String) (value? : Option String)
  /-- A hyphen and letters. -/
  | short (letters : List Char)
  /-- Two hyphens alone. -/
  | separator
  | plain (s : String)
  deriving DecidableEq, Repr

def Argument.ofString (s : String) : Argument :=
  match s.toList with
  | ['-', '-'] => .separator
  | '-' :: '-' :: rest =>
    let name := rest.takeWhile (· ≠ '=')
    .long (.ofList name)
      (if name.length < rest.length then some (.ofList (rest.drop (name.length + 1))) else none)
  | '-' :: c :: rest => .short (c :: rest)
  | _ => .plain s

namespace Usage

def flag? (u : Usage) (name : String) : Option Flag := u.flags.find? (·.name == name)

/-- Reads a flag that any program takes. -/
def stop (p : Progress) (argument : String) (value? : Option String) (h : Halt) :
    Except Halt Progress :=
  match value? with
  | some value => .error (.refused (.unexpectedValue value argument))
  | none => do let _ ← p.settle; throw h

def readLong (u : Usage) (p : Progress) (name : String) (value? : Option String) :
    Except Halt Progress :=
  match u.flag? name, value? with
  | some f, some value =>
    if f.isSwitch then .error (.refused (.unexpectedValue value f.shown))
    else do (← p.settle).give f value
  | some f, none => do
    let p ← p.settle
    if f.isSwitch then p.give f "true" else return { p with pending? := some ⟨f, none⟩ }
  | none, _ =>
    if name = "help" then stop p "--help" value? .help
    else if name = "version" then stop p "--version" value? .version
    else .error (.refused (.unexpectedArgument ("--" ++ name)))

def readShort (p : Progress) : List Char → Except Halt Progress
  | 'h' :: _ => stop p "-h" none .help
  | 'V' :: _ => stop p "-V" none .version
  | c :: _ => .error (.refused (.unexpectedArgument (.ofList ['-', c])))
  | [] => .ok p

/-- An argument that is no flag: the value of the flag before it, or out of place. -/
def readPlain (p : Progress) (s : String) : Except Halt Progress :=
  match p.trailing, p.pending? with
  | false, some ⟨f, none⟩ => .ok { p with pending? := some ⟨f, some s⟩ }
  | _, _ => .error (.refused (.unexpectedArgument s))

def readArgument (u : Usage) (p : Progress) (s : String) : Except Halt Progress :=
  if p.trailing then readPlain p s
  else match Argument.ofString s with
    | .separator => .ok { p with trailing := true }
    | .long name value? => u.readLong p name value?
    | .short letters => readShort p letters
    | .plain s => readPlain p s

/-- Takes the value of a flag from its variable, unless it was given. -/
def readVariable (environment : Table String String) (values : FlagValues) (f : Flag) :
    Except Halt FlagValues :=
  match f.setBy?.bind environment.get? with
  | some s =>
    if values.contains f.name then .ok values else Progress.values <$> Progress.give { values } f s
  | none => .ok values

def readDefault (values : FlagValues) (f : Flag) : FlagValues :=
  match f.default?.map f.read with
  | some (.ok v) => if values.contains f.name then values else values.insert f.name v
  | _ => values

/-- The values that arguments and environment give to all flags, or why the program stops. -/
def read (u : Usage) (arguments : List String) (environment : Table String String) :
    Except Halt FlagValues := do
  let p ← (← arguments.foldlM u.readArgument {}).settle
  let values ← u.flags.foldlM (readVariable environment) p.values
  return u.flags.foldl readDefault values

/-- The notes on where the value of a flag comes from. -/
def origins (environment : Table String String) (f : Flag) : String :=
  let fromVariable := f.setBy?.map fun name =>
    " [env: " ++ name ++ "=" ++ (environment.get? name).getD "" ++ "]"
  let fromDefault := if f.isSwitch then none else f.default?.map fun s =>
    if s.isEmpty then " [default: \"\"]" else s!" [default: {s}]"
  fromVariable.getD "" ++ fromDefault.getD ""

def flagHelp (environment : Table String String) (f : Flag) : List String :=
  ["      " ++ f.shown, "          " ++ f.about ++ origins environment f]

def help (u : Usage) (environment : Table String String) : List String :=
  [u.about, "", s!"Usage: {u.program} [OPTIONS]", "", "Options:"]
    ++ u.flags.flatMap (flagHelp environment)
    ++ ["  -h, --help", "          Print help", "  -V, --version", "          Print version"]

end Usage

/-- The flags that every program takes for its log. -/
def logFlags : List Flag :=
  [{ name := "log-level", kind := .level, about := "Log level (trace, debug, info, warn, error)",
     setBy? := some "LOG_LEVEL", default? := some "info" },
   { name := "log-json", kind := .switch, about := "Enable JSON log format",
     setBy? := some "LOG_JSON", default? := some "false" }]

structure LogSettings where
  level : LogLevel
  json : Bool
  deriving DecidableEq, Repr

def LogSettings.ofValues (t : FlagValues) : LogSettings :=
  ⟨t.level "log-level", t.switch "log-json"⟩

/-- The lines that the settings admit. -/
def LogSettings.select (s : LogSettings) (lines : List LogLine) : List LogLine :=
  lines.filter (s.level.admits ·.level)

/-- The version of the programs. -/
def programVersion : String := "0.1.0"

/-- How a program ends, and what it wrote. -/
structure Outcome where
  code : UInt8 := 0
  error? : Option String := none
  /-- Lines of text. -/
  output : List String := []
  documents : List Value := []
  log : List LogLine := []
  /-- Log lines are written as JSON. -/
  jsonLog : Bool := false

/-- The lines that a program wrote beside its log. -/
def Outcome.lines (o : Outcome) : List String := o.output ++ o.documents.flatMap Yaml.document

/-- The outcome of a program that does not start its work. -/
def Halt.outcome (u : Usage) (environment : Table String String) : Halt → Outcome
  | .help => { output := u.help environment }
  | .version => { output := [s!"{u.program} {programVersion}"] }
  | .refused e => { code := 2, error? := some ("error: " ++ e.message) }

end EventRouting.Command
