import EventRouting.Json.Patch

namespace EventRouting

open Json

inductive LogLevel where
  | error
  | warn
  | info
  | debug
  | trace
  deriving DecidableEq, Repr

namespace LogLevel

def all : List LogLevel := [.error, .warn, .info, .debug, .trace]

def name : LogLevel → String
  | .error => "error"
  | .warn => "warn"
  | .info => "info"
  | .debug => "debug"
  | .trace => "trace"

/-- The number of the level, which grows with the lines that it admits. -/
def verbosity : LogLevel → Nat
  | .error => 1
  | .warn => 2
  | .info => 3
  | .debug => 4
  | .trace => 5

/-- Whether lines of a level are written when `max` is the most verbose level wanted. -/
def admits (max l : LogLevel) : Bool := l.verbosity ≤ max.verbosity

end LogLevel

structure LogLine where
  level : LogLevel
  message : String
  fields : List (String × Value) := []
  deriving DecidableEq, Repr

namespace LogLine

def info (message : String) (fields : List (String × Value)) : LogLine := ⟨.info, message, fields⟩

def warn (message : String) : LogLine := ⟨.warn, message, []⟩

def debug (message : String) (fields : List (String × Value)) : LogLine := ⟨.debug, message, fields⟩

/-- The fields of a line with its message among them, in the order of their names. -/
def allFields (l : LogLine) : Value :=
  .sorted (.object (("message", .string l.message) :: l.fields))

/-- A line as a pair of its level and its fields. -/
def report (l : LogLine) : Value := .array [.string l.level.name.toUpper, l.allFields]

/-- A line as it is written: as a JSON object, or as a text with the fields after the message. -/
def render (json : Bool) (l : LogLine) : List UInt8 :=
  let level := l.level.name.toUpper
  if json then (Value.object [("level", .string level), ("fields", l.allFields)]).render
  else
    Utf8.bytes (level ++ " " ++ l.message)
      ++ l.fields.flatMap fun (name, v) => Utf8.bytes (" " ++ name ++ "=") ++ v.render

end LogLine

end EventRouting
