import EventRouting.Command.ControlPlane
import EventRouting.Command.DataPlane

namespace EventRouting.Command

def environmentOf (u : Usage) : IO (Table String String) :=
  (u.flags.filterMap (·.setBy?)).filterMapM fun name => do
    return (← IO.getEnv name).map (name, ·)

def writeLine (out : IO.FS.Stream) (line : List UInt8) : IO Unit := do
  out.write (.mk (line ++ [0x0A]).toArray)
  out.flush

def writeLog (s : LogSettings) (lines : List LogLine) : IO Unit := do
  let out ← IO.getStdout
  for l in lines do writeLine out (l.render s.json)

/-- Writes what a program wrote and ends with its code. -/
def Outcome.finish (o : Outcome) : IO UInt32 := do
  let out ← IO.getStdout
  for line in o.lines do writeLine out (Utf8.bytes line)
  writeLog ⟨.trace, o.jsonLog⟩ o.log
  if let some e := o.error? then writeLine (← IO.getStderr) (Utf8.bytes e)
  return o.code.toUInt32

/-- The bytes up to the end of the input. -/
partial def readAll (input : IO.FS.Stream) (before : ByteArray) : IO ByteArray := do
  let more ← input.read 65536
  if more.isEmpty then return before else readAll input (before ++ more)

def runControlPlane (arguments : List String) : IO UInt32 := do
  let environment ← environmentOf ControlPlane.usage
  match ControlPlane.usage.read arguments environment with
  | .error h => (h.outcome ControlPlane.usage environment).finish
  | .ok values =>
    let s := ControlPlane.Settings.ofValues values
    let content ←
      if s.operator.trustBundle?.isSome then readAll (← IO.getStdin) .empty else pure .empty
    (ControlPlane.run s fun _ => some content.toList).finish

/-- Takes a line for a new content of the file, and the end for the signal to stop. -/
partial def serveDataPlane (input : IO.FS.Stream) (p : DataPlane) : IO UInt32 := do
  let line ← input.getLine
  if line.isEmpty then
    writeLog p.settings.log p.stop.1
    return 0
  let (lines, p) := p.change (Utf8.bytes line.trimAsciiEnd.toString)
  writeLog p.settings.log lines
  serveDataPlane input p

def runDataPlane (arguments : List String) : IO UInt32 := do
  let environment ← environmentOf DataPlane.usage
  match DataPlane.launch arguments environment fun _ => .missing with
  | .error o => o.finish
  | .ok (lines, p) =>
    writeLog p.settings.log lines
    serveDataPlane (← IO.getStdin) p

end EventRouting.Command

open EventRouting.Command in
def main : List String → IO UInt32
  | "operator" :: arguments => runControlPlane arguments
  | "dataplane" :: arguments => runDataPlane arguments
  | _ => do
    writeLine (← IO.getStderr) (EventRouting.Utf8.bytes "usage: operator|dataplane [OPTIONS]")
    return 2
