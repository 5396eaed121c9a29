import EventRouting.Command.ControlPlane
import EventRouting.Command.DataPlane

namespace EventRouting.Command

open Json

/-- Log lines in the order of their texts, each once. -/
def sortedLog (lines : List LogLine) : Value :=
  let texts := lines.map fun l => (l.report.render, l.report)
  .array ((texts.mergeSort fun a b => decide (a.1 ≤ b.1)).map Prod.snd).eraseDups

namespace Outcome

/-- The code and the error, before what else is shown. -/
def members (o : Outcome) : List (String × Value) :=
  [("code", .ofNat o.code.toNat), ("error", (o.error?.map .string).getD .null)]

/-- How a program ended, with one of the things that it wrote. -/
def report (o : Outcome) (shown : String) : Value :=
  let written := match shown with
    | "yaml" => ("documents", .array o.documents)
    | "log" => ("log", .array (if o.jsonLog then o.log.map LogLine.report else []))
    | _ => ("stdout", .strings o.lines)
  .object (o.members ++ [written])

end Outcome

end EventRouting.Command
