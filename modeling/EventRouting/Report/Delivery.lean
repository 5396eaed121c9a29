import EventRouting.Delivery.Replica
import EventRouting.Report.Failure

namespace EventRouting

open Json

def Contract.uids (c : Contract) : Value := .strings (c.resources.map (·.uid))

/-- A contract as a subscriber receives it. -/
def Contract.delivery (c : Contract) : Value :=
  .object [("generation", c.generation.report), ("uids", c.uids)]

def RouteDiff.report (d : RouteDiff) : Value :=
  .object [("added", .strings d.added), ("removed", .strings d.removed),
    ("updated", .strings d.updated), ("empty", .bool d.isEmpty)]

def IngressRoute.report (r : IngressRoute) : Value :=
  .object [("resource_uid", .string r.resourceUid), ("topics", .strings r.topics),
    ("bootstrap_servers", .string r.bootstrapServers)]

def WatchPhase.name : WatchPhase → String
  | .idle => "idle"
  | .reading => "reading"
  | .applying => "applying"

def ApplyOutcome.report : ApplyOutcome → Value
  | .applied g => .object [("applied", g.report)]
  | .unchanged g => .object [("unchanged", g.report)]
  | .rejected => .string "rejected"
  | .closed => .string "closed"

namespace StartError

def kind : StartError → String
  | .alreadyStarted => "AlreadyStarted"
  | .closed => "Closed"
  | .source _ => "Contract"

def message : StartError → String
  | .alreadyStarted => "contract watcher already started"
  | .closed => "contract watcher is closed"
  | .source e => "contract error: " ++ e.message

def report (e : StartError) : Value :=
  .object [("error", .string e.kind), ("message", .string e.message),
    ("violation", .bool e.isViolation)]

end StartError

end EventRouting
