import EventRouting.Control.Status
import EventRouting.Manifest.Codec
import EventRouting.Report.Failure
import EventRouting.Routing.Synchronizer

namespace EventRouting

open Json

def Span.report (s : Span) : Value :=
  .object [("secs", .ofNat s.seconds), ("nanos", .ofNat s.nanos)]

def Instant.report (t : Instant) : Value :=
  .object [("secs", .int t.seconds), ("nanos", .ofNat t.nanos)]

def Action.report : Action → Value
  | .awaitChange => .string "await_change"
  | .requeue d => .object [("requeue_s", .ofNat d.seconds)]

/-- Texts in the order of their bytes. -/
def sortedReport (l : List String) : Value := .strings (l.mergeSort fun a b => decide (a ≤ b))

/-- The failure of an operation on an object without a uid. -/
def MissingUid.failure (e : MissingUid) : Failure := .invalidConfig e.message

def Address.report (a : Address) : Value :=
  .object [("host", .string a.host), ("port", .ofNat a.port.toNat), ("path", .string a.path),
    ("tls", .bool a.tls), ("url", .string a.url)]

def ParentRef.report (p : ParentRef) : Value := .strings [p.kind, p.ns, p.name]

def Fragment.report (f : Fragment) : Value :=
  let contribution : List (String × Value) := match f.contribution with
    | .resource r a => [("resource", r.toValue), ("address", a.report)]
    | .egress p e => [("parent", p.report), ("egress", e.toValue), ("address", .null)]
  .object ([("uid", .string f.uid), ("observed_at", f.observedAt.report)] ++ contribution)

def TriggerRef.report (r : TriggerRef) : Value :=
  .object [("namespace", .string r.ns), ("name", .string r.name), ("uid", .string r.uid)]

def TriggerView.report (v : TriggerView) : Value :=
  .object [("owner", v.owner.report), ("deleting", .bool v.deleting),
    ("has_finalizer", .bool v.hasFinalizer), ("relevant", .bool v.relevant)]

def GroupBinding.report (b : GroupBinding) : Value :=
  .object [("owner", b.owner.report), ("group_id", .string b.groupId),
    ("topics", .strings b.topics), ("bootstrap_servers", .string b.bootstrapServers),
    ("subscriber", .string b.subscriber)]

def GroupAction.name : GroupAction → String
  | .created => "created"
  | .updated => "updated"
  | .unchanged => "unchanged"
  | .recreated => "recreated"
  | .deleted => "deleted"
  | .absent => "absent"

def GroupAction.all : List GroupAction :=
  [.created, .updated, .unchanged, .recreated, .deleted, .absent]

def GroupAction.report (a : GroupAction) : Value := .string a.name

def Transition.report : Transition → Value
  | .ignored => .string "ignored"
  | .addFinalizer => .string "add_finalizer"
  | .reconciled a => .object [("reconciled", a.report)]
  | .removeFinalizer a => .object [("remove_finalizer", a.report)]
  | .released => .string "released"

def GroupCall.name : GroupCall → String
  | .binding _ => "binding"
  | .apply _ => "apply"
  | .delete _ => "delete"

def Outcome.report (o : Outcome) : Value :=
  .object [
    ("contract", o.contract.toValue),
    ("changed", .bool o.changed),
    ("pending", .array (o.pending.map fun p =>
      .array [.string p.uid, .string p.address.url, .ofNat p.failures])),
    ("detached", .array (o.detached.map fun d => .array [.string d.uid, d.parent.report])),
    ("referenced", sortedReport (o.referenced.map Address.url)),
    ("admitted", .object (o.admitted.map fun (uid, a) => (uid, .string a.url)))]

def RouteState.report : RouteState → Value
  | .routed => .string "routed"
  | .pending n => .object [("pending", .ofNat n)]
  | .detached => .string "detached"
  | .unknown => .string "unknown"

/-- What a synchronization did, and where some uids stand after it. -/
def SyncReport.report (r : SyncReport) (uids : List String) : Value :=
  .object [("generation", r.generation.report), ("changed", .bool r.changed),
    ("published", .bool r.published), ("outcome", r.outcome.report),
    ("states", .array (uids.map fun uid => (r.outcome.state uid).report))]

end EventRouting
