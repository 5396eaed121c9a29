import EventRouting.Control.Runner
import EventRouting.Report.Routing

namespace EventRouting

open Json

/-- An object or the body of a request, where payloads are shown as such. -/
def ObjectKind.shown (k : ObjectKind) (v : Value) : Value :=
  match k, payloadOf v with
  | .configMap, .ok (some p) =>
    v.set "binaryData" (((v.get? "binaryData").getD .null).set contractKey (Payload.report p))
  | _, _ => v

def ApiRequest.kind : ApiRequest → ObjectKind
  | .get o | .create o _ | .delete o | .apply o _ | .merge o _ | .mergeStatus o _ | .patch o _ =>
    o.kind

/-- A request with the code of its reply. -/
def ApiRequest.report (r : ApiRequest) (code : Nat) : Value :=
  .array ([.string r.method, .string r.path, .ofNat code]
    ++ (r.patchType?.map Value.string).toList ++ (r.body?.map r.kind.shown).toList)

namespace Failure

/-- A report without the words that come from the other side. -/
def terse (f : Failure) : Value :=
  let without (v : Value) : Value := match v with
    | .object members => .object (eraseMember "message" members)
    | v => v
  match f with
  | .finalizer _ | .consumerGroup _ | .trustBundle _ => without f.report
  | .contract e@(.storage _) => f.report.set "inner" (without e.report)
  | f => f.report

end Failure

def Operator.Reconciled.report : Operator.Reconciled → Value
  | .done a => .object [("action", a.report)]
  | .failed f policy => .object [("failed", f.terse), ("policy", policy.report)]

/-- What a control plane holds. -/
def Operator.members (w : Operator) : List (String × Value) :=
  let counts := w.state.errorCounts.mergeSort fun a b => decide (a.1 ≤ b.1)
  [("generation", w.state.sync.current.generation.report),
    ("fragments", .ofNat w.state.sync.fragments.length),
    ("last_published", .ofOption Generation.report w.state.sync.publisher.last?),
    ("error_counts", .array (counts.map fun (key, n) => .array [.string key, .ofNat n]))]

/-- An object as the controllers leave it. -/
def ObjectRef.outline (o : ObjectRef) (v : Value) : Value :=
  let part (path : List String) : Value := (v.at? path).getD .null
  let conditions : List Value := match v.at? ["status", "conditions"] with
    | some (.array l) => l
    | _ => []
  let ready := conditions.filter fun c => c.get? "type" = some (.string "Ready")
  match o.kind with
  | .consumerGroup => .object [("path", .string o.path), ("spec", part ["spec"])]
  | .configMap | .routing _ => .object [
      ("path", .string o.path),
      ("finalizers", part ["metadata", "finalizers"]),
      ("phase", part ["status", "phase"]),
      ("address", part ["status", "address"]),
      ("consumer_group", part ["status", "consumerGroup"]),
      ("conditions", .array (ready.map fun c =>
        .array (["type", "status", "reason"].map fun name => (c.get? name).getD .null)))]

/-- The resources of the stored contract. -/
def Operator.storedResources (w : Operator) : Value :=
  let stored? : Option Contract := do
    let p ← ← (payloadOf (← w.server.objects.get? w.context.storage)).toOption
    (Contract.decode p).toOption
  .ofOption (fun c => .array (c.resources.map Resource.toValue)) stored?

/-- All objects as the controllers leave them, with the contract that they have published. -/
def Runner.report (r : Runner) : Value :=
  let w := r.operator
  let shown := w.server.objects.filter (·.1.kind ≠ .configMap)
  let sorted := shown.mergeSort fun a b => decide (a.1.path ≤ b.1.path)
  .object [
    ("objects", .array (sorted.map fun (o, v) => o.outline v)),
    ("contract", w.storedResources),
    ("fragments", .ofNat w.state.sync.fragments.length),
    ("tracked", .ofNat w.timeline.prober.tracked)]

/-- The requests made so far, which are then forgotten. -/
def Operator.takeRequests (w : Operator) : Value × Operator :=
  (.array (w.server.log.map fun (r, code) => r.report code),
    { w with server := { w.server with log := [] } })

end EventRouting
