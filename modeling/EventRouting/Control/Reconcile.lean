import EventRouting.Control.Finalizer
import EventRouting.Manifest.Validation

namespace EventRouting

open Json

def RoutingManifest.objectRef (m : RoutingManifest) : ObjectRef :=
  ⟨.routing m.kind, m.metadata.namespaceName, m.metadata.anyName⟩

namespace ControlProgram

/-- Writes a status that says something new. -/
def updateStatus (m : RoutingManifest) (next : RoutingStatus) : ControlProgram Unit := do
  if next.isNews m.status? then
    let _ ← send (.mergeStatus m.objectRef (.object [("status", next.toValue)]))

/-- Takes the fragment of a key out of the contract, if there is one. -/
def withdraw (ctx : ControlContext) (key : String) : ControlProgram Unit := do
  let s ← get
  if s.sync.fragments.contains key then
    set { s with sync := s.sync.remove key }
    let _ ← sync ctx Synchronizer.sync

/-- Reports a spec that is refused. -/
def refuse (ctx : ControlContext) (m : RoutingManifest) (message : String) :
    ControlProgram Action := do
  withdraw ctx m.key
  let now ← ask .clock
  updateStatus m (.failed now m.metadata.generation? message)
  throw (.validation message)

/-- Puts the fragment of an object into the contract. Answers what came of it. -/
def contribute (ctx : ControlContext) (m : RoutingManifest) (f : Fragment) :
    ControlProgram (SyncReport × RouteState) := do
  modify fun s => { s with sync := s.sync.upsert m.key f }
  let report ← sync ctx Synchronizer.sync
  return (report, report.outcome.state f.uid)

def fragmentOf (ctx : ControlContext) (m : RoutingManifest) : ControlProgram Fragment :=
  match m.fragment ctx.fragments with
  | .ok f => return f
  | .error e => throw (.invalidConfig e.message)

/-- The status of an object after a synchronization. -/
def statusOf (ctx : ControlContext) (m : RoutingManifest) (report : SyncReport) (state : RouteState)
    (address? : Option String) : ControlProgram RoutingStatus := do
  let now ← ask .clock
  return .ofState now m.metadata.generation? m.status? state report.generation address?
    ctx.warnAfter

def applyRouting (ctx : ControlContext) (m : RoutingManifest) : ControlProgram Action := do
  if !m.violations.isEmpty then refuse ctx m (violationMessage m.violations)
  else
    let f ← fragmentOf ctx m
    let (report, state) ← contribute ctx m f
    updateStatus m (← statusOf ctx m report state (f.address?.map Address.url))
    return .ofState state

def cleanupRouting (ctx : ControlContext) (m : RoutingManifest) : ControlProgram Action := do
  withdraw ctx m.key
  return .awaitChange

def reconcileRouting (ctx : ControlContext) (m : RoutingManifest) : ControlProgram Action :=
  withFinalizer m.objectRef m.metadata (applyRouting ctx m) (cleanupRouting ctx m)

/-- The broker that a trigger names. -/
def brokerOf (m : Manifest TriggerSpec) : ControlProgram (Option (Manifest BrokerSpec)) := do
  let o : ObjectRef := ⟨.routing .broker, m.metadata.namespaceName, m.spec.broker⟩
  let reply ← ask (.api (.get o))
  match reply.content with
  | .ok v => match BrokerManifest.ofValue v with
    | .ok broker => return some broker
    | .error _ => throw (.api reply.code)
  | .error reason => if reason = Reply.notFound then return none else throw (.api reply.code)

/-- The change of a trigger's finalizers. The version makes it fail if somebody else changes them at
the same time. -/
def triggerFinalizerPatch (m : Metadata) (present : Bool) : Value :=
  let others := m.finalizers.filter (· ≠ triggerFinalizer)
  .object [("metadata", .object [
    ("finalizers", .strings (if present then others ++ [triggerFinalizer] else others)),
    ("resourceVersion", (m.resourceVersion?.map Value.string).getD .null)])]

def setTriggerFinalizer (m : RoutingManifest) (present : Bool) : ControlProgram Action := do
  let _ ← send (.merge m.objectRef (triggerFinalizerPatch m.metadata present))
  return .awaitChange

/-- Reports a trigger whose group is as it should be. -/
def reportTrigger (ctx : ControlContext) (m : RoutingManifest) (desired : GroupBinding)
    (action : GroupAction) : ControlProgram Action := do
  let (report, state) ← contribute ctx m (← fragmentOf ctx m)
  let status ← statusOf ctx m report state none
  let now ← ask .clock
  updateStatus m { status with
    consumerGroup? := some desired.groupId
    conditions := status.conditions ++ [desired.condition now action] }
  return .ofState state

def reconcileTrigger (ctx : ControlContext) (t : Manifest TriggerSpec) : ControlProgram Action := do
  let m := RoutingManifest.trigger t
  let broker? ← brokerOf t
  let view ← match t.triggerView broker?.isSome with
    | .ok view => pure view
    | .error f => throw f
  if view.deleting then withdraw ctx m.key
  if !view.deleting && (view.relevant || view.hasFinalizer) && !m.violations.isEmpty then
    refuse ctx m (violationMessage m.violations)
  else
    let desired := t.desiredBinding view.owner broker? ctx.fragments
    match ← groups (ConsumerGroup.advance view desired) with
    | .ignored | .released => return .awaitChange
    | .addFinalizer => setTriggerFinalizer m true
    | .removeFinalizer _ => setTriggerFinalizer m false
    | .reconciled action => reportTrigger ctx m desired action

/-- Reconciles an object. Success ends its row of failures. -/
def reconcile (ctx : ControlContext) (m : RoutingManifest) : ControlProgram Action := do
  let action ← match m with
    | .trigger t => reconcileTrigger ctx t
    | m => reconcileRouting ctx m
  modify fun s => { s with errorCounts := s.errorCounts.erase m.key }
  return action

end ControlProgram

/-- Counts a failure of an object. -/
def ControlState.countFailure (s : ControlState) (key : String) : Nat × ControlState :=
  let n := (s.errorCounts.get? key).getD 0 + 1
  (n, { s with errorCounts := s.errorCounts.insert key n })

/-- When to look again at an object that failed for the `n`-th time in a row. -/
def Failure.policy (f : Failure) (n : Nat) : Action :=
  .requeue (f.retryDelay?.getD (errorBackoff n))

end EventRouting
