import EventRouting.ConsumerGroup.Basic
import EventRouting.Routing.Build

namespace EventRouting

/-- When to look at an object again. -/
inductive Action where
  | awaitChange
  | requeue (after : Span)
  deriving DecidableEq, Repr

namespace Action

/-- A routed object is looked at rarely, one that waits for something often. -/
def ofState : RouteState → Action
  | .routed => .requeue (.ofSeconds 300)
  | .pending _ | .detached | .unknown => .requeue (.ofSeconds 15)

end Action

/-- The delay after the `retries`-th failure in a row. -/
def errorBackoff (retries : Nat) : Span :=
  doublingDelay (.ofSeconds 30) (.ofSeconds 600) 5 retries

def Condition.at (now type : String) (holds : Bool) (reason message : String) : Condition where
  type := type
  status := if holds then "True" else "False"
  reason := reason
  message := message
  lastTransitionTime := now

/-- The words for a route state: phase, reason and message. -/
def RouteState.words (state : RouteState) (generation : Generation) (warnAfter : Nat) :
    String × String × String :=
  match state with
  | .routed =>
    ("Ready", "ContractPublished", s!"Published in contract generation {generation.toNat}")
  | .pending failures =>
    ("Pending", "IngressNotReady",
      if warnAfter ≤ failures then s!"Ingress still not ready after {failures} probes"
      else "Waiting for the ingress to become ready")
  | .detached => ("Pending", "BrokerNotReady", "Waiting for the broker to become ready")
  | .unknown => ("Pending", "NotInContract", "Not yet part of the contract")

namespace RoutingStatus

/-- The status of an object in a route state, where the store is at a contract generation. -/
def ofState (now : String) (objectGeneration? : Option Int) (previous? : Option RoutingStatus)
    (state : RouteState) (generation : Generation) (address? : Option String) (warnAfter : Nat) :
    RoutingStatus :=
  let (phase, reason, message) := state.words generation warnAfter
  { phase
    message
    address?
    observedGeneration := objectGeneration?.getD 0
    observedContractGeneration :=
      if state = .routed then generation
      else (previous?.map (·.observedContractGeneration)).getD 0
    conditions := [.at now "Ready" (state = .routed) reason message]
    lastSyncTime? := some now }

/-- The status of an object whose spec is refused. -/
def failed (now : String) (objectGeneration? : Option Int) (message : String) : RoutingStatus where
  phase := "Failed"
  message := message
  observedGeneration := objectGeneration?.getD 0
  conditions := [.at now "Ready" false "ValidationFailed" message]
  lastSyncTime? := some now

/-- What a status says, its timestamps aside. -/
def content (s : RoutingStatus) : RoutingStatus :=
  { s with
    conditions := s.conditions.map fun c => { c with lastTransitionTime := "" }
    lastSyncTime? := none }

/-- Whether a status says anything that the previous one does not. -/
def isNews (next : RoutingStatus) (previous? : Option RoutingStatus) : Bool :=
  previous?.all (·.content ≠ next.content)

end RoutingStatus

/-- The condition that reports what was done to a group. -/
def GroupBinding.condition (b : GroupBinding) (now : String) (action : GroupAction) : Condition :=
  let reason := match action with
    | .created => "Created"
    | .updated => "Updated"
    | .recreated => "Recreated"
    | .unchanged | .deleted | .absent => "UpToDate"
  .at now "ConsumerGroupReady" true reason s!"Consumer group {b.groupId} is ready"

end EventRouting
