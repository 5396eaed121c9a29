import EventRouting.Control.Program

namespace EventRouting

open Json

def routingFinalizer : String := "eventing.kafka.dev/contract"

/-- What the finalizer of an object asks for. -/
inductive FinalizerStep where
  | addFinalizer
  | apply
  /-- Take the object out of the contract, then remove the finalizer at this position. -/
  | cleanup (position : Nat)
  /-- The object is about to go, and the finalizer is gone already. -/
  | done
  deriving DecidableEq, Repr

namespace Metadata

def finalizerStep (m : Metadata) : FinalizerStep :=
  match m.finalizers.idxOf? routingFinalizer, m.isDeleting with
  | none, false => .addFinalizer
  | some _, false => .apply
  | some i, true => .cleanup i
  | none, true => .done

/-- The patch that adds the finalizer. -/
def addition (m : Metadata) : List PatchOperation :=
  if m.finalizers.isEmpty then
    [.test ["metadata"] "finalizers" .null,
      .add ["metadata"] "finalizers" (.strings [routingFinalizer])]
  else
    [.test ["metadata"] "finalizers" (.strings m.finalizers),
      .add ["metadata", "finalizers"] "-" (.string routingFinalizer)]

/-- The patch that removes the finalizer at a position. -/
def removal (position : Nat) : List PatchOperation :=
  [.test ["metadata", "finalizers"] (toString position) (.string routingFinalizer),
    .remove ["metadata", "finalizers"] (toString position)]

end Metadata

/-- Sends a change of the finalizer. -/
def ControlProgram.changeFinalizer (r : ApiRequest) (doing : String) : ControlProgram Unit := do
  let reply ← ask (.api r)
  match reply.content with
  | .ok _ => return
  | .error reason => throw (.finalizer s!"failed to {doing} finalizer: {reason}")

/-- Does what the finalizer of an object asks for. -/
def ControlProgram.withFinalizer (o : ObjectRef) (m : Metadata)
    (apply cleanup : ControlProgram Action) : ControlProgram Action := do
  match m.finalizerStep with
  | .addFinalizer =>
    changeFinalizer (.patch o m.addition) "add"
    return .awaitChange
  | .apply => apply
  | .cleanup position =>
    let action ← cleanup
    changeFinalizer (.patch o (Metadata.removal position)) "remove"
    return action
  | .done => return .awaitChange

end EventRouting
