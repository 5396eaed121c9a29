import EventRouting.ConsumerGroup.Resource
import EventRouting.Control.Status
import EventRouting.Routing.Synchronizer

namespace EventRouting

/-- What stays the same while the controllers run. -/
structure ControlContext where
  fragments : FragmentContext
  /-- Where the contract is stored. -/
  storage : ObjectRef
  /-- The number of failed probes after which they are reported. -/
  warnAfter : Nat
  deriving Repr

structure ControlState where
  sync : Synchronizer := {}
  /-- Failures in a row by the key of the object. -/
  errorCounts : Table String Nat := []
  deriving Repr

inductive ControlCall where
  | api (r : ApiRequest)
  | readiness (consulted : List Address)
  | retain (referenced : List Address)
  | clock

abbrev ControlCall.Answer : ControlCall → Type
  | .api _ => Reply
  | .readiness _ => Readiness
  | .retain _ => Unit
  | .clock => String

abbrev ControlDialogue := Dialogue ControlCall ControlCall.Answer

/-- A program that fails or yields a result, and leaves a state in either case. -/
abbrev ControlProgram (α : Type) := ExceptT Failure (StateT ControlState ControlDialogue) α

namespace ControlProgram

def ask (call : ControlCall) : ControlProgram call.Answer :=
  ((Dialogue.put call : ControlDialogue _) :)

def toApi (r : ApiRequest) : ControlDialogue Reply := Dialogue.put (ControlCall.api r)

/-- Sends a request that must not be refused. -/
def send (r : ApiRequest) : ControlProgram Json.Value := do
  let reply ← ask (.api r)
  match reply.content with
  | .ok v => return v
  | .error _ => throw (.api reply.code)

def answerSync (ctx : ControlContext) : (call : SyncCall) → ControlDialogue call.Answer
  | .storage call => (call.inCluster ctx.storage).interpret toApi
  | .readiness consulted => Dialogue.put (ControlCall.readiness consulted)
  | .retain referenced => Dialogue.put (ControlCall.retain referenced)

/-- Runs a program of the synchronizer, whose storage entry lies in the cluster. -/
def sync {α : Type} (ctx : ControlContext) (p : Synchronizer.Program α) : ControlProgram α :=
  fun s => do
  let (a, sync) ← (p.run.run s.sync).interpret (answerSync ctx)
  return (a, { s with sync })

/-- Runs a program of the consumer groups, which are objects in the cluster. -/
def groups {α : Type} (p : ConsumerGroup.Program α) : ControlProgram α := fun s => do
  return (← p.run.interpret fun call => call.inCluster.interpret toApi, s)

end ControlProgram

end EventRouting
