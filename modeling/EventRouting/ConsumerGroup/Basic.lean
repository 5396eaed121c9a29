import EventRouting.Dialogue
import EventRouting.Failure
import EventRouting.Routing.Fragment
import EventRouting.Table

namespace EventRouting

def triggerFinalizer : String := "kafka.triggers.eventing.knative.dev"

/-- The trigger that owns a group. -/
structure TriggerRef where
  ns : String
  name : String
  uid : String
  deriving DecidableEq, Repr, Inhabited

/-- The consumer group that a trigger has or should have. -/
structure GroupBinding where
  owner : TriggerRef
  groupId : String
  topics : List String
  bootstrapServers : String
  subscriber : String
  deriving DecidableEq, Repr, Inhabited

/-- Whether two bindings are of one group, which can then be updated in place. -/
def GroupBinding.sameIdentity (a b : GroupBinding) : Bool :=
  a.groupId == b.groupId && a.topics == b.topics && a.bootstrapServers == b.bootstrapServers

inductive GroupAction where
  | created
  | updated
  | unchanged
  /-- The former group was deleted and another one made. -/
  | recreated
  | deleted
  /-- There was nothing to delete. -/
  | absent
  deriving DecidableEq, Repr

/-- What the life of a group depends on. -/
structure TriggerView where
  owner : TriggerRef
  deleting : Bool
  hasFinalizer : Bool
  /-- The broker of the trigger exists. -/
  relevant : Bool
  deriving DecidableEq, Repr

/-- A step in the life of a trigger. Whoever asked for it writes the change of the finalizer. -/
inductive Transition where
  | ignored
  | addFinalizer
  | reconciled (action : GroupAction)
  | removeFinalizer (action : GroupAction)
  | released
  deriving DecidableEq, Repr

/-- A request to whoever administers the groups. -/
inductive GroupCall where
  | binding (owner : TriggerRef)
  /-- Makes the group or updates it in place. -/
  | apply (b : GroupBinding)
  /-- Deletes the group, which may be gone already. -/
  | delete (b : GroupBinding)
  deriving DecidableEq, Repr

abbrev GroupCall.Answer : GroupCall → Type
  | .binding _ => Except Failure (Option GroupBinding)
  | .apply _ | .delete _ => Except Failure Unit

/-- The answer that refuses a request. -/
def GroupCall.refuse (f : Failure) : (call : GroupCall) → call.Answer
  | .binding _ => .error f
  | .apply _ | .delete _ => .error f

namespace ConsumerGroup

abbrev Program (α : Type) := ExceptT Failure (Dialogue GroupCall GroupCall.Answer) α

def binding (owner : TriggerRef) : Program (Option GroupBinding) :=
  (Dialogue.put (GroupCall.binding owner) : Dialogue GroupCall GroupCall.Answer _)

def apply (b : GroupBinding) : Program Unit :=
  (Dialogue.put (GroupCall.apply b) : Dialogue GroupCall GroupCall.Answer _)

def delete (b : GroupBinding) : Program Unit :=
  (Dialogue.put (GroupCall.delete b) : Dialogue GroupCall GroupCall.Answer _)

/-- Makes the group of the owner what it should be. -/
def reconcile (desired : GroupBinding) : Program GroupAction := do
  match ← binding desired.owner with
  | none =>
    apply desired
    return .created
  | some current =>
    if current = desired then return .unchanged
    else if current.sameIdentity desired then
      apply desired
      return .updated
    else
      delete current
      apply desired
      return .recreated

/-- Deletes the group of the owner if it has one. -/
def finalize (owner : TriggerRef) : Program GroupAction := do
  match ← binding owner with
  | some current =>
    delete current
    return .deleted
  | none => return .absent

/-- Takes a trigger one step on. -/
def advance (t : TriggerView) (desired : GroupBinding) : Program Transition :=
  match t.deleting, t.hasFinalizer with
  | false, false => return if t.relevant then .addFinalizer else .ignored
  | true, false => return if t.relevant then .released else .ignored
  | false, true => return .reconciled (← reconcile desired)
  | true, true => return .removeFinalizer (← finalize t.owner)

end ConsumerGroup

/-- The groups by the uid of their owner. -/
abbrev GroupTable := Table String GroupBinding

def GroupTable.answer (call : GroupCall) : StateM GroupTable call.Answer := fun t =>
  match call with
  | .binding owner => (.ok (t.get? owner.uid), t)
  | .apply b => (.ok (), t.insert b.owner.uid b)
  | .delete b => (.ok (), t.erase b.owner.uid)

/-- What a trigger says about the life of its group. -/
def Manifest.triggerView (m : Manifest TriggerSpec) (relevant : Bool) :
    Except Failure TriggerView :=
  match m.metadata.uid? with
  | none => .error (.invalidConfig "trigger has no uid")
  | some uid => .ok {
      owner := ⟨m.metadata.namespaceName, m.metadata.name, uid⟩
      deleting := m.metadata.isDeleting
      hasFinalizer := m.metadata.finalizers.contains triggerFinalizer
      relevant }

/-- The group that a trigger should have, given its broker if there is one. -/
def Manifest.desiredBinding (m : Manifest TriggerSpec) (owner : TriggerRef)
    (broker? : Option (Manifest BrokerSpec)) (ctx : FragmentContext) : GroupBinding where
  owner := owner
  groupId := triggerConsumerGroup owner.ns owner.name
  topics := [(broker?.bind (·.spec.topic?)).getD (brokerTopic owner.ns m.spec.broker)]
  bootstrapServers := (broker?.bind (·.spec.bootstrapServers?)).getD ctx.bootstrapServers
  subscriber := m.spec.subscriber

end EventRouting
