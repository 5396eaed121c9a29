import EventRouting.ConsumerGroup.Basic
import EventRouting.Manifest.Codec
import EventRouting.Storage.ConfigMap

namespace EventRouting

open Json

def triggerUidLabel : String := "eventing.kafka.dev/trigger-uid"

def GroupBinding.spec (b : GroupBinding) : ConsumerGroupSpec :=
  ⟨b.groupId, b.topics, b.bootstrapServers, b.subscriber⟩

def GroupBinding.toResource (b : GroupBinding) : Value :=
  .object [
    ("apiVersion", .string apiVersion),
    ("kind", .string ObjectKind.consumerGroup.name),
    ("metadata", .object [
      ("labels", .object [
        (managedByLabel, .string fieldManager),
        (triggerUidLabel, .string b.owner.uid)]),
      ("name", .string b.owner.name),
      ("namespace", .string b.owner.ns),
      ("ownerReferences", .array [.object [
        ("apiVersion", .string apiVersion),
        ("blockOwnerDeletion", .bool true),
        ("controller", .bool true),
        ("kind", .string RoutingKind.trigger.name),
        ("name", .string b.owner.name),
        ("uid", .string b.owner.uid)]])]),
    ("spec", b.spec.toValue)]

def TriggerRef.groupObject (owner : TriggerRef) : ObjectRef :=
  ⟨.consumerGroup, owner.ns, owner.name⟩

/-- The binding that an object holds, unless it belongs to another trigger. -/
def GroupBinding.ofResource? (owner : TriggerRef) (v : Value) :
    Except DecodeError (Option GroupBinding) := do
  let part (name : String) : Value := (v.get? name).getD .null
  let metadata ← Metadata.ofValue (part "metadata")
  let spec ← ConsumerGroupSpec.record.ofValue (part "spec")
  if metadata.labels.lookup triggerUidLabel ≠ some owner.uid then return none
  return some {
    owner
    groupId := spec.groupId
    topics := spec.topics
    bootstrapServers := spec.bootstrapServers
    subscriber := spec.subscriber }

def Reply.groupFailure (r : Reply) : Failure :=
  .consumerGroup s!"the API server answered {r.code}"

/-- A request to the administration of groups as requests for their objects. -/
def GroupCall.inCluster : (call : GroupCall) → ClusterProgram call.Answer
  | .binding owner => do
    let reply ← (ApiRequest.get owner.groupObject).send
    match reply.content with
    | .ok v => match GroupBinding.ofResource? owner v with
      | .ok binding? => return .ok binding?
      | .error e => return .error (.consumerGroup e.message)
    | .error reason =>
      return if reason = Reply.notFound then .ok none else .error reply.groupFailure
  | .apply b => do
    let reply ← (ApiRequest.apply b.owner.groupObject b.toResource).send
    match reply.content with
    | .ok _ => return .ok ()
    | .error _ => return .error reply.groupFailure
  | .delete b => do
    let reply ← (ApiRequest.delete b.owner.groupObject).send
    match reply.content with
    | .ok _ => return .ok ()
    | .error _ => return if reply.code = 404 then .ok () else .error reply.groupFailure

end EventRouting
