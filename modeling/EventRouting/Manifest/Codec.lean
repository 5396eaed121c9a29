import EventRouting.Contract.Codec
import EventRouting.Json.ValueReader
import EventRouting.Manifest.Basic

namespace EventRouting

open Json

structure DeliverySpec.Draft where
  deadLetterSink? : Option (Option String) := none
  retry? : Option (Option UInt32) := none
  backoffPolicy? : Option (Option BackoffPolicy) := none
  backoffDelay? : Option (Option UInt64) := none
  timeout? : Option (Option UInt64) := none

def DeliverySpec.Draft.put (d : Draft) (name : String) : Reader Value Draft := fun v => do
  match name with
  | "deadLetterSink" =>
    return { d with
      deadLetterSink? := ← fill d.deadLetterSink? name (v.readOption Value.readString) }
  | "retry" => return { d with retry? := ← fill d.retry? name (v.readOption Value.readUInt32) }
  | "backoffPolicy" =>
    return { d with
      backoffPolicy? := ← fill d.backoffPolicy? name
        (v.readOption (Value.readVariant BackoffPolicy.variants)) }
  | "backoffDelayMs" =>
    return { d with backoffDelay? := ← fill d.backoffDelay? name (v.readOption Value.readUInt64) }
  | "timeoutMs" =>
    return { d with timeout? := ← fill d.timeout? name (v.readOption Value.readUInt64) }
  | _ => return d

def DeliverySpec.record : Record Value DeliverySpec where
  name := "DeliverySpec"
  Draft := Draft
  empty := {}
  put := Draft.put
  finish d := .ok {
    deadLetterSink? := d.deadLetterSink?.getD none
    retry? := d.retry?.getD none
    backoffPolicy? := d.backoffPolicy?.getD none
    backoffDelay? := d.backoffDelay?.getD none
    timeout? := d.timeout?.getD none }
  elements := do
    let deadLetterSink? ← nextFieldD (Value.readOption Value.readString) none
    let retry? ← nextFieldD (Value.readOption Value.readUInt32) none
    let backoffPolicy? ←
      nextFieldD (Value.readOption (Value.readVariant BackoffPolicy.variants)) none
    let backoffDelay? ← nextFieldD (Value.readOption Value.readUInt64) none
    let timeout? ← nextFieldD (Value.readOption Value.readUInt64) none
    return { deadLetterSink?, retry?, backoffPolicy?, backoffDelay?, timeout? }

def DeliverySpec.toValue (d : DeliverySpec) : Value :=
  .record [
    ("deadLetterSink", d.deadLetterSink?.map .string),
    ("retry", d.retry?.map (.ofNat ·.toNat)),
    ("backoffPolicy", d.backoffPolicy?.map (.string ·.name)),
    ("backoffDelayMs", d.backoffDelay?.map (.ofNat ·.toNat)),
    ("timeoutMs", d.timeout?.map (.ofNat ·.toNat))]

def DeliverySpec.ofValue? : Reader Value (Option DeliverySpec) :=
  Value.readOption DeliverySpec.record.ofValue

structure BrokerSpec.Draft where
  topic? : Option (Option String) := none
  bootstrapServers? : Option (Option String) := none
  delivery? : Option (Option DeliverySpec) := none

def BrokerSpec.Draft.put (d : Draft) (name : String) : Reader Value Draft := fun v => do
  match name with
  | "topic" => return { d with topic? := ← fill d.topic? name (v.readOption Value.readString) }
  | "bootstrapServers" =>
    return { d with
      bootstrapServers? := ← fill d.bootstrapServers? name (v.readOption Value.readString) }
  | "delivery" => return { d with delivery? := ← fill d.delivery? name (DeliverySpec.ofValue? v) }
  | _ => return d

def BrokerSpec.record : Record Value BrokerSpec where
  name := "KafkaBrokerSpec"
  Draft := Draft
  empty := {}
  put := Draft.put
  finish d := .ok {
    topic? := d.topic?.getD none
    bootstrapServers? := d.bootstrapServers?.getD none
    delivery? := d.delivery?.getD none }
  elements := do
    let topic? ← nextFieldD (Value.readOption Value.readString) none
    let bootstrapServers? ← nextFieldD (Value.readOption Value.readString) none
    let delivery? ← nextFieldD DeliverySpec.ofValue? none
    return { topic?, bootstrapServers?, delivery? }

def BrokerSpec.toValue (s : BrokerSpec) : Value :=
  .record [
    ("topic", s.topic?.map .string),
    ("bootstrapServers", s.bootstrapServers?.map .string),
    ("delivery", s.delivery?.map DeliverySpec.toValue)]

structure TriggerSpec.Draft where
  broker? : Option String := none
  subscriber? : Option String := none
  reply? : Option (Option String) := none
  delivery? : Option (Option DeliverySpec) := none
  ordered? : Option Bool := none

def TriggerSpec.Draft.put (d : Draft) (name : String) : Reader Value Draft := fun v => do
  match name with
  | "broker" => return { d with broker? := ← fill d.broker? name v.readString }
  | "subscriber" => return { d with subscriber? := ← fill d.subscriber? name v.readString }
  | "reply" => return { d with reply? := ← fill d.reply? name (v.readOption Value.readString) }
  | "delivery" => return { d with delivery? := ← fill d.delivery? name (DeliverySpec.ofValue? v) }
  | "ordered" => return { d with ordered? := ← fill d.ordered? name v.readBool }
  | _ => return d

def TriggerSpec.record : Record Value TriggerSpec where
  name := "KafkaTriggerSpec"
  Draft := Draft
  empty := {}
  put := Draft.put
  finish d := do
    let broker ← require d.broker? "broker"
    let subscriber ← require d.subscriber? "subscriber"
    return {
      broker, subscriber
      reply? := d.reply?.getD none
      delivery? := d.delivery?.getD none
      ordered := d.ordered?.getD false }
  elements := do
    let wanted := "struct KafkaTriggerSpec with 5 elements"
    let broker ← nextField Value.readString wanted
    let subscriber ← nextField Value.readString wanted
    let reply? ← nextFieldD (Value.readOption Value.readString) none
    let delivery? ← nextFieldD DeliverySpec.ofValue? none
    let ordered ← nextFieldD Value.readBool false
    return { broker, subscriber, reply?, delivery?, ordered }

def TriggerSpec.toValue (s : TriggerSpec) : Value :=
  .record [
    ("broker", some (.string s.broker)),
    ("subscriber", some (.string s.subscriber)),
    ("reply", s.reply?.map .string),
    ("delivery", s.delivery?.map DeliverySpec.toValue),
    ("ordered", some (.bool s.ordered))]

structure Subscriber.Draft where
  uid? : Option String := none
  uri? : Option String := none
  replyUri? : Option (Option String) := none
  delivery? : Option (Option DeliverySpec) := none

def Subscriber.Draft.put (d : Draft) (name : String) : Reader Value Draft := fun v => do
  match name with
  | "uid" => return { d with uid? := ← fill d.uid? name v.readString }
  | "subscriberUri" => return { d with uri? := ← fill d.uri? name v.readString }
  | "replyUri" =>
    return { d with replyUri? := ← fill d.replyUri? name (v.readOption Value.readString) }
  | "delivery" => return { d with delivery? := ← fill d.delivery? name (DeliverySpec.ofValue? v) }
  | _ => return d

def Subscriber.record : Record Value Subscriber where
  name := "ChannelSubscriber"
  Draft := Draft
  empty := {}
  put := Draft.put
  finish d := do
    let uid ← require d.uid? "uid"
    let uri ← require d.uri? "subscriberUri"
    return { uid, uri, replyUri? := d.replyUri?.getD none, delivery? := d.delivery?.getD none }
  elements := do
    let wanted := "struct ChannelSubscriber with 4 elements"
    let uid ← nextField Value.readString wanted
    let uri ← nextField Value.readString wanted
    let replyUri? ← nextFieldD (Value.readOption Value.readString) none
    let delivery? ← nextFieldD DeliverySpec.ofValue? none
    return { uid, uri, replyUri?, delivery? }

def Subscriber.toValue (s : Subscriber) : Value :=
  .record [
    ("uid", some (.string s.uid)),
    ("subscriberUri", some (.string s.uri)),
    ("replyUri", s.replyUri?.map .string),
    ("delivery", s.delivery?.map DeliverySpec.toValue)]

structure ChannelSpec.Draft where
  topic? : Option (Option String) := none
  bootstrapServers? : Option (Option String) := none
  delivery? : Option (Option DeliverySpec) := none
  subscribers? : Option (List Subscriber) := none

def ChannelSpec.Draft.put (d : Draft) (name : String) : Reader Value Draft := fun v => do
  match name with
  | "topic" => return { d with topic? := ← fill d.topic? name (v.readOption Value.readString) }
  | "bootstrapServers" =>
    return { d with
      bootstrapServers? := ← fill d.bootstrapServers? name (v.readOption Value.readString) }
  | "delivery" => return { d with delivery? := ← fill d.delivery? name (DeliverySpec.ofValue? v) }
  | "subscribers" =>
    return { d with
      subscribers? := ← fill d.subscribers? name (v.readList Subscriber.record.ofValue) }
  | _ => return d

def ChannelSpec.record : Record Value ChannelSpec where
  name := "KafkaChannelSpec"
  Draft := Draft
  empty := {}
  put := Draft.put
  finish d := .ok {
    topic? := d.topic?.getD none
    bootstrapServers? := d.bootstrapServers?.getD none
    delivery? := d.delivery?.getD none
    subscribers := d.subscribers?.getD [] }
  elements := do
    let topic? ← nextFieldD (Value.readOption Value.readString) none
    let bootstrapServers? ← nextFieldD (Value.readOption Value.readString) none
    let delivery? ← nextFieldD DeliverySpec.ofValue? none
    let subscribers ← nextFieldD (Value.readList Subscriber.record.ofValue) []
    return { topic?, bootstrapServers?, delivery?, subscribers }

def ChannelSpec.toValue (s : ChannelSpec) : Value :=
  .record [
    ("topic", s.topic?.map .string),
    ("bootstrapServers", s.bootstrapServers?.map .string),
    ("delivery", s.delivery?.map DeliverySpec.toValue),
    ("subscribers", some (.array (s.subscribers.map Subscriber.toValue)))]

structure SinkSpec.Draft where
  topic? : Option String := none
  bootstrapServers? : Option (Option String) := none

def SinkSpec.Draft.put (d : Draft) (name : String) : Reader Value Draft := fun v => do
  match name with
  | "topic" => return { d with topic? := ← fill d.topic? name v.readString }
  | "bootstrapServers" =>
    return { d with
      bootstrapServers? := ← fill d.bootstrapServers? name (v.readOption Value.readString) }
  | _ => return d

def SinkSpec.record : Record Value SinkSpec where
  name := "KafkaSinkSpec"
  Draft := Draft
  empty := {}
  put := Draft.put
  finish d := do
    let topic ← require d.topic? "topic"
    return { topic, bootstrapServers? := d.bootstrapServers?.getD none }
  elements := do
    let topic ← nextField Value.readString "struct KafkaSinkSpec with 2 elements"
    let bootstrapServers? ← nextFieldD (Value.readOption Value.readString) none
    return { topic, bootstrapServers? }

def SinkSpec.toValue (s : SinkSpec) : Value :=
  .record [
    ("topic", some (.string s.topic)),
    ("bootstrapServers", s.bootstrapServers?.map .string)]

structure ConsumerGroupSpec.Draft where
  groupId? : Option String := none
  topics? : Option (List String) := none
  bootstrapServers? : Option String := none
  subscriber? : Option String := none

def ConsumerGroupSpec.Draft.put (d : Draft) (name : String) : Reader Value Draft := fun v => do
  match name with
  | "groupId" => return { d with groupId? := ← fill d.groupId? name v.readString }
  | "topics" => return { d with topics? := ← fill d.topics? name (v.readList Value.readString) }
  | "bootstrapServers" =>
    return { d with bootstrapServers? := ← fill d.bootstrapServers? name v.readString }
  | "subscriber" => return { d with subscriber? := ← fill d.subscriber? name v.readString }
  | _ => return d

def ConsumerGroupSpec.record : Record Value ConsumerGroupSpec where
  name := "KafkaConsumerGroupSpec"
  Draft := Draft
  empty := {}
  put := Draft.put
  finish d := do
    let groupId ← require d.groupId? "groupId"
    let topics ← require d.topics? "topics"
    let bootstrapServers ← require d.bootstrapServers? "bootstrapServers"
    let subscriber ← require d.subscriber? "subscriber"
    return { groupId, topics, bootstrapServers, subscriber }
  elements := do
    let wanted := "struct KafkaConsumerGroupSpec with 4 elements"
    let groupId ← nextField Value.readString wanted
    let topics ← nextField (Value.readList Value.readString) wanted
    let bootstrapServers ← nextField Value.readString wanted
    let subscriber ← nextField Value.readString wanted
    return { groupId, topics, bootstrapServers, subscriber }

def ConsumerGroupSpec.toValue (s : ConsumerGroupSpec) : Value :=
  .object [
    ("groupId", .string s.groupId),
    ("topics", .strings s.topics),
    ("bootstrapServers", .string s.bootstrapServers),
    ("subscriber", .string s.subscriber)]

structure Condition.Draft where
  type? : Option String := none
  status? : Option String := none
  reason? : Option String := none
  message? : Option String := none
  lastTransitionTime? : Option String := none

def Condition.Draft.put (d : Draft) (name : String) : Reader Value Draft := fun v => do
  match name with
  | "type" => return { d with type? := ← fill d.type? name v.readString }
  | "status" => return { d with status? := ← fill d.status? name v.readString }
  | "reason" => return { d with reason? := ← fill d.reason? name v.readString }
  | "message" => return { d with message? := ← fill d.message? name v.readString }
  | "lastTransitionTime" =>
    return { d with lastTransitionTime? := ← fill d.lastTransitionTime? name v.readString }
  | _ => return d

def Condition.record : Record Value Condition where
  name := "Condition"
  Draft := Draft
  empty := {}
  put := Draft.put
  finish d := do
    let type ← require d.type? "type"
    let status ← require d.status? "status"
    let reason ← require d.reason? "reason"
    let message ← require d.message? "message"
    let lastTransitionTime ← require d.lastTransitionTime? "lastTransitionTime"
    return { type, status, reason, message, lastTransitionTime }
  elements := do
    let wanted := "struct Condition with 5 elements"
    let type ← nextField Value.readString wanted
    let status ← nextField Value.readString wanted
    let reason ← nextField Value.readString wanted
    let message ← nextField Value.readString wanted
    let lastTransitionTime ← nextField Value.readString wanted
    return { type, status, reason, message, lastTransitionTime }

def Condition.toValue (c : Condition) : Value :=
  .object [
    ("type", .string c.type),
    ("status", .string c.status),
    ("reason", .string c.reason),
    ("message", .string c.message),
    ("lastTransitionTime", .string c.lastTransitionTime)]

structure RoutingStatus.Draft where
  phase? : Option String := none
  message? : Option String := none
  address? : Option (Option String) := none
  observedGeneration? : Option Int := none
  observedContractGeneration? : Option UInt64 := none
  consumerGroup? : Option (Option String) := none
  conditions? : Option (List Condition) := none
  lastSyncTime? : Option (Option String) := none

def RoutingStatus.Draft.put (d : Draft) (name : String) : Reader Value Draft := fun v => do
  match name with
  | "phase" => return { d with phase? := ← fill d.phase? name v.readString }
  | "message" => return { d with message? := ← fill d.message? name v.readString }
  | "address" =>
    return { d with address? := ← fill d.address? name (v.readOption Value.readString) }
  | "observedGeneration" =>
    return { d with observedGeneration? := ← fill d.observedGeneration? name v.readInt64 }
  | "observedContractGeneration" =>
    return { d with
      observedContractGeneration? := ← fill d.observedContractGeneration? name v.readUInt64 }
  | "consumerGroup" =>
    return { d with consumerGroup? := ← fill d.consumerGroup? name (v.readOption Value.readString) }
  | "conditions" =>
    return { d with conditions? := ← fill d.conditions? name (v.readList Condition.record.ofValue) }
  | "lastSyncTime" =>
    return { d with lastSyncTime? := ← fill d.lastSyncTime? name (v.readOption Value.readString) }
  | _ => return d

def RoutingStatus.record : Record Value RoutingStatus where
  name := "RoutingStatus"
  Draft := Draft
  empty := {}
  put := Draft.put
  finish d := .ok {
    phase := d.phase?.getD ""
    message := d.message?.getD ""
    address? := d.address?.getD none
    observedGeneration := d.observedGeneration?.getD 0
    observedContractGeneration := d.observedContractGeneration?.getD 0
    consumerGroup? := d.consumerGroup?.getD none
    conditions := d.conditions?.getD []
    lastSyncTime? := d.lastSyncTime?.getD none }
  elements := do
    let phase ← nextFieldD Value.readString ""
    let message ← nextFieldD Value.readString ""
    let address? ← nextFieldD (Value.readOption Value.readString) none
    let observedGeneration ← nextFieldD Value.readInt64 0
    let observedContractGeneration ← nextFieldD Value.readUInt64 0
    let consumerGroup? ← nextFieldD (Value.readOption Value.readString) none
    let conditions ← nextFieldD (Value.readList Condition.record.ofValue) []
    let lastSyncTime? ← nextFieldD (Value.readOption Value.readString) none
    return {
      phase, message, address?, observedGeneration, observedContractGeneration, consumerGroup?
      conditions, lastSyncTime? }

def RoutingStatus.toValue (s : RoutingStatus) : Value :=
  .record [
    ("phase", some (.string s.phase)),
    ("message", some (.string s.message)),
    ("address", s.address?.map .string),
    ("observedGeneration", some (.int s.observedGeneration)),
    ("observedContractGeneration", some (.ofNat s.observedContractGeneration.toNat)),
    ("consumerGroup", s.consumerGroup?.map .string),
    ("conditions", some (.array (s.conditions.map Condition.toValue))),
    ("lastSyncTime", s.lastSyncTime?.map .string)]

def readTime : Reader Value Instant
  | .string s =>
    match Instant.ofRfc3339 s with
    | .ok t => .ok t
    | .error e => .error (.mismatch (.custom e.message))
  | v => .error (v.refuse "an RFC 3339 formatted date and time string")

/-- The members of an object, each read into a draft in their order. -/
def readMembers {δ : Type} (wanted : String) (empty : δ) (put : δ → String → Reader Value δ) :
    Reader Value δ
  | .object members => members.foldlM (fun d (name, v) => put d name v) empty
  | v => .error (v.refuse wanted)

/-- The time of an entry that tells who owns which fields. -/
def readFieldTime : Reader Value (Option Instant) :=
  readMembers "ManagedFieldsEntry" none fun time? name v => do
    match name with
    | "time" => v.readOption readTime
    | "apiVersion" | "fieldsType" | "manager" | "operation" | "subresource" =>
      do let _ ← v.readOption Value.readString; return time?
    | _ => return time?

/-- An entry that names the owner of an object. -/
def checkOwner : Reader Value Unit :=
  readMembers "OwnerReference" () fun _ name v => do
    match name with
    | "apiVersion" | "kind" | "name" | "uid" => do let _ ← v.readOption Value.readString
    | "blockOwnerDeletion" | "controller" => do let _ ← v.readOption Value.readBool
    | _ => return

def Metadata.put (m : Metadata) (name : String) : Reader Value Metadata := fun v => do
  match name with
  | "name" => return { m with name? := ← v.readOption Value.readString }
  | "generateName" => return { m with generateName? := ← v.readOption Value.readString }
  | "namespace" => return { m with ns? := ← v.readOption Value.readString }
  | "uid" => return { m with uid? := ← v.readOption Value.readString }
  | "generation" => return { m with generation? := ← v.readOption Value.readInt64 }
  | "resourceVersion" => return { m with resourceVersion? := ← v.readOption Value.readString }
  | "creationTimestamp" => return { m with creationTime? := ← v.readOption readTime }
  | "deletionTimestamp" => return { m with deletionTime? := ← v.readOption readTime }
  | "finalizers" =>
    return { m with finalizers := (← v.readOption (Value.readList Value.readString)).getD [] }
  | "managedFields" =>
    let times ← v.readOption (Value.readList readFieldTime)
    return { m with fieldTimes := (times.getD []).filterMap id }
  | "labels" =>
    return { m with labels := (← v.readOption (Value.readMap Value.readString)).getD [] }
  | "annotations" => do let _ ← v.readOption (Value.readMap Value.readString); return m
  | "ownerReferences" => do let _ ← v.readOption (Value.readList checkOwner); return m
  | "selfLink" => do let _ ← v.readOption Value.readString; return m
  | "deletionGracePeriodSeconds" => do let _ ← v.readOption Value.readInt64; return m
  | _ => return m

def Metadata.ofValue : Reader Value Metadata := readMembers "ObjectMeta" {} Metadata.put

structure Manifest.Draft (σ : Type) where
  metadata? : Option Metadata := none
  spec? : Option σ := none
  status? : Option (Option RoutingStatus) := none

def Manifest.record {σ : Type} (kind : String) (spec : Reader Value σ) :
    Record Value (Manifest σ) where
  name := kind
  Draft := Draft σ
  empty := {}
  put d name v := do
    match name with
    | "metadata" => return { d with metadata? := ← fill d.metadata? name (Metadata.ofValue v) }
    | "spec" => return { d with spec? := ← fill d.spec? name (spec v) }
    | "status" =>
      return { d with status? := ← fill d.status? name (v.readOption RoutingStatus.record.ofValue) }
    | _ => return d
  finish d := do
    let metadata ← require d.metadata? "metadata"
    let spec ← require d.spec? "spec"
    return { metadata, spec, status? := d.status?.getD none }
  elements := do
    let wanted := s!"struct {kind} with 3 elements"
    let metadata ← nextField Metadata.ofValue wanted
    let spec ← nextField spec wanted
    let status? ← nextField (Value.readOption RoutingStatus.record.ofValue) wanted
    return { metadata, spec, status? }

def BrokerManifest.ofValue : Reader Value (Manifest BrokerSpec) :=
  (Manifest.record RoutingKind.broker.name BrokerSpec.record.ofValue).ofValue

def TriggerManifest.ofValue : Reader Value (Manifest TriggerSpec) :=
  (Manifest.record RoutingKind.trigger.name TriggerSpec.record.ofValue).ofValue

def RoutingManifest.ofValue (kind : RoutingKind) : Reader Value RoutingManifest := fun v =>
  match kind with
  | .broker => .broker <$> BrokerManifest.ofValue v
  | .trigger => .trigger <$> TriggerManifest.ofValue v
  | .channel => .channel <$> (Manifest.record kind.name ChannelSpec.record.ofValue).ofValue v
  | .sink => .sink <$> (Manifest.record kind.name SinkSpec.record.ofValue).ofValue v

end EventRouting
