import EventRouting.Json.Patch
import EventRouting.Manifest.Basic

namespace EventRouting

open Json

/-- Whether a field has to be given. -/
inductive Presence where
  | required
  | optional
  /-- An absent field has this value. -/
  | default (v : Value)

inductive Schema where
  | text (minLength? : Option Nat)
  /-- One of some words. -/
  | choice (words : List String)
  | flag
  /-- A whole number of a width, within inclusive bounds. -/
  | whole (width : String) (minimum? maximum? : Option Nat)
  | list (item : Schema) (maxItems? : Option Nat)
  | record (about? : Option String) (fields : List (String × Presence × String × Schema))

namespace Schema

/-- A bound, which schemas write as a decimal fraction. -/
def bound (n : Nat) : Value := .float s!"{n}.0"

def requiredNames (fields : List (String × Presence × String × Schema)) : List String :=
  let names := fields.filterMap fun
    | (name, .required, _) => some name
    | _ => none
  names.mergeSort fun a b => decide (a ≤ b)

/-- The schema of a field, with what the field adds to that of its value. -/
def ofField (presence : Presence) (about : String) (schema : Value) : Value :=
  let schema := schema.set "description" (.string about)
  match presence with
  | .required => schema
  | .optional => schema.set "nullable" (.bool true)
  | .default v => schema.set "default" v

mutual

def toValue : Schema → Value
  | .text minLength? => .record [
      ("type", some (.string "string")),
      ("minLength", minLength?.map .ofNat)]
  | .choice words => .record [
      ("type", some (.string "string")),
      ("enum", some (.strings words))]
  | .flag => .record [("type", some (.string "boolean"))]
  | .whole width minimum? maximum? => .record [
      ("type", some (.string "integer")),
      ("format", some (.string width)),
      ("minimum", minimum?.map bound),
      ("maximum", maximum?.map bound)]
  | .list item maxItems? => .record [
      ("type", some (.string "array")),
      ("items", some item.toValue),
      ("maxItems", maxItems?.map .ofNat)]
  | .record about? fields =>
    let names := requiredNames fields
    .record [
      ("type", some (.string "object")),
      ("description", about?.map .string),
      ("properties", some (.object (properties fields))),
      ("required", if names.isEmpty then none else some (.strings names))]

def properties : List (String × Presence × String × Schema) → List (String × Value)
  | [] => []
  | (name, presence, about, schema) :: fields =>
    (name, ofField presence about schema.toValue) :: properties fields

end

def string : Schema := .text none

/-- A whole number that is not negative. -/
def count (width : String) : Schema := .whole width (some 0) none

end Schema

def DeliverySpec.schema : Schema :=
  .record none [
    ("deadLetterSink", .optional, "Dead letter sink URI", .string),
    ("retry", .optional, "Number of retries (0-100)", .whole "uint32" (some 0) (some 100)),
    ("backoffPolicy", .optional, "`exponential` or `linear`", .choice ["exponential", "linear"]),
    ("backoffDelayMs", .optional, "Base backoff delay in milliseconds", .count "uint64"),
    ("timeoutMs", .optional, "Per-request timeout in milliseconds", .count "uint64")]

def bootstrapServersField : String × Presence × String × Schema :=
  ("bootstrapServers", .optional, "Kafka bootstrap servers; defaults to the operator-wide setting",
    .string)

/-- The description of brokers, with an example. -/
def BrokerSpec.about : String :=
  "Kafka-backed broker: one topic, one ingress path, many triggers.\n\n```yaml "
    ++ "apiVersion: " ++ apiVersion ++ " kind: KafkaBroker metadata: name: default "
    ++ "namespace: events spec: bootstrapServers: my-cluster-kafka-bootstrap.kafka:9092 ```"

def BrokerSpec.schema : Schema :=
  .record (some BrokerSpec.about) [
    ("topic", .optional,
      "Topic backing the broker; defaults to `knative-broker-<namespace>-<name>`", .string),
    bootstrapServersField,
    ("delivery", .optional, "Default delivery settings for all triggers", DeliverySpec.schema)]

def TriggerSpec.schema : Schema :=
  .record (some "Subscription of a URI to the events of a `KafkaBroker`") [
    ("broker", .required, "Name of the broker in the trigger's namespace", .string),
    ("subscriber", .required, "Destination URI", .string),
    ("reply", .optional, "Where replies from the subscriber go", .string),
    ("delivery", .optional, "Per-trigger delivery override", DeliverySpec.schema),
    ("ordered", .default (.bool false), "Dispatch in partition order instead of concurrently",
      .flag)]

def Subscriber.schema : Schema :=
  .record (some "One subscriber of a channel") [
    ("uid", .required, "Stable identity of the subscription", .text (some 1)),
    ("subscriberUri", .required, "Destination URI", .string),
    ("replyUri", .optional, "Reply URI", .string),
    ("delivery", .optional, "Per-subscriber delivery override", DeliverySpec.schema)]

def ChannelSpec.schema : Schema :=
  .record (some "Kafka-backed channel with inline subscribers") [
    ("topic", .optional,
      "Topic backing the channel; defaults to `knative-messaging-kafka.<namespace>.<name>`",
      .string),
    bootstrapServersField,
    ("delivery", .optional, "Default delivery settings for all subscribers", DeliverySpec.schema),
    ("subscribers", .default (.array []), "Channel subscribers",
      .list Subscriber.schema (some 1000))]

def SinkSpec.schema : Schema :=
  .record (some "HTTP-to-Kafka sink: an ingress that writes straight into a topic") [
    ("topic", .required, "Destination topic", .string),
    bootstrapServersField]

def ConsumerGroupSpec.schema : Schema :=
  .record (some "Consumer group run by the dispatchers on behalf of a trigger") [
    ("groupId", .required, "Kafka consumer group id", .string),
    ("topics", .required, "Topics the group consumes", .list .string none),
    ("bootstrapServers", .required, "Kafka bootstrap servers", .string),
    ("subscriber", .required, "Where consumed events are dispatched", .string)]

def Condition.schema : Schema :=
  .record (some "Condition for tracking resource status") [
    ("type", .required, "Ready, ConsumerGroupReady", .string),
    ("status", .required, "True, False, Unknown", .string),
    ("reason", .required, "Machine-readable reason", .string),
    ("message", .required, "Human-readable message", .string),
    ("lastTransitionTime", .required, "Last transition time", .string)]

def RoutingStatus.schema : Schema :=
  .record none [
    ("phase", .default (.string ""), "Ready, Pending or Failed", .string),
    ("message", .default (.string ""), "Human-readable message about current state", .string),
    ("address", .optional, "URL events are accepted on", .string),
    ("observedGeneration", .default (.int 0), "Observed generation for tracking spec changes",
      .whole "int64" none none),
    ("observedContractGeneration", .default (.int 0),
      "Contract generation the resource was last published in", .count "uint64"),
    ("consumerGroup", .optional, "Consumer group serving a trigger", .string),
    ("conditions", .default (.array []), "Conditions for detailed status tracking",
      .list Condition.schema none),
    ("lastSyncTime", .optional, "Last time the status was written", .string)]

/-- The status of a consumer group. -/
def ConsumerGroupSpec.statusSchema : Schema :=
  .record none [
    ("ready", .default (.bool false), "Whether the dispatchers joined the group", .flag)]

end EventRouting
