import EventRouting.Cluster.Api
import EventRouting.Manifest.Schema

namespace EventRouting

open Json

/-- A column of a listing: its name, its type and the path of what it shows. -/
structure Column where
  name : String
  type : String
  path : String

def Column.text (name path : String) : Column := ⟨name, "string", path⟩

def Column.toValue (c : Column) : Value :=
  .object [("jsonPath", .string c.path), ("name", .string c.name), ("type", .string c.type)]

/-- What defines a kind. -/
structure Definition where
  kind : ObjectKind
  shortName : String
  columns : List Column
  spec : Schema
  /-- What the status is about. -/
  statusAbout : String
  status : Schema

namespace Definition

/-- The version of the kinds within their group. -/
def version : String := "v1alpha1"

def address : Column := .text "Address" ".status.address"

def phase : Column := .text "Phase" ".status.phase"

def age : Column := ⟨"Age", "date", ".metadata.creationTimestamp"⟩

/-- The definition of a kind whose objects take part in routing. -/
def ofRouting (kind : RoutingKind) (shortName : String) (columns : List Column) (spec : Schema) :
    Definition where
  kind := .routing kind
  shortName
  columns
  spec
  statusAbout := "Status shared by all routing resources"
  status := RoutingStatus.schema

def broker : Definition :=
  ofRouting .broker "kb"
    [address, phase, ⟨"Contract", "integer", ".status.observedContractGeneration"⟩, age]
    BrokerSpec.schema

def trigger : Definition :=
  ofRouting .trigger "kt"
    [.text "Broker" ".spec.broker", .text "Subscriber" ".spec.subscriber", phase, age]
    TriggerSpec.schema

def channel : Definition :=
  ofRouting .channel "kc" [address, phase, age] ChannelSpec.schema

def sink : Definition :=
  ofRouting .sink "ks" [.text "Topic" ".spec.topic", address, phase, age] SinkSpec.schema

def consumerGroup : Definition where
  kind := .consumerGroup
  shortName := "kcg"
  columns := [.text "Group" ".spec.groupId", .text "Ready" ".status.ready", age]
  spec := ConsumerGroupSpec.schema
  statusAbout := "Status of a consumer group"
  status := ConsumerGroupSpec.statusSchema

/-- The definitions, in the order in which they are installed. -/
def all : List Definition := [broker, trigger, channel, sink, consumerGroup]

def ofKind? (name : String) : Option Definition := all.find? (·.kind.name == name)

def objectSchema (d : Definition) : Value :=
  .object [
    ("description",
      .string s!"Auto-generated derived type for {d.kind.name}Spec via `CustomResource`"),
    ("properties", .object [
      ("spec", d.spec.toValue),
      ("status", Schema.ofField .optional d.statusAbout d.status.toValue)]),
    ("required", .strings ["spec"]),
    ("title", .string d.kind.name),
    ("type", .string "object")]

/-- The object that makes a cluster know the kind. -/
def toValue (d : Definition) : Value :=
  .sorted <| .object [
    ("apiVersion", .string "apiextensions.k8s.io/v1"),
    ("kind", .string "CustomResourceDefinition"),
    ("metadata", .object [("name", .string s!"{d.kind.plural}.{apiGroup}")]),
    ("spec", .object [
      ("group", .string apiGroup),
      ("names", .object [
        ("categories", .array []),
        ("kind", .string d.kind.name),
        ("plural", .string d.kind.plural),
        ("shortNames", .strings [d.shortName]),
        ("singular", .string d.kind.name.toLower)]),
      ("scope", .string "Namespaced"),
      ("versions", .array [.object [
        ("additionalPrinterColumns", .array (d.columns.map Column.toValue)),
        ("name", .string version),
        ("schema", .object [("openAPIV3Schema", d.objectSchema)]),
        ("served", .bool true),
        ("storage", .bool true),
        ("subresources", .object [("status", .object [])])]])])]

end Definition

end EventRouting
