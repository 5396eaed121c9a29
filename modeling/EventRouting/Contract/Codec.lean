import EventRouting.Contract.Basic
import EventRouting.Json.Reader
import EventRouting.Json.Value

namespace EventRouting

open Json

/-- The content of a storage entry. -/
abbrev Payload := List UInt8

/-- Why no contract is obtained from storage. -/
inductive ContractError where
  | emptyPayload
  | decode (e : DecodeError)
  | storage (message : String)
  | io (kind : String)
  deriving DecidableEq, Repr

/-- The payload itself is to blame, so that reading it again cannot help. -/
def ContractError.isPayloadError : ContractError → Bool
  | .emptyPayload | .decode _ => true
  | .storage _ | .io _ => false

def BackoffPolicy.variants : List (String × BackoffPolicy) :=
  [("exponential", .exponential), ("linear", .linear)]

def BackoffPolicy.name : BackoffPolicy → String
  | .exponential => "exponential"
  | .linear => "linear"

def DeliveryOrder.variants : List (String × DeliveryOrder) :=
  [("unordered", .unordered), ("ordered", .ordered)]

def DeliveryOrder.name : DeliveryOrder → String
  | .unordered => "unordered"
  | .ordered => "ordered"

def EgressConfig.toValue (c : EgressConfig) : Value :=
  .record [
    ("deadLetter", c.deadLetter?.map .string),
    ("retry", some (.ofNat c.retry.toNat)),
    ("backoffPolicy", some (.string c.backoffPolicy.name)),
    ("backoffDelayMs", some (.ofNat c.backoffDelay.toNat)),
    ("timeoutMs", c.timeout?.map (.ofNat ·.toNat))]

def Reference.toValue (r : Reference) : Value :=
  .object [
    ("uuid", .string r.uuid),
    ("namespace", .string r.ns),
    ("name", .string r.name),
    ("kind", .string r.kind)]

def Ingress.toValue (i : Ingress) : Value :=
  .record [("path", some (.string i.path)), ("host", i.host?.map .string)]

def Egress.toValue (e : Egress) : Value :=
  .record [
    ("uid", some (.string e.uid)),
    ("consumerGroup", some (.string e.consumerGroup)),
    ("destination", some (.string e.destination)),
    ("replyUrl", e.replyUrl?.map .string),
    ("egressConfig", e.config?.map EgressConfig.toValue),
    ("deliveryOrder", some (.string e.deliveryOrder.name)),
    ("reference", some e.reference.toValue)]

def Resource.toValue (r : Resource) : Value :=
  .record [
    ("uid", some (.string r.uid)),
    ("topics", some (.strings r.topics)),
    ("bootstrapServers", some (.string r.bootstrapServers)),
    ("ingress", r.ingress?.map Ingress.toValue),
    ("egressConfig", r.egressConfig?.map EgressConfig.toValue),
    ("egresses", some (.array (r.egresses.map Egress.toValue))),
    ("reference", some r.reference.toValue)]

def Contract.toValue (c : Contract) : Value :=
  .object [
    ("generation", .ofNat c.generation.toNat),
    ("resources", .array (c.resources.map Resource.toValue))]

def Contract.encode (c : Contract) : Payload := c.toValue.render

structure EgressConfig.Draft where
  deadLetter? : Option (Option String) := none
  retry? : Option UInt32 := none
  backoffPolicy? : Option BackoffPolicy := none
  backoffDelay? : Option UInt64 := none
  timeout? : Option (Option UInt64) := none

def EgressConfig.Draft.put (d : Draft) (name : String) : Reader Node Draft := fun n => do
  match name with
  | "deadLetter" =>
    return { d with deadLetter? := ← fill d.deadLetter? name (Node.readOption Node.readString n) }
  | "retry" => return { d with retry? := ← fill d.retry? name (Node.readUInt32 n) }
  | "backoffPolicy" =>
    return { d with
      backoffPolicy? := ← fill d.backoffPolicy? name (Node.readVariant BackoffPolicy.variants n) }
  | "backoffDelayMs" =>
    return { d with backoffDelay? := ← fill d.backoffDelay? name (Node.readUInt64 n) }
  | "timeoutMs" =>
    return { d with timeout? := ← fill d.timeout? name (Node.readOption Node.readUInt64 n) }
  | _ => do n.skip; return d

def EgressConfig.record : Record Node EgressConfig where
  name := "EgressConfig"
  Draft := Draft
  empty := {}
  put := Draft.put
  finish d := .ok {
    deadLetter? := d.deadLetter?.getD none
    retry := d.retry?.getD 0
    backoffPolicy := d.backoffPolicy?.getD .exponential
    backoffDelay := d.backoffDelay?.getD 0
    timeout? := d.timeout?.getD none }
  elements := do
    let deadLetter? ← nextFieldD (Node.readOption Node.readString) none
    let retry ← nextFieldD Node.readUInt32 0
    let backoffPolicy ← nextFieldD (Node.readVariant BackoffPolicy.variants) .exponential
    let backoffDelay ← nextFieldD Node.readUInt64 0
    let timeout? ← nextFieldD (Node.readOption Node.readUInt64) none
    return { deadLetter?, retry, backoffPolicy, backoffDelay, timeout? }

structure Reference.Draft where
  uuid? : Option String := none
  ns? : Option String := none
  name? : Option String := none
  kind? : Option String := none

def Reference.Draft.put (d : Draft) (name : String) : Reader Node Draft := fun n => do
  match name with
  | "uuid" => return { d with uuid? := ← fill d.uuid? name (Node.readString n) }
  | "namespace" => return { d with ns? := ← fill d.ns? name (Node.readString n) }
  | "name" => return { d with name? := ← fill d.name? name (Node.readString n) }
  | "kind" => return { d with kind? := ← fill d.kind? name (Node.readString n) }
  | _ => do n.skip; return d

def Reference.record : Record Node Reference where
  name := "Reference"
  Draft := Draft
  empty := {}
  put := Draft.put
  finish d := .ok {
    uuid := d.uuid?.getD ""
    ns := d.ns?.getD ""
    name := d.name?.getD ""
    kind := d.kind?.getD "" }
  elements := do
    let uuid ← nextFieldD Node.readString ""
    let ns ← nextFieldD Node.readString ""
    let name ← nextFieldD Node.readString ""
    let kind ← nextFieldD Node.readString ""
    return { uuid, ns, name, kind }

structure Ingress.Draft where
  path? : Option String := none
  host? : Option (Option String) := none

def Ingress.Draft.put (d : Draft) (name : String) : Reader Node Draft := fun n => do
  match name with
  | "path" => return { d with path? := ← fill d.path? name (Node.readString n) }
  | "host" => return { d with host? := ← fill d.host? name (Node.readOption Node.readString n) }
  | _ => do n.skip; return d

def Ingress.record : Record Node Ingress where
  name := "Ingress"
  Draft := Draft
  empty := {}
  put := Draft.put
  finish d := .ok { path := d.path?.getD "", host? := d.host?.getD none }
  elements := do
    let path ← nextFieldD Node.readString ""
    let host? ← nextFieldD (Node.readOption Node.readString) none
    return { path, host? }

structure Egress.Draft where
  uid? : Option String := none
  consumerGroup? : Option String := none
  destination? : Option String := none
  replyUrl? : Option (Option String) := none
  config? : Option (Option EgressConfig) := none
  deliveryOrder? : Option DeliveryOrder := none
  reference? : Option Reference := none

def Egress.Draft.put (d : Draft) (name : String) : Reader Node Draft := fun n => do
  match name with
  | "uid" => return { d with uid? := ← fill d.uid? name (Node.readString n) }
  | "consumerGroup" =>
    return { d with consumerGroup? := ← fill d.consumerGroup? name (Node.readString n) }
  | "destination" =>
    return { d with destination? := ← fill d.destination? name (Node.readString n) }
  | "replyUrl" =>
    return { d with replyUrl? := ← fill d.replyUrl? name (Node.readOption Node.readString n) }
  | "egressConfig" =>
    return { d with config? := ← fill d.config? name (Node.readOption EgressConfig.record.read n) }
  | "deliveryOrder" =>
    return { d with
      deliveryOrder? := ← fill d.deliveryOrder? name (Node.readVariant DeliveryOrder.variants n) }
  | "reference" =>
    return { d with reference? := ← fill d.reference? name (Reference.record.read n) }
  | _ => do n.skip; return d

def Egress.record : Record Node Egress where
  name := "Egress"
  Draft := Draft
  empty := {}
  put := Draft.put
  finish d := do
    let uid ← require d.uid? "uid"
    let consumerGroup ← require d.consumerGroup? "consumerGroup"
    let destination ← require d.destination? "destination"
    return {
      uid, consumerGroup, destination
      replyUrl? := d.replyUrl?.getD none
      config? := d.config?.getD none
      deliveryOrder := d.deliveryOrder?.getD .unordered
      reference := d.reference?.getD {} }
  elements := do
    let wanted := "struct Egress with 7 elements"
    let uid ← nextField Node.readString wanted
    let consumerGroup ← nextField Node.readString wanted
    let destination ← nextField Node.readString wanted
    let replyUrl? ← nextFieldD (Node.readOption Node.readString) none
    let config? ← nextFieldD (Node.readOption EgressConfig.record.read) none
    let deliveryOrder ← nextFieldD (Node.readVariant DeliveryOrder.variants) .unordered
    let reference ← nextFieldD Reference.record.read {}
    return { uid, consumerGroup, destination, replyUrl?, config?, deliveryOrder, reference }

structure Resource.Draft where
  uid? : Option String := none
  topics? : Option (List String) := none
  bootstrapServers? : Option String := none
  ingress? : Option (Option Ingress) := none
  egressConfig? : Option (Option EgressConfig) := none
  egresses? : Option (List Egress) := none
  reference? : Option Reference := none

def Resource.Draft.put (d : Draft) (name : String) : Reader Node Draft := fun n => do
  match name with
  | "uid" => return { d with uid? := ← fill d.uid? name (Node.readString n) }
  | "topics" => return { d with topics? := ← fill d.topics? name (Node.readList Node.readString n) }
  | "bootstrapServers" =>
    return { d with bootstrapServers? := ← fill d.bootstrapServers? name (Node.readString n) }
  | "ingress" =>
    return { d with ingress? := ← fill d.ingress? name (Node.readOption Ingress.record.read n) }
  | "egressConfig" =>
    return { d with
      egressConfig? := ← fill d.egressConfig? name (Node.readOption EgressConfig.record.read n) }
  | "egresses" =>
    return { d with egresses? := ← fill d.egresses? name (Node.readList Egress.record.read n) }
  | "reference" =>
    return { d with reference? := ← fill d.reference? name (Reference.record.read n) }
  | _ => do n.skip; return d

def Resource.record : Record Node Resource where
  name := "Resource"
  Draft := Draft
  empty := {}
  put := Draft.put
  finish d := do
    let uid ← require d.uid? "uid"
    return {
      uid
      topics := d.topics?.getD []
      bootstrapServers := d.bootstrapServers?.getD ""
      ingress? := d.ingress?.getD none
      egressConfig? := d.egressConfig?.getD none
      egresses := d.egresses?.getD []
      reference := d.reference?.getD {} }
  elements := do
    let uid ← nextField Node.readString "struct Resource with 7 elements"
    let topics ← nextFieldD (Node.readList Node.readString) []
    let bootstrapServers ← nextFieldD Node.readString ""
    let ingress? ← nextFieldD (Node.readOption Ingress.record.read) none
    let egressConfig? ← nextFieldD (Node.readOption EgressConfig.record.read) none
    let egresses ← nextFieldD (Node.readList Egress.record.read) []
    let reference ← nextFieldD Reference.record.read {}
    return { uid, topics, bootstrapServers, ingress?, egressConfig?, egresses, reference }

structure Contract.Draft where
  generation? : Option UInt64 := none
  resources? : Option (List Resource) := none

def Contract.Draft.put (d : Draft) (name : String) : Reader Node Draft := fun n => do
  match name with
  | "generation" => return { d with generation? := ← fill d.generation? name (Node.readUInt64 n) }
  | "resources" =>
    return { d with resources? := ← fill d.resources? name (Node.readList Resource.record.read n) }
  | _ => do n.skip; return d

def Contract.record : Record Node Contract where
  name := "Contract"
  Draft := Draft
  empty := {}
  put := Draft.put
  finish d := .ok { generation := d.generation?.getD 0, resources := d.resources?.getD [] }
  elements := do
    let generation ← nextFieldD Node.readUInt64 0
    let resources ← nextFieldD (Node.readList Resource.record.read) []
    return { generation, resources }

/-- White space of a text file: the blanks of JSON and the form feed. -/
def isFileSpace (b : UInt8) : Bool :=
  Json.isBlank b || b == 0x0C

/-- The contract of a payload. One of white space alone is refused, so that a truncated write is not
taken for a drain. -/
def Contract.decode (p : Payload) : Except ContractError Contract :=
  if p.all isFileSpace then .error .emptyPayload
  else (Json.decode Contract.record.read p).mapError .decode

end EventRouting
