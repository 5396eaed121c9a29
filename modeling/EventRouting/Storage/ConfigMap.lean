import EventRouting.Cluster.Api
import EventRouting.Settings
import EventRouting.Storage.Entry
import EventRouting.Text.Base64

namespace EventRouting

open Json

/-- The name under which the control plane owns fields of objects. -/
def fieldManager : String := "kafka-eventing-operator"

def managedByLabel : String := "app.kubernetes.io/managed-by"

/-- The member of the binary data that holds the payload. -/
def contractKey : String := "data"

def contractEntry (ns name : String) : ObjectRef := ⟨.configMap, ns, name⟩

def base64Text (p : Payload) : Value :=
  .string (.ofList ((Base64.encode p).map fun b => Char.ofNat b.toNat))

/-- The config map with a payload, or without one. -/
def ObjectRef.configMap (o : ObjectRef) (payload? : Option Payload) : Value :=
  o.kind.typed <| .record [
    ("binaryData", payload?.map fun p => .object [(contractKey, base64Text p)]),
    ("metadata", some <| .object [
      ("labels", .object [(managedByLabel, .string fieldManager)]),
      ("name", .string o.name),
      ("namespace", .string o.ns)])]

/-- The payload of a config map. -/
def payloadOf (v : Value) : Except ContractError (Option Payload) :=
  match v.at? ["binaryData", contractKey] with
  | none => .ok none
  | some (.string s) => match Base64.decode? (Utf8.bytes s) with
    | some p => .ok (some p)
    | none => .error (.storage "binary data is not base64")
  | some _ => .error (.storage "binary data is not text")

def Reply.storageError (r : Reply) : ContractError :=
  .storage s!"the API server answered {r.code}"

/-- The payload in a reply. -/
def Reply.payload (r : Reply) : Except ContractError (Option Payload) :=
  match r.content with
  | .ok v => payloadOf v
  | .error _ => .error r.storageError

/-- Reads the config map, or creates it. If somebody else creates it at the same time, theirs is
read. -/
def obtainConfigMap (o : ObjectRef) : ClusterProgram (Except ContractError (Option Payload)) := do
  let existing ← (ApiRequest.get o).send
  match existing.content with
  | .ok v => return payloadOf v
  | .error reason =>
    if reason ≠ Reply.notFound then return .error existing.storageError
    let created ← (ApiRequest.create o (o.configMap none)).send
    match created.content with
    | .ok _ => return .ok none
    | .error _ =>
      if created.code = 409 then return (← (ApiRequest.get o).send).payload
      else return .error created.storageError

def writeConfigMap (o : ObjectRef) (p : Payload) : ClusterProgram (Except ContractError Unit) := do
  let reply ← (ApiRequest.apply o (o.configMap (some p))).send
  match reply.content with
  | .ok _ => return .ok ()
  | .error _ => return .error reply.storageError

/-- A storage call as requests for a config map. -/
def StorageCall.inCluster (o : ObjectRef) : (call : StorageCall) → ClusterProgram call.Answer
  | .obtain => obtainConfigMap o
  | .write p => writeConfigMap o p

end EventRouting
