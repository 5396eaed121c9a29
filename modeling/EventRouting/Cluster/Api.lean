import EventRouting.Dialogue
import EventRouting.Json.Patch
import EventRouting.Manifest.Basic

namespace EventRouting

open Json

/-- The kinds of objects that the control plane reads and writes. -/
inductive ObjectKind where
  | configMap
  | routing (k : RoutingKind)
  | consumerGroup
  deriving DecidableEq, Repr

namespace ObjectKind

def name : ObjectKind → String
  | .configMap => "ConfigMap"
  | .routing k => k.name
  | .consumerGroup => "KafkaConsumerGroup"

def all : List ObjectKind :=
  [.configMap, .routing .broker, .routing .trigger, .routing .channel, .routing .sink,
    .consumerGroup]

def ofName? (name : String) : Option ObjectKind := all.find? (·.name == name)

def version : ObjectKind → String
  | .configMap => "v1"
  | .routing _ | .consumerGroup => apiVersion

def root : ObjectKind → String
  | .configMap => "/api/v1"
  | .routing _ | .consumerGroup => "/apis/" ++ apiVersion

def plural (k : ObjectKind) : String := k.name.toLower ++ "s"

/-- The path of all objects of the kind in a namespace. -/
def path (k : ObjectKind) (ns : String) : String := s!"{k.root}/namespaces/{ns}/{k.plural}"

end ObjectKind

structure ObjectRef where
  kind : ObjectKind
  ns : String
  name : String
  deriving DecidableEq, Repr

def ObjectRef.path (o : ObjectRef) : String := s!"{o.kind.path o.ns}/{o.name}"

/-- A body with the version and the kind of its object. -/
def ObjectKind.typed (k : ObjectKind) (v : Value) : Value :=
  (v.set "apiVersion" (.string k.version)).set "kind" (.string k.name)

inductive ApiRequest where
  | get (o : ObjectRef)
  | create (o : ObjectRef) (body : Value)
  | delete (o : ObjectRef)
  /-- Makes the object, or takes the body over into it. -/
  | apply (o : ObjectRef) (body : Value)
  | merge (o : ObjectRef) (body : Value)
  | mergeStatus (o : ObjectRef) (body : Value)
  | patch (o : ObjectRef) (operations : List PatchOperation)
  deriving DecidableEq, Repr

namespace ApiRequest

def method : ApiRequest → String
  | .get _ => "GET"
  | .create _ _ => "POST"
  | .delete _ => "DELETE"
  | .apply _ _ | .merge _ _ | .mergeStatus _ _ | .patch _ _ => "PATCH"

def path : ApiRequest → String
  | .get o | .delete o | .apply o _ | .merge o _ | .patch o _ => o.path
  | .create o _ => o.kind.path o.ns
  | .mergeStatus o _ => o.path ++ "/status"

/-- The way in which a patch is to be applied. -/
def patchType? : ApiRequest → Option String
  | .apply _ _ => some "apply"
  | .merge _ _ | .mergeStatus _ _ => some "merge"
  | .patch _ _ => some "json"
  | .get _ | .create _ _ | .delete _ => none

def body? : ApiRequest → Option Value
  | .create _ body | .apply _ body | .merge _ body | .mergeStatus _ body => some body
  | .patch _ operations => some (.array (operations.map PatchOperation.toValue))
  | .get _ | .delete _ => none

end ApiRequest

/-- A reply: its code, and a body or the reason of a refusal. -/
structure Reply where
  code : Nat
  content : Except String Value

/-- The reason of a refusal for want of the object. -/
def Reply.notFound : String := "NotFound"

/-- A program over an API server. -/
abbrev ClusterProgram := Dialogue ApiRequest fun _ => Reply

def ApiRequest.send (r : ApiRequest) : ClusterProgram Reply := Dialogue.put r

end EventRouting
