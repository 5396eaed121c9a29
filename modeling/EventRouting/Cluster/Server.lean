import EventRouting.Cluster.Api
import EventRouting.Table

namespace EventRouting

open Json

/-- An order to refuse requests by their method and a part of their path. -/
structure RefusalOrder where
  method : String
  path : String
  code : Nat
  /-- How many more requests it refuses. -/
  times : Nat
  deriving DecidableEq, Repr

structure ApiServer where
  objects : Table ObjectRef Value := []
  failures : List RefusalOrder := []
  /-- The requests so far with the codes of their replies. -/
  log : List (ApiRequest × Nat) := []
  deriving Repr

namespace RefusalOrder

def isPart (part : List Char) : List Char → Bool
  | [] => part.isEmpty
  | c :: s => part.isPrefixOf (c :: s) || isPart part s

def applies (f : RefusalOrder) (method path : String) : Bool :=
  0 < f.times && f.method == method && isPart f.path.toList path.toList

/-- The code with which the first matching order refuses a request, and the orders left. -/
def refusal? (method path : String) : List RefusalOrder → Option (Nat × List RefusalOrder)
  | [] => none
  | f :: failures =>
    if f.applies method path then some (f.code, { f with times := f.times - 1 } :: failures)
    else (refusal? method path failures).map fun (code, failures) => (code, f :: failures)

end RefusalOrder

/-- Whether an object is to be deleted and nothing keeps it. -/
def isReleased (v : Value) : Bool :=
  let isSet (path : List String) : Bool := match v.at? path with
    | none | some .null | some (.array []) => false
    | some _ => true
  isSet ["metadata", "deletionTimestamp"] && !isSet ["metadata", "finalizers"]

namespace ApiServer

/-- Stores an object, with its members in the order of their names. -/
def put (s : ApiServer) (o : ObjectRef) (v : Value) : ApiServer :=
  { s with objects := s.objects.insert o v.sorted }

def delete (s : ApiServer) (o : ObjectRef) : ApiServer := { s with objects := s.objects.erase o }

def missing : Reply := ⟨404, .error Reply.notFound⟩

/-- Ends a patch that turns an object into `v`. -/
def patched (s : ApiServer) (o : ObjectRef) (v : Value) : Reply × ApiServer :=
  (⟨200, .ok v⟩, if isReleased v then s.delete o else s.put o v)

/-- Patches an object that exists. -/
def patch (s : ApiServer) (o : ObjectRef) (f : Value → Option Value) : Reply × ApiServer :=
  match s.objects.get? o with
  | none => (missing, s)
  | some v => match f v with
    | some v => s.patched o v
    | none => (⟨422, .error "Invalid"⟩, s)

/-- The reply to a request that is not refused by order. -/
def reply (s : ApiServer) : ApiRequest → Reply × ApiServer
  | .get o => match s.objects.get? o with
    | some v => (⟨200, .ok v⟩, s)
    | none => (missing, s)
  | .create o body =>
    if s.objects.contains o then (⟨409, .error "AlreadyExists"⟩, s)
    else (⟨201, .ok body⟩, s.put o body)
  | .delete o => match s.objects.get? o with
    | some v => (⟨200, .ok v⟩, s.delete o)
    | none => (missing, s)
  | .apply o body => match s.objects.get? o with
    | some v => s.patched o (v.merge body)
    | none => (⟨201, .ok body⟩, s.put o body)
  | .merge o body | .mergeStatus o body => s.patch o fun v => some (v.merge body)
  | .patch o operations => s.patch o fun v => PatchOperation.runAll? v operations

def handle (s : ApiServer) (r : ApiRequest) : Reply × ApiServer :=
  let (reply, s) := match RefusalOrder.refusal? r.method r.path s.failures with
    | some (code, failures) => ((⟨code, .error "Refused"⟩ : Reply), { s with failures })
    | none => s.reply r
  (reply, { s with log := s.log ++ [(r, reply.code)] })

/-- Lists the objects of a kind in a namespace. Listing is refused like other requests, but it is
not recorded. -/
def list (s : ApiServer) (k : ObjectKind) (ns : String) : Except Nat (List Value) × ApiServer :=
  match RefusalOrder.refusal? "GET" (k.path ns) s.failures with
  | some (code, failures) => (.error code, { s with failures })
  | none => (.ok ((s.objects.filter fun e => e.1.kind = k && e.1.ns = ns).map (·.2)), s)

end ApiServer

end EventRouting
