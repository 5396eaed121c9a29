import EventRouting.Contract.Basic
import EventRouting.Table

namespace EventRouting

structure RouteDiff where
  added : List String := []
  removed : List String := []
  updated : List String := []
  deriving DecidableEq, Repr

namespace RouteDiff

def isEmpty (d : RouteDiff) : Bool := d.added.isEmpty && d.removed.isEmpty && d.updated.isEmpty

/-- The keys of both tables in ascending order, each once. -/
def sortedKeys {β : Type} (old new : Table String β) : List String :=
  ((old.keys ++ new.keys).mergeSort fun a b => decide (a ≤ b)).eraseDups

def between {β : Type} [DecidableEq β] (old new : Table String β) : RouteDiff :=
  let keys := sortedKeys old new
  { added := keys.filter fun k => (old.get? k).isNone && (new.get? k).isSome
    removed := keys.filter fun k => (old.get? k).isSome && (new.get? k).isNone
    updated := keys.filter fun k =>
      (old.get? k).isSome && (new.get? k).isSome && old.get? k ≠ new.get? k }

end RouteDiff

/-- A table and the generation of the contract it was made from. -/
structure Routes (β : Type) where
  table : Table String β := []
  generation? : Option Generation := none
  deriving DecidableEq, Repr

/-- Replaces the table. -/
def Routes.replace {β : Type} [DecidableEq β] (r : Routes β) (table : Table String β)
    (g : Generation) : RouteDiff × Routes β :=
  (.between r.table table, ⟨table, some g⟩)

/-- Where an ingress path sends events. -/
structure IngressRoute where
  resourceUid : String
  topics : List String
  bootstrapServers : String
  deriving DecidableEq, Repr

abbrev Receiver := Routes IngressRoute

namespace Receiver

/-- The routes of a contract. Of two resources with one path the later one has it. -/
def tableOf (c : Contract) : Table String IngressRoute :=
  .ofList (c.resources.filterMap fun r =>
    r.ingress?.map fun i => (i.path, ⟨r.uid, r.topics, r.bootstrapServers⟩))

def apply (r : Receiver) (c : Contract) : RouteDiff × Receiver :=
  r.replace (tableOf c) c.generation

end Receiver

abbrev Dispatcher := Routes Egress

namespace Dispatcher

def tableOf (c : Contract) : Table String Egress :=
  .ofList (c.resources.flatMap fun r => r.egresses.map fun e => (e.uid, e))

def apply (d : Dispatcher) (c : Contract) : RouteDiff × Dispatcher :=
  d.replace (tableOf c) c.generation

end Dispatcher

end EventRouting
