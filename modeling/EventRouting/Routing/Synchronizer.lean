import EventRouting.Contract.Salvage
import EventRouting.Contract.Store
import EventRouting.Publisher
import EventRouting.Routing.Build

namespace EventRouting

structure Synchronizer where
  store : Store := {}
  publisher : Publisher := {}
  fragments : Table String Fragment := []
  /-- The addresses through which the resources of the current contract were admitted. -/
  admitted : Table String Address := []
  deriving DecidableEq, Repr

structure SyncReport where
  /-- The generation of the store. -/
  generation : Generation
  /-- Whether the build minted a new generation. -/
  changed : Bool
  /-- Whether anything was written to storage. -/
  published : Bool
  outcome : Outcome
  deriving Repr

inductive SyncCall where
  | storage (call : StorageCall)
  /-- Asks for the readiness of addresses, whose probes begin where they are due. -/
  | readiness (consulted : List Address)
  /-- Tells which addresses fragments refer to. -/
  | retain (referenced : List Address)

abbrev SyncCall.Answer : SyncCall → Type
  | .storage call => call.Answer
  | .readiness _ => Readiness
  | .retain _ => Unit

namespace Synchronizer

/-- A program that fails or yields a result, and leaves a synchronizer in either case. -/
abbrev Program (α : Type) :=
  ExceptT Failure (StateT Synchronizer (Dialogue SyncCall SyncCall.Answer)) α

/-- The synchronizer that goes on from a storage entry. After a payload that does not decode,
numbering continues where its generation is still legible. -/
def seed (payload? : Option Payload) : Synchronizer :=
  match payload? with
  | none => {}
  | some p =>
    match Contract.decode p with
    | .ok c => { store := { current := c }, publisher := { last? := some c.generation } }
    | .error _ =>
      match salvageGeneration? p with
      | some g => { store := { current := .drain g.next }, publisher := { last? := some g } }
      | none => {}

def current (s : Synchronizer) : Contract := s.store.current

def upsert (s : Synchronizer) (key : String) (f : Fragment) : Synchronizer :=
  { s with fragments := s.fragments.insert key f }

def remove (s : Synchronizer) (key : String) : Synchronizer :=
  { s with fragments := s.fragments.erase key }

def fragmentList (s : Synchronizer) : List Fragment := s.fragments.map Prod.snd

/-- The addresses whose readiness the next build needs. -/
def consulted (s : Synchronizer) : List Address :=
  Build.consulted s.fragmentList s.current s.admitted

def build (s : Synchronizer) (r : Readiness) : Outcome :=
  EventRouting.build r s.fragmentList s.current s.admitted

/-- Takes the outcome of a build over. -/
def accept (s : Synchronizer) (o : Outcome) : Synchronizer :=
  if o.changed then
    match s.store.tryAdvance o.contract with
    | (true, store) => { s with store, admitted := o.admitted }
    | (false, store) => { s with store }
  else { s with admitted := o.admitted }

/-- Whether the current contract is yet to be published. -/
def isBehind (s : Synchronizer) : Bool :=
  match s.publisher.last? with
  | some last => last < s.current.generation
  | none => 0 < s.current.generation

/-- The generation of a drain: the next one after both the store and the last publication. -/
def drainGeneration (s : Synchronizer) : Generation :=
  (max s.current.generation (s.publisher.last?.getD 0)).next

/-- Takes over that the drain of a generation was published. -/
def drained (s : Synchronizer) (g : Generation) : Synchronizer :=
  { s with store := (s.store.tryAdvance (.drain g)).2 }

def ask (call : SyncCall) : Program call.Answer :=
  ((Dialogue.put call : Dialogue SyncCall SyncCall.Answer _) :)

def publisherProgram {α : Type} (p : Publisher.Program α) : Program α := fun s => do
  let (a, publisher) ← (p.run.run s.publisher).interpret fun call =>
    (Dialogue.put (SyncCall.storage call) : Dialogue SyncCall SyncCall.Answer _)
  return (a, { s with publisher })

def start : StorageProgram (Except Failure Synchronizer) := do
  match ← obtainEntry with
  | .ok payload? => return .ok (seed payload?)
  | .error e => return .error (.contract e)

/-- Builds from the fragments, advances the store and publishes. -/
def sync : Program SyncReport := do
  let s ← get
  let outcome := s.build (← ask (.readiness s.consulted))
  ask (.retain outcome.referenced)
  modify (·.accept outcome)
  let s ← get
  let published ← if s.isBehind then publisherProgram (Publisher.publish s.current) else pure false
  return { generation := s.current.generation, changed := outcome.changed, published, outcome }

/-- Creates the storage entry anew and forgets what was published into the former one. -/
def reopen : Program Unit := do
  match ← ask (.storage .obtain) with
  | .ok _ => modify fun s => { s with publisher := s.publisher.reset }
  | .error e => throw (.contract e)

/-- Restores a storage entry that was deleted. -/
def recover : Program SyncReport := do
  reopen
  sync

/-- Publishes the drain contract. Answers whether this call did. -/
def close : Program Bool := do
  let s ← get
  if s.publisher.closed then return false
  match ← publisherProgram (Publisher.close s.drainGeneration) with
  | some g => modify (·.drained g); return true
  | none => return false

end Synchronizer

end EventRouting
