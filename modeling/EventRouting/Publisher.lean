import EventRouting.Failure
import EventRouting.Storage.Entry

namespace EventRouting

structure Publisher where
  /-- The generation of the last successful write. -/
  last? : Option Generation := none
  closed : Bool := false
  deriving DecidableEq, Repr

/-- The generation after `g`, which stays at the greatest one. -/
def Generation.next (g : Generation) : Generation :=
  if g = .ofNat (UInt64.size - 1) then g else g + 1

namespace Publisher

/-- A program over storage that fails or yields a result, and leaves a publisher in either case. -/
abbrev Program (α : Type) :=
  ExceptT Failure (StateT Publisher StorageProgram) α

/-- Whether a generation is newer than everything published. -/
def isBehind (p : Publisher) (g : Generation) : Bool :=
  match p.last? with
  | some last => last < g
  | none => true

def written (p : Publisher) (g : Generation) : Publisher := { p with last? := some g }

/-- The generation of the drain: `g`, raised above what was published. -/
def drainGeneration (p : Publisher) (g : Generation) : Generation :=
  match p.last? with
  | some last => max g last.next
  | none => g

def drained (p : Publisher) (g : Generation) : Publisher :=
  { p with last? := some (p.drainGeneration g), closed := true }

def reset (p : Publisher) : Publisher := { p with last? := none }

def write (payload : Payload) : Program Unit := do
  match ← writeEntry payload with
  | .ok () => return
  | .error e => throw (.contract e)

/-- Writes a contract. Nothing is written if its generation was published before. -/
def publish (c : Contract) : Program Bool := do
  let p ← get
  if p.closed then throw (.closed "contract publisher")
  if !p.isBehind c.generation then return false
  write c.encode
  set (p.written c.generation)
  return true

/-- Writes the drain contract and stops publishing. Answers the generation of the drain, or nothing
if the publisher was closed before. -/
def close (g : Generation) : Program (Option Generation) := do
  let p ← get
  if p.closed then return none
  write (Contract.drain (p.drainGeneration g)).encode
  set (p.drained g)
  return some (p.drainGeneration g)

end Publisher

end EventRouting
