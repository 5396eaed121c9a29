import EventRouting.Contract.Basic

namespace EventRouting

structure Subscription where
  queue : List Contract := []
  /-- The bus still sends to it. -/
  attached : Bool
  /-- The subscriber still reads from it. -/
  held : Bool := true
  deriving DecidableEq, Repr

structure Bus where
  address : String := "contract.updates"
  last? : Option Generation := none
  closed : Bool := false
  /-- All subscriptions ever made, in their order. -/
  subscriptions : List Subscription := []
  deriving DecidableEq, Repr

/-- What a subscription gives without waiting. -/
inductive Receipt where
  | contract (c : Contract)
  | nothingYet
  | ended
  deriving DecidableEq, Repr

namespace Subscription

/-- Puts a contract into the queue, or detaches a subscription that nobody reads. -/
def send (s : Subscription) (c : Contract) : Subscription :=
  if !s.attached then s
  else if s.held then { s with queue := s.queue ++ [c] }
  else { s with attached := false }

def detach (s : Subscription) : Subscription := { s with attached := false }

def receive (s : Subscription) : Receipt × Subscription :=
  match s.queue with
  | c :: queue => (.contract c, { s with queue })
  | [] => (if s.attached then .nothingYet else .ended, s)

end Subscription

namespace Bus

/-- A subscription to what is published from now on. On a closed bus it ends at once. -/
def subscribe (b : Bus) : Bus :=
  { b with subscriptions := b.subscriptions ++ [{ attached := !b.closed }] }

/-- Whether a contract goes out: the bus is open, and the generation is newer than all before. -/
def accepts (b : Bus) (c : Contract) : Bool := !b.closed && b.last?.all (· < c.generation)

def publish (b : Bus) (c : Contract) : Bool × Bus :=
  if b.accepts c then
    (true, { b with
      last? := some c.generation
      subscriptions := b.subscriptions.map (·.send c) })
  else (false, b)

/-- The generation of the drain: the one after the last, or 0. -/
def drainGeneration (b : Bus) : Generation := (b.last?.map (· + 1)).getD 0

/-- Answers whether this call closed the bus. -/
def close (b : Bus) : Bool × Bus :=
  if b.closed then (false, b)
  else
    (true, { b with
      last? := some b.drainGeneration
      closed := true
      subscriptions := b.subscriptions.map fun s => (s.send (.drain b.drainGeneration)).detach })

def receive (b : Bus) (i : Nat) : Receipt × Bus :=
  match b.subscriptions[i]? with
  | some s =>
    let (r, s) := s.receive
    (r, { b with subscriptions := b.subscriptions.set i s })
  | none => (.ended, b)

/-- Drops the reading side of a subscription. -/
def drop (b : Bus) (i : Nat) : Bus :=
  { b with subscriptions := b.subscriptions.modify i fun s => { s with held := false } }

/-- The contracts queued for a subscription, which are thereby received. -/
def takeAll (b : Bus) (i : Nat) : List Contract × Bus :=
  (((b.subscriptions[i]?).map (·.queue)).getD [],
    { b with subscriptions := b.subscriptions.modify i fun s => { s with queue := [] } })

def subscriberCount (b : Bus) : Nat := (b.subscriptions.filter (·.attached)).length

end Bus

end EventRouting
