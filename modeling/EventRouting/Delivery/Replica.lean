import EventRouting.Delivery.Routes
import EventRouting.Delivery.Watcher

namespace EventRouting

/-- The notifications of a source: none before it is watched; a stream of them that is read or not,
and that may have ended. -/
structure Changes where
  subscribed : Bool := false
  pending : Nat := 0
  ended : Bool := false
  deriving DecidableEq, Repr

/-- What a replica tells of its work. -/
inductive ReplicaEvent where
  /-- The entry could not be read. -/
  | unreadable
  | missing
  | handled (o : ApplyOutcome)
  | routes (g : Generation) (d : RouteDiff)
  | consumers (g : Generation) (d : RouteDiff)
  deriving DecidableEq, Repr

structure Replica where
  payload? : Option Payload := none
  /-- A burst of changes is told as one. -/
  coalesces : Bool := true
  changes : Changes := {}
  failingSubscriptions : Nat := 0
  failingReads : Nat := 0
  /-- Reads wait. -/
  holding : Bool := false
  watcher : Watcher := {}
  /-- The subscriptions of a receiver and of a dispatcher, which run beside the watcher. -/
  components? : Option (Nat × Nat) := none
  receiver : Receiver := {}
  dispatcher : Dispatcher := {}
  /-- The events so far, in their order. -/
  events : List ReplicaEvent := []
  deriving Repr

namespace Replica

/-- Tells the watcher of a change, if it reads the notifications. -/
def signal (r : Replica) : Replica :=
  if r.changes.subscribed ∧ ¬ r.changes.ended then
    let pending := if r.coalesces then 1 else r.changes.pending + 1
    { r with changes := { r.changes with pending } }
  else r

/-- Whether the loop still reads the notifications. -/
def listens (r : Replica) : Bool :=
  match r.watcher.loop? with
  | some .exited => false
  | _ => true

/-- Ends a read with what the entry holds. -/
def read (r : Replica) : Replica :=
  match r.watcher.loop? with
  | some .reading =>
    let (readout, failingReads) := match r.failingReads, r.payload? with
      | n + 1, _ => (Readout.failed, n)
      | 0, some p => (.payload p, 0)
      | 0, none => (.missing, 0)
    let events := match readout with
      | .failed => [.unreadable]
      | .missing => [.missing]
      | .payload _ => []
    { r with
      failingReads
      watcher := { r.watcher with loop? := some (WatchLoop.receive .reading readout) }
      events := r.events ++ events }
  | _ => r

/-- Hands a notification, or the end of all, to a waiting loop. -/
def deliver (r : Replica) : Replica :=
  match r.watcher.loop? with
  | some .waiting =>
    if r.changes.pending > 0 then
      { r with
        changes := { r.changes with pending := r.changes.pending - 1 }
        watcher := { r.watcher with loop? := some .beginRead } }
    else if r.changes.ended then
      { r with watcher := { r.watcher with loop? := some .leaving } }
    else r
  | _ => r

/-- One move of the loop: by itself, or with what it waits for. -/
def move (r : Replica) : Replica :=
  match r.watcher.loop? with
  | none => r
  | some l =>
    if !l.isBlocked r.watcher then
      let events := match l with
        | .applying (.finished o) => [.handled o]
        | _ => []
      { r with watcher := r.watcher.stepLoop, events := r.events ++ events }
    else if r.holding then r.deliver
    else r.read.deliver

/-- The moves that suffice to read and apply once. -/
def movesPerRead : Nat := 16

/-- Hands a contract to the receiver. -/
def routeBy (r : Replica) (c : Contract) : Replica :=
  let (d, receiver) := Receiver.apply r.receiver c
  { r with receiver, events := r.events ++ [.routes c.generation d] }

/-- Hands a contract to the dispatcher. -/
def dispatchBy (r : Replica) (c : Contract) : Replica :=
  let (d, dispatcher) := Dispatcher.apply r.dispatcher c
  { r with dispatcher, events := r.events ++ [.consumers c.generation d] }

/-- Lets the components take what is queued for them. -/
def drainComponents (r : Replica) : Replica :=
  match r.components? with
  | none => r
  | some (i, j) =>
    let (forReceiver, bus) := r.watcher.bus.takeAll i
    let (forDispatcher, bus) := bus.takeAll j
    let r := { r with watcher := { r.watcher with bus } }
    forDispatcher.foldl dispatchBy (forReceiver.foldl routeBy r)

/-- Runs until nothing is left to do. -/
def settle (r : Replica) : Replica :=
  let moves := movesPerRead * (r.changes.pending + 2)
  ((List.range moves).foldl (fun r _ => r.move) r).drainComponents

def set (r : Replica) (p : Payload) : Replica :=
  let r := { r with payload? := some p }
  if r.coalesces then r.signal else r

def remove (r : Replica) : Replica := { r with payload? := none }.signal

/-- Starts the watcher. -/
def start (r : Replica) : Except StartError Unit × Replica :=
  let changes : Except ContractError Unit :=
    if r.failingSubscriptions = 0 then .ok () else .error (.storage "injected watch failure")
  let (result, watcher) := r.watcher.start changes
  let r := { r with watcher }
  match result with
  | .ok () => (result, { r with changes := { subscribed := true } })
  | .error (.source _) => (result, { r with failingSubscriptions := r.failingSubscriptions - 1 })
  | .error _ => (result, r)

/-- Closes the watcher, while the loop exits. -/
def close (r : Replica) : Bool × Replica :=
  let steps : Close × Watcher := (List.range movesPerRead).foldl
    (fun (c, w) _ => let (c, w) := Close.step c w; (c, w.stepLoop))
    (.enter, r.watcher)
  match steps with
  | (.finished b, watcher) => (b, { r with watcher })
  | (_, watcher) => (false, { r with watcher })

/-- Closes the watcher and then the bus, and lets the components take the drain. -/
def shutdown (r : Replica) : Replica :=
  let (_, r) := r.close
  let (_, bus) := r.watcher.bus.close
  { r with watcher := { r.watcher with bus } }.drainComponents

/-- The events since they were last taken. -/
def takeEvents (r : Replica) : List ReplicaEvent × Replica := (r.events, { r with events := [] })

end Replica

end EventRouting
