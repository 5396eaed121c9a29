import EventRouting.Contract.Codec
import EventRouting.Delivery.Bus

/-! The watcher of a data-plane process. Its operations run at the same time, so each is given as a
sequence of atomic steps on the shared state. -/

namespace EventRouting

inductive WatchPhase where
  | idle
  | reading
  | applying
  deriving DecidableEq, Repr

inductive ApplyOutcome where
  | applied (g : Generation)
  /-- The generation was not newer than the last one. -/
  | unchanged (g : Generation)
  /-- The payload did not decode. -/
  | rejected
  | closed
  deriving DecidableEq, Repr

/-- Where the handling of a payload stands. -/
inductive Apply where
  | enter (p : Payload)
  | decode (p : Payload)
  /-- Waiting for the lock on the last generation. -/
  | acquire (c : Contract)
  /-- Holding the lock. -/
  | locked (c : Contract)
  /-- Holding the lock, after the watcher was seen open. -/
  | compare (c : Contract)
  | publish (c : Contract) (before : WatchPhase)
  | restorePhase (g : Generation) (before : WatchPhase)
  | finished (o : ApplyOutcome)
  deriving DecidableEq, Repr

/-- Where the watch loop stands. -/
inductive WatchLoop where
  | beginRead
  | reading
  | applying (a : Apply)
  | endRead
  /-- Waiting for a change. -/
  | waiting
  | leaving
  | exited
  deriving DecidableEq, Repr

/-- The state that all operations share. -/
structure Watcher where
  bus : Bus := {}
  last? : Option Generation := none
  /-- Somebody holds the lock on the last generation. -/
  locked : Bool := false
  phase : WatchPhase := .idle
  closed : Bool := false
  started : Bool := false
  cancelled : Bool := false
  /-- The loop, once it was spawned. -/
  loop? : Option WatchLoop := none
  /-- The handle of the loop, for `Close` to wait for. -/
  hasHandle : Bool := false
  deriving DecidableEq, Repr

namespace Apply

/-- One atomic step. Whoever needs the lock stays until it is free. -/
def step (a : Apply) (w : Watcher) : Apply × Watcher :=
  match a with
  | .enter p => (if w.closed then .finished .closed else .decode p, w)
  | .decode p =>
    match Contract.decode p with
    | .ok c => (.acquire c, w)
    | .error _ => (.finished .rejected, w)
  | .acquire c => if w.locked then (.acquire c, w) else (.locked c, { w with locked := true })
  | .locked c =>
    if w.closed then (.finished .closed, { w with locked := false }) else (.compare c, w)
  | .compare c =>
    if w.last?.all (· < c.generation) then (.publish c w.phase, { w with phase := .applying })
    else (.finished (.unchanged c.generation), { w with locked := false })
  | .publish c before =>
    (.restorePhase c.generation before,
      { w with last? := some c.generation, bus := (w.bus.publish c).2 })
  | .restorePhase g before => (.finished (.applied g), { w with phase := before, locked := false })
  | .finished o => (.finished o, w)

/-- The greatest number of steps, if the lock is free. -/
def maxSteps : Nat := 7

/-- Handles a payload to the end, while nobody else does anything. -/
def run (p : Payload) (w : Watcher) : Apply × Watcher :=
  (List.range maxSteps).foldl (fun (a, w) _ => a.step w) (.enter p, w)

end Apply

def Watcher.onStorageChange (w : Watcher) (p : Payload) : ApplyOutcome × Watcher :=
  match Apply.run p w with
  | (.finished o, w) => (o, w)
  | (_, w) => (.closed, w)

/-- What a read of the source brings. -/
inductive Readout where
  | payload (p : Payload)
  | missing
  | failed
  deriving DecidableEq, Repr

namespace WatchLoop

/-- One atomic step of the loop by itself. While it reads or waits, it goes on only if it is
cancelled. -/
def step (l : WatchLoop) (w : Watcher) : WatchLoop × Watcher :=
  match l with
  | .beginRead => (.reading, { w with phase := .reading })
  | .reading => (if w.cancelled then .endRead else .reading, w)
  | .applying (.finished _) => (.endRead, w)
  | .applying a => let (a, w) := a.step w; (.applying a, w)
  | .endRead => (.waiting, { w with phase := .idle })
  | .waiting => (if w.cancelled then .leaving else .waiting, w)
  | .leaving => (.exited, { w with phase := .idle })
  | .exited => (.exited, w)

/-- The read ends. -/
def receive (l : WatchLoop) (r : Readout) : WatchLoop :=
  match l, r with
  | .reading, .payload p => .applying (.enter p)
  | .reading, .missing | .reading, .failed => .endRead
  | l, _ => l

/-- The source has changed. -/
def notify : WatchLoop → WatchLoop
  | .waiting => .beginRead
  | l => l

/-- The changes have ended. -/
def endChanges : WatchLoop → WatchLoop
  | .waiting => .leaving
  | l => l

/-- Whether the loop can do nothing by itself. -/
def isBlocked (l : WatchLoop) (w : Watcher) : Bool :=
  match l with
  | .reading | .waiting => !w.cancelled
  | .exited => true
  | _ => false

end WatchLoop

/-- A step of the spawned loop. -/
def Watcher.stepLoop (w : Watcher) : Watcher :=
  match w.loop? with
  | some l => let (l, w) := l.step w; { w with loop? := some l }
  | none => w

inductive StartError where
  | alreadyStarted
  | closed
  /-- The source could not be watched. -/
  | source (e : ContractError)
  deriving DecidableEq, Repr

/-- A mistake of the caller, which another attempt cannot mend. -/
def StartError.isViolation : StartError → Bool
  | .alreadyStarted | .closed => true
  | .source _ => false

/-- Where a call to start the loop stands. -/
inductive Start where
  | enter
  | checkStarted
  | subscribe
  | claim
  | spawn
  | keepHandle
  | finished (r : Except StartError Unit)

/-- One atomic step. `changes` is what the source answers to the subscription. -/
def Start.step (s : Start) (changes : Except ContractError Unit) (w : Watcher) : Start × Watcher :=
  match s with
  | .enter => (if w.closed then .finished (.error .closed) else .checkStarted, w)
  | .checkStarted => (if w.started then .finished (.error .alreadyStarted) else .subscribe, w)
  | .subscribe =>
    match changes with
    | .ok () => (.claim, w)
    | .error e => (.finished (.error (.source e)), w)
  | .claim =>
    if w.started then (.finished (.error .alreadyStarted), w)
    else (.spawn, { w with started := true })
  | .spawn => (.keepHandle, { w with loop? := some .beginRead })
  | .keepHandle => (.finished (.ok ()), { w with hasHandle := true })
  | .finished r => (.finished r, w)

/-- Starts the loop, while nobody else does anything. -/
def Watcher.start (w : Watcher) (changes : Except ContractError Unit) :
    Except StartError Unit × Watcher :=
  let steps : Start × Watcher :=
    (List.range 6).foldl (fun (s, w) _ => Start.step s changes w) (.enter, w)
  match steps with
  | (.finished r, w) => (r, w)
  | (_, w) => (.error .closed, w)

/-- Where a call to close the watcher stands. -/
inductive Close where
  | enter
  /-- Waiting until whoever holds the lock has released it. -/
  | barrier
  | cancel
  | takeHandle
  /-- Waiting for the loop to exit. -/
  | join
  | finished (closedNow : Bool)
  deriving DecidableEq, Repr

def Close.step (c : Close) (w : Watcher) : Close × Watcher :=
  match c with
  | .enter => if w.closed then (.finished false, w) else (.barrier, { w with closed := true })
  | .barrier => (if w.locked then .barrier else .cancel, w)
  | .cancel => (.takeHandle, { w with cancelled := true })
  | .takeHandle => (if w.hasHandle then .join else .finished true, { w with hasHandle := false })
  | .join => (if w.loop? = some .exited then .finished true else .join, w)
  | .finished b => (.finished b, w)

end EventRouting
