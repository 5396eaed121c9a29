import EventRouting.Control.Operator

/-! All controllers at work, as time passes. Every object has at most one moment at which it is next
looked at. -/

namespace EventRouting

open Json

structure Runner where
  operator : Operator
  /-- The one namespace to look at, if there is one. -/
  ns? : Option String := none
  /-- When to look at objects next, in milliseconds. -/
  queue : Table ObjectRef Nat := []
  deriving Repr

namespace Runner

def now (r : Runner) : Nat := r.operator.timeline.now

def objects (r : Runner) : Table ObjectRef Value := r.operator.server.objects

/-- Whether a controller looks at an object. -/
def watches (r : Runner) (o : ObjectRef) : Bool :=
  (match o.kind with
    | .routing _ => true
    | .configMap | .consumerGroup => false) && r.ns?.all (· == o.ns)

/-- Looks at an object at a moment, if it would not be looked at before. -/
def request (r : Runner) (due : Nat) (o : ObjectRef) : Runner :=
  if r.watches o then
    { r with queue := r.queue.insert o (((r.queue.get? o).map (min due)).getD due) }
  else r

def requestAll (r : Runner) : Runner :=
  r.objects.keys.foldl (fun r o => r.request r.now o) r

/-- The triggers of a broker. -/
def triggersOf (r : Runner) (broker : ObjectRef) : List ObjectRef :=
  (r.objects.filter fun (o, v) =>
    o.kind = .routing .trigger ∧ o.ns = broker.ns
      ∧ v.at? ["spec", "broker"] = some (.string broker.name)).map Prod.fst

/-- An object was written or removed. -/
def noticed (r : Runner) (o : ObjectRef) : Runner :=
  let r := if r.objects.contains o then r.request r.now o else r
  if o.kind = .routing .broker ∧ r.watches o then
    (r.triggersOf o).foldl (fun r t => r.request r.now t) r
  else r

/-- The object that a request has written. -/
def written? : ApiRequest × Nat → Option ObjectRef
  | (.get _, _) => none
  | (.create o _, code) | (.delete o, code) | (.apply o _, code) | (.merge o _, code)
  | (.mergeStatus o _, code) | (.patch o _, code) => if code < 300 then some o else none

/-- Takes notice of all that was written since this was last done. -/
def notice (r : Runner) : Runner :=
  let written := r.operator.server.log.filterMap written?
  let server := { r.operator.server with log := [] }
  written.foldl noticed { r with operator := { r.operator with server } }

/-- Takes notice of addresses that became ready. -/
def noticeReady (r : Runner) : Runner :=
  if r.operator.timeline.probing.announced.isEmpty then r
  else
    let w := r.operator
    let operator := { w with timeline := w.timeline.forget, resync := w.resync.trigger }
    { r with operator }.requestAll

/-- When to look at an object again. -/
def followUp (r : Runner) (o : ObjectRef) : Action → Runner
  | .awaitChange => r
  | .requeue after => r.request (r.now + after.millis) o

/-- Looks at an object. -/
def visit (r : Runner) (o : ObjectRef) : Runner :=
  let r := { r with queue := r.queue.erase o }
  match o.kind, r.objects.get? o with
  | .routing k, some v => match RoutingManifest.ofValue k v with
    | .ok m =>
      let (result, operator) := r.operator.reconcile m
      let r := { r with operator }.notice
      match result with
      | .done action | .failed _ action => r.followUp o action
    | .error _ => r
  | _, _ => r

/-- One move: the probers do what they can, and the first object that is due is looked at. -/
def move (r : Runner) : Runner :=
  let w := r.operator
  let r := { r with operator := { w with timeline := w.timeline.settle } }.noticeReady
  match r.queue.find? (·.2 ≤ r.now) with
  | some (o, _) => r.visit o
  | none => r

/-- The number of times that objects are looked at before they are taken to be settled. -/
def visitsPerObject : Nat := 32

/-- Does everything that can be done without time passing. -/
def settle (r : Runner) : Runner :=
  (List.range (visitsPerObject * (r.objects.length + 1))).foldl (fun r _ => r.move) r

/-- The next moment after now at which something is due. -/
def nextDue? (r : Runner) : Option Nat :=
  (r.operator.timeline.nextDue?.toList ++ (r.queue.map Prod.snd).filter (r.now < ·)).min?

def atTime (r : Runner) (now : Nat) : Runner :=
  { r with operator := { r.operator with timeline := { r.operator.timeline with now } } }

/-- Lets time pass where nothing is left to do now. -/
def pass (r : Runner) (ms : Nat) : Runner :=
  match r.nextDue? with
  | some due =>
    if _h : r.now < due ∧ due ≤ r.now + ms then (r.atTime due).settle.pass (r.now + ms - due)
    else r.atTime (r.now + ms)
  | none => r.atTime (r.now + ms)
termination_by ms

/-- Lets time pass. -/
def advance (r : Runner) (ms : Nat) : Runner := r.notice.settle.pass ms

end Runner

end EventRouting
