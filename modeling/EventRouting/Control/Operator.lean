import EventRouting.Cluster.Server
import EventRouting.Control.Reconcile
import EventRouting.Readiness.Timeline
import EventRouting.Resync

namespace EventRouting

open Json

structure Operator where
  context : ControlContext
  timeline : Timeline
  server : ApiServer := {}
  state : ControlState := {}
  resync : ResyncSignal := {}
  /-- The time as it is written. -/
  now : String
  deriving Repr

namespace Operator

def answer (call : ControlCall) : StateM Operator call.Answer := fun w =>
  match call with
  | .api r =>
    let (reply, server) := w.server.handle r
    (reply, { w with server })
  | .readiness consulted =>
    let (readiness, timeline) := w.timeline.consult consulted
    (readiness, { w with timeline })
  | .retain referenced => ((), { w with timeline := w.timeline.retain referenced })
  | .clock => (w.now, w)

def run {α : Type} (p : ControlProgram α) (w : Operator) : Except Failure α × Operator :=
  let ((r, state), w) := ((p.run.run w.state).foldM answer).run w
  (r, { w with state })

def sync (w : Operator) : Except Failure SyncReport × Operator :=
  w.run (ControlProgram.sync w.context Synchronizer.sync)

def recover (w : Operator) : Except Failure SyncReport × Operator :=
  w.run (ControlProgram.sync w.context Synchronizer.recover)

def close (w : Operator) : Except Failure Bool × Operator :=
  w.run (ControlProgram.sync w.context Synchronizer.close)

/-- Obtains the storage entry and goes on from what it holds. -/
def start (w : Operator) : Except Failure Unit × Operator :=
  let program : ClusterProgram (Except Failure Synchronizer) :=
    Synchronizer.start.interpret fun call => call.inCluster w.context.storage
  let (r, server) := (program.foldM fun r s => s.handle r : StateM ApiServer _).run w.server
  match r with
  | .ok sync => (.ok (), { w with server, state := { w.state with sync } })
  | .error f => (.error f, { w with server })

/-- What reconciling an object came to. -/
inductive Reconciled where
  | done (a : Action)
  | failed (f : Failure) (policy : Action)
  deriving Repr

def reconcile (w : Operator) (m : RoutingManifest) : Reconciled × Operator :=
  match w.run (ControlProgram.reconcile w.context m) with
  | (.ok a, w) => (.done a, w)
  | (.error f, w) =>
    let (n, state) := w.state.countFailure m.key
    (.failed f (f.policy n), { w with state })

/-- An event of the watch on the storage entry. -/
inductive StorageEvent where
  | deleted
  | other
  /-- The watch failed. It goes on after a while. -/
  | failed
  deriving DecidableEq, Repr

namespace StorageEvent

/-- Reads an event of the watch. An object without a version fails the watch. -/
def ofValue (v : Value) : StorageEvent :=
  let version := ((v.at? ["object", "metadata", "resourceVersion"]).bind Value.string?).getD ""
  match (v.at? ["type"]).bind Value.string? with
  | some "DELETED" => if version.isEmpty then .failed else .deleted
  | some "ADDED" | some "MODIFIED" => if version.isEmpty then .failed else .other
  | some "ERROR" => .failed
  | _ => .other

end StorageEvent

/-- Restores a storage entry that was deleted, and makes every controller look again. -/
def restore (w : Operator) : Operator :=
  let (_, w) := w.recover
  { w with resync := w.resync.trigger }

/-- Lists the storage entry and follows the events after it, up to the first failure of the
watch. -/
def watchStorage (w : Operator) (events : List StorageEvent) : Operator :=
  match w.server.list w.context.storage.kind w.context.storage.ns with
  | (.error _, server) => { w with server }
  | (.ok _, server) => (events.takeWhile (· ≠ .failed)).foldl
      (fun w e => match e with
        | .deleted => w.restore
        | .other | .failed => w) { w with server }

end Operator

end EventRouting
