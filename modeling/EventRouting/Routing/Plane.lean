import EventRouting.Readiness.Timeline
import EventRouting.Routing.Synchronizer

namespace EventRouting

structure Plane where
  timeline : Timeline
  entry : Entry := {}
  sync : Synchronizer := {}
  deriving Repr

namespace Plane

def answer (call : SyncCall) : StateM Plane call.Answer := fun w =>
  match call with
  | .storage call =>
    let (a, entry) := (Entry.answer call).run w.entry
    (a, { w with entry })
  | .readiness consulted =>
    let (a, timeline) := w.timeline.consult consulted
    (a, { w with timeline })
  | .retain referenced => ((), { w with timeline := w.timeline.retain referenced })

def run {α : Type} (p : Synchronizer.Program α) (w : Plane) : Except Failure α × Plane :=
  let ((r, sync), w) := ((p.run.run w.sync).foldM answer).run w
  (r, { w with sync })

/-- Starts the synchronizer from the storage entry. -/
def start (w : Plane) : Except Failure Plane :=
  match (Synchronizer.start.foldM Entry.answer).run w.entry with
  | (.ok sync, entry) => .ok { w with sync, entry }
  | (.error e, _) => .error e

end Plane

end EventRouting
