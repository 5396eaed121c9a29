namespace EventRouting

/-- The greatest number of signals held for a stream. -/
def resyncCapacity : Nat := 16

/-- A reader of signals, which has taken all signals before `position`. -/
structure ResyncStream where
  position : Nat
  deriving DecidableEq, Repr

structure ResyncSignal where
  sent : Nat := 0
  closed : Bool := false
  deriving DecidableEq, Repr

namespace ResyncSignal

def trigger (s : ResyncSignal) : ResyncSignal := { s with sent := s.sent + 1 }

/-- A stream of the signals from now on. -/
def stream (s : ResyncSignal) : ResyncStream := ⟨s.sent⟩

/-- The number of items that a stream yields at once: the signals held for it, and one for the gap
if it has fallen behind. -/
def available (s : ResyncSignal) (r : ResyncStream) : Nat :=
  let missed := s.sent - r.position
  if resyncCapacity < missed then resyncCapacity + 1 else missed

/-- Takes all items at hand. Answers their number and whether the stream has ended. -/
def poll (s : ResyncSignal) (r : ResyncStream) : Nat × Bool × ResyncStream :=
  (s.available r, s.closed, ⟨s.sent⟩)

end ResyncSignal

end EventRouting
