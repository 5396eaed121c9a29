import EventRouting.Contract.Basic

namespace EventRouting

/-- The current contract, and how many contracts were installed before it. -/
structure Store where
  version : Nat := 0
  current : Contract := {}
  deriving DecidableEq, Repr, Inhabited

/-- Where one attempt to advance the store stands. -/
inductive Advance where
  | start (candidate : Contract)
  /-- The store is seen to hold a contract at a version. -/
  | loaded (candidate : Contract) (seen : Store)
  | finished (applied : Bool)
  deriving DecidableEq, Repr

namespace Store

/-- Installs a contract unless another one was installed since `seen`. -/
def compareAndSwap (s seen : Store) (candidate : Contract) : Store :=
  if s.version = seen.version then ⟨s.version + 1, candidate⟩ else s

/-- An attempt that has seen the store either gives up or goes for the exchange. -/
def judge (candidate : Contract) (seen : Store) : Advance :=
  if candidate.generation ≤ seen.current.generation then .finished false
  else .loaded candidate seen

/-- One atomic step of an attempt: a load or an exchange. An exchange that fails sees what won. -/
def step (s : Store) : Advance → Advance × Store
  | .start candidate => (judge candidate s, s)
  | .loaded candidate seen =>
    if s.version = seen.version then (.finished true, s.compareAndSwap seen candidate)
    else (judge candidate s, s)
  | .finished applied => (.finished applied, s)

/-- Advances the store to a contract of a greater generation. -/
def tryAdvance (s : Store) (candidate : Contract) : Bool × Store :=
  match s.step (.start candidate) with
  | (.finished applied, s) => (applied, s)
  | (a, s) =>
    match s.step a with
    | (.finished applied, s) => (applied, s)
    | (_, s) => (false, s)

end Store

end EventRouting
