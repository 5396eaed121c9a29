import EventRouting.Routing.Fragment
import EventRouting.Table

/-! Merging fragments into a contract. A resource is routed once its address is ready, or when the
current contract routes it already with the same ingress and through the same address. -/

namespace EventRouting

/-- What is known about addresses: which are ready, and how often probes of each failed in a row. -/
structure Readiness where
  ready : Address → Bool
  failures : Address → Nat

structure Pending where
  uid : String
  address : Address
  failures : Nat
  deriving DecidableEq, Repr

structure Detached where
  uid : String
  parent : ParentRef
  deriving DecidableEq, Repr

structure Outcome where
  /-- The next contract, which is the current one if nothing changed. -/
  contract : Contract
  /-- Whether a new generation was minted. -/
  changed : Bool
  pending : List Pending
  detached : List Detached
  /-- The addresses of all fragments, admitted or not. -/
  referenced : List Address
  /-- The address through which each resource of the contract was admitted. -/
  admitted : Table String Address
  deriving DecidableEq, Repr

namespace Outcome

def pending? (o : Outcome) (uid : String) : Option Pending := o.pending.find? (·.uid == uid)

def detached? (o : Outcome) (uid : String) : Option Detached := o.detached.find? (·.uid == uid)

end Outcome

namespace Build

/-- Of two fragments with one uid the one observed later wins, and of two observed at once the one
that comes later. -/
def supersede (t : Table String Fragment) (f : Fragment) : Table String Fragment :=
  match t.get? f.uid with
  | some e => if e.observedAt.le f.observedAt then t.insert f.uid f else t
  | none => t.insert f.uid f

/-- The fragment that wins for each uid. -/
def winners (fragments : List Fragment) : List Fragment :=
  (fragments.foldl supersede []).map Prod.snd

def resources (fragments : List Fragment) : List (Resource × Address) :=
  fragments.filterMap fun f =>
    match f.contribution with
    | .resource r a => some (r, a)
    | .egress _ _ => none

def egresses (fragments : List Fragment) : List (ParentRef × Egress) :=
  fragments.filterMap fun f =>
    match f.contribution with
    | .resource _ _ => none
    | .egress p e => some (p, e)

/-- Routed already with the same ingress and through the same address. A resource that was not
admitted through any known address keeps its route under whatever address it has now. -/
def isCarried (current : Contract) (admitted : Table String Address) (r : Resource) (a : Address) :
    Bool :=
  (current.resource? r.uid).any (·.ingress? == r.ingress?)
    && (admitted.get? r.uid).all (· == a)

/-- The addresses whose readiness decides. -/
def consulted (fragments : List Fragment) (current : Contract) (admitted : Table String Address) :
    List Address :=
  ((resources (winners fragments)).filter fun (r, a) =>
    !isCarried current admitted r a).map Prod.snd

def sortByUid {α : Type} (uid : α → String) (l : List α) : List α :=
  l.mergeSort fun a b => decide (uid a ≤ uid b)

/-- The resources with their subscribers. A subscriber goes to the first resource that its parent
reference matches. -/
def attach (resources : List Resource) (egresses : List (ParentRef × Egress)) : List Resource :=
  resources.zipIdx.map fun (r, i) =>
    let own := egresses.filter fun (p, _) =>
      resources.findIdx? (p.matches ·.reference) == some i
    { r with egresses := sortByUid (·.uid) (r.egresses ++ own.map Prod.snd) }

def isDetached (resources : List Resource) (p : ParentRef) : Bool :=
  !resources.any (p.matches ·.reference)

/-- What the fragments that win make of a contract. They are met in the order of the list. -/
def outcome (readiness : Readiness) (fragments : List Fragment) (current : Contract)
    (admitted : Table String Address) : Outcome :=
  let admissible := fun (r, a) => isCarried current admitted r a || readiness.ready a
  let all := resources fragments
  let routed := all.filter admissible
  let waiting := all.filter fun ra => !admissible ra
  let subscribers := egresses fragments
  let routes := routed.map Prod.fst
  let content := sortByUid (·.uid) (attach routes subscribers)
  let changed := content != current.resources
  { contract := if changed then ⟨current.generation + 1, content⟩ else current
    changed
    pending := sortByUid (·.uid) (waiting.map fun (r, a) => ⟨r.uid, a, readiness.failures a⟩)
    detached := sortByUid (·.uid)
      ((subscribers.filter fun (p, _) => isDetached routes p).map fun (p, e) => ⟨e.uid, p⟩)
    referenced := (all.map Prod.snd).eraseDups
    admitted := .ofList (routed.map fun (r, a) => (r.uid, a)) }

end Build

def build (readiness : Readiness) (fragments : List Fragment) (current : Contract)
    (admitted : Table String Address) : Outcome :=
  Build.outcome readiness (Build.winners fragments) current admitted

/-- Where a uid stands after a build. -/
inductive RouteState where
  | routed
  | pending (failures : Nat)
  | detached
  | unknown
  deriving DecidableEq, Repr

def Contract.routes (c : Contract) (uid : String) : Bool :=
  (c.resource? uid).isSome || c.resources.any (·.egresses.any (·.uid == uid))

def Outcome.state (o : Outcome) (uid : String) : RouteState :=
  match o.pending? uid with
  | some p => .pending p.failures
  | none =>
    if (o.detached? uid).isSome then .detached
    else if o.contract.routes uid then .routed
    else .unknown

end EventRouting
