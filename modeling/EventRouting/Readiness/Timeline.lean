import EventRouting.Readiness.Prober

namespace EventRouting

/-- How an address answers: after a delay, ready or not, or never. -/
structure Behaviour where
  ready : Bool := false
  delay : Nat := 0
  hangs : Bool := false
  deriving DecidableEq, Repr

/-- When a loop goes on, and what its probe answers then. -/
structure Plan where
  due : Nat
  ready : Bool := false
  deriving DecidableEq, Repr

structure Timeline where
  now : Nat := 0
  probing : Probing
  network : Table Address Behaviour := []
  /-- The number of trust roots under which TLS addresses answer. -/
  acceptRoots : Nat := 0
  plans : Table Token Plan := []
  /-- The probes made, with the number of trust roots for TLS addresses. -/
  probes : List (Address × Option Nat) := []
  deriving DecidableEq, Repr

namespace Timeline

def prober (t : Timeline) : Prober := t.probing.prober

/-- The age of results is not counted on this clock: they never grow older. -/
def event (t : Timeline) (e : ProbeEvent) : Timeline := { t with probing := t.probing.step 0 e }

/-- Answers what is known about addresses; their probes begin where they are due. -/
def consult (t : Timeline) (addresses : List Address) : Readiness × Timeline :=
  (t.prober.readiness, addresses.foldl (fun t a => t.event (.ask a)) t)

/-- Drops what is known about all other addresses. -/
def retain (t : Timeline) (referenced : List Address) : Timeline := t.event (.retain referenced)

/-- Replaces the trust roots with nothing at hand to run the new loops. -/
def rotateIdle (t : Timeline) (roots : TrustRoots) : Timeline :=
  let (loops, prober) := t.prober.rotate roots
  { t with probing := { t.probing with prober := prober.release (loops.map Prod.fst) } }

/-- The probes made, each with the number of trust roots if they mattered. -/
def probeLabels (t : Timeline) : List String :=
  t.probes.map fun (a, roots?) => a.url ++ (roots?.map fun n => s!"#{n}").getD ""

/-- Forgets which probes were made and what became ready. -/
def forget (t : Timeline) : Timeline :=
  { t with probes := [], probing := { t.probing with announced := [] } }

/-- The milliseconds of a span, a part of one counted in full. -/
def millisUp (s : Span) : Nat := (s + 999999) / 1000000

/-- When the probe of an address ends and with which result. -/
def plan (t : Timeline) (a : Address) (roots : TrustRoots) : Plan :=
  let behaviour := (t.network.get? a).getD {}
  let timeout := millisUp t.prober.settings.timeout
  if behaviour.hangs ∨ timeout < behaviour.delay then ⟨t.now + timeout, false⟩
  else ⟨t.now + behaviour.delay, behaviour.ready && (!a.tls || roots.count == t.acceptRoots)⟩

def isDue (t : Timeline) (token : Token) : Bool := (t.plans.get? token).any (·.due ≤ t.now)

/-- A loop whose probe has ended writes the result, and sleeps if there is a retry. -/
def answerDue (t : Timeline) (token : Token) : Timeline :=
  match t.probing.loops.get? token, t.plans.get? token with
  | some ⟨_, .probing _⟩, some plan =>
    if plan.due ≤ t.now then
      let t := t.event (.answer token plan.ready)
      match t.probing.loops.get? token with
      | some ⟨_, .sleeping delay⟩ =>
        { t with plans := t.plans.insert token ⟨t.now + millisUp delay, false⟩ }
      | _ => { t with plans := t.plans.erase token }
    else t
  | _, _ => t

def wakeDue (t : Timeline) (token : Token) : Timeline :=
  match t.probing.loops.get? token with
  | some ⟨_, .sleeping _⟩ => if t.isDue token then t.event (.wake token) else t
  | _ => t

/-- A starting loop begins its probe. -/
def startProbe (t : Timeline) (token : Token) : Timeline :=
  match t.probing.loops.get? token with
  | some ⟨_, .starting⟩ =>
    let t := t.event (.start token)
    match t.probing.loops.get? token with
    | some ⟨a, .probing roots⟩ =>
      { t with
        plans := t.plans.insert token (t.plan a roots)
        probes := t.probes ++ [(a, if a.tls then some roots.count else none)] }
    | _ => { t with plans := t.plans.erase token }
  | _ => t

def settleLoop (t : Timeline) (token : Token) : Timeline :=
  (((t.answerDue token).wakeDue token).startProbe token).answerDue token

/-- Lets every loop do what it can do without time passing. -/
def settle (t : Timeline) : Timeline := t.probing.loops.keys.foldl settleLoop t

/-- The next moment after now at which a loop goes on. -/
def nextDue? (t : Timeline) : Option Nat :=
  ((t.plans.map (·.2.due)).filter (t.now < ·)).min?

/-- Lets time pass for a timeline where nothing is left to do now. -/
def pass (t : Timeline) (ms : Nat) : Timeline :=
  match t.nextDue? with
  | some due =>
    if _h : t.now < due ∧ due ≤ t.now + ms then
      ({ t with now := due }.settle).pass (t.now + ms - due)
    else { t with now := t.now + ms }
  | none => { t with now := t.now + ms }
termination_by ms

/-- Lets time pass. -/
def advance (t : Timeline) (ms : Nat) : Timeline := t.settle.pass ms

end Timeline

end EventRouting
