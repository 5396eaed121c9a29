import EventRouting.Readiness.Trust
import EventRouting.Routing.Build

/-! The readiness cache. The token in an entry names the one loop that may write to it, so that a
loop whose entry was dropped or reset changes nothing. -/

namespace EventRouting

inductive ProbeStatus where
  | ready
  | notReady
  /-- Never probed, or reset when the trust roots changed. -/
  | unknown
  deriving DecidableEq, Repr

def ProbeStatus.name : ProbeStatus → String
  | .ready => "ready"
  | .notReady => "not_ready"
  | .unknown => "unknown"

abbrev Token := Nat

structure ProbeEntry where
  status : ProbeStatus := .unknown
  checkedAt? : Option Span := none
  /-- Failed probes in a row. -/
  failures : Nat := 0
  /-- The loop that owns the entry, if one runs. -/
  owner? : Option Token := none
  deriving DecidableEq, Repr

/-- The count of failures stays at the greatest one. -/
def maxFailures : Nat := 4294967295

structure Prober where
  settings : ProbeSettings
  roots : TrustRoots
  /-- How often the trust roots were replaced. -/
  epoch : Nat := 0
  lastToken : Token := 0
  entries : Table Address ProbeEntry := []
  deriving DecidableEq, Repr

/-- What a probe's result leads to. -/
inductive ProbeOutcome where
  | ready (becameReady : Bool)
  | retry (after : Span)
  deriving DecidableEq, Repr

namespace Prober

def entry? (p : Prober) (a : Address) : Option ProbeEntry := p.entries.get? a

def status (p : Prober) (a : Address) : ProbeStatus := ((p.entry? a).map (·.status)).getD .unknown

def failures (p : Prober) (a : Address) : Nat := ((p.entry? a).map (·.failures)).getD 0

def isReady (p : Prober) (a : Address) : Bool := p.status a = .ready

def readiness (p : Prober) : Readiness := ⟨p.isReady, p.failures⟩

/-- Whether an entry should be probed again. -/
def needsProbe (p : Prober) (now : Span) (e : ProbeEntry) : Bool :=
  match e.status with
  | .ready => e.checkedAt?.all fun t => p.settings.refresh ≤ now - t
  | .notReady | .unknown => true

/-- Hands the entry of an address to a new loop. -/
def claim (p : Prober) (a : Address) : Token × Prober :=
  let token := p.lastToken + 1
  let e := (p.entry? a).getD {}
  (token, { p with
    lastToken := token
    entries := p.entries.insert a { e with owner? := some token } })

/-- The loop that asking for an address starts, if no loop runs and a probe is due. -/
def request (p : Prober) (now : Span) (a : Address) : Option Token × Prober :=
  match p.entry? a with
  | some e =>
    if e.owner?.isSome || !p.needsProbe now e then (none, p)
    else let (token, p) := p.claim a; (some token, p)
  | none => let (token, p) := p.claim a; (some token, p)

/-- Resets the entry of an address and hands it to a new loop. -/
def reset (p : Prober) (a : Address) : Token × Prober :=
  { p with entries := p.entries.insert a {} }.claim a

/-- Replaces the trust roots. All that is known about TLS addresses is forgotten, and new loops
probe them. -/
def rotate (p : Prober) (roots : TrustRoots) : List (Address × Token) × Prober :=
  (p.entries.keys.filter (·.tls)).foldl
    (fun (loops, p) a => let (token, p) := p.reset a; (loops ++ [(a, token)], p))
    ([], { p with roots, epoch := p.epoch + 1 })

/-- Leaves entries without a loop, for want of anything to run one. -/
def release (p : Prober) (addresses : List Address) : Prober :=
  { p with
    entries := p.entries.map fun (a, e) =>
      (a, if addresses.contains a then { e with owner? := none } else e) }

/-- Drops the entries of all other addresses. -/
def retain (p : Prober) (referenced : List Address) : Prober :=
  { p with entries := p.entries.filter fun (a, _) => referenced.contains a }

def tracked (p : Prober) : Nat := p.entries.length

/-- A short text about the cache. -/
def summary (p : Prober) : String := s!"Prober \x7b epoch: {p.epoch}, tracked: {p.tracked} \x7d"

/-- Whether a loop owns the entry of an address. -/
def isOwner (p : Prober) (a : Address) (token : Token) : Bool :=
  (p.entry? a).any (·.owner? == some token)

/-- The result that an entry takes. -/
def note (p : Prober) (now : Span) (e : ProbeEntry) (ready : Bool) : ProbeOutcome × ProbeEntry :=
  if ready then
    (.ready (e.status ≠ .ready),
      { status := .ready, checkedAt? := some now, failures := 0, owner? := none })
  else
    let failures := min (e.failures + 1) maxFailures
    (.retry (p.settings.backoff failures),
      { e with status := .notReady, checkedAt? := some now, failures })

/-- Writes the result of a probe. A loop that does not own the entry any more writes nothing. -/
def record (p : Prober) (now : Span) (a : Address) (token : Token) (ready : Bool) :
    Option ProbeOutcome × Prober :=
  match p.entry? a with
  | some e =>
    if e.owner? = some token then
      let (outcome, e) := p.note now e ready
      (some outcome, { p with entries := p.entries.insert a e })
    else (none, p)
  | none => (none, p)

end Prober

inductive LoopPoint where
  /-- About to make sure that it owns its entry, and to take the trust roots. -/
  | starting
  | probing (roots : TrustRoots)
  | sleeping (delay : Span)
  deriving DecidableEq, Repr

structure ProbeLoop where
  address : Address
  point : LoopPoint
  deriving DecidableEq, Repr

/-- A prober, its running loops, and the addresses that became ready, in order. -/
structure Probing where
  prober : Prober
  loops : Table Token ProbeLoop := []
  announced : List Address := []
  deriving DecidableEq, Repr

inductive ProbeEvent where
  /-- Somebody asks for an address. -/
  | ask (a : Address)
  | rotate (roots : TrustRoots)
  | retain (referenced : List Address)
  /-- A starting loop takes the trust roots, or ends if it owns nothing. -/
  | start (token : Token)
  /-- The probe of a loop ends, and its result is written. -/
  | answer (token : Token) (ready : Bool)
  /-- A sleeping loop goes on. -/
  | wake (token : Token)
  deriving DecidableEq, Repr

namespace Probing

def spawn (s : Probing) (a : Address) (token : Token) : Probing :=
  { s with loops := s.loops.insert token ⟨a, .starting⟩ }

def finish (s : Probing) (token : Token) : Probing := { s with loops := s.loops.erase token }

def moveTo (s : Probing) (token : Token) (l : ProbeLoop) (point : LoopPoint) : Probing :=
  { s with loops := s.loops.insert token { l with point } }

/-- One step of the system at a time of the clock. Events that do not fit a loop change nothing. -/
def step (s : Probing) (now : Span) : ProbeEvent → Probing
  | .ask a =>
    match s.prober.request now a with
    | (some token, prober) => { s with prober }.spawn a token
    | (none, prober) => { s with prober }
  | .rotate roots =>
    let (started, prober) := s.prober.rotate roots
    started.foldl (fun s (a, token) => s.spawn a token) { s with prober }
  | .retain referenced => { s with prober := s.prober.retain referenced }
  | .start token =>
    match s.loops.get? token with
    | some l =>
      if l.point = .starting then
        if s.prober.isOwner l.address token then s.moveTo token l (.probing s.prober.roots)
        else s.finish token
      else s
    | none => s
  | .answer token ready =>
    match s.loops.get? token with
    | some l =>
      match l.point with
      | .probing _ =>
        match s.prober.record now l.address token ready with
        | (some (.ready becameReady), prober) =>
          let announced := if becameReady then s.announced ++ [l.address] else s.announced
          { s with prober, announced }.finish token
        | (some (.retry delay), prober) => { s with prober }.moveTo token l (.sleeping delay)
        | (none, prober) => { s with prober }.finish token
      | .starting | .sleeping _ => s
    | none => s
  | .wake token =>
    match s.loops.get? token with
    | some l =>
      match l.point with
      | .sleeping _ => s.moveTo token l .starting
      | .starting | .probing _ => s
    | none => s

end Probing

end EventRouting
