import EventRouting.Readiness.Prober
import EventRouting.Resync

namespace EventRouting

/-- The bundle in effect, with what changes when another one takes its place. -/
structure TrustKeeper where
  bundle? : Option Payload := none
  probing : Probing
  resync : ResyncSignal := {}
  deriving Repr

/-- The trust roots that new content of the bundle asks for. -/
def TrustRoots.replacing? (parse : Payload → Except BundleError TrustRoots)
    (bundle? : Option Payload) (content : Payload) : Option TrustRoots :=
  if bundle? = some content then none else (parse content).toOption

/-- Looks at the content of the file, which is absent if it cannot be read. -/
def TrustKeeper.reloadWith (k : TrustKeeper) (parse : Payload → Except BundleError TrustRoots)
    (content? : Option Payload) : TrustKeeper :=
  match content? with
  | none => k
  | some content =>
    match TrustRoots.replacing? parse k.bundle? content with
    | none => k
    | some roots =>
      { bundle? := some content
        probing := k.probing.step 0 (.rotate roots)
        resync := k.resync.trigger }

/-- Looks at the content of a file in PEM form. -/
def TrustKeeper.reload (k : TrustKeeper) (content? : Option Payload) : TrustKeeper :=
  k.reloadWith TrustRoots.ofPem content?

end EventRouting
