import EventRouting.Manifest.Basic
import EventRouting.Settings

namespace EventRouting

/-- The address that receivers serve a resource at. -/
structure Address where
  host : String
  port : UInt16
  path : String
  tls : Bool := false
  deriving DecidableEq, Repr, Inhabited

def Address.scheme (a : Address) : String := if a.tls then "https" else "http"

def Address.url (a : Address) : String := s!"{a.scheme}://{a.host}:{a.port.toNat}{a.path}"

/-- The object that a subscriber attaches to. -/
structure ParentRef where
  kind : String
  ns : String
  name : String
  deriving DecidableEq, Repr, Inhabited

def ParentRef.matches (p : ParentRef) (r : Reference) : Bool :=
  r.kind == p.kind && r.ns == p.ns && r.name == p.name

inductive Contribution where
  | resource (resource : Resource) (address : Address)
  | egress (parent : ParentRef) (egress : Egress)
  deriving DecidableEq, Repr

structure Fragment where
  uid : String
  /-- The last update of the object that was seen. -/
  observedAt : Instant
  contribution : Contribution
  deriving DecidableEq, Repr

def Fragment.address? (f : Fragment) : Option Address :=
  match f.contribution with
  | .resource _ address => some address
  | .egress _ _ => none

/-- What turns objects into fragments. -/
structure FragmentContext where
  ingress : IngressSettings := {}
  bootstrapServers : String
  deriving DecidableEq, Repr

def DeliverySpec.egressConfig (d : DeliverySpec) : EgressConfig where
  deadLetter? := d.deadLetterSink?
  retry := d.retry?.getD 0
  backoffPolicy := d.backoffPolicy?.getD .exponential
  backoffDelay := d.backoffDelay?.getD 0
  timeout? := d.timeout?

/-- The object has no uid yet, so that nothing can be published for it. -/
structure MissingUid where
  kind : String
  name : String
  deriving DecidableEq, Repr

def MissingUid.message (e : MissingUid) : String := s!"{e.kind} {e.name} has no uid"

namespace FragmentContext

def address (ctx : FragmentContext) (ns name : String) : Address where
  host := ctx.ingress.host
  port := ctx.ingress.port
  path := ingressPath ns name
  tls := ctx.ingress.tls

def subscriberEgress (ns name : String) (s : Subscriber) : Egress where
  uid := s.uid
  consumerGroup := s.uid
  destination := s.uri
  replyUrl? := s.replyUri?
  config? := s.delivery?.map DeliverySpec.egressConfig
  deliveryOrder := .ordered
  reference := { uuid := s.uid, ns, name, kind := "Subscription" }

def brokerResource (ctx : FragmentContext) (uid ns name : String) (s : BrokerSpec) : Resource where
  uid := uid
  topics := [s.topic?.getD (brokerTopic ns name)]
  bootstrapServers := s.bootstrapServers?.getD ctx.bootstrapServers
  ingress? := some { path := ingressPath ns name }
  egressConfig? := s.delivery?.map DeliverySpec.egressConfig
  reference := { uuid := uid, ns, name, kind := RoutingKind.broker.name }

def channelResource (ctx : FragmentContext) (uid ns name : String) (s : ChannelSpec) :
    Resource where
  uid := uid
  topics := [s.topic?.getD (channelTopic ns name)]
  bootstrapServers := s.bootstrapServers?.getD ctx.bootstrapServers
  ingress? := some {
    path := ingressPath ns name
    host? := some (serviceHostname (channelServiceName name) ns ctx.ingress.clusterDomain) }
  egressConfig? := s.delivery?.map DeliverySpec.egressConfig
  egresses :=
    (s.subscribers.map (subscriberEgress ns name)).mergeSort fun a b => decide (a.uid ≤ b.uid)
  reference := { uuid := uid, ns, name, kind := RoutingKind.channel.name }

def sinkResource (ctx : FragmentContext) (uid ns name : String) (s : SinkSpec) : Resource where
  uid := uid
  topics := [s.topic]
  bootstrapServers := s.bootstrapServers?.getD ctx.bootstrapServers
  ingress? := some { path := ingressPath ns name }
  reference := { uuid := uid, ns, name, kind := RoutingKind.sink.name }

def triggerEgress (uid ns name : String) (s : TriggerSpec) : Egress where
  uid := uid
  consumerGroup := triggerConsumerGroup ns name
  destination := s.subscriber
  replyUrl? := s.reply?
  config? := s.delivery?.map DeliverySpec.egressConfig
  deliveryOrder := if s.ordered then .ordered else .unordered
  reference := { uuid := uid, ns, name, kind := RoutingKind.trigger.name }

end FragmentContext

def RoutingManifest.uid (m : RoutingManifest) : Except MissingUid String :=
  match m.metadata.uid? with
  | some uid => .ok uid
  | none => .error ⟨m.kind.name, m.metadata.name⟩

/-- The contribution of an object under its uid. -/
def RoutingManifest.contribution (m : RoutingManifest) (ctx : FragmentContext) (uid : String) :
    Contribution :=
  let ns := m.metadata.namespaceName
  let name := m.metadata.name
  match m with
  | .broker m => .resource (ctx.brokerResource uid ns name m.spec) (ctx.address ns name)
  | .channel m => .resource (ctx.channelResource uid ns name m.spec) (ctx.address ns name)
  | .sink m => .resource (ctx.sinkResource uid ns name m.spec) (ctx.address ns name)
  | .trigger m =>
    .egress ⟨RoutingKind.broker.name, ns, m.spec.broker⟩
      (FragmentContext.triggerEgress uid ns name m.spec)

def RoutingManifest.fragment (m : RoutingManifest) (ctx : FragmentContext) :
    Except MissingUid Fragment := do
  let uid ← m.uid
  return { uid, observedAt := m.metadata.observedAt, contribution := m.contribution ctx uid }

/-- The key under which an object keeps its fragment. -/
def RoutingManifest.key (m : RoutingManifest) : String :=
  fragmentKey m.kind.name m.metadata.namespaceName m.metadata.anyName

end EventRouting
