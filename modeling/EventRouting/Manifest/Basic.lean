import EventRouting.Contract.Basic
import EventRouting.Time.Instant

namespace EventRouting

def apiGroup : String := "eventing.kafka.dev"

def apiVersion : String := apiGroup ++ "/v1alpha1"

/-- Retries and dead letters as users ask for them. -/
structure DeliverySpec where
  deadLetterSink? : Option String := none
  retry? : Option UInt32 := none
  backoffPolicy? : Option BackoffPolicy := none
  backoffDelay? : Option UInt64 := none
  timeout? : Option UInt64 := none
  deriving DecidableEq, Repr, Inhabited

structure BrokerSpec where
  topic? : Option String := none
  bootstrapServers? : Option String := none
  delivery? : Option DeliverySpec := none
  deriving DecidableEq, Repr, Inhabited

structure TriggerSpec where
  /-- The name of a broker in the trigger's namespace. -/
  broker : String
  subscriber : String
  reply? : Option String := none
  delivery? : Option DeliverySpec := none
  ordered : Bool := false
  deriving DecidableEq, Repr, Inhabited

structure Subscriber where
  uid : String
  uri : String
  replyUri? : Option String := none
  delivery? : Option DeliverySpec := none
  deriving DecidableEq, Repr, Inhabited

structure ChannelSpec where
  topic? : Option String := none
  bootstrapServers? : Option String := none
  delivery? : Option DeliverySpec := none
  subscribers : List Subscriber := []
  deriving DecidableEq, Repr, Inhabited

structure SinkSpec where
  topic : String
  bootstrapServers? : Option String := none
  deriving DecidableEq, Repr, Inhabited

/-- The consumer group that the dispatchers run for a trigger. -/
structure ConsumerGroupSpec where
  groupId : String
  topics : List String
  bootstrapServers : String
  subscriber : String
  deriving DecidableEq, Repr, Inhabited

structure Condition where
  type : String
  status : String
  reason : String
  message : String
  lastTransitionTime : String
  deriving DecidableEq, Repr, Inhabited

structure RoutingStatus where
  phase : String := ""
  message : String := ""
  address? : Option String := none
  observedGeneration : Int := 0
  observedContractGeneration : Generation := 0
  consumerGroup? : Option String := none
  conditions : List Condition := []
  lastSyncTime? : Option String := none
  deriving DecidableEq, Repr, Inhabited

/-- What the cluster keeps about an object. -/
structure Metadata where
  name? : Option String := none
  generateName? : Option String := none
  ns? : Option String := none
  uid? : Option String := none
  /-- The generation of the spec. -/
  generation? : Option Int := none
  resourceVersion? : Option String := none
  creationTime? : Option Instant := none
  deletionTime? : Option Instant := none
  finalizers : List String := []
  /-- When the owners of fields last wrote them. -/
  fieldTimes : List Instant := []
  labels : List (String × String) := []
  deriving DecidableEq, Repr, Inhabited

namespace Metadata

def name (m : Metadata) : String := m.name?.getD ""

/-- The name, or the start of the name that the cluster is to generate. -/
def anyName (m : Metadata) : String := (m.name? <|> m.generateName?).getD ""

def namespaceName (m : Metadata) : String := m.ns?.getD "default"

def isDeleting (m : Metadata) : Bool := m.deletionTime?.isSome

/-- The latest update that the object records. -/
def observedAt (m : Metadata) : Instant :=
  match m.fieldTimes ++ m.creationTime?.toList with
  | [] => .earliest
  | t :: ts => ts.foldl Instant.max t

end Metadata

structure Manifest (σ : Type) where
  metadata : Metadata
  spec : σ
  status? : Option RoutingStatus := none
  deriving Repr, Inhabited

/-- The kinds of objects that take part in routing. -/
inductive RoutingKind where
  | broker
  | trigger
  | channel
  | sink
  deriving DecidableEq, Repr, Inhabited

def RoutingKind.name : RoutingKind → String
  | .broker => "KafkaBroker"
  | .trigger => "KafkaTrigger"
  | .channel => "KafkaChannel"
  | .sink => "KafkaSink"

def RoutingKind.ofName? (name : String) : Option RoutingKind :=
  [RoutingKind.broker, .trigger, .channel, .sink].find? (·.name == name)

/-- An object that contributes to the contract. -/
inductive RoutingManifest where
  | broker (m : Manifest BrokerSpec)
  | trigger (m : Manifest TriggerSpec)
  | channel (m : Manifest ChannelSpec)
  | sink (m : Manifest SinkSpec)
  deriving Repr

namespace RoutingManifest

def kind : RoutingManifest → RoutingKind
  | .broker _ => .broker
  | .trigger _ => .trigger
  | .channel _ => .channel
  | .sink _ => .sink

def metadata : RoutingManifest → Metadata
  | .broker m => m.metadata
  | .trigger m => m.metadata
  | .channel m => m.metadata
  | .sink m => m.metadata

def status? : RoutingManifest → Option RoutingStatus
  | .broker m => m.status?
  | .trigger m => m.status?
  | .channel m => m.status?
  | .sink m => m.status?

end RoutingManifest

end EventRouting
