namespace EventRouting

inductive BackoffPolicy where
  | exponential
  | linear
  deriving DecidableEq, Repr, Inhabited

inductive DeliveryOrder where
  | unordered
  | ordered
  deriving DecidableEq, Repr, Inhabited

/-- Retries and dead letters of a dispatch. Times are in milliseconds. -/
structure EgressConfig where
  deadLetter? : Option String := none
  retry : UInt32 := 0
  backoffPolicy : BackoffPolicy := .exponential
  backoffDelay : UInt64 := 0
  timeout? : Option UInt64 := none
  deriving DecidableEq, Repr, Inhabited

/-- The cluster object that a routing entry stands for. -/
structure Reference where
  uuid : String := ""
  ns : String := ""
  name : String := ""
  kind : String := ""
  deriving DecidableEq, Repr, Inhabited

/-- Where the receivers accept events for a resource. -/
structure Ingress where
  path : String := ""
  host? : Option String := none
  deriving DecidableEq, Repr, Inhabited

/-- A subscriber and the consumer group that reads for it. -/
structure Egress where
  uid : String
  consumerGroup : String
  destination : String
  replyUrl? : Option String := none
  config? : Option EgressConfig := none
  deliveryOrder : DeliveryOrder := .unordered
  reference : Reference := {}
  deriving DecidableEq, Repr, Inhabited

/-- A broker, channel or sink with its subscribers. -/
structure Resource where
  uid : String
  topics : List String := []
  bootstrapServers : String := ""
  ingress? : Option Ingress := none
  egressConfig? : Option EgressConfig := none
  egresses : List Egress := []
  reference : Reference := {}
  deriving DecidableEq, Repr, Inhabited

abbrev Generation := UInt64

/-- The routing topology at one generation. -/
structure Contract where
  generation : Generation := 0
  resources : List Resource := []
  deriving DecidableEq, Repr, Inhabited

namespace Contract

/-- The contract that tells every subscriber to route everything away. -/
def drain (generation : Generation) : Contract := { generation }

def isEmpty (c : Contract) : Bool := c.resources.isEmpty

/-- Whether two contracts route alike, whatever their generations. -/
def sameContent (c d : Contract) : Bool := c.resources == d.resources

def resource? (c : Contract) (uid : String) : Option Resource :=
  c.resources.find? (·.uid == uid)

def egressCount (c : Contract) : Nat :=
  (c.resources.flatMap (·.egresses)).length

end Contract

end EventRouting
