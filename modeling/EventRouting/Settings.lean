import EventRouting.Naming

namespace EventRouting

/-- A span of time in nanoseconds. -/
abbrev Span := Nat

namespace Span

/-- The longest span: 2^64 - 1 seconds and a second less one nanosecond. -/
def longest : Span := 18446744073709551616000000000 - 1

def ofMillis (n : Nat) : Span := n * 1000000

def ofSeconds (n : Nat) : Span := n * 1000000000

def seconds (s : Span) : Nat := s / 1000000000

def nanos (s : Span) : Nat := s % 1000000000

/-- The whole milliseconds of a span. -/
def millis (s : Span) : Nat := s / 1000000

end Span

/-- The delay that doubles with every failure after the first. Doubling stops after `steps` times,
and a span saturates before the cap applies. -/
def doublingDelay (base cap : Span) (steps failures : Nat) : Span :=
  min (min (base <<< min (failures - 1) steps) Span.longest) cap

structure ProbeSettings where
  /-- The longest time of a single probe. -/
  timeout : Span := .ofSeconds 2
  /-- The age after which a ready result is probed again. -/
  refresh : Span := .ofSeconds 60
  backoffBase : Span := .ofMillis 500
  backoffMax : Span := .ofSeconds 30
  /-- The number of failures in a row after which they are reported. -/
  warnAfter : Nat := 10
  deriving DecidableEq, Repr

def ProbeSettings.backoff (s : ProbeSettings) (failures : Nat) : Span :=
  doublingDelay s.backoffBase s.backoffMax 20 failures

def defaultSystemNamespace : String := "knative-eventing"

/-- Where the receivers listen. -/
structure IngressSettings where
  ns : String := defaultSystemNamespace
  service : String := "kafka-broker-ingress"
  httpPort : UInt16 := 80
  httpsPort : UInt16 := 443
  tls : Bool := false
  clusterDomain : String := "cluster.local"
  deriving DecidableEq, Repr

namespace IngressSettings

def host (s : IngressSettings) : String := serviceHostname s.service s.ns s.clusterDomain

def port (s : IngressSettings) : UInt16 := if s.tls then s.httpsPort else s.httpPort

end IngressSettings

structure OperatorSettings where
  systemNamespace : String := defaultSystemNamespace
  contractConfigMap : String := "kafka-broker-brokers-triggers"
  /-- The bootstrap servers of objects that do not choose any. -/
  bootstrapServers : String := "my-cluster-kafka-bootstrap.kafka:9092"
  trustBundle? : Option String := none
  ingress : IngressSettings := {}
  probe : ProbeSettings := {}
  deriving DecidableEq, Repr

end EventRouting
