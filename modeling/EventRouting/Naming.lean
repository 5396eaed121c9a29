import EventRouting.Text.Utf8

namespace EventRouting

def channelServiceSuffix : String := "-kn-channel"

/-- The longest name of a cluster object, in bytes. -/
def maxNameLength : Nat := 63

/-- The service of a channel: its name with a suffix, or the bare name where the suffix does not
fit. -/
def channelServiceName (name : String) : String :=
  if (Utf8.bytes name).length + (Utf8.bytes channelServiceSuffix).length ≤ maxNameLength then
    name ++ channelServiceSuffix
  else name

def ingressPath (ns name : String) : String := s!"/{ns}/{name}"

/-- The topic of a broker that does not choose one. -/
def brokerTopic (ns name : String) : String := s!"knative-broker-{ns}-{name}"

/-- The topic of a channel that does not choose one. -/
def channelTopic (ns name : String) : String := s!"knative-messaging-kafka.{ns}.{name}"

/-- The consumer group of a trigger. -/
def triggerConsumerGroup (ns name : String) : String := s!"knative-trigger-{ns}-{name}"

def serviceHostname (service ns domain : String) : String := s!"{service}.{ns}.svc.{domain}"

/-- The key of an object in the fragment table. -/
def fragmentKey (kind ns name : String) : String := s!"{kind}/{ns}/{name}"

end EventRouting
