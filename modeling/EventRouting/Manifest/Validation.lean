import EventRouting.Manifest.Basic
import EventRouting.Naming
import EventRouting.Text.Character

namespace EventRouting

structure Violation where
  code : String
  message : String
  deriving DecidableEq, Repr

/-- A violation of the field that a path leads to. -/
structure FieldViolation where
  field : String
  /-- The way on from a top-level field to the field at fault. -/
  inner : List String := []
  violation : Violation
  deriving DecidableEq, Repr

namespace FieldViolation

def path (v : FieldViolation) : String := ".".intercalate (v.field :: v.inner)

/-- The same violation, seen from the spec that holds the one at fault in a field. -/
def within (field : String) (v : FieldViolation) : FieldViolation :=
  { v with field, inner := v.field :: v.inner }

end FieldViolation

def byteLength (s : String) : Nat := (Utf8.bytes s).length

def isLabelEdge (c : Char) : Bool := ('a' ≤ c && c ≤ 'z') || c.isDigit

def isLabelInner (c : Char) : Bool := isLabelEdge c || c == '-'

/-- A label of RFC 1123, of any length. -/
def isLabel (s : List Char) : Bool :=
  s.all isLabelInner && s.head?.any isLabelEdge && s.getLast?.any isLabelEdge

def checkName (s : String) : Option Violation :=
  if maxNameLength < byteLength s then some ⟨"name_too_long", "name exceeds 63 characters"⟩
  else if isLabel s.toList then none
  else some ⟨"invalid_name", s!"'{s}' is not a valid Kubernetes name (RFC 1123)"⟩

def isTopicChar (c : Char) : Bool :=
  ('a' ≤ c && c ≤ 'z') || ('A' ≤ c && c ≤ 'Z') || c.isDigit || c == '.' || c == '_' || c == '-'

def checkTopic (s : String) : Option Violation :=
  if 249 < byteLength s then some ⟨"topic_too_long", "topic name exceeds 249 characters"⟩
  else if s ≠ "" ∧ s ≠ "." ∧ s ≠ ".." ∧ s.toList.all isTopicChar then none
  else some ⟨"invalid_topic", s!"'{s}' is not a valid Kafka topic name"⟩

def checkUri (s : String) : Option Violation :=
  if "http://".toList.isPrefixOf s.toList || "https://".toList.isPrefixOf s.toList then none
  else some ⟨"invalid_uri", s!"'{s}' must be an http(s) URI"⟩

/-- The parts of a text between its commas. -/
def splitCommas (s : List Char) : List (List Char) := s.splitOn ','

/-- A text without the blanks around it. -/
def trim (s : List Char) : List Char :=
  ((s.dropWhile Text.isBlank).reverse.dropWhile Text.isBlank).reverse

/-- What stands before and after the last colon. -/
def splitLastColon? (s : List Char) : Option (List Char × List Char) :=
  match s.reverse.span (· ≠ ':') with
  | (port, _ :: host) => some (host.reverse, port.reverse)
  | (_, []) => none

/-- Digits, after an optional plus sign, of a number below 2^16. -/
def isPort (s : List Char) : Bool :=
  let digits := match s with
    | '+' :: digits => digits
    | digits => digits
  !digits.isEmpty && digits.all Char.isDigit
    && digits.foldl (fun n c => 10 * n + (c.toNat - '0'.toNat)) 0 < 65536

def isHostPort (s : List Char) : Bool :=
  match splitLastColon? (trim s) with
  | some (host, port) => !host.isEmpty && isPort port
  | none => false

def checkBootstrapServers (s : String) : Option Violation :=
  if !s.isEmpty && (splitCommas s.toList).all isHostPort then none
  else some ⟨"invalid_bootstrap_servers", s!"'{s}' is not a list of host:port"⟩

/-- The violation of a field by its value. -/
def violations (field : String) (check : String → Option Violation) (value : String) :
    List FieldViolation :=
  (check value).toList.map fun violation => { field, violation }

def violations? (field : String) (check : String → Option Violation) :
    Option String → List FieldViolation
  | some value => violations field check value
  | none => []

def DeliverySpec.violations (d : DeliverySpec) : List FieldViolation :=
  violations? "dead_letter_sink" checkUri d.deadLetterSink?
    ++ if d.retry?.any (100 < ·) then
      [{ field := "retry", violation := ⟨"range", "retry must be at most 100"⟩ }]
    else []

/-- The violations inside an optional part of a spec. -/
def DeliverySpec.violationsWithin (field : String) (d? : Option DeliverySpec) :
    List FieldViolation :=
  (d?.toList.flatMap DeliverySpec.violations).map (·.within field)

def BrokerSpec.violations (s : BrokerSpec) : List FieldViolation :=
  violations? "topic" checkTopic s.topic?
    ++ violations? "bootstrap_servers" checkBootstrapServers s.bootstrapServers?
    ++ DeliverySpec.violationsWithin "delivery" s.delivery?

def TriggerSpec.violations (s : TriggerSpec) : List FieldViolation :=
  EventRouting.violations "broker" checkName s.broker
    ++ EventRouting.violations "subscriber" checkUri s.subscriber
    ++ violations? "reply" checkUri s.reply?
    ++ DeliverySpec.violationsWithin "delivery" s.delivery?

def Subscriber.violations (s : Subscriber) : List FieldViolation :=
  (if s.uid.isEmpty then
      [{ field := "uid", violation := ⟨"length", "subscriber uid must not be empty"⟩ }]
    else [])
    ++ EventRouting.violations "subscriber_uri" checkUri s.uri
    ++ violations? "reply_uri" checkUri s.replyUri?
    ++ DeliverySpec.violationsWithin "delivery" s.delivery?

def maxSubscribers : Nat := 1000

def ChannelSpec.subscriberViolations (s : ChannelSpec) : List FieldViolation :=
  s.subscribers.zipIdx.flatMap fun (sub, i) => sub.violations.map (·.within s!"subscribers[{i}]")

def ChannelSpec.violations (s : ChannelSpec) : List FieldViolation :=
  violations? "topic" checkTopic s.topic?
    ++ violations? "bootstrap_servers" checkBootstrapServers s.bootstrapServers?
    ++ DeliverySpec.violationsWithin "delivery" s.delivery?
    ++ (if maxSubscribers < s.subscribers.length then
        [{ field := "subscribers", violation := ⟨"length", "maximum 1000 subscribers allowed"⟩ }]
      else [])
    ++ s.subscriberViolations

/-- Both the list of subscribers and one of them are at fault, which no report can hold together. -/
def ChannelSpec.unreportable (s : ChannelSpec) : Bool :=
  maxSubscribers < s.subscribers.length && !s.subscriberViolations.isEmpty

def SinkSpec.violations (s : SinkSpec) : List FieldViolation :=
  EventRouting.violations "topic" checkTopic s.topic
    ++ violations? "bootstrap_servers" checkBootstrapServers s.bootstrapServers?

def RoutingManifest.violations : RoutingManifest → List FieldViolation
  | .broker m => m.spec.violations
  | .trigger m => m.spec.violations
  | .channel m => m.spec.violations
  | .sink m => m.spec.violations

/-- The violations of top-level fields in words, sorted. -/
def violationMessage (vs : List FieldViolation) : String :=
  let lines := (vs.filter (·.inner.isEmpty)).map fun v => s!"{v.field}: {v.violation.message}"
  "; ".intercalate (lines.mergeSort (fun a b => decide (a ≤ b)))

end EventRouting
