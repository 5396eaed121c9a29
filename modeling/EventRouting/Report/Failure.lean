import EventRouting.Failure

namespace EventRouting

open Json

namespace Json

/-- The report of what may be absent. -/
def Value.ofOption {α : Type} (f : α → Value) : Option α → Value
  | some a => f a
  | none => .null

end Json

def hexText (p : Payload) : String :=
  .ofList (p.flatMap fun b => [hexDigit (b.toNat / 16), hexDigit (b.toNat % 16)].map fun d =>
    Char.ofNat d.toNat)

/-- A payload is shown as text if it is text, and else in hexadecimal digits. -/
def Payload.report (p : Payload) : Value :=
  match Utf8.decode? p with
  | some s => .string s
  | none => .object [("hex", .string (hexText p))]

def Generation.report (g : Generation) : Value := .ofNat g.toNat

namespace Json

def DecodeError.members : DecodeError → List (String × Value)
  | .fault .ended => [("error", .string "Decode"), ("category", .string "eof")]
  | .fault .malformed => [("error", .string "Decode"), ("category", .string "syntax")]
  | .mismatch m =>
    [("error", .string "Decode"), ("category", .string "data"), ("message", .string m.message)]

def DecodeError.report (e : DecodeError) : Value := .object e.members

end Json

def ContractError.report (e : ContractError) : Value :=
  let members := match e with
    | .emptyPayload => [("error", .string "EmptyPayload"), ("message", .string e.message)]
    | .decode e => e.members
    | .storage _ => [("error", .string "Storage"), ("message", .string e.message)]
    | .io kind => [("error", .string "Io"), ("message", .string kind)]
  .object (members ++ [("payload_error", .bool e.isPayloadError)])

namespace Failure

def kind : Failure → String
  | .api _ => "KubeError"
  | .contract _ => "ContractError"
  | .invalidConfig _ => "InvalidConfig"
  | .validation _ => "ValidationError"
  | .finalizer _ => "FinalizerError"
  | .consumerGroup _ => "ConsumerGroupError"
  | .trustBundle _ => "TrustBundleError"
  | .closed _ => "Closed"

def report (f : Failure) : Value :=
  let cause : String × Value := match f with
    | .api code => ("code", .ofNat code)
    | .contract e => ("inner", e.report)
    | f => ("message", .string f.message)
  .object [("error", .string f.kind), cause, ("retryable", .bool f.isRetryable),
    ("requeue_s", .ofOption (fun d => .ofNat d.seconds) f.retryDelay?)]

end Failure

end EventRouting
