import EventRouting.Contract.Codec
import EventRouting.Settings

namespace EventRouting

inductive Failure where
  /-- The API server refused a request. -/
  | api (code : Nat)
  | contract (e : ContractError)
  | invalidConfig (message : String)
  | validation (message : String)
  | finalizer (message : String)
  | consumerGroup (message : String)
  | trustBundle (message : String)
  /-- An operation on a component that is shut down. -/
  | closed (component : String)
  deriving DecidableEq, Repr

def Json.DecodeError.message : Json.DecodeError → String
  | .fault .ended => "unexpected end of input"
  | .fault .malformed => "malformed input"
  | .mismatch m => m.message

def ContractError.message : ContractError → String
  | .emptyPayload => "contract payload is empty"
  | .decode e => "failed to decode contract: " ++ e.message
  | .storage message => "contract storage error: " ++ message
  | .io kind => "I/O error: " ++ kind

namespace Failure

def message : Failure → String
  | .api code => s!"Kubernetes API error: {code}"
  | .contract e => "Contract error: " ++ e.message
  | .invalidConfig message => "Invalid configuration: " ++ message
  | .validation message => "Validation error: " ++ message
  | .finalizer message => "Finalizer error: " ++ message
  | .consumerGroup message => "Consumer group operation failed: " ++ message
  | .trustBundle message => "Trust bundle error: " ++ message
  | .closed component => "Component is closed: " ++ component

/-- Whether another attempt may succeed without a change of the object. -/
def isRetryable : Failure → Bool
  | .api _ | .consumerGroup _ => true
  | .contract e => !e.isPayloadError
  | .invalidConfig _ | .validation _ | .finalizer _ | .trustBundle _ | .closed _ => false

/-- The delay of the next attempt, if the failure asks for one. -/
def retryDelay? (f : Failure) : Option Span :=
  if f.isRetryable then some (.ofSeconds 30) else none

end Failure

end EventRouting
