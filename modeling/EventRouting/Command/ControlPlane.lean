import EventRouting.Cluster.Definition
import EventRouting.Command.Usage
import EventRouting.Readiness.Trust
import EventRouting.Settings

namespace EventRouting.Command

open Json

namespace ControlPlane

def flags : List Flag :=
  [{ name := "metrics-addr", kind := .socketAddress, about := "Metrics server address",
     setBy? := some "METRICS_ADDR", default? := some "0.0.0.0:8080" },
   { name := "health-addr", kind := .socketAddress, about := "Health probe address",
     setBy? := some "HEALTH_ADDR", default? := some "0.0.0.0:8081" },
   { name := "namespace", kind := .text, about := "Namespace to watch (empty for cluster-wide)",
     setBy? := some "WATCH_NAMESPACE", default? := some "" },
   { name := "system-namespace", kind := .text,
     about := "Namespace of the data plane and the contract ConfigMap",
     setBy? := some "SYSTEM_NAMESPACE", default? := some defaultSystemNamespace },
   { name := "contract-config-map", kind := .text, about := "Name of the contract ConfigMap",
     setBy? := some "CONTRACT_CONFIG_MAP",
     default? := some ({} : OperatorSettings).contractConfigMap },
   { name := "ingress-service", kind := .text, about := "Receiver service name",
     setBy? := some "INGRESS_SERVICE", default? := some ({} : IngressSettings).service },
   { name := "ingress-http-port", kind := .number 65535, about := "Receiver HTTP port",
     setBy? := some "INGRESS_HTTP_PORT", default? := some "80" },
   { name := "ingress-https-port", kind := .number 65535, about := "Receiver HTTPS port",
     setBy? := some "INGRESS_HTTPS_PORT", default? := some "443" },
   { name := "ingress-tls", kind := .switch, about := "Address and probe receivers over TLS",
     setBy? := some "INGRESS_TLS", default? := some "false" },
   { name := "cluster-domain", kind := .text, about := "Cluster DNS suffix",
     setBy? := some "CLUSTER_DOMAIN", default? := some ({} : IngressSettings).clusterDomain },
   { name := "default-bootstrap-servers", kind := .text,
     about := "Kafka bootstrap servers for resources that do not set their own",
     setBy? := some "DEFAULT_BOOTSTRAP_SERVERS",
     default? := some ({} : OperatorSettings).bootstrapServers },
   { name := "trust-bundle", kind := .path,
     about := "PEM bundle with the CAs trusted for TLS probes; watched for changes",
     setBy? := some "TRUST_BUNDLE" },
   { name := "probe-timeout-ms", kind := .wideNumber,
     about := "Timeout of a single readiness probe in milliseconds",
     setBy? := some "PROBE_TIMEOUT_MS", default? := some "2000" },
   { name := "probe-refresh-secs", kind := .wideNumber,
     about := "Age in seconds after which a ready result is re-probed",
     setBy? := some "PROBE_REFRESH_SECS", default? := some "60" },
   { name := "probe-backoff-base-ms", kind := .wideNumber,
     about := "First retry delay after a failed probe in milliseconds",
     setBy? := some "PROBE_BACKOFF_BASE_MS", default? := some "500" },
   { name := "probe-backoff-max-ms", kind := .wideNumber,
     about := "Maximum retry delay in milliseconds",
     setBy? := some "PROBE_BACKOFF_MAX_MS", default? := some "30000" },
   { name := "probe-warn-after", kind := .number 4294967295,
     about := "Consecutive probe failures before a warning",
     setBy? := some "PROBE_WARN_AFTER", default? := some "10" },
   { name := "drain-on-shutdown", kind := .switch,
     about := "Publish an empty drain contract on shutdown",
     setBy? := some "DRAIN_ON_SHUTDOWN", default? := some "false" }]
  ++ logFlags
  ++ [{ name := "print-crd", kind := .switch, about := "Print CRD YAML and exit" }]

def usage : Usage where
  program := "kafka-eventing-operator"
  about := "Kubernetes control plane for Kafka-backed eventing"
  flags

structure Settings where
  operator : OperatorSettings
  /-- The namespace to look at, if not all of them. -/
  ns? : Option String
  printDefinitions : Bool
  log : LogSettings
  deriving DecidableEq, Repr

def Settings.ofValues (t : FlagValues) : Settings where
  operator := {
    systemNamespace := t.text "system-namespace"
    contractConfigMap := t.text "contract-config-map"
    bootstrapServers := t.text "default-bootstrap-servers"
    trustBundle? := t.text? "trust-bundle"
    ingress := {
      ns := t.text "system-namespace"
      service := t.text "ingress-service"
      httpPort := .ofNat (t.number "ingress-http-port")
      httpsPort := .ofNat (t.number "ingress-https-port")
      tls := t.switch "ingress-tls"
      clusterDomain := t.text "cluster-domain" }
    probe := {
      timeout := .ofMillis (t.number "probe-timeout-ms")
      refresh := .ofSeconds (t.number "probe-refresh-secs")
      backoffBase := .ofMillis (t.number "probe-backoff-base-ms")
      backoffMax := .ofMillis (t.number "probe-backoff-max-ms")
      warnAfter := t.number "probe-warn-after" } }
  ns? := (t.text? "namespace").filter (!·.isEmpty)
  printDefinitions := t.switch "print-crd"
  log := .ofValues t

/-- Why a run of the program fails. -/
inductive RunError where
  | unreadableBundle (path : String)
  | invalidBundle
  | noCluster
  deriving DecidableEq, Repr

def RunError.message : RunError → String
  | .unreadableBundle path => s!"Failed to read trust bundle {path}"
  | .invalidBundle => "Invalid trust bundle"
  | .noCluster => "Failed to create Kubernetes client"

/-- The trust roots to start with, and what is said about them. -/
def trust (s : OperatorSettings) (file? : String → Option Payload) :
    Except RunError (TrustRoots × List LogLine) :=
  match s.trustBundle? with
  | none =>
    let warning :=
      LogLine.warn "Ingress uses TLS but no trust bundle is configured; TLS probes will fail"
    .ok ({}, if s.ingress.tls then [warning] else [])
  | some path =>
    match file? path with
    | none => .error (.unreadableBundle path)
    | some content =>
      match TrustRoots.ofPem content with
      | .error _ => .error .invalidBundle
      | .ok roots => .ok (roots, [.info "Watching trust bundle" [("path", .string path)]])

def started (s : Settings) : LogLine :=
  .info "Starting Kafka eventing operator" [
    ("version", .string programVersion),
    ("namespace", .string (s.ns?.getD "all")),
    ("contract", .string s!"{s.operator.systemNamespace}/{s.operator.contractConfigMap}")]

/-- The outcome where no cluster can be reached. `file?` gives the content of readable files. -/
def run (s : Settings) (file? : String → Option Payload) : Outcome :=
  if s.printDefinitions then { documents := Definition.all.map Definition.toValue }
  else
    let (error, lines) := match trust s.operator file? with
      | .error e => (e, [started s])
      | .ok (_, lines) => (.noCluster, started s :: lines)
    { code := 1
      error? := some ("Error: " ++ error.message)
      log := s.log.select lines
      jsonLog := s.log.json }

/-- Reads the arguments and the environment, and runs. -/
def launch (arguments : List String) (environment : Table String String)
    (file? : String → Option Payload) : Outcome :=
  match usage.read arguments environment with
  | .error h => h.outcome usage environment
  | .ok values => run (.ofValues values) file?

end ControlPlane

end EventRouting.Command
