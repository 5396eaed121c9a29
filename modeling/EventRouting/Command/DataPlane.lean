import EventRouting.Command.Usage
import EventRouting.Delivery.Replica
import EventRouting.Delivery.Source

namespace EventRouting.Command

open Json

namespace DataPlane

def flags : List Flag :=
  [{ name := "contract-path", kind := .path, about := "Path of the mounted contract file",
     setBy? := some "CONTRACT_PATH", default? := some "/etc/kafka-eventing/data" },
   { name := "bus-address", kind := .text, about := "Local bus address for contract updates",
     setBy? := some "CONTRACT_ADDRESS", default? := some ({} : Bus).address }]
  ++ logFlags

def usage : Usage where
  program := "kafka-eventing-dataplane"
  about := "Watches the routing contract and fans it out to local components"
  flags

structure Settings where
  contractPath : String
  busAddress : String
  log : LogSettings
  deriving DecidableEq, Repr

def Settings.ofValues (t : FlagValues) : Settings where
  contractPath := t.text "contract-path"
  busAddress := t.text "bus-address"
  log := .ofValues t

end DataPlane

/-- The program while it runs. -/
structure DataPlane where
  settings : DataPlane.Settings
  replica : Replica

namespace DataPlane

def generationField (g : Generation) : String × Value := ("generation", .ofNat g.toNat)

def addressField (s : Settings) : String × Value := ("address", .string s.busAddress)

/-- The lines about a change of a table, if it is one. -/
def changeLines (message : String) (g : Generation) (d : RouteDiff) (added removed : String) :
    List LogLine :=
  if d.isEmpty then []
  else [.info message [
    generationField g,
    (added, .ofNat d.added.length),
    (removed, .ofNat d.removed.length),
    ("updated", .ofNat d.updated.length)]]

def eventLines (s : Settings) (subscribers : Nat) : ReplicaEvent → List LogLine
  | .unreadable => [.warn "Failed to read contract, waiting for next change"]
  | .missing => [.debug "No contract in storage yet" []]
  | .handled (.applied g) =>
    [.debug "Contract published" [
        addressField s, generationField g, ("subscribers", .ofNat subscribers)],
      .info "Contract applied" [generationField g]]
  | .handled .rejected => [.warn "Failed to decode contract, keeping previous state"]
  | .handled (.unchanged _) | .handled .closed => []
  | .routes g d => changeLines "Receiver routes updated" g d "added" "removed"
  | .consumers g d => changeLines "Dispatcher consumers updated" g d "started" "stopped"

/-- Tells what happened since the last time. -/
def tell (p : DataPlane) : List LogLine × DataPlane :=
  let (events, replica) := p.replica.takeEvents
  let subscribers := replica.watcher.bus.subscriberCount
  (events.flatMap (eventLines p.settings subscribers), { p with replica })

/-- A replica whose receiver and dispatcher are subscribed before anything is read. -/
def replicaAt (s : Settings) (place : FilePlace) : Replica where
  payload? := match place with
    | .file p => some p
    | _ => none
  watcher := { bus := ({ address := s.busAddress } : Bus).subscribe.subscribe }
  components? := some (0, 1)
  failingSubscriptions := if place.isWatchable then 0 else 1
  failingReads := match place.read with
    | .ok _ => 0
    | .error _ => 1

def starting (s : Settings) : LogLine :=
  .info "Starting Kafka eventing data plane" [
    ("version", .string programVersion),
    ("contract", .string s.contractPath)]

/-- Starts the program with what its path leads to. It fails if the directory cannot be watched. -/
def start (s : Settings) (place : FilePlace) : Except Outcome (List LogLine × DataPlane) :=
  match (replicaAt s place).start with
  | (.error _, _) =>
    .error {
      code := 1
      error? := some "Error: Failed to start contract watcher"
      log := s.log.select [starting s]
      jsonLog := s.log.json }
  | (.ok (), r) =>
    let (lines, p) := tell { settings := s, replica := r.settle }
    let watching :=
      [.debug "Watching contract directory" [("dir", .string (FilePath.directory s.contractPath))],
        .info "Contract watcher started" [addressField s]]
    .ok (s.log.select (starting s :: watching ++ lines), p)

/-- The file gets new content. -/
def change (p : DataPlane) (content : Payload) : List LogLine × DataPlane :=
  let (lines, p) := tell { p with replica := (p.replica.set content).settle }
  (p.settings.log.select lines, p)

/-- Ends the program. -/
def stop (p : DataPlane) : List LogLine × DataPlane :=
  let s := p.settings
  let (lines, p) := tell { p with replica := p.replica.shutdown }
  let drained := (p.replica.watcher.bus.last?.map generationField).toList
  let ending := [
    .info "Shutdown signal received, draining" [],
    .debug "Contract watch loop exited" [],
    .info "Contract watcher closed" [addressField s],
    .info "Bus drained and closed" (addressField s :: drained)]
  let ended := [
    .debug "Receiver subscription ended" [],
    .debug "Dispatcher subscription ended" [],
    .info "Data plane stopped" [
      ("routes", .ofNat p.replica.receiver.table.length),
      ("consumers", .ofNat p.replica.dispatcher.table.length)]]
  (s.log.select (ending ++ lines ++ ended), p)

/-- Reads the arguments and the environment, and starts. `place` tells what a path leads to. -/
def launch (arguments : List String) (environment : Table String String)
    (place : String → FilePlace) : Except Outcome (List LogLine × DataPlane) :=
  match usage.read arguments environment with
  | .error h => .error (h.outcome usage environment)
  | .ok values =>
    let s := Settings.ofValues values
    start s (place s.contractPath)

end DataPlane

end EventRouting.Command
