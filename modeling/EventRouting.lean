import EventRouting.Cluster.Api
import EventRouting.Cluster.Definition
import EventRouting.Cluster.Server
import EventRouting.Command.ControlPlane
import EventRouting.Command.DataPlane
import EventRouting.Command.Flag
import EventRouting.Command.Log
import EventRouting.Command.Usage
import EventRouting.ConsumerGroup.Basic
import EventRouting.ConsumerGroup.Resource
import EventRouting.Contract.Basic
import EventRouting.Contract.Codec
import EventRouting.Contract.Salvage
import EventRouting.Contract.Store
import EventRouting.Control.Finalizer
import EventRouting.Control.Operator
import EventRouting.Control.Program
import EventRouting.Control.Reconcile
import EventRouting.Control.Runner
import EventRouting.Control.Status
import EventRouting.Delivery.Bus
import EventRouting.Delivery.Replica
import EventRouting.Delivery.Routes
import EventRouting.Delivery.Source
import EventRouting.Delivery.Watcher
import EventRouting.Dialogue
import EventRouting.Failure
import EventRouting.Json.Document
import EventRouting.Json.Mismatch
import EventRouting.Json.Patch
import EventRouting.Json.Reader
import EventRouting.Json.Record
import EventRouting.Json.Value
import EventRouting.Json.ValueReader
import EventRouting.Json.Yaml
import EventRouting.Main
import EventRouting.Manifest.Basic
import EventRouting.Manifest.Codec
import EventRouting.Manifest.Schema
import EventRouting.Manifest.Validation
import EventRouting.Naming
import EventRouting.Proofs.Cluster.Server
import EventRouting.Proofs.Cluster.Versions
import EventRouting.Proofs.ConsumerGroup.Binding
import EventRouting.Proofs.ConsumerGroup.Refinement
import EventRouting.Proofs.ConsumerGroup.Resource
import EventRouting.Proofs.ConsumerGroup.Safety
import EventRouting.Proofs.Contract.Layout
import EventRouting.Proofs.Contract.RoundTrip
import EventRouting.Proofs.Contract.Salvage
import EventRouting.Proofs.Contract.Store
import EventRouting.Proofs.Contract.Truncation
import EventRouting.Proofs.Control.Admission
import EventRouting.Proofs.Control.Operator
import EventRouting.Proofs.Control.Release
import EventRouting.Proofs.Control.Requests
import EventRouting.Proofs.Control.Sharing
import EventRouting.Proofs.Control.Status
import EventRouting.Proofs.Control.Tracking
import EventRouting.Proofs.Delivery.Closing
import EventRouting.Proofs.Delivery.Convergence
import EventRouting.Proofs.Delivery.Difference
import EventRouting.Proofs.Delivery.Shutdown
import EventRouting.Proofs.Delivery.Tables
import EventRouting.Proofs.Delivery.Traffic
import EventRouting.Proofs.Dialogue
import EventRouting.Proofs.Json.Document
import EventRouting.Proofs.Json.Faultless
import EventRouting.Proofs.Json.Grammar
import EventRouting.Proofs.Json.Layout
import EventRouting.Proofs.Json.Patch
import EventRouting.Proofs.Json.Prompt
import EventRouting.Proofs.Json.Record
import EventRouting.Proofs.Json.Slots
import EventRouting.Proofs.Json.Spacing
import EventRouting.Proofs.Json.Truncation
import EventRouting.Proofs.Manifest.Codec
import EventRouting.Proofs.Manifest.Metadata
import EventRouting.Proofs.Manifest.Validation
import EventRouting.Proofs.Naming
import EventRouting.Proofs.Readiness.Rotation
import EventRouting.Proofs.Readiness.Tenure
import EventRouting.Proofs.Routing.Build
import EventRouting.Proofs.Routing.CatchUp
import EventRouting.Proofs.Routing.Continuation
import EventRouting.Proofs.Routing.Draining
import EventRouting.Proofs.Routing.Gating
import EventRouting.Proofs.Routing.Iteration
import EventRouting.Proofs.Routing.Life
import EventRouting.Proofs.Routing.Order
import EventRouting.Proofs.Routing.Partition
import EventRouting.Proofs.Routing.Rearrangement
import EventRouting.Proofs.Routing.Recovery
import EventRouting.Proofs.Routing.Replacement
import EventRouting.Proofs.Routing.Restart
import EventRouting.Proofs.Routing.Settling
import EventRouting.Proofs.Routing.Synchronizer
import EventRouting.Proofs.Routing.Tracking
import EventRouting.Proofs.Storage.ConfigMap
import EventRouting.Proofs.Storage.SharedEntry
import EventRouting.Proofs.Table
import EventRouting.Proofs.Text.Base64
import EventRouting.Proofs.Text.Utf8
import EventRouting.Publisher
import EventRouting.Readiness.Exchange
import EventRouting.Readiness.Prober
import EventRouting.Readiness.Reload
import EventRouting.Readiness.Timeline
import EventRouting.Readiness.Trust
import EventRouting.Report.Cluster
import EventRouting.Report.Command
import EventRouting.Report.Delivery
import EventRouting.Report.Failure
import EventRouting.Report.Routing
import EventRouting.Resync
import EventRouting.Routing.Build
import EventRouting.Routing.Fragment
import EventRouting.Routing.Plane
import EventRouting.Routing.Synchronizer
import EventRouting.Settings
import EventRouting.Storage.ConfigMap
import EventRouting.Storage.Entry
import EventRouting.Table
import EventRouting.Text.Base64
import EventRouting.Text.Character
import EventRouting.Text.Hidden
import EventRouting.Text.Number
import EventRouting.Text.Quoted
import EventRouting.Text.SocketAddress
import EventRouting.Text.Utf8
import EventRouting.Time.Instant
import EventRouting.Proofs.Delivery.Difference
import EventRouting.Proofs.Readiness.Bookkeeping
import EventRouting.Proofs.Readiness.Verdict
import EventRouting.Proofs.Readiness.Reload
import EventRouting.Proofs.Readiness.Backoff
import EventRouting.Proofs.Manifest.Names
import EventRouting.Proofs.Manifest.Servers
import EventRouting.Proofs.Delivery.Phases
