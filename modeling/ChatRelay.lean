import ChatRelay.Admission
import ChatRelay.Admission.Slots
import ChatRelay.Authoring
import ChatRelay.Bytes
import ChatRelay.Bytes.Base64
import ChatRelay.Bytes.Hex
import ChatRelay.CommandLine.Client
import ChatRelay.CommandLine.Daemon
import ChatRelay.CommandLine.Grammar
import ChatRelay.Curve
import ChatRelay.Curve.Ecdsa
import ChatRelay.Curve.Key
import ChatRelay.Curve.Schnorr
import ChatRelay.Decimal.Shortest
import ChatRelay.Digest
import ChatRelay.Digest.Ripemd160
import ChatRelay.Digest.Sha256
import ChatRelay.Files
import ChatRelay.Json
import ChatRelay.Json.Reader
import ChatRelay.Ledger
import ChatRelay.Main
import ChatRelay.Message
import ChatRelay.Node
import ChatRelay.Node.Address
import ChatRelay.Node.Lifecycle
import ChatRelay.Node.Session
import ChatRelay.Numeral
import ChatRelay.Outpoint
import ChatRelay.OwnerKey
import ChatRelay.RateLimiter
import ChatRelay.Request
import ChatRelay.Routine
import ChatRelay.Rpc.Client
import ChatRelay.Rpc.Reply
import ChatRelay.Rpc.Shape
import ChatRelay.Rpc.Status
import ChatRelay.Rpc.Target
import ChatRelay.Script
import ChatRelay.Settings
import ChatRelay.Settings.Document
import ChatRelay.Settings.File
import ChatRelay.Shutdown
import ChatRelay.Simulation.FileTree
import ChatRelay.Simulation.Ledger
import ChatRelay.Simulation.Network
import ChatRelay.Simulation.Recipient
import ChatRelay.Simulation.Scenario
import ChatRelay.Simulation.Server
import ChatRelay.Simulation.World
import ChatRelay.Store
import ChatRelay.Store.Durable
import ChatRelay.Store.Memory
import ChatRelay.Table
import ChatRelay.Toml
import ChatRelay.Toml.Draft
import ChatRelay.Toml.Printer
import ChatRelay.Toml.Reader
import ChatRelay.Toml.Text
import ChatRelay.Toml.Word
import ChatRelay.Watcher
import ChatRelay.Wire
import ChatRelay.Wire.Frame
import ChatRelay.Wire.Handshake
import ChatRelay.Wire.Limits
import ChatRelay.Proofs.Executions
import ChatRelay.Proofs.Holdings
import ChatRelay.Proofs.Backends.Memory
import ChatRelay.Proofs.Octets
import ChatRelay.Proofs.Backends.Durable
import ChatRelay.Proofs.Backends.Agreement
import ChatRelay.Proofs.Chain
import ChatRelay.Proofs.Interference
import ChatRelay.Proofs.Service
import ChatRelay.Proofs.Admission.Exclusion
import ChatRelay.Proofs.Relay
import ChatRelay.Proofs.Discipline
import ChatRelay.Proofs.Watcher.Obligations
import ChatRelay.Proofs.Admission.Once
import ChatRelay.Proofs.Watcher.Parts
import ChatRelay.Proofs.Watcher.Rollback
import ChatRelay.Proofs.Watcher.Records
import ChatRelay.Proofs.Watcher.Reorganization
import ChatRelay.Proofs.Watcher.Coverage
import ChatRelay.Proofs.Watcher.Scanning
import ChatRelay.Proofs.Watcher.Sweeping
import ChatRelay.Proofs.Watcher.Restart
import ChatRelay.Proofs.Admission.Late
import ChatRelay.Proofs.Admission.Ownership
import ChatRelay.Proofs.Transcripts
import ChatRelay.Proofs.Admission.Verdict
import ChatRelay.Proofs.Wire.Codec
import ChatRelay.Proofs.Wire.Streams
import ChatRelay.Proofs.Wire.Canonical
import ChatRelay.Proofs.Wire.Messages
import ChatRelay.Proofs.Station
import ChatRelay.Proofs.Station.Errands
import ChatRelay.Proofs.Station.Handlers
import ChatRelay.Proofs.Station.Connections
import ChatRelay.Proofs.Station.Turns
import ChatRelay.Proofs.Station.Refinement
import ChatRelay.Proofs.Station.Steps
import ChatRelay.Proofs.Station.Sendings
import ChatRelay.Proofs.Station.Acts
import ChatRelay.Proofs.Station.Handling
import ChatRelay.Proofs.Station.Reading
import ChatRelay.Proofs.Watcher.Payloads
import ChatRelay.Proofs.Station.Authenticity
import ChatRelay.Proofs.Station.Announcements
import ChatRelay.Proofs.Station.Gossip
import ChatRelay.Proofs.Station.Spread
import ChatRelay.Proofs.Station.Traffic
import ChatRelay.Proofs.Mesh
import ChatRelay.Proofs.Mesh.Delivery
import ChatRelay.Proofs.Mesh.Gossip
import ChatRelay.Proofs.Watcher.Modes
import ChatRelay.Proofs.Curve.Field
import ChatRelay.Proofs.Curve.Keys
import ChatRelay.Proofs.Curve.Group
import ChatRelay.Proofs.Curve.Order
import ChatRelay.Proofs.Curve.Signatures
import ChatRelay.Proofs.Hexadecimal
import ChatRelay.Proofs.Admission.Authored
import ChatRelay.Proofs.Lifecycle.Steps
import ChatRelay.Proofs.Lifecycle.Permits
import ChatRelay.Proofs.Lifecycle.WindingUp
import ChatRelay.Proofs.Lifecycle.Farewells
import ChatRelay.Proofs.Lifecycle.Calls
import ChatRelay.Proofs.Station.Deliveries
import ChatRelay.Proofs.Backends.Sharing
import ChatRelay.Proofs.Backends.Acknowledgements
import ChatRelay.Proofs.Watcher.Retrying
import ChatRelay.Proofs.Station.Answers
import ChatRelay.Proofs.RateLimiter
import ChatRelay.Proofs.Station.Hearing
import ChatRelay.Proofs.Station.Sessions
import ChatRelay.Proofs.Station.Working
import ChatRelay.Proofs.Watcher.Heights
import ChatRelay.Proofs.Backends.Removal
import ChatRelay.Proofs.Admission.NamedOwner
import ChatRelay.Proofs.Watcher.Rechecking
import ChatRelay.Proofs.Rpc.Lookup
import ChatRelay.Proofs.Outpoints
import ChatRelay.Proofs.Watcher.Removals
import ChatRelay.Proofs.Rpc.Blocks
import ChatRelay.Proofs.Starting
import ChatRelay.Proofs.Shutdown
import ChatRelay.Proofs.Admission.Housekeeping
import ChatRelay.Proofs.Watcher.Window
