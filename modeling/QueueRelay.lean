import QueueRelay.Backoff
import QueueRelay.Broker
import QueueRelay.Broker.Connection
import QueueRelay.Broker.Declaration
import QueueRelay.Broker.Delivery
import QueueRelay.Broker.Routing
import QueueRelay.Broker.State
import QueueRelay.Bus.Credentials
import QueueRelay.Bus.Sender
import QueueRelay.Bytes
import QueueRelay.Channel
import QueueRelay.Cloud.Client
import QueueRelay.Config
import QueueRelay.Config.BrokerAddress
import QueueRelay.Config.Codec
import QueueRelay.Config.File
import QueueRelay.Config.Layers
import QueueRelay.Config.Lenient
import QueueRelay.Config.Reading
import QueueRelay.Config.Secret
import QueueRelay.Config.Target
import QueueRelay.Digest.Base64
import QueueRelay.Digest.Sha256
import QueueRelay.DotEnv
import QueueRelay.DotEnv.Expansion
import QueueRelay.Duration
import QueueRelay.ExchangeKind
import QueueRelay.Health.Check
import QueueRelay.Health.Report
import QueueRelay.Http
import QueueRelay.Http.Status
import QueueRelay.Json.Codec
import QueueRelay.Json.Reader
import QueueRelay.Json.Writer
import QueueRelay.Link
import QueueRelay.Link.Phase
import QueueRelay.LinkError
import QueueRelay.Main
import QueueRelay.Message
import QueueRelay.Number.Binary64
import QueueRelay.Number.Nearest
import QueueRelay.Number.Shortest
import QueueRelay.Options
import QueueRelay.Outcome
import QueueRelay.Program
import QueueRelay.Proofs.Backoff
import QueueRelay.Proofs.Broker.Account
import QueueRelay.Proofs.Broker.Bindings
import QueueRelay.Proofs.Broker.Calls
import QueueRelay.Proofs.Broker.Change
import QueueRelay.Proofs.Broker.Clients
import QueueRelay.Proofs.Broker.Closing
import QueueRelay.Proofs.Broker.Consumer
import QueueRelay.Proofs.Broker.Deeds
import QueueRelay.Proofs.Broker.Deliveries
import QueueRelay.Proofs.Broker.Endings
import QueueRelay.Proofs.Broker.Fate
import QueueRelay.Proofs.Broker.Journal
import QueueRelay.Proofs.Broker.Line
import QueueRelay.Proofs.Broker.Moves
import QueueRelay.Proofs.Broker.Places
import QueueRelay.Proofs.Broker.Returns
import QueueRelay.Proofs.Broker.Routes
import QueueRelay.Proofs.Broker.Shifts
import QueueRelay.Proofs.Bus.Credentials
import QueueRelay.Proofs.Config.BrokerAddress
import QueueRelay.Proofs.Config.Codec
import QueueRelay.Proofs.DotEnv.Lines
import QueueRelay.Proofs.DotEnv.Reading
import QueueRelay.Proofs.Link.Apart
import QueueRelay.Proofs.Link.Holding
import QueueRelay.Proofs.Link.Own
import QueueRelay.Proofs.Link.Tenure
import QueueRelay.Proofs.Number.Doubles
import QueueRelay.Proofs.Number.Rounding
import QueueRelay.Proofs.Program.Answering
import QueueRelay.Proofs.Program.Rule
import QueueRelay.Proofs.Program.Setting
import QueueRelay.Proofs.Program.Yielding
import QueueRelay.Proofs.Relay.Backend
import QueueRelay.Proofs.Relay.Conservation
import QueueRelay.Proofs.Relay.Counters
import QueueRelay.Proofs.Relay.Course
import QueueRelay.Proofs.Relay.Crew
import QueueRelay.Proofs.Relay.Custody
import QueueRelay.Proofs.Relay.Disposition
import QueueRelay.Proofs.Relay.Handling
import QueueRelay.Proofs.Relay.IntoBroker
import QueueRelay.Proofs.Relay.IntoCollector
import QueueRelay.Proofs.Relay.Order
import QueueRelay.Proofs.Relay.Reconnecting
import QueueRelay.Proofs.Relay.Run
import QueueRelay.Proofs.Relay.Sessions
import QueueRelay.Proofs.Relay.Sharing
import QueueRelay.Proofs.Relay.Source
import QueueRelay.Proofs.Relay.Standing
import QueueRelay.Proofs.Relay.Startup
import QueueRelay.Proofs.Relay.Statistics
import QueueRelay.Proofs.Relay.Tending
import QueueRelay.Proofs.Relay.Turns
import QueueRelay.Proofs.Sink.Attempts
import QueueRelay.Proofs.Sink.Counters
import QueueRelay.Proofs.Sink.Deciding
import QueueRelay.Proofs.Sink.Publishing
import QueueRelay.Proofs.Sink.Send
import QueueRelay.Proofs.Table
import QueueRelay.Proofs.Topology.Alone
import QueueRelay.Proofs.Topology.Calls
import QueueRelay.Proofs.Topology.Course
import QueueRelay.Proofs.Topology.Progress
import QueueRelay.Proofs.Topology.Tally
import QueueRelay.Proofs.Topology.Together
import QueueRelay.Proofs.Url.Authority
import QueueRelay.Proofs.Url.Encoding
import QueueRelay.Proofs.Url.Ipv6
import QueueRelay.Proofs.Url.Path
import QueueRelay.Proofs.Url.Roundtrip
import QueueRelay.Relay.Calls
import QueueRelay.Relay.Error
import QueueRelay.Relay.Run
import QueueRelay.Relay.Setup
import QueueRelay.Simulation.Action
import QueueRelay.Simulation.Device
import QueueRelay.Simulation.Perform
import QueueRelay.Simulation.Rehearsal
import QueueRelay.Simulation.Server
import QueueRelay.Simulation.Session
import QueueRelay.Simulation.Trial
import QueueRelay.Simulation.World
import QueueRelay.Sink
import QueueRelay.Sink.Broker
import QueueRelay.Sink.Build
import QueueRelay.Sink.Bus
import QueueRelay.Sink.Cloud
import QueueRelay.Sink.Collector
import QueueRelay.Sink.Place
import QueueRelay.Sink.Send
import QueueRelay.Sink.Status
import QueueRelay.Table
import QueueRelay.Text.Blank
import QueueRelay.Text.Printable
import QueueRelay.Text.Quoted
import QueueRelay.Toml
import QueueRelay.Toml.Node
import QueueRelay.Toml.Scalar
import QueueRelay.Toml.Text
import QueueRelay.Topology
import QueueRelay.Topology.Ensure
import QueueRelay.Url
import QueueRelay.Url.Domain
import QueueRelay.Url.Encoding
import QueueRelay.Url.Host
import QueueRelay.Url.Path
import QueueRelay.Value
import QueueRelay.Proofs.Sink.Texts
import QueueRelay.Proofs.Relay.Waiting
import QueueRelay.Proofs.Config.Keys
import QueueRelay.Proofs.DotEnv.Written
import QueueRelay.Proofs.DotEnv.Joining
import QueueRelay.Proofs.Url.Form
import QueueRelay.Proofs.Bus.Token
import QueueRelay.Proofs.Bus.Parts
import QueueRelay.Proofs.Sink.Build
import QueueRelay.Proofs.Broker.Redelivery
import QueueRelay.Proofs.Relay.Reconnects
import QueueRelay.Proofs.Backoff.Cap
import QueueRelay.Proofs.Config.Precedence
import QueueRelay.Proofs.Link.Phases
import QueueRelay.Proofs.Broker.Posting
