import EventJournal.Cli.Grammar
import EventJournal.Cli.Help
import EventJournal.Cli.Invocation
import EventJournal.Cli.Output
import EventJournal.Cli.Run
import EventJournal.Cli.Table
import EventJournal.Config.Codec
import EventJournal.Config.Connect
import EventJournal.Config.EnvironmentFile
import EventJournal.Config.Layers
import EventJournal.Config.Load
import EventJournal.Config.Reading
import EventJournal.Config.Settings
import EventJournal.Decimal.Scientific
import EventJournal.Decimal.Shortest
import EventJournal.Error.Basic
import EventJournal.Error.Code
import EventJournal.Error.Codec
import EventJournal.Error.Report
import EventJournal.Event.Basic
import EventJournal.Event.Codec
import EventJournal.Event.Id
import EventJournal.Event.Marker
import EventJournal.Event.Options
import EventJournal.Event.RandomId
import EventJournal.Event.Registry
import EventJournal.Event.Shorthand
import EventJournal.Fault
import EventJournal.Feed.Bench
import EventJournal.Feed.Channel
import EventJournal.Feed.Codec
import EventJournal.Feed.Poller
import EventJournal.Feed.Pump
import EventJournal.Feed.Subscribers
import EventJournal.Json.Basic
import EventJournal.Json.Decode
import EventJournal.Json.Query
import EventJournal.Json.Reader
import EventJournal.Json.Text
import EventJournal.LogServer.Adapter
import EventJournal.LogServer.Http
import EventJournal.LogServer.Model
import EventJournal.LogServer.Protocol
import EventJournal.LogServer.Scripted
import EventJournal.LogServer.Unreliable
import EventJournal.Main
import EventJournal.Metrics
import EventJournal.Process.Checkpoint
import EventJournal.Process.Handler
import EventJournal.Process.Pass
import EventJournal.Process.Processor
import EventJournal.Process.Run
import EventJournal.Proofs.Error.Wrapping
import EventJournal.Proofs.Event.Codec
import EventJournal.Proofs.Feed.Accounts
import EventJournal.Proofs.Feed.Decision
import EventJournal.Proofs.Feed.Delivery
import EventJournal.Proofs.Feed.Exchange
import EventJournal.Proofs.Feed.Follow
import EventJournal.Proofs.Feed.Gauge
import EventJournal.Proofs.Feed.InFlight
import EventJournal.Proofs.Feed.Journal
import EventJournal.Proofs.Feed.Lossless
import EventJournal.Proofs.Feed.Outlet
import EventJournal.Proofs.Feed.Overlap
import EventJournal.Proofs.Feed.Patrol
import EventJournal.Proofs.Feed.Poller
import EventJournal.Proofs.Feed.Registration
import EventJournal.Proofs.Feed.Relay
import EventJournal.Proofs.Feed.Wired
import EventJournal.Proofs.Json.Text
import EventJournal.Proofs.LogServer.Addresses
import EventJournal.Proofs.LogServer.Agreement
import EventJournal.Proofs.LogServer.Answers
import EventJournal.Proofs.LogServer.Counters
import EventJournal.Proofs.LogServer.Expectation
import EventJournal.Proofs.LogServer.Extent
import EventJournal.Proofs.LogServer.Removal
import EventJournal.Proofs.LogServer.Requests
import EventJournal.Proofs.LogServer.Twin
import EventJournal.Proofs.LogServer.Wire
import EventJournal.Proofs.Process.Ahead
import EventJournal.Proofs.Process.AtLeastOnce
import EventJournal.Proofs.Process.AtMostOnce
import EventJournal.Proofs.Process.Completed
import EventJournal.Proofs.Process.Course
import EventJournal.Proofs.Process.Forward
import EventJournal.Proofs.Process.Groups
import EventJournal.Proofs.Process.Handings
import EventJournal.Proofs.Process.Lookout
import EventJournal.Proofs.Process.Neighbours
import EventJournal.Proofs.Process.Polling
import EventJournal.Proofs.Process.Schedules
import EventJournal.Proofs.Process.StartedOver
import EventJournal.Proofs.Process.Taken
import EventJournal.Proofs.Process.Unannounced
import EventJournal.Proofs.Process.WakeUp
import EventJournal.Proofs.Process.Watch
import EventJournal.Proofs.Store.AuditTrail
import EventJournal.Proofs.Store.Contention
import EventJournal.Proofs.Store.Erasure
import EventJournal.Proofs.Store.Horizon
import EventJournal.Proofs.Store.Independence
import EventJournal.Proofs.Store.Numbering
import EventJournal.Proofs.Store.Paging
import EventJournal.Proofs.Store.Queries
import EventJournal.Proofs.Store.Reading
import EventJournal.Proofs.Store.Soundness
import EventJournal.Proofs.Store.Trail
import EventJournal.Proofs.Store.Write
import EventJournal.Proofs.Time.Calendar
import EventJournal.Proofs.Time.Timestamp
import EventJournal.Proofs.Upcast.Lineage
import EventJournal.Proofs.Upcast.Outputs
import EventJournal.Proofs.Upcast.Reversal
import EventJournal.Proofs.Upcast.Stages
import EventJournal.Proofs.Upcast.Window
import EventJournal.Proofs.Url.Percent
import EventJournal.Proofs.Url.Segments
import EventJournal.Session.Backend
import EventJournal.Session.Basic
import EventJournal.Session.Codec
import EventJournal.Session.Command
import EventJournal.Session.Rehearsal
import EventJournal.Store.Basic
import EventJournal.Store.ClosedPool
import EventJournal.Store.Memory
import EventJournal.Telemetry.Filter
import EventJournal.Telemetry.Logging
import EventJournal.Telemetry.Recorder
import EventJournal.Text.Base64
import EventJournal.Text.Blank
import EventJournal.Text.Quoted
import EventJournal.Text.Radix
import EventJournal.Time.Calendar
import EventJournal.Time.Duration
import EventJournal.Time.Timestamp
import EventJournal.Toml.Reader
import EventJournal.Upcast.Chain
import EventJournal.Upcast.Codec
import EventJournal.Upcast.Draft
import EventJournal.Upcast.Script
import EventJournal.Upcast.Store
import EventJournal.Url.Basic
import EventJournal.Url.Host
import EventJournal.Url.Percent
import EventJournal.Url.Punycode
import EventJournal.Url.SocketAddress
import EventJournal.Yaml.Reader
import EventJournal.Yaml.Scalar
import EventJournal.Yaml.Writer
