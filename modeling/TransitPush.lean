import TransitPush.Api.Handler
import TransitPush.Api.Request
import TransitPush.Delivery.Answer
import TransitPush.Delivery.Counter
import TransitPush.Delivery.Courier
import TransitPush.Delivery.Http
import TransitPush.Delivery.Pool
import TransitPush.Delivery.Sweep
import TransitPush.Delivery.Transport
import TransitPush.Digest.Sha256
import TransitPush.Feed.Codec
import TransitPush.Feed.Envelope
import TransitPush.Feed.Event
import TransitPush.Feed.Journey
import TransitPush.Feed.Ref
import TransitPush.Feed.Situation
import TransitPush.Feed.Version
import TransitPush.Feed.Wire
import TransitPush.Hub
import TransitPush.Json.Document
import TransitPush.Json.Double
import TransitPush.Json.Format
import TransitPush.Json.Printer
import TransitPush.Json.Token
import TransitPush.Json.Value
import TransitPush.Net.Ip
import TransitPush.Net.Socket
import TransitPush.Net.Url
import TransitPush.Proofs.Delivery.Completions
import TransitPush.Proofs.Delivery.CourierRun
import TransitPush.Proofs.Delivery.Draining
import TransitPush.Proofs.Delivery.Heartbeats
import TransitPush.Proofs.Delivery.PoolMoves
import TransitPush.Proofs.Delivery.PoolRun
import TransitPush.Proofs.Delivery.PushAnswers
import TransitPush.Proofs.Delivery.Removals
import TransitPush.Proofs.Delivery.SweepRun
import TransitPush.Proofs.Delivery.Terminations
import TransitPush.Proofs.Digest.Sha256
import TransitPush.Proofs.Feed.Distinct
import TransitPush.Proofs.Feed.Returning
import TransitPush.Proofs.Feed.RoundTrip
import TransitPush.Proofs.Feed.Yielding
import TransitPush.Proofs.Json.Numbers
import TransitPush.Proofs.Json.Parsing
import TransitPush.Proofs.Json.Returning
import TransitPush.Proofs.Json.Yielding
import TransitPush.Proofs.Registry.Effects
import TransitPush.Proofs.Registry.Lifecycle
import TransitPush.Proofs.Registry.Mirrored
import TransitPush.Proofs.Registry.Overlap
import TransitPush.Proofs.Registry.Saving
import TransitPush.Proofs.Registry.Subscribers
import TransitPush.Proofs.Registry.Validity
import TransitPush.Proofs.Routing.CallsElsewhere
import TransitPush.Proofs.Routing.CompleteRoutes
import TransitPush.Proofs.Routing.Direction
import TransitPush.Proofs.Routing.Excerpts
import TransitPush.Proofs.Routing.Fingerprint
import TransitPush.Proofs.Routing.FirstPush
import TransitPush.Proofs.Routing.Gathering
import TransitPush.Proofs.Routing.HubRun
import TransitPush.Proofs.Routing.Identification
import TransitPush.Proofs.Routing.Journeys
import TransitPush.Proofs.Routing.KeptStops
import TransitPush.Proofs.Routing.KnownRoutes
import TransitPush.Proofs.Routing.Pushes
import TransitPush.Proofs.Routing.Remainder
import TransitPush.Proofs.Routing.Selection
import TransitPush.Proofs.Routing.Stations
import TransitPush.Proofs.Routing.Suppression
import TransitPush.Proofs.Routing.WithoutStops
import TransitPush.Proofs.Server.Failures
import TransitPush.Proofs.Server.Producers
import TransitPush.Proofs.Server.Removal
import TransitPush.Proofs.Server.Requests
import TransitPush.Proofs.Server.Run
import TransitPush.Proofs.Server.Schedule
import TransitPush.Proofs.Store.Index
import TransitPush.Proofs.Store.Mirrors
import TransitPush.Proofs.Store.Mutation
import TransitPush.Proofs.Store.Refinement
import TransitPush.Proofs.Store.Run
import TransitPush.Proofs.Table
import TransitPush.Proofs.Text.Decimal
import TransitPush.Proofs.Text.Ends
import TransitPush.Proofs.Text.Joined
import TransitPush.Proofs.Text.Trim
import TransitPush.Proofs.Time.Calendar
import TransitPush.Proofs.Time.Clock
import TransitPush.Proofs.Time.Order
import TransitPush.Proofs.Time.Text
import TransitPush.Registry
import TransitPush.Routing.Dedup
import TransitPush.Routing.LiveRoutes
import TransitPush.Routing.Matching
import TransitPush.Routing.Router
import TransitPush.Routing.Topology
import TransitPush.Routing.Trimming
import TransitPush.Settings.Basic
import TransitPush.Settings.Startup
import TransitPush.Settings.Toml
import TransitPush.Store.Basic
import TransitPush.Store.Memory
import TransitPush.Store.Refusing
import TransitPush.Subscription
import TransitPush.Supply
import TransitPush.Table
import TransitPush.Text.Blank
import TransitPush.Text.Decimal
import TransitPush.Text.Percent
import TransitPush.Time.Calendar
import TransitPush.Time.Interval
import TransitPush.Time.Rfc3339
import TransitPush.Time.Timestamp
import TransitPush.TimestampMap
