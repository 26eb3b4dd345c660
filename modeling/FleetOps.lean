import FleetOps.Library.Runs
import FleetOps.Library.RowStore
import FleetOps.Command.ClaimFailure
import FleetOps.Command.Dispatch
import FleetOps.Command.Creation
import FleetOps.Command.Announcement
import FleetOps.Robot.Delivery
import FleetOps.Library.Calendar
import FleetOps.Library.Datetime
import FleetOps.Telemetry.Reading
import FleetOps.Telemetry.Database
import FleetOps.Config
import FleetOps.Telemetry.Ingest
import FleetOps.Telemetry.Acknowledged
import FleetOps.Library.ConsumerGroup
import FleetOps.Telemetry.Worker
import FleetOps.Telemetry.Moves
import FleetOps.Telemetry.Persistence
import FleetOps.Telemetry.ExactlyOnce
import FleetOps.Telemetry.Poison
import FleetOps.Fleet.Listing
import FleetOps.Fleet.LastSeen
import FleetOps.Telemetry.SameRow
import FleetOps.Library.LossyQueue
import FleetOps.Live.Fanout
import FleetOps.Live.FreshSuffix
import FleetOps.Live.Listener
import FleetOps.Live.Skipped
import FleetOps.Command.Sweep
import FleetOps.Command.Timestamps
import FleetOps.Platform.Events
import FleetOps.Platform.Streams
import FleetOps.Platform.Separation
import FleetOps.Telemetry.Faults
import FleetOps.Telemetry.Recovery
import FleetOps.Library.SlidingWindow
import FleetOps.Library.Server
import FleetOps.Middleware.RateLimit
import FleetOps.Middleware.Window
import FleetOps.Middleware.Agreement
import FleetOps.Middleware.ClientIp
import FleetOps.Library.Decimal
import FleetOps.Auth.Tickets
import FleetOps.Live.Viewers
import FleetOps.Library.Floats
import FleetOps.Robot.Simulator
import FleetOps.Robot.Simulation
import FleetOps.Robot.Stopped
import FleetOps.Telemetry.Conserved
import FleetOps.Library.Session
import FleetOps.Telemetry.Deferred
import FleetOps.Telemetry.Atomic
import FleetOps.Telemetry.Provenance
import FleetOps.Fleet.Offline
import FleetOps.Telemetry.Calls
import FleetOps.Dashboard.WebSocket
import FleetOps.Library.Newest
import FleetOps.Dashboard.FleetData
import FleetOps.Dashboard.Events
import FleetOps.Dashboard.Readings
import FleetOps.Command.Drain
import FleetOps.Telemetry.Resolved
import FleetOps.Fleet.Timeline
import FleetOps.Fleet.HealthTrend
import FleetOps.Fleet.Runtime
import FleetOps.Library.Cells
import FleetOps.Fleet.Analytics
import FleetOps.Fleet.StatusViews
import FleetOps.Auth.Access
import FleetOps.Auth.Passwords
import FleetOps.Telemetry.PruneLoop
import FleetOps.Command.ScannerLock
import FleetOps.Dashboard.StatusBreakdown
import FleetOps.Dashboard.Ticket
import FleetOps.Robot.Missions
import FleetOps.Robot.Books
import FleetOps.Fleet.Completions
import FleetOps.Fleet.RosterUpgrade
import FleetOps.Live.Registry
import FleetOps.Library.Shares
import FleetOps.Robot.Launch
import FleetOps.Auth.Identity
import FleetOps.Auth.Bootstrap
import FleetOps.Auth.Guessing
import FleetOps.Fleet.Cached
import FleetOps.Platform.Authorised
import FleetOps.Robot.Batcher
import FleetOps.Telemetry.Pruners
import FleetOps.Platform.Executions
import FleetOps.Dashboard.Tabs
import FleetOps.Robot.Readings
import FleetOps.Platform.Stores
