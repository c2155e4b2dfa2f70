import BlockWatch.Bench
import BlockWatch.Cluster.Error
import BlockWatch.Cluster.Files
import BlockWatch.Cluster.Layout
import BlockWatch.Cluster.Local
import BlockWatch.Cluster.Machine
import BlockWatch.Cluster.Seeding
import BlockWatch.CommandLine.Arguments
import BlockWatch.CommandLine.LogFilter
import BlockWatch.CommandLine.Session
import BlockWatch.CommandLine.Setup
import BlockWatch.Config.Error
import BlockWatch.Config.Harness
import BlockWatch.Config.Load
import BlockWatch.Config.Scenario
import BlockWatch.Config.Topology
import BlockWatch.Fault
import BlockWatch.IoError
import BlockWatch.Json.Decode
import BlockWatch.Json.DottedPath
import BlockWatch.Json.Lexer
import BlockWatch.Json.Reader
import BlockWatch.Json.Scalar
import BlockWatch.Json.Token
import BlockWatch.Json.Value
import BlockWatch.Json.Writer
import BlockWatch.Main
import BlockWatch.Net.Address
import BlockWatch.Net.AddressReader
import BlockWatch.Node
import BlockWatch.Number.Binary64
import BlockWatch.Number.Decimal
import BlockWatch.Path
import BlockWatch.Poll.Error
import BlockWatch.Poll.Script
import BlockWatch.Poll.Status
import BlockWatch.Progress.Site
import BlockWatch.Progress.Wait
import BlockWatch.Progress.Window
import BlockWatch.Proofs.Number.Rounding
import BlockWatch.Proofs.Progress.Retained
import BlockWatch.Scenario.Cast
import BlockWatch.Scenario.Phase
import BlockWatch.Scenario.Run
import BlockWatch.Shell.Command
import BlockWatch.Shell.Expansion
import BlockWatch.Shell.Isolated
import BlockWatch.Shell.Launch
import BlockWatch.Shell.Pattern
import BlockWatch.Shell.Printed
import BlockWatch.Shell.Program
import BlockWatch.Shell.Reader
import BlockWatch.Shell.Redirected
import BlockWatch.Shell.Run
import BlockWatch.Shell.Setting
import BlockWatch.Shell.State
import BlockWatch.Shell.Sum
import BlockWatch.Shell.Test
import BlockWatch.Shell.Token
import BlockWatch.Shell.Utility
import BlockWatch.Shell.Word
import BlockWatch.Store.Basic
import BlockWatch.Store.Entry
import BlockWatch.Store.Listing
import BlockWatch.Store.Route
import BlockWatch.Text.Alike
import BlockWatch.Text.Blank
import BlockWatch.Text.Decoded
import BlockWatch.Text.Quoted
import BlockWatch.Text.Shapeless
import BlockWatch.Time.Brief
import BlockWatch.Time.Clock
import BlockWatch.Time.Itemized
import BlockWatch.Time.Span
import BlockWatch.Time.Timestamp
import BlockWatch.Proofs.Progress.Reports
import BlockWatch.Proofs.Progress.Course
import BlockWatch.Proofs.Progress.Rate
import BlockWatch.Proofs.Progress.Stopping
import BlockWatch.Proofs.Progress.Stall
import BlockWatch.Proofs.Scenario.Acts
import BlockWatch.Proofs.Scenario.Plan
import BlockWatch.Proofs.Scenario.Passage
import BlockWatch.Proofs.Scenario.Phases
import BlockWatch.Proofs.Scenario.Calls
import BlockWatch.Proofs.Progress.Reached
import BlockWatch.Proofs.Scenario.Journey
import BlockWatch.Proofs.Scenario.Accounting
import BlockWatch.Proofs.Scenario.Budget
import BlockWatch.Proofs.Progress.Missed
import BlockWatch.Proofs.Progress.Relaxed
import BlockWatch.Proofs.Progress.Silence
import BlockWatch.Proofs.Progress.Ratchet
import BlockWatch.Proofs.Scenario.Blame
import BlockWatch.Proofs.Progress.Recording
import BlockWatch.Proofs.Progress.Trimming
import BlockWatch.Proofs.Progress.Growth
import BlockWatch.Proofs.Json.Members
import BlockWatch.Proofs.Json.Lookup
import BlockWatch.Proofs.Json.Overwriting
import BlockWatch.Proofs.Json.Shape
import BlockWatch.Proofs.Number.Threshold
import BlockWatch.Proofs.Number.Whole
import BlockWatch.Proofs.Number.Shortest
import BlockWatch.Proofs.Json.Quoted
import BlockWatch.Proofs.Json.Numeral
import BlockWatch.Proofs.Json.Scaling
import BlockWatch.Proofs.Json.WrittenNumber
import BlockWatch.Proofs.Json.NumberValue
import BlockWatch.Proofs.Json.Spelled
import BlockWatch.Proofs.Json.Written
import BlockWatch.Proofs.Json.Reread
import BlockWatch.Proofs.Json.ReadShape
import BlockWatch.Proofs.Json.FiniteValue
import BlockWatch.Proofs.Json.Single
import BlockWatch.Proofs.Json.Gathered
import BlockWatch.Proofs.Net.HostText
import BlockWatch.Proofs.Time.Deadlines
import BlockWatch.Proofs.Time.SpanText
import BlockWatch.Proofs.Poll.Replay
import BlockWatch.Proofs.Poll.StatusText
import BlockWatch.Proofs.Config.ScenarioText
import BlockWatch.Proofs.Store.Changes
import BlockWatch.Proofs.Store.Walks
import BlockWatch.Proofs.Store.Files
import BlockWatch.Proofs.Store.Rewriting
import BlockWatch.Proofs.Store.Reopened
import BlockWatch.Proofs.Store.Confined
import BlockWatch.Proofs.Store.Trees
import BlockWatch.Proofs.Cluster.Operations
import BlockWatch.Proofs.Config.HarnessText
import BlockWatch.Proofs.Cluster.Patching
import BlockWatch.Proofs.Cluster.Homes
import BlockWatch.Proofs.Cluster.Copying
import BlockWatch.Proofs.Cluster.Snapshots
import BlockWatch.Proofs.Cluster.FailedSeeding
import BlockWatch.Proofs.Cluster.LayingOut
import BlockWatch.Proofs.Cluster.Overrides
import BlockWatch.Proofs.Cluster.Ports
import BlockWatch.Proofs.Cluster.Refusals
import BlockWatch.Proofs.Scenario.Layout
import BlockWatch.Proofs.Cluster.Footing
import BlockWatch.Proofs.Cluster.Provisioning
import BlockWatch.Proofs.Cluster.Beside
import BlockWatch.Proofs.Cluster.Logged
import BlockWatch.Proofs.Cluster.Tracking
import BlockWatch.Proofs.Cluster.Starts
import BlockWatch.Proofs.Scenario.Aftermath
import BlockWatch.Proofs.Scenario.Mirrored
import BlockWatch.Proofs.Scenario.Equipped
import BlockWatch.Proofs.Scenario.Casting
import BlockWatch.Proofs.Scenario.Counters
