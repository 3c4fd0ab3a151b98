import LanguageClient.Activation
import LanguageClient.Bridge
import LanguageClient.Client
import LanguageClient.CommandLine.Command
import LanguageClient.CommandLine.Execute
import LanguageClient.CommandLine.Flag
import LanguageClient.CommandLine.Help
import LanguageClient.Config.Basic
import LanguageClient.Config.Load
import LanguageClient.Config.Setting
import LanguageClient.Config.Source
import LanguageClient.Config.Yaml
import LanguageClient.Document
import LanguageClient.Duration
import LanguageClient.Error
import LanguageClient.FileSystem
import LanguageClient.Json.Decode
import LanguageClient.Json.Fragment
import LanguageClient.Json.Grammar
import LanguageClient.Json.Text
import LanguageClient.Json.Token
import LanguageClient.Json.Tree
import LanguageClient.Json.Value
import LanguageClient.Json.Writer
import LanguageClient.Lifecycle
import LanguageClient.Log.Channel
import LanguageClient.Log.Record
import LanguageClient.Log.Time
import LanguageClient.Main
import LanguageClient.Manifest
import LanguageClient.Number.Binary64
import LanguageClient.Number.Decimal
import LanguageClient.Path
import LanguageClient.Platform
import LanguageClient.Proofs.Activation
import LanguageClient.Proofs.Bridge.Relay
import LanguageClient.Proofs.Bridge.Wire
import LanguageClient.Proofs.Config.Layers
import LanguageClient.Proofs.Config.Snapshot
import LanguageClient.Proofs.Config.Validity
import LanguageClient.Proofs.Document
import LanguageClient.Proofs.FileSystem.MakeDirectory
import LanguageClient.Proofs.FileSystem.Place
import LanguageClient.Proofs.FileSystem.Walk
import LanguageClient.Proofs.Json.Compact
import LanguageClient.Proofs.Json.Layout
import LanguageClient.Proofs.Json.Members
import LanguageClient.Proofs.Json.Object
import LanguageClient.Proofs.Json.Text
import LanguageClient.Proofs.Json.Token
import LanguageClient.Proofs.Json.Writer
import LanguageClient.Proofs.Log.File
import LanguageClient.Proofs.Log.History
import LanguageClient.Proofs.Log.Order
import LanguageClient.Proofs.Log.Records
import LanguageClient.Proofs.Log.Time
import LanguageClient.Proofs.Log.Usage
import LanguageClient.Proofs.Number.Decimal
import LanguageClient.Proofs.Path
import LanguageClient.Proofs.Platform
import LanguageClient.Proofs.Provision.Address
import LanguageClient.Proofs.Provision.AllOrNothing
import LanguageClient.Proofs.Provision.Callers
import LanguageClient.Proofs.Provision.Cancellation
import LanguageClient.Proofs.Provision.Interleaving
import LanguageClient.Proofs.Provision.Target
import LanguageClient.Proofs.Rehearsal.Scene
import LanguageClient.Proofs.Rpc.Closing
import LanguageClient.Proofs.Rpc.Correlation
import LanguageClient.Proofs.Rpc.Desk
import LanguageClient.Proofs.Rpc.Framing
import LanguageClient.Proofs.Rpc.Grammar
import LanguageClient.Proofs.Rpc.HeaderBlock
import LanguageClient.Proofs.Rpc.Items
import LanguageClient.Proofs.Rpc.Listening
import LanguageClient.Proofs.Rpc.MemberOrder
import LanguageClient.Proofs.Rpc.Noise
import LanguageClient.Proofs.Rpc.Operations
import LanguageClient.Proofs.Rpc.ReadLoop
import LanguageClient.Proofs.Rpc.Reception
import LanguageClient.Proofs.Rpc.Refusal
import LanguageClient.Proofs.Rpc.RoundTrip
import LanguageClient.Proofs.Rpc.Senders
import LanguageClient.Proofs.Rpc.Traffic
import LanguageClient.Proofs.Rpc.Truncation
import LanguageClient.Proofs.Rpc.Waits
import LanguageClient.Proofs.Run.Activation
import LanguageClient.Proofs.Run.Attendance
import LanguageClient.Proofs.Run.Calls
import LanguageClient.Proofs.Run.Course
import LanguageClient.Proofs.Run.Dialogue
import LanguageClient.Proofs.Run.Ledger
import LanguageClient.Proofs.Run.OpenOnce
import LanguageClient.Proofs.Run.Openings
import LanguageClient.Proofs.Run.Selection
import LanguageClient.Proofs.Run.Teardown
import LanguageClient.Proofs.Run.Upkeep
import LanguageClient.Proofs.Session.Id
import LanguageClient.Proofs.Session.Ownership
import LanguageClient.Proofs.Shell.Quoting
import LanguageClient.Proofs.Status.Fit
import LanguageClient.Proofs.Status.Memory
import LanguageClient.Proofs.Supervisor.Chronicle
import LanguageClient.Proofs.Supervisor.Complaints
import LanguageClient.Proofs.Supervisor.Control
import LanguageClient.Proofs.Supervisor.Conversation
import LanguageClient.Proofs.Supervisor.CrashReport
import LanguageClient.Proofs.Supervisor.Disclosure
import LanguageClient.Proofs.Supervisor.ErrorOutput
import LanguageClient.Proofs.Supervisor.InFlight
import LanguageClient.Proofs.Supervisor.Lifecycle
import LanguageClient.Proofs.Supervisor.Observers
import LanguageClient.Proofs.Supervisor.Order
import LanguageClient.Proofs.Supervisor.Speaking
import LanguageClient.Proofs.Supervisor.StartResult
import LanguageClient.Proofs.Supervisor.Startup
import LanguageClient.Proofs.Supervisor.StopRequest
import LanguageClient.Proofs.Supervisor.StopWhileStarting
import LanguageClient.Proofs.Supervisor.System
import LanguageClient.Proofs.Supervisor.ThreadStep
import LanguageClient.Proofs.Supervisor.Turn
import LanguageClient.Proofs.Supervisor.WireOrder
import LanguageClient.Proofs.Terminal.Block
import LanguageClient.Proofs.Terminal.Clip
import LanguageClient.Proofs.Text.Case
import LanguageClient.Proofs.Text.Separator
import LanguageClient.Proofs.Text.Space
import LanguageClient.Proofs.Text.Split
import LanguageClient.Proofs.Text.Utf8
import LanguageClient.Proofs.Url
import LanguageClient.Proofs.Uuid
import LanguageClient.Proofs.Watch
import LanguageClient.Proofs.Watch.Failure
import LanguageClient.Provision.Basic
import LanguageClient.Provision.Step
import LanguageClient.Rehearsal.Notation
import LanguageClient.Rehearsal.Performance
import LanguageClient.Rehearsal.Scene
import LanguageClient.Rehearsal.Script
import LanguageClient.Rehearsal.Stage
import LanguageClient.Report
import LanguageClient.Rpc.Connection
import LanguageClient.Rpc.Frame
import LanguageClient.Rpc.Message
import LanguageClient.Run
import LanguageClient.Session.Basic
import LanguageClient.Session.Id
import LanguageClient.Shell.Child
import LanguageClient.Shell.Command
import LanguageClient.Shell.Machine
import LanguageClient.Shell.Program
import LanguageClient.Shell.Token
import LanguageClient.Status.Model
import LanguageClient.Status.View
import LanguageClient.Supervisor.Protocol
import LanguageClient.Supervisor.State
import LanguageClient.Supervisor.Step
import LanguageClient.Terminal.Block
import LanguageClient.Terminal.Clip
import LanguageClient.Terminal.Notifier
import LanguageClient.Text.Case
import LanguageClient.Text.CellWidth
import LanguageClient.Text.Cluster
import LanguageClient.Text.Printable
import LanguageClient.Text.Quoted
import LanguageClient.Text.Replace
import LanguageClient.Text.Space
import LanguageClient.Text.Template
import LanguageClient.Text.Utf8
import LanguageClient.Url
import LanguageClient.Uuid
import LanguageClient.Watch
import LanguageClient.Yaml.Decode
import LanguageClient.Yaml.Node
import LanguageClient.Yaml.Scalar
import LanguageClient.Yaml.Token
