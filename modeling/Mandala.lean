import Mandala.Core.Effects
import Mandala.Core.Interference
import Mandala.Core.Processes
import Mandala.Core.Transition
import Mandala.Core.Chain
import Mandala.Core.PostOrder
import Mandala.Core.Worklist
import Mandala.Core.Cursor
import Mandala.Core.Lines
import Mandala.Core.Text
import Mandala.Core.Pieces
import Mandala.Core.ShellWords
import Mandala.Core.ControlSequences
import Mandala.Core.Ascii
import Mandala.Core.LossyLines
import Mandala.Core.Decimal
import Mandala.Core.Pattern
import Mandala.Core.Ordering
import Mandala.Core.Replay
import Mandala.Core.JobSlot
import Mandala.Data.Json
import Mandala.Nix.Attrs
import Mandala.Nix.Text
import Mandala.Schema.Pki
import Mandala.Schema.Topology
import Mandala.Schema.Net
import Mandala.Runner.Events
import Mandala.Runner.HostState
import Mandala.Runner.Tailer
import Mandala.Runner.Writer
import Mandala.Runner.Stream
import Mandala.Data.Printing
import Mandala.Runner.BuildLogCap
import Mandala.Runner.BuildOutcome
import Mandala.Registry.Liveness
import Mandala.Registry.RunId
import Mandala.Runner.Discovery
import Mandala.Core.Newest
import Mandala.Registry.Retention
import Mandala.Panes.Ansi
import Mandala.Panes.Scroll
import Mandala.Panes.AttachedLog
import Mandala.Runner.LaunchRetention
import Mandala.Runner.DeployRun
import Mandala.Runner.Terminate
import Mandala.Runner.TerminateScope
import Mandala.Deploy.Data
import Mandala.Deploy.SshOptions
import Mandala.Deploy.Process
import Mandala.Deploy.Program
import Mandala.Deploy.Preflight
import Mandala.Deploy.Activation
import Mandala.Deploy.BootStage
import Mandala.Deploy.ChildGroup
import Mandala.Deploy.Ownership
import Mandala.Drift.Compare
import Mandala.Drift.Cache
import Mandala.Explorer.State
import Mandala.Explorer.Refresh
import Mandala.Explorer.Selection
import Mandala.Explorer.DeployTarget
import Mandala.Explorer.Provenance
import Mandala.Explorer.Slot
import Mandala.Explorer.RunWatch
import Mandala.Explorer.AfterMutation
import Mandala.Explorer.ContextLoad
import Mandala.Engine.Data
import Mandala.Engine.HostPipeline
import Mandala.Engine.Recount
import Mandala.Engine.Verdict
import Mandala.Engine.CommandSafety
import Mandala.Engine.BuildProgress
import Mandala.Engine.Settlement
import Mandala.Engine.DerivationNames
import Mandala.Engine.Recovery
import Mandala.Engine.FanOut
import Mandala.Fleet.Aggregate
import Mandala.Fleet.Wire
import Mandala.Fleet.Acceptance
import Mandala.Fleet.Selector
import Mandala.Secrets.Declaration
import Mandala.Secrets.SopsConfig
import Mandala.Secrets.Sealing
import Mandala.Fleet.Host
import Mandala.Fleet.DeploySettings
import Mandala.Engine.FlattenedSettings
import Mandala.Fleet.Connection
import Mandala.Fleet.LayeredSettings
import Mandala.Fleet.Groups
import Mandala.Fleet.SelectorAlgebra
import Mandala.Fleet.Taxonomy
import Mandala.Engine.Plan
import Mandala.Server.ConfirmGate
import Mandala.Server.DriftTool
import Mandala.Server.DriftEvidence
import Mandala.Server.Reload
import Mandala.Server.RunStatus
import Mandala.Context.Acquire
import Mandala.Context.PortWalk
import Mandala.Context.Leadership
import Mandala.Context.DiscoveryFile
import Mandala.Context.Connection
import Mandala.Context.HelloGate
import Mandala.Context.Ping
import Mandala.Context.Endpoint
import Mandala.Context.Subscription
import Mandala.Context.Subscribers
import Mandala.Context.Session
import Mandala.Context.Retry
import Mandala.Forest.Message
import Mandala.Forest.BuildForest
import Mandala.Forest.Retention
import Mandala.Forest.Summary
import Mandala.Forest.CappedNodes
import Mandala.Forest.Bounds
import Mandala.Forest.Drv
import Mandala.Forest.Rows
import Mandala.Forest.Projection
import Mandala.Forest.Life
import Mandala.Forest.Lifecycle
import Mandala.Forest.Named
import Mandala.Forest.ReadTiming
import Mandala.Forest.Reading
import Mandala.Forest.Backfill
import Mandala.Eval.Worker
import Mandala.Eval.Pairing
import Mandala.Eval.Teardown
import Mandala.Eval.Sweep
import Mandala.Eval.Toplevels
import Mandala.Eval.Backends
import Mandala.Core.Brackets
import Mandala.Server.Activity
import Mandala.Explorer.Activity
import Mandala.Explorer.Watching
import Mandala.Server.NodeTools
import Mandala.Server.AdhocOutput
import Mandala.Explorer.AutoAttach
import Mandala.Core.Reader
import Mandala.Data.Reading
import Mandala.Data.Derive
import Mandala.Core.LineFraming
import Mandala.Context.Wire
import Mandala.Context.Transport
import Mandala.Eval.Service
import Mandala.Eval.Served
import Mandala.Eval.Exchange
import Mandala.Eval.Progress
import Mandala.Core.Unfolding
import Mandala.Eval.Conversion
import Mandala.Registry.Allocation
