import DualFlexivControl.Lib.Interleave
import DualFlexivControl.Lib.ProgramOrder
import DualFlexivControl.Lib.Scalar
import DualFlexivControl.Lib.Ieee
import DualFlexivControl.Lib.YamlTree
import DualFlexivControl.Lib.Maths
import DualFlexivControl.Lib.NdArray
import DualFlexivControl.Lib.CircularMean
import DualFlexivControl.Lib.Rotation
import DualFlexivControl.Lib.Effects
import DualFlexivControl.Lib.FeederQueue
import DualFlexivControl.Lib.Results
import DualFlexivControl.Lib.Tiling
import DualFlexivControl.Lib.Gather
import DualFlexivControl.Lib.Streak
import DualFlexivControl.Lib.Scatter
import DualFlexivControl.Lib.LeadsTo
import DualFlexivControl.Lib.Runs
import DualFlexivControl.Visualization.Geometry
import DualFlexivControl.Visualization.Chain
import DualFlexivControl.Streams.Ring
import DualFlexivControl.Streams.Seqlock
import DualFlexivControl.Streams.Last
import DualFlexivControl.Control.Channel
import DualFlexivControl.Control.Message
import DualFlexivControl.Control.Convention
import DualFlexivControl.Control.Schema
import DualFlexivControl.Layout
import DualFlexivControl.Layout.Columns
import DualFlexivControl.Layout.Decode
import DualFlexivControl.Layout.Deltas
import DualFlexivControl.Layout.NormStats
import DualFlexivControl.Skills.Episode
import DualFlexivControl.Brain.Channels
import DualFlexivControl.Brain.Writers
import DualFlexivControl.Control.Codec
import DualFlexivControl.Native.Setpoints
import DualFlexivControl.Native.Layout
import DualFlexivControl.Native.AtRest
import DualFlexivControl.Native.Abi
import DualFlexivControl.Native.Commands
import DualFlexivControl.Native.Trajectory
import DualFlexivControl.Native.Chatter
import DualFlexivControl.Native.CommandLine
import DualFlexivControl.Native.Convergence
import DualFlexivControl.Native.Run
import DualFlexivControl.Flexiv.SendControl
import DualFlexivControl.Flexiv.GripperThrottle
import DualFlexivControl.Flexiv.IntegratePose
import DualFlexivControl.Native.Gate
import DualFlexivControl.Flexiv.Bootstrap
import DualFlexivControl.Flexiv.MergedLoop
import DualFlexivControl.Flexiv.ControlSession
import DualFlexivControl.Flexiv.SessionLoop
import DualFlexivControl.Flexiv.Handoff
import DualFlexivControl.Session.Protocol
import DualFlexivControl.Session.Respawn
import DualFlexivControl.Session.RunMessages
import DualFlexivControl.Factr.Launch
import DualFlexivControl.Factr.Acts
import DualFlexivControl.Factr.Feedback
import DualFlexivControl.Daemon.Command
import DualFlexivControl.Daemon.Start
import DualFlexivControl.Daemon.AllOrNothing
import DualFlexivControl.Daemon.Serve
import DualFlexivControl.Daemon.Mirror
import DualFlexivControl.Daemon.Pending
import DualFlexivControl.Daemon.Frame
import DualFlexivControl.Daemon.Dropout
import DualFlexivControl.Daemon.Cameras
import DualFlexivControl.Dashboard.Alerts
import DualFlexivControl.Dashboard.Manager
import DualFlexivControl.Dashboard.ActiveRun
import DualFlexivControl.Dashboard.CrashLoop
import DualFlexivControl.Dashboard.Storage
import DualFlexivControl.Dashboard.Calibration
import DualFlexivControl.Dashboard.WriteBack
import DualFlexivControl.Dashboard.StaleSnapshot
import DualFlexivControl.Streams.Registry
import DualFlexivControl.Streams.Declared
import DualFlexivControl.Streams.Sweep
import DualFlexivControl.Skills.Replay
import DualFlexivControl.Skills.Store
import DualFlexivControl.Viewers.SyncReaders
import DualFlexivControl.Viewers.PolicyCounters
import DualFlexivControl.Consumers.Programs
import DualFlexivControl.Consumers.Attach
import DualFlexivControl.Consumers.Leaks
import DualFlexivControl.Processes.RunNames
import DualFlexivControl.Processes.Orphans
import DualFlexivControl.Processes.Ownership
import DualFlexivControl.Processes.SaveGrace
import DualFlexivControl.Factr.SigintFirst
import DualFlexivControl.Collection.Features
import DualFlexivControl.Collection.Teleop
import DualFlexivControl.Factr.Freshness
import DualFlexivControl.Factr.Intake
import DualFlexivControl.Collection.Controllers
import DualFlexivControl.Collection.Images
import DualFlexivControl.Collection.Episodes
import DualFlexivControl.Documents
import DualFlexivControl.Collection.Recorder
import DualFlexivControl.Policy.EvalLoop
import DualFlexivControl.Policy.Hold
import DualFlexivControl.Policy.Projection
import DualFlexivControl.Policy.Adapter
import DualFlexivControl.Policy.Websocket
import DualFlexivControl.Policy.Remote
import DualFlexivControl.Processes.Supervision
import DualFlexivControl.Processes.Pacing
import DualFlexivControl.Lib.CatchUp
import DualFlexivControl.Viewers.Routes
import DualFlexivControl.Viewers.Plots
import DualFlexivControl.Lib.StampGroups
import DualFlexivControl.Policy.Horizon
import DualFlexivControl.Viewers.LiveScene
import DualFlexivControl.Policy.Msgpack
import DualFlexivControl.Collection.Pixels
import DualFlexivControl.Policy.Requests
import DualFlexivControl.Policy.Pictures
import DualFlexivControl.Dashboard.Downloads
