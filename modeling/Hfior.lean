import Hfior.Bridge.Safety
import Hfior.Cursor.System
import Hfior.Cursor.Invariant
import Hfior.Cursor.Delivery
import Hfior.Cursor.Reclaim
import Hfior.Cursor.Generations
import Hfior.Client.Basic
import Hfior.Library.Increasing
import Hfior.Bridge.Urgent
import Hfior.RingClient.System
import Hfior.RingClient.Invariant
import Hfior.RingClient.Handoff
import Hfior.RingClient.Loss
import Hfior.RingClient.Urgent
import Hfior.Reconnect
import Hfior.Bridge.Barrier
import Hfior.StartBarrier
import Hfior.EagerClient.Shutdown
import Hfior.Input.Bridge
import Hfior.Input.Frame
import Hfior.Input.Decode
import Hfior.Input.Stream
import Hfior.Input.Displacement
import Hfior.Input.Buttons
import Hfior.Input.Overrun
import Hfior.Library.BoundedQueue
import Hfior.Library.Calls
import Hfior.RingQueue
import Hfior.TwoPaths
import Hfior.Input.Ledgers
import Hfior.Input.Generations
import Hfior.Game.Client
import Hfior.Game.FailClosed
import Hfior.Game.LateLatch
import Hfior.Input.ButtonFlag
import Hfior.Cursor.StableLatch
import Hfior.Cursor.Latest
import Hfior.Client.Hello
import Hfior.RingClient.Depth
import Hfior.Game.Bounds
import Hfior.Client.Synchronize
import Hfior.RingClient.DrainBound
import Hfior.EagerPath
import Hfior.Bridge.PollTimeout
import Hfior.Descriptors
import Hfior.Client.SequenceChecker
import Hfior.Input.Schedule
import Hfior.Library.Interpolation
import Hfior.Statistics
import Hfior.RingClient.FramePolicy
import Hfior.Game.Benchmark
import Hfior.Game.Delivered
import Hfior.Game.Modes
import Hfior.Game.Integrity
import Hfior.Game.LatestCamera
import Hfior.Input.Program
import Hfior.Input.ProgramRuns
import Hfior.Input.Calls
import Hfior.Input.Report
import Hfior.Input.PublicationTrace
import Hfior.Library.Bisect
import Hfior.Input.ReconnectPacing
import Hfior.TraceAnalysis
import Hfior.RingClient.Harness
import Hfior.Client.Observation
import Hfior.RingClient.FrameRows
import Hfior.RingClient.Terminal
import Hfior.RingClient.RowInvariant
import Hfior.RingClient.RowsExact
import Hfior.RingClient.RowTotals
