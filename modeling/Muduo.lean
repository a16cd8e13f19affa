import Muduo.Library.Transition
import Muduo.Library.Fifo
import Muduo.Platform
import Muduo.Buffer.Basic
import Muduo.Buffer.Spec
import Muduo.Buffer.Refinement
import Muduo.Poller.Basic
import Muduo.Poller.Bookkeeping
import Muduo.TcpConnection.Basic
import Muduo.TcpConnection.Spec
import Muduo.TcpConnection.System
import Muduo.TcpConnection.Effect
import Muduo.TcpConnection.Invariant
import Muduo.TcpConnection.Output
import Muduo.TcpConnection.Callbacks
import Muduo.EventLoop.Basic
import Muduo.AsyncLogging.Basic
import Muduo.AsyncLogging.Complete
import Muduo.EventLoop.Wakeup
import Muduo.TcpServer.Basic
import Muduo.TcpConnection.Quiet
import Muduo.TcpConnection.Queues
import Muduo.TcpConnection.States
import Muduo.TcpConnection.Concurrent
import Muduo.TcpConnection.HalfClose
import Muduo.TcpServer.Wellformed
import Muduo.TcpServer.References
import Muduo.TcpServer.Registry
import Muduo.TcpServer.Stage
import Muduo.TcpServer.Rounds
import Muduo.TcpServer.Lifecycle
import Muduo.TcpServer.Contract
import Muduo.EventLoop.Journal
import Muduo.EventLoop.Batches
import Muduo.EventLoop.Quit
import Muduo.EventLoop.EventLoopThread
import Muduo.Library.Wheel
import Muduo.TimerWheel.IdleWatch
import Muduo.TimerWheel.Expiry
import Muduo.TimerWheel.Eviction
import Muduo.TimerWheel.Sharing
import Muduo.TcpServer.IdleTimeout
import Muduo.TcpConnection.ReadFailure
import Muduo.Buffer.Growth
import Muduo.Poller.Interest
import Muduo.Poller.Polling
import Muduo.Buffer.Unchecked
import Muduo.AsyncLogging.Effect
import Muduo.AsyncLogging.Lifecycle
import Muduo.AsyncLogging.Recycling
import Muduo.TcpServer.Keys
import Muduo.TcpServer.Balance
import Muduo.EventLoop.SelfWake
import Muduo.Logger.Basic
import Muduo.Logger.Tags
import Muduo.AsyncLogging.LongLines
import Muduo.Example.Servers
import Muduo.TcpConnection.Input
import Muduo.AsyncLogging.WholeLines
import Muduo.AsyncLogging.Draining
import Muduo.Example.AsyncOutput
import Muduo.TcpConnection.Notifications
import Muduo.TimerWheel.RealTime
import Muduo.TcpConnection.Safety
import Muduo.TcpServer.Safety
import Muduo.TcpServer.Confinement
import Muduo.TcpServer.Removal
import Muduo.TcpServer.Draining
import Muduo.TcpConnection.Alike
import Muduo.TcpServer.Traced
import Muduo.TcpServer.Projection
import Muduo.TcpServer.Simulation
import Muduo.TcpServer.Isolation
