import SecondGear.Lib.Machine
import SecondGear.Lib.Memory
import SecondGear.Lib.Assert
import SecondGear.Model.Buffer
import SecondGear.Proofs.Buffer
import SecondGear.Lib.SwapRemove
import SecondGear.Model.Channel
import SecondGear.Model.Poller
import SecondGear.Proofs.PollerRuns
import SecondGear.Proofs.PollSet
import SecondGear.Model.TcpConnection
import SecondGear.Proofs.TcpConnection
import SecondGear.Proofs.OutputStream
import SecondGear.Proofs.Interest
import SecondGear.Lib.OrderedSet
import SecondGear.Model.TimerQueue
import SecondGear.Proofs.TimerQueue
import SecondGear.Proofs.TimerRuns
import SecondGear.Proofs.TimerCalls
import SecondGear.Proofs.Timerfd
import SecondGear.Proofs.RelativeTimeout
import SecondGear.Lib.Int32
import SecondGear.Model.EventLoop
import SecondGear.Proofs.PollResult
import SecondGear.Proofs.LoopInvariant
import SecondGear.Proofs.LoopSteps
import SecondGear.Proofs.LoopCallbacks
import SecondGear.Proofs.LoopAccept
import SecondGear.Proofs.LoopRuns
import SecondGear.Proofs.LifeCycle
import SecondGear.Proofs.DeferredDestruction
import SecondGear.Proofs.NameReuse
import SecondGear.Proofs.Shutdown
import SecondGear.Proofs.HalfClose
import SecondGear.Model.LoopThread
import SecondGear.Proofs.FunctorQueue
import SecondGear.Proofs.Wakeup
import SecondGear.Proofs.Quit
import SecondGear.Model.SharedConnection
import SecondGear.Proofs.StaleUpdate
import SecondGear.Proofs.WaitingFunctors
import SecondGear.Model.CrossThreadSend
import SecondGear.Proofs.CrossThreadSend
import SecondGear.Model.CrossThreadTimer
import SecondGear.Proofs.CrossThreadTimer
import SecondGear.Proofs.HangUp
import SecondGear.Model.Servers
import SecondGear.Proofs.Servers
import SecondGear.Model.WrappingBuffer
import SecondGear.Proofs.BufferGrowth
import SecondGear.Proofs.WrappingBuffer
import SecondGear.Proofs.ActiveChannels
import SecondGear.Proofs.Reregistration
import SecondGear.Model.ServerStart
import SecondGear.Proofs.ServerStart
import SecondGear.Model.CountDownLatch
import SecondGear.Proofs.CountDownLatch
import SecondGear.Proofs.ConnectionNames
import SecondGear.Model.EventLoopThread
import SecondGear.Proofs.EventLoopThread
import SecondGear.Lib.History
import SecondGear.Proofs.LoopConnections
import SecondGear.Proofs.LoopTable
import SecondGear.Proofs.LoopStreams
import SecondGear.Lib.Decimal
import SecondGear.Lib.ByteOrder
import SecondGear.Model.InetAddress
import SecondGear.Proofs.InetAddress
import SecondGear.Model.Timestamp
import SecondGear.Proofs.Timestamp
import SecondGear.Model.Main
import SecondGear.Proofs.Main
import SecondGear.Proofs.LoopBacklog
import SecondGear.Proofs.LoopDescriptors
import SecondGear.Lib.Simulation
import SecondGear.Lib.Monitor
import SecondGear.Lib.MonitorProgress
import SecondGear.Model.LatchMutex
import SecondGear.Proofs.LatchMutex
import SecondGear.Model.StartLoop
import SecondGear.Proofs.StartLoop
import SecondGear.Model.ThreadLife
import SecondGear.Proofs.ThreadLife
import SecondGear.Model.CurrentLoop
import SecondGear.Model.TimedLoop
import SecondGear.Proofs.CurrentLoop
import SecondGear.Proofs.QuitEnds
import SecondGear.Proofs.TimedLoop
import SecondGear.Proofs.TimerLatency
import SecondGear.Proofs.TimerRate
import SecondGear.Proofs.LoopTurns
