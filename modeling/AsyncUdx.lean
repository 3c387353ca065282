import AsyncUdx.BaseMap
import AsyncUdx.BaseRun
import AsyncUdx.BasePipe
import AsyncUdx.BaseCounter
import AsyncUdx.BaseQueue
import AsyncUdx.BaseCount
import AsyncUdx.BaseFold
import AsyncUdx.BaseWaiters
import AsyncUdx.BaseGroups
import AsyncUdx.Wire
import AsyncUdx.Codec
import AsyncUdx.Stream
import AsyncUdx.StreamMoves
import AsyncUdx.PollIncoming
import AsyncUdx.StreamTask
import AsyncUdx.SendAccounting
import AsyncUdx.SendWindow
import AsyncUdx.BaseReassembly
import AsyncUdx.Reassembly
import AsyncUdx.ReadContract
import AsyncUdx.TimerLoss
import AsyncUdx.CloseFuture
import AsyncUdx.TerminationReason
import AsyncUdx.StreamPoll
import AsyncUdx.Grouping
import AsyncUdx.AckLoss
import AsyncUdx.PacketLife
import AsyncUdx.SendProgress
import AsyncUdx.SendAdmission
import AsyncUdx.RttEstimator
import AsyncUdx.Batching
import AsyncUdx.SelectiveAck
import AsyncUdx.WriterWake
import AsyncUdx.StreamChannel
import AsyncUdx.StreamShutdown
import AsyncUdx.DriverSleep
import AsyncUdx.Emission
import AsyncUdx.TerminationFinal
import AsyncUdx.WriteExact
import AsyncUdx.Rollover
import AsyncUdx.PacketLoad
import AsyncUdx.Pair
import AsyncUdx.PairDelivery
import AsyncUdx.PairPipe
import AsyncUdx.PairAck
import AsyncUdx.PairEnd
import AsyncUdx.PairExchange
import AsyncUdx.EndAnswer
import AsyncUdx.PairEcho
import AsyncUdx.PairEchoRun
import AsyncUdx.LongRun
import AsyncUdx.Socket
import AsyncUdx.SocketSend
import AsyncUdx.SocketIdle
import AsyncUdx.Demultiplexing
import AsyncUdx.RecvWake
import AsyncUdx.Segmentation
import AsyncUdx.BaseRegistry
import AsyncUdx.SocketRegistry
import AsyncUdx.SocketShutdown
import AsyncUdx.SendLedger
import AsyncUdx.UdpLayer
import AsyncUdx.UdpPlatform
import AsyncUdx.StreamPackets
import AsyncUdx.SocketTasks
import AsyncUdx.Host
import AsyncUdx.Network
import AsyncUdx.NetworkDgrams
import AsyncUdx.HostRun
import AsyncUdx.HostErrors
import AsyncUdx.HostSegments
import AsyncUdx.Retransmission
import AsyncUdx.AfterLoss
import AsyncUdx.PairRecovery
import AsyncUdx.DriverIdle
import AsyncUdx.GiveUp
import AsyncUdx.ReaderWake
import AsyncUdx.BaseRecords
import AsyncUdx.ControlMessages
import AsyncUdx.PairShutdown
import AsyncUdx.StreamStatistics
import AsyncUdx.BaseView
import AsyncUdx.PacketView
