import Wirestead.Words.Search
import Wirestead.Words.Segments
import Wirestead.Words.Octets
import Wirestead.Words.Packets
import Wirestead.Framer.Basic
import Wirestead.Framer.Line
import Wirestead.Framer.LineReference
import Wirestead.Framer.LineDelivery
import Wirestead.Framer.LengthPrefix
import Wirestead.Framer.LengthPrefixDecode
import Wirestead.Framer.Packet
import Wirestead.Framer.PacketReference
import Wirestead.Framer.PacketDelivery
import Wirestead.Framer.Builtin
import Wirestead.Wrapper.BoundedReceive
import Wirestead.Wrapper.StagedReceive
import Wirestead.Wrapper.SessionBatch
import Wirestead.Wrapper.UdpServer.State
import Wirestead.Wrapper.UdpServer.Sessions
import Wirestead.Wrapper.UdpServer.Runs
import Wirestead.Wrapper.TcpServer.Callbacks
import Wirestead.Slots.Window
import Wirestead.Diagnostics.SendAccounting
import Wirestead.Diagnostics.SendLedger
import Wirestead.Diagnostics.LedgerMap
import Wirestead.Diagnostics.LedgerStore
import Wirestead.Diagnostics.LedgerRefinement
import Wirestead.Diagnostics.LedgerHistory
import Wirestead.Diagnostics.LedgerTracks
import Wirestead.Diagnostics.LedgerConservation
import Wirestead.Diagnostics.LedgerLive
import Wirestead.Diagnostics.LedgerGrowth
import Wirestead.Sizes.Checked
import Wirestead.Wrapper.ReceiveBudget
import Wirestead.Wrapper.ReceiveAccounting
import Wirestead.Wrapper.CallbackGate
import Wirestead.Transport.BpUtils
import Wirestead.Transport.Reservations
import Wirestead.Transport.TcpClient.State
import Wirestead.Transport.TcpClient.Callers
import Wirestead.Transport.TcpClient.Strand
import Wirestead.Transport.TcpClient.Admission
import Wirestead.Transport.TcpClient.Lifecycle
import Wirestead.Transport.TcpClient.SenderCalls
import Wirestead.Transport.TcpClient.SenderSteps
import Wirestead.Transport.TcpClient.Starting
import Wirestead.Transport.TcpClient.SenderRuns
import Wirestead.Transport.TcpClient.Counting
import Wirestead.Transport.TcpClient.Ordering
import Wirestead.Transport.TcpClient.Driving
import Wirestead.Transport.Serial.State
import Wirestead.Transport.Serial.Sound
import Wirestead.Transport.Serial.Phases
import Wirestead.Transport.Serial.Runs
import Wirestead.Transport.UdpChannel.State
import Wirestead.Transport.UdpChannel.Admission
import Wirestead.Diagnostics.LedgerRequests
import Wirestead.Transport.UdpChannel.Strand
import Wirestead.Transport.UdpChannel.Loads
import Wirestead.Transport.UdpChannel.Moves
import Wirestead.Transport.UdpChannel.Handlers
import Wirestead.Transport.UdpChannel.Counted
import Wirestead.Transport.UdpChannel.Tracking
import Wirestead.Transport.UdpChannel.Ordered
import Wirestead.Transport.UdpChannel.Draining
import Wirestead.Transport.UdpChannel.Failing
import Wirestead.Transport.UdsClient.State
import Wirestead.Transport.Reconnection.Outcomes
import Wirestead.Transport.Reconnection.TcpAttempts
import Wirestead.Transport.Reconnection.UdsAttempts
import Wirestead.Transport.Reconnection.Agreement
import Wirestead.Transport.UdsServer.SocketPath
import Wirestead.Transport.TcpServer.State
import Wirestead.Transport.TcpServer.Phases
import Wirestead.Transport.TcpServer.Totals
import Wirestead.Transport.TcpServer.Broadcast
import Wirestead.Transport.TcpServer.Listener
import Wirestead.Transport.TcpServer.Listening
import Wirestead.Transport.TcpServer.Accepting
import Wirestead.Transport.TcpServer.ListenerRuns
import Wirestead.Transport.TcpServer.Retrying
import Wirestead.Transport.TcpServer.Limited
import Wirestead.Transport.TcpServer.Notified
import Wirestead.Transport.TcpClient.Fencing
import Wirestead.Transport.TcpClient.Reconnect
import Wirestead.Calls.Throwing
import Wirestead.Diagnostics.LedgerFailures
import Wirestead.Diagnostics.LedgerAgreement
import Wirestead.Diagnostics.LedgerEpochs
import Wirestead.Diagnostics.LedgerUnobserved
import Wirestead.Slots.Outside
import Wirestead.Diagnostics.LedgerStorage
import Wirestead.Diagnostics.LedgerBatch
import Wirestead.Transport.Bounds
import Wirestead.Transport.Hysteresis
import Wirestead.Framer.PacketSafety
import Wirestead.Wrapper.RefusedReceive
import Wirestead.Framer.Appends
import Wirestead.Wrapper.FrameStorage
import Wirestead.Framer.Resetting
import Wirestead.Framer.LineResets
import Wirestead.Framer.PacketResets
import Wirestead.Framer.ResetCallback
import Wirestead.Words.Fields
import Wirestead.Words.Substitution
import Wirestead.Memory.Heap
import Wirestead.Memory.MemoryPool
import Wirestead.Memory.PooledBuffer
import Wirestead.Transport.GatherBatch
import Wirestead.Util.InputValidator
import Wirestead.Diagnostics.LogFormat
import Wirestead.Diagnostics.Logger
import Wirestead.Config.Values
import Wirestead.Config.ConfigManager
import Wirestead.Config.DeclaredTypes
import Wirestead.Config.Loading
import Wirestead.Config.RoundTrip
import Wirestead.Config.Malformed
import Wirestead.Transport.ServerSession.State
import Wirestead.Transport.ServerSession.Moves
import Wirestead.Transport.ServerSession.Handlers
import Wirestead.Transport.ServerSession.Counted
import Wirestead.Transport.ServerSession.Stream
import Wirestead.Transport.ServerSession.Draining
import Wirestead.Transport.ServerSession.Closing
import Wirestead.Transport.ServerSession.Refinement
