import Sponge.Library.GuardedRun
import Sponge.Library.BoundedQueue
import Sponge.Library.Chunk
import Sponge.Library.ExpiringTable
import Sponge.Library.LastMax
import Sponge.Library.Layout
import Sponge.Library.Octets
import Sponge.Library.OnesComplement
import Sponge.Library.Resolution
import Sponge.Word
import Sponge.ByteStream
import Sponge.ByteStream.Queue
import Sponge.StreamReassembler
import Sponge.StreamReassembler.Store
import Sponge.StreamReassembler.Tidy
import Sponge.StreamReassembler.Push
import Sponge.StreamReassembler.Session
import Sponge.WrappingIntegers
import Sponge.TCPSegment
import Sponge.TCPReceiver
import Sponge.TCPReceiver.Window
import Sponge.TCPSender
import Sponge.TCPSender.Accounting
import Sponge.TCPSender.Session
import Sponge.TCPSender.Passes
import Sponge.TCPSender.Window
import Sponge.TCPSender.Timer
import Sponge.TCPState
import Sponge.TCPConnection
import Sponge.TCPConnection.Inbound
import Sponge.TCPConnection.Outbound
import Sponge.TCPConnection.Reply
import Sponge.TCPConnection.Lifecycle
import Sponge.TCPConnection.Termination
import Sponge.TCPConnection.Machine
import Sponge.TCPConnection.Handover
import Sponge.TCPConnection.Summary
import Sponge.Side
import Sponge.Network
import Sponge.Network.Acknowledgment
import Sponge.Network.HalfClose
import Sponge.Network.FlowControl
import Sponge.Network.InOrder
import Sponge.Network.Contact
import Sponge.TCPConnection.Poised
import Sponge.Network.Retransmission
import Sponge.Network.Recovery
import Sponge.Parser
import Sponge.FileDescriptor
import Sponge.FileDescriptor.Shared
import Sponge.EventLoop
import Sponge.EventLoop.Lifecycle
import Sponge.StreamCopy
import Sponge.StreamCopy.Completion
import Sponge.FdAdapter
import Sponge.InternetChecksum
import Sponge.IPv4Datagram
import Sponge.TCPSegment.Wire
import Sponge.TCPOverIPv4
import Sponge.EthernetFrame
import Sponge.NetworkInterface
import Sponge.TunTapAdapter
import Sponge.TCPConnection.Emission
import Sponge.TCPSpongeSocket
import Sponge.TCPSpongeSocket.Turn
import Sponge.TCPSpongeSocket.Refinement
import Sponge.TCPSpongeSocket.Delivery
import Sponge.NetworkInterface.Link
import Sponge.NetworkInterface.Traffic
import Sponge.NetworkInterface.Ages
import Sponge.Router
import Sponge.Router.Forwarding
import Sponge.Router.Survival
