import Halo.Base.Bytes
import Halo.Base.Table
import Halo.Protocol.Addr
import Halo.Protocol.Dhcp
import Halo.Protocol.Ethernet
import Halo.Route.Trie
import Halo.Route.Lpm
import Halo.Mem.StaticString
import Halo.Switch.Vlan
import Halo.Base.Trace
import Halo.Dhcp.Server
import Halo.Dhcp.Exclusive
import Halo.Nat.Consistent
import Halo.Base.Dlist
import Halo.Hashmap.Hashmap
import Halo.Hashmap.Chains
import Halo.Hashmap.Buckets
import Halo.Hashmap.Refine
import Halo.Mem.FreeList
import Halo.Mem.Pool
import Halo.Base.Window
import Halo.Mem.RingBuffer
import Halo.Mem.RingContents
import Halo.Mem.RingFifo
import Halo.Protocol.Icmp
import Halo.Protocol.Tcp
import Halo.Protocol.NatRewrite
import Halo.Protocol.Padding
import Halo.Protocol.FrameStack
import Halo.Nat.Origin
import Halo.Router.Forward
import Halo.Router.Traffic
import Halo.Router.RoundTrip
import Halo.Router.Inward
import Halo.Router.Hops
import Halo.Kcp.Enet
import Halo.Kcp.Redirect
import Halo.Kcp.Kcp
import Halo.Kcp.Handshake
import Halo.Kcp.Pinned
import Halo.Kcp.Flush
import Halo.Kcp.Input
import Halo.Kcp.Bounds
import Halo.Kcp.SendWindow
import Halo.Kcp.Receive
import Halo.Kcp.Delivery
import Halo.Kcp.FullQueue
import Halo.Dhcp.LeaseTable
import Halo.Router.ReturnPath
import Halo.Route.Listing
import Halo.Nat.PortChoice
import Halo.Router.Inject
import Halo.Router.TimeExceeded
import Halo.Switch.Learning
import Halo.Switch.Records
import Halo.Mem.RingMapping
import Halo.Mem.RingCgo
import Halo.Base.Blocks
import Halo.Hashmap.Storage
import Halo.Nat.Memory
import Halo.Base.Slice
import Halo.Kcp.TimedSched
import Halo.P2p.Punch
import Halo.P2p.Agreement
import Halo.P2p.Discovery
import Halo.Dhcp.Search
import Halo.Route.Placement
import Halo.Kcp.Admission
import Halo.Kcp.RingBuffer
import Halo.Kcp.Window
import Halo.Protocol.BitErrors
import Halo.Protocol.DhcpRoundTrip
import Halo.Protocol.TcpOptions
import Halo.Kcp.Message
import Halo.Mem.Capacity
import Halo.Kcp.Congestion
import Halo.Kcp.CongestionRuns
import Halo.Tcp.Buffer
import Halo.Tcp.Conn
import Halo.Tcp.Calls
import Halo.Tcp.SendSide
import Halo.Tcp.Ports
import Halo.Mem.Reclaim
import Halo.Kcp.OutOfOrder
import Halo.Kcp.RingQueue
import Halo.Mem.RingSpace
import Halo.Hashmap.Iterate
import Halo.Hashmap.Lifetime
import Halo.Arp.Cache
import Halo.Logger.Logger
import Halo.Logger.Independent
