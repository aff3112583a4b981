import ComputerNetworks.Core.Memory
import ComputerNetworks.Core.CString
import ComputerNetworks.Core.Lines
import ComputerNetworks.Core.Bounds
import ComputerNetworks.Core.LastWrite
import ComputerNetworks.Core.LinkedQueue
import ComputerNetworks.Core.Machine
import ComputerNetworks.Core.OnesComplement
import ComputerNetworks.Core.RwLock
import ComputerNetworks.Core.ByteStream
import ComputerNetworks.Core.TextFile
import ComputerNetworks.Core.Decimal
import ComputerNetworks.Core.StructFormat
import ComputerNetworks.Core.InetAddress
import ComputerNetworks.Core.HashedLists
import ComputerNetworks.Core.Components
import ComputerNetworks.Core.Descriptors
import ComputerNetworks.Proxy.ParsedHeader
import ComputerNetworks.Proxy.ParsedRequest
import ComputerNetworks.Proxy.LineEffect
import ComputerNetworks.Proxy.RequestLine
import ComputerNetworks.Proxy.AcceptedLine
import ComputerNetworks.Proxy.Grammar
import ComputerNetworks.Proxy.HeaderLines
import ComputerNetworks.Proxy.HeaderText
import ComputerNetworks.Proxy.Parse
import ComputerNetworks.Proxy.HeaderSection
import ComputerNetworks.Proxy.ParseBounds
import ComputerNetworks.Proxy.LineByLine
import ComputerNetworks.Proxy.Unparse
import ComputerNetworks.Proxy.RoundTrip
import ComputerNetworks.Proxy.HeaderStore
import ComputerNetworks.Proxy.AnnouncedSize
import ComputerNetworks.Proxy.ClientHelper
import ComputerNetworks.Proxy.RelativeForm
import ComputerNetworks.Proxy.Segmentation
import ComputerNetworks.Proxy.Retry
import ComputerNetworks.Proxy.OutOfMemory
import ComputerNetworks.Proxy.ReceiveLoop
import ComputerNetworks.Proxy.Classification
import ComputerNetworks.Proxy.Session
import ComputerNetworks.Proxy.Server
import ComputerNetworks.Mysock.Backlog
import ComputerNetworks.Mysock.Framing
import ComputerNetworks.Mysock.PacketQueue
import ComputerNetworks.Mysock.TcpSum
import ComputerNetworks.Mysock.RecvThread
import ComputerNetworks.Mysock.Receiver
import ComputerNetworks.Mysock.Survival
import ComputerNetworks.Mysock.StcpApi
import ComputerNetworks.Mysock.CloseEvent
import ComputerNetworks.Mysock.EndOfFile
import ComputerNetworks.Mysock.ListenThreads
import ComputerNetworks.Mysock.PassiveClose
import ComputerNetworks.Mysock.SetBacklog
import ComputerNetworks.Mysock.SocketCalls
import ComputerNetworks.Mysock.Datagram
import ComputerNetworks.Mysock.ErrorDetection
import ComputerNetworks.Mysock.HashTable
import ComputerNetworks.Mysock.HashRuns
import ComputerNetworks.Mysock.Segments
import ComputerNetworks.Vns.Protocol
import ComputerNetworks.Vns.RoundTrip
import ComputerNetworks.Vns.SrHandler
import ComputerNetworks.Vns.PortMaps
import ComputerNetworks.Router.ArpCache
import ComputerNetworks.Router.ArpQueue
import ComputerNetworks.Router.Pending
import ComputerNetworks.Router.ArpTable
import ComputerNetworks.Router.ArpSweep
import ComputerNetworks.Router.Packet
import ComputerNetworks.Router.Checksum
import ComputerNetworks.Router.HandlePacket
import ComputerNetworks.Router.IpPath
import ComputerNetworks.Router.Dispatch
import ComputerNetworks.Router.HeaderCheck
import ComputerNetworks.Router.ArpRequest
import ComputerNetworks.Router.ArpReply
import ComputerNetworks.Router.QueueWalks
import ComputerNetworks.Router.RoutingTable
import ComputerNetworks.Router.VnsComm
import ComputerNetworks.Router.HwInfo
import ComputerNetworks.Router.VnsReader
import ComputerNetworks.Router.VnsLink
import ComputerNetworks.Router.VnsBounds
import ComputerNetworks.Router.VnsEnd
import ComputerNetworks.Router.Sha1Calls
import ComputerNetworks.Router.Banners
import ComputerNetworks.Router.Connect
import ComputerNetworks.Router.Session
import ComputerNetworks.Router.Responder
import ComputerNetworks.Router.Bridge
import ComputerNetworks.Router.Dumper
import ComputerNetworks.Transfer.NvtLine
import ComputerNetworks.Transfer.Server
import ComputerNetworks.Transfer.Client
import ComputerNetworks.Transfer.EndToEnd
import ComputerNetworks.Transfer.LineReading
import ComputerNetworks.Transfer.RequestBuilding
import ComputerNetworks.Transfer.Session
