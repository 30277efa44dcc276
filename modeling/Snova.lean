import Snova.Framework.Decimal
import Snova.Framework.Exec
import Snova.Framework.Channel
import Snova.Framework.Bytes
import Snova.Framework.Aead
import Snova.Framework.Protobuf
import Snova.Framework.Framing
import Snova.Framework.Lanes
import Snova.Framework.Buckets
import Snova.Framework.Region
import Snova.Framework.Occurrence
import Snova.Framework.Reads
import Snova.Model.AsyncChannelMutex
import Snova.Model.MuxEvent
import Snova.Model.Nanopb
import Snova.Model.CipherContext
import Snova.Model.ReadEvent
import Snova.Model.MuxStream
import Snova.Model.WebSocket
import Snova.Model.Write
import Snova.Model.Auth
import Snova.Model.MuxSession
import Snova.Model.Relay
import Snova.Model.TimeWheel
import Snova.Model.TrustedNs
import Snova.Model.DnsProxy
import Snova.Model.TunnelServer
import Snova.Model.OpenTunnel
import Snova.Properties.WriteMutex
import Snova.Properties.CipherContext
import Snova.Properties.CipherRoundTrip
import Snova.Properties.ReadEvent
import Snova.Properties.StreamClose
import Snova.Properties.Write
import Snova.Properties.Flow
import Snova.Properties.Endpoint
import Snova.Properties.Auth
import Snova.Properties.Nonce
import Snova.Properties.StreamOrder
import Snova.Properties.Relay
import Snova.Properties.TimeWheel
import Snova.Properties.TrustedNs
import Snova.Properties.DnsProxy
import Snova.Properties.TunnelServer
import Snova.Properties.OpenTunnel
import Snova.Properties.WebSocket
import Snova.Model.MuxConnManager
import Snova.Properties.MuxConnManager
import Snova.Model.MuxClient
import Snova.Properties.MuxClient
import Snova.Model.StreamTable
import Snova.Properties.StreamTable
import Snova.Model.StreamCalls
import Snova.Properties.StreamCalls
import Snova.Model.TunnelTables
import Snova.Properties.TunnelTables
import Snova.Model.Sni
import Snova.Model.EntryServer
import Snova.Model.HttpProxy
import Snova.Properties.HttpProxy
import Snova.Properties.HttpHeader
import Snova.Properties.EntryServer
import Snova.Properties.Decrypt
import Snova.Model.ChunkDelivery
import Snova.Properties.ChunkDelivery
import Snova.Properties.ChunkLimits
import Snova.Model.IoBuf
import Snova.Properties.PreRead
import Snova.Framework.Chain
import Snova.Framework.Join
import Snova.Model.DnsParse
import Snova.Properties.DnsName
import Snova.Properties.DnsWire
import Snova.Properties.DnsReads
import Snova.Properties.DnsAnswers
import Snova.Framework.OrderedMap
import Snova.Model.DnsOptions
import Snova.Properties.DnsOptions
import Snova.Model.PrivateAddress
import Snova.Properties.PrivateAddress
import Snova.Model.SniReads
import Snova.Properties.SniReads
import Snova.Properties.ClientHello
import Snova.Model.Address
import Snova.Properties.Ports
import Snova.Properties.Address
import Snova.Framework.Tally
import Snova.Model.WindowCounters
import Snova.Properties.WindowCounters
import Snova.Model.WriterFactory
import Snova.Framework.Select
import Snova.Properties.WriterFactory
import Snova.Properties.RelayFactory
import Snova.Model.ReadUntil
import Snova.Properties.ReadUntil
import Snova.Model.IoBufPool
import Snova.Properties.IoBufPool
import Snova.Model.Connection
import Snova.Properties.Connection
import Snova.Model.WebSocketReader
import Snova.Properties.WebSocketReader
import Snova.Framework.Measure
import Snova.Model.Transfer
import Snova.Properties.Transfer
import Snova.Properties.RelayEnds
import Snova.Model.Route
import Snova.Properties.Route
import Snova.Properties.MutexProgress
import Snova.Properties.WriteProgress
import Snova.Properties.ConnectionProgress
import Snova.Properties.RouteProgress
import Snova.Model.WebSocketHandshake
import Snova.Properties.WebSocketHandshake
import Snova.Model.ReadLoop
import Snova.Properties.ReadLoop
import Snova.Model.HttpConnect
import Snova.Properties.HttpConnect
import Snova.Model.IdleTimers
import Snova.Properties.IdleTimers
import Snova.Properties.TimerSlots
