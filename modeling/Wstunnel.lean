import Wstunnel.Core.AssocMap
import Wstunnel.Core.Base64
import Wstunnel.Core.Binary64
import Wstunnel.Core.CasLoop
import Wstunnel.Core.Collect
import Wstunnel.Core.Framing
import Wstunnel.Core.GrowBuf
import Wstunnel.Core.JoinSet
import Wstunnel.Core.Json
import Wstunnel.Core.LTS
import Wstunnel.Core.LazyTable
import Wstunnel.Core.Notify
import Wstunnel.Core.Panic
import Wstunnel.Core.ReadBuf
import Wstunnel.Core.Records
import Wstunnel.Core.Str
import Wstunnel.Core.Threads
import Wstunnel.Core.Trace
import Wstunnel.Core.UnixPath
import Wstunnel.Core.Uri
import Wstunnel.Core.Utf8
import Wstunnel.Core.Uuid
import Wstunnel.Core.Yaml
import Wstunnel.L1Encoding.AddrText
import Wstunnel.L1Encoding.HostParse
import Wstunnel.L1Encoding.Net
import Wstunnel.L1Encoding.Percent
import Wstunnel.L1Encoding.Token
import Wstunnel.L1Encoding.Tunnel
import Wstunnel.L1Encoding.UrlParse
import Wstunnel.L2Rules.PathPrefix
import Wstunnel.L2Rules.PortMapping
import Wstunnel.L2Rules.PortTexts
import Wstunnel.L2Rules.RestrictTo
import Wstunnel.L2Rules.Restrictions
import Wstunnel.L3Client.HttpProxy
import Wstunnel.L3Client.ProxyAuth
import Wstunnel.L3Client.Reconnect
import Wstunnel.L3Client.ReverseClient
import Wstunnel.L3Client.TransportStream
import Wstunnel.L3Client.TunnelArg
import Wstunnel.L3Client.TunnelArgText
import Wstunnel.L3Client.TunnelDest
import Wstunnel.L3Client.UpgradeRequest
import Wstunnel.L3Client.ValueParsers
import Wstunnel.L3Server.Admission
import Wstunnel.L3Server.Exec
import Wstunnel.L3Server.Mtls
import Wstunnel.L3Server.RateArithmetic
import Wstunnel.L3Server.RateLimitedRead
import Wstunnel.L3Server.RateLimiter
import Wstunnel.L3Server.RateLimits
import Wstunnel.L3Server.Request
import Wstunnel.L3Server.RuleChanges
import Wstunnel.L3Server.TunnelIds
import Wstunnel.L3Transport.AddressOrder
import Wstunnel.L3Transport.Buffers
import Wstunnel.L3Transport.Connect
import Wstunnel.L3Transport.Datagrams
import Wstunnel.L3Transport.Duplex
import Wstunnel.L3Transport.Endpoint
import Wstunnel.L3Transport.Link
import Wstunnel.L3Transport.Ping
import Wstunnel.L3Transport.Sender
import Wstunnel.L3Transport.Teardown
import Wstunnel.L4App.ClientStart
import Wstunnel.L4App.Destinations
import Wstunnel.L4App.Scp
import Wstunnel.L4App.ScpAnswers
import Wstunnel.L4App.ScpComplete
import Wstunnel.L4App.ScpPackets
import Wstunnel.L4App.ScpRecords
import Wstunnel.L4App.ScpRoundTrip
import Wstunnel.L4App.ScpSink
import Wstunnel.L4App.ScpTransfer
import Wstunnel.L4App.ScpUpload
import Wstunnel.L4App.TunnelApi
import Wstunnel.L4App.TunnelServer
import Wstunnel.L5Concurrency.Changes
import Wstunnel.L5Concurrency.ClientTls
import Wstunnel.L5Concurrency.ConfigReload
import Wstunnel.L5Concurrency.CreateClient
import Wstunnel.L5Concurrency.DeadEntry
import Wstunnel.L5Concurrency.Executor
import Wstunnel.L5Concurrency.FileEvents
import Wstunnel.L5Concurrency.HttpProxyListener
import Wstunnel.L5Concurrency.IdleShutdown
import Wstunnel.L5Concurrency.Jitter
import Wstunnel.L5Concurrency.OwnRemoval
import Wstunnel.L5Concurrency.Ownership
import Wstunnel.L5Concurrency.ReverseTunnel
import Wstunnel.L5Concurrency.SharedListener
import Wstunnel.L5Concurrency.Socks5Listener
import Wstunnel.L5Concurrency.Socks5Udp
import Wstunnel.L5Concurrency.TlsReload
import Wstunnel.L5Concurrency.TransportAgreement
import Wstunnel.L5Concurrency.UdpPeers
import Wstunnel.L5Concurrency.UdpServer
import Wstunnel.L5Concurrency.UdpStreams
import Wstunnel.L5Concurrency.UdpWatchdog
