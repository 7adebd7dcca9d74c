import SecNet.Exn
import SecNet.Lib.Bytes
import SecNet.Lib.Splitter
import SecNet.Framing.Protocol
import SecNet.Framing.Reader
import SecNet.Record.Cipher
import SecNet.Lib.Transition
import SecNet.Framing.Buffer
import SecNet.Record.Channel
import SecNet.Record.Sender
import SecNet.Record.BrokenFrame
import SecNet.Lib.IPv4
import SecNet.Server.Registry
import SecNet.Server.Packet
import SecNet.Server.Serve
import SecNet.Server.Ownership
import SecNet.Server.Routing
import SecNet.Server.Isolation
import SecNet.Lib.Utf8
import SecNet.Lib.Base64
import SecNet.Lib.Json
import SecNet.Lib.JsonText
import SecNet.Lib.JsonRoundTrip
import SecNet.Lib.Duplex
import SecNet.Handshake.Crypto
import SecNet.Handshake.Message
import SecNet.Lib.PrefixCode
import SecNet.Handshake.KeyExchange
import SecNet.Handshake.ChainDigest
import SecNet.Handshake.Handshake
import SecNet.Handshake.Agreement
import SecNet.Handshake.Transcript
import SecNet.Chat.Delivery
import SecNet.Server.Sessions
import SecNet.Chat.Push
import SecNet.Chat.JsonValue
import SecNet.Chat.MlsEvents
import SecNet.Chat.GroupEpochs
import SecNet.Handshake.DeviceAuth
import SecNet.Chat.Directory
import SecNet.Chat.SignRequest
import SecNet.Server.DeviceSessions
import SecNet.Chat.CryptoAgent
import SecNet.Chat.GroupKey
import SecNet.Lib.KeyedLog
import SecNet.Chat.DirectoryLog
import SecNet.Chat.DirectoryCalls
import SecNet.Chat.SharedDirectory
import SecNet.Chat.DurableDirectory
import SecNet.Lib.Plan
import SecNet.Chat.Service
import SecNet.Chat.AgentApi
import SecNet.Chat.Browser
import SecNet.Chat.DirectMessage
import SecNet.Chat.DirectFile
import SecNet.Chat.MessageSize
import SecNet.Chat.GroupFile
import SecNet.Chat.ServiceRuns
import SecNet.Chat.Broadcast
import SecNet.Chat.GroupPush
import SecNet.Chat.ErrorReplies
import SecNet.Chat.GroupMembers
import SecNet.Chat.GroupHistory
import SecNet.Chat.FailedInstall
import SecNet.Lib.FileMap
import SecNet.Chat.StateFiles
import SecNet.Lib.Tickets
import SecNet.Chat.Login
import SecNet.Lib.Undo
import SecNet.Client.HostRouting
import SecNet.Client.EgressFilter
import SecNet.Chat.Snapshot
import SecNet.Chat.HistoryDecoding
import SecNet.Lib.Writers
import SecNet.Chat.MessageLists
import SecNet.Lib.Rsplit
import SecNet.Chat.GroupContext
import SecNet.Chat.SessionCookie
import SecNet.Server.TunnelDelivery
import SecNet.Chat.Authentication
import SecNet.Chat.Topics
import SecNet.Chat.Access
import SecNet.Chat.IdentityFiles
import SecNet.Chat.StateRequests
import SecNet.Chat.AgentServer
import SecNet.Chat.Histories
import SecNet.Chat.TextMessages
