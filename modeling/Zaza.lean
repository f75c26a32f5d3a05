import Zaza.Machine
import Zaza.Bytes
import Zaza.Cxx
import Zaza.DualIndex
import Zaza.Host
import Zaza.Stun
import Zaza.StunCodec
import Zaza.Trailing
import Zaza.Allocation
import Zaza.AllocationSteps
import Zaza.AllocationInvariant
import Zaza.Credentials
import Zaza.Dispatcher
import Zaza.DispatcherSteps
import Zaza.Signing
import Zaza.Replies
import Zaza.RelaySteps
import Zaza.Ownership
import Zaza.RelaySafety
import Zaza.RelayDelivery
import Zaza.Responses
import Zaza.IntegrityCoverage
import Zaza.ExactReader
import Zaza.Stream
import Zaza.StreamFrames
import Zaza.StreamBounds
import Zaza.StreamServer
import Zaza.StreamSafety
import Zaza.Locks
import Zaza.Dtls
import Zaza.ChannelExpiry
import Zaza.LocalDelivery
import Zaza.OutputLengths
import Zaza.DtlsLocks
import Zaza.Expiry
import Zaza.Json
import Zaza.Routes
import Zaza.Quota
import Zaza.Exclusive
import Zaza.CallManager
import Zaza.CallInvariant
import Zaza.Router
import Zaza.CallLife
import Zaza.SignalingScope
import Zaza.Client
import Zaza.ClientSafety
import Zaza.System
import Zaza.Protocol
import Zaza.Seats
import Zaza.Agreement
import Zaza.WsServer
import Zaza.Presence
import Zaza.Registry
import Zaza.Lease
import Zaza.Nonces
import Zaza.Channels
import Zaza.FailedRequests
import Zaza.Lifetimes
import Zaza.PeerAddresses
import Zaza.TurnCredentials
import Zaza.Auth
import Zaza.Accounts
import Zaza.ComposedWrite
import Zaza.Writes
import Zaza.Repl
import Zaza.ClientSteps
import Zaza.ClientLife
import Zaza.Checked
import Zaza.Ring
import Zaza.Jitter
import Zaza.JitterFifo
import Zaza.Wav
import Zaza.WavFormat
import Zaza.WavSafety
import Zaza.ClientRecovery
import Zaza.ForeignCalls
import Zaza.CommandEffects
import Zaza.WsClient
import Zaza.WsThreads
import Zaza.Scanners
import Zaza.PacketAccess
import Zaza.PacketBounds
import Zaza.Interleaving
import Zaza.RouterThreads
import Zaza.LeaseRuns
import Zaza.Authority
import Zaza.ClientView
import Zaza.Challenges
import Zaza.Handshake
import Zaza.HttpServer
import Zaza.SessionAuthority
import Zaza.LoginFlow
import Zaza.RingTimeout
import Zaza.StreamRefinement
import Zaza.SignalingAuthority
import Zaza.RelayAccess
