import ZetaNet.Packet.RoundTrip
import ZetaNet.Crypto.Context
import ZetaNet.Handshake.Agreement
import ZetaNet.Handshake.Reflection
import ZetaNet.Handshake.Connected
import ZetaNet.Handshake.Handlers
import ZetaNet.Lib.Delivery
import ZetaNet.Packet.Binding
import ZetaNet.Packet.Corruption
import ZetaNet.Packet.Owners
import ZetaNet.Peer.Address
import ZetaNet.Peer.Identity
import ZetaNet.Transport.Arrivals
import ZetaNet.Transport.Broadcast
import ZetaNet.Transport.CountedQueue
import ZetaNet.Transport.Decoding
import ZetaNet.Transport.Downgrade
import ZetaNet.Transport.Duplicates
import ZetaNet.Transport.RateRefusals
import ZetaNet.Transport.RetryBudget
import ZetaNet.Transport.Unicast
import ZetaNet.Transport.Interleaving
import ZetaNet.P2P.Roles
import ZetaNet.File.Enqueue
import ZetaNet.File.Transfer
import ZetaNet.File.Codec
import ZetaNet.File.Invariant
import ZetaNet.File.Completion
import ZetaNet.File.Acceptance
import ZetaNet.File.Senders
import ZetaNet.File.Assemble
import ZetaNet.File.Losses
import ZetaNet.File.Encoder
import ZetaNet.File.Geometry
import ZetaNet.File.Paths
import ZetaNet.Map.Orderly
import ZetaNet.Map.Refinement
import ZetaNet.P2P.Rejection
import ZetaNet.Peer.Reserved
import ZetaNet.P2P.Session
import ZetaNet.P2P.Transition
import ZetaNet.Transport.Accounting
import ZetaNet.Transport.ReceiveLoop
import ZetaNet.Transport.Shutdown
import ZetaNet.Transport.TaskExecutor
import ZetaNet.Wire.Items
import ZetaNet.P2P.Polling
import ZetaNet.File.OverNetwork
import ZetaNet.Transport.Delivered
import ZetaNet.Transport.RateOverrun
import ZetaNet.Transport.QueueThreads
import ZetaNet.Map.Refused
