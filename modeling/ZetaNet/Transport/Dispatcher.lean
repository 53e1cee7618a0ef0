import ZetaNet.Packet.Build
import ZetaNet.Peer.Mapping
import Mathlib.Data.List.AList

/-!
# `PacketDispatcher`

The sends of `z_packet_dispatcher.h`. Each takes the sequence counter and the receipt map
with its two counters and returns them with the datagrams the socket took.
-/

namespace ZetaNet

/-- A packet on its way out. `serial` is not in the code: it numbers the pushes, so that a
statement can speak of one packet wherever its copies are. An acknowledgement the queue
makes itself has none. -/
structure Queued where
  packet : OutgoingPacket
  serial : Option Nat
  deriving DecidableEq

/-- What a send takes from its surroundings: the clock and the nonce of `BuildPacket`, the
clock of the receipt, and whether `sendto` succeeds. -/
structure SendEnv where
  build : BuildEnv
  unixTime : UInt64
  sendOk : Bool

/-- The socket's own server address, or the address of a peer. -/
inductive Target (A : Type)
  | server
  | peer (address : A)
  deriving DecidableEq

/-- A datagram the socket took. `origin` and `sequenceNumber` are the arguments of the
`BuildPacket` call its bytes come from, and `resent` tells a retransmission; nobody looks at
these three. -/
structure Sent (A : Type) where
  target : Target A
  bytes : Bytes
  origin : Queued
  sequenceNumber : UInt32
  resent : Bool

/-- `awaiting_ack_packets_`, a map from sequence numbers. -/
abbrev Receipts := AList fun _ : UInt32 => Queued

/-- `next_outgoing_sequence_number_` with the receipt map and the counters the dispatcher
is given. -/
structure PacketDispatcher where
  nextOutgoingSequenceNumber : UInt32
  awaitingAckPackets : Receipts
  awaitingAckPacketCount : Nat
  awaitingAckBytes : Nat

/-- `AddReceiptIfNeeded` makes a receipt of the packet. -/
def NeedsReceipt (packet : OutgoingPacket) : Prop :=
  packet.flags.reliable ∧ packet.type ≠ PacketType.acknowledgement ∧ packet.lastSendTime = 0

instance (packet : OutgoingPacket) : Decidable (NeedsReceipt packet) :=
  inferInstanceAs (Decidable (_ ∧ _ ∧ _))

namespace PacketDispatcher

variable {K A : Type} (lz4 : Lz4) (gcm : AesGcm K) (crypto : Option K)

/-- `AddReceiptIfNeeded`. -/
def addReceiptIfNeeded (env : SendEnv) (queued : Queued) (dispatcher : PacketDispatcher) :
    PacketDispatcher :=
  let packet := queued.packet
  if packet.flags.reliable ∧ packet.type ≠ PacketType.acknowledgement ∧ packet.lastSendTime = 0
  then
    let packet :=
      { packet with
        flags := { packet.flags with awaitingAck := true }
        lastSendTime := env.unixTime.toUInt32 }
    let key := dispatcher.nextOutgoingSequenceNumber
    -- `insert` keeps an entry that is already there
    if key ∈ dispatcher.awaitingAckPackets then dispatcher
    else
      { dispatcher with
        awaitingAckPackets := dispatcher.awaitingAckPackets.insert key { queued with packet }
        awaitingAckPacketCount := dispatcher.awaitingAckPacketCount + 1
        awaitingAckBytes := dispatcher.awaitingAckBytes + packet.heapData.length }
  else dispatcher

/-- A receipt does not touch the counter. -/
@[simp] theorem nextOutgoingSequenceNumber_addReceiptIfNeeded (env : SendEnv) (queued : Queued)
    (dispatcher : PacketDispatcher) :
    (dispatcher.addReceiptIfNeeded env queued).nextOutgoingSequenceNumber =
      dispatcher.nextOutgoingSequenceNumber := by
  unfold addReceiptIfNeeded
  simp only
  split
  · split <;> rfl
  · rfl

/-- The common body of `DispatchToOne` and `DispatchToServer`. -/
def dispatchTo (target : Target A) (env : SendEnv) (queued : Queued)
    (dispatcher : PacketDispatcher) : PacketDispatcher × List (Sent A) :=
  let sequenceNumber := dispatcher.nextOutgoingSequenceNumber
  let (packet, bytes) := buildPacket lz4 gcm crypto env.build queued.packet sequenceNumber
  if bytes = [] then (dispatcher, [])
  else if env.sendOk = false then (dispatcher, [])
  else
    let dispatcher := dispatcher.addReceiptIfNeeded env { queued with packet }
    ({ dispatcher with
        nextOutgoingSequenceNumber := dispatcher.nextOutgoingSequenceNumber + 1 },
      [⟨target, bytes, queued, sequenceNumber, false⟩])

/-- `DispatchToOne`. -/
def dispatchToOne (peer : ZPeer A) : SendEnv → Queued → PacketDispatcher →
    PacketDispatcher × List (Sent A) :=
  dispatchTo lz4 gcm crypto (.peer peer.address)

/-- `DispatchToServer`. -/
def dispatchToServer : SendEnv → Queued → PacketDispatcher → PacketDispatcher × List (Sent A) :=
  dispatchTo lz4 gcm crypto .server

/-- The loop of `DispatchPacket` over the peers; every peer gets a copy of the packet. -/
def dispatchToEach (env : UInt32 → SendEnv) (queued : Queued) :
    List (ZPeer A) → PacketDispatcher → PacketDispatcher × List (Sent A)
  | [], dispatcher => (dispatcher, [])
  | peer :: peers, dispatcher =>
      let (dispatcher, sent) :=
        dispatchToOne lz4 gcm crypto peer (env peer.identifier) queued dispatcher
      let (dispatcher, rest) := dispatchToEach env queued peers dispatcher
      (dispatcher, sent ++ rest)

variable [DecidableEq A]

/-- `DispatchPacket`; `env` is the surroundings of the send to each id. -/
def dispatchPacket (peerList : ZPeerMapping A) (env : UInt32 → SendEnv) (queued : Queued)
    (dispatcher : PacketDispatcher) : PacketDispatcher × List (Sent A) :=
  let destination := queued.packet.destinationPeerId
  if destination = ZPeerId.toServer then
    dispatchToServer lz4 gcm crypto (env destination) queued dispatcher
  else if destination = ZPeerId.toAll then
    dispatchToEach lz4 gcm crypto env queued peerList.peerList dispatcher
  else
    match peerList.getPeer destination with
    | some peer => dispatchToOne lz4 gcm crypto peer (env destination) queued dispatcher
    | none => (dispatcher, [])

/-- One send of `RetransmitPacket`: the packet as `BuildPacket` leaves it and the datagram, if
the socket took it. -/
def retransmitTo (target : Target A) (env : SendEnv) (sequenceNumber : UInt32)
    (queued : Queued) : Queued × List (Sent A) :=
  let (packet, bytes) := buildPacket lz4 gcm crypto env.build queued.packet sequenceNumber
  if bytes = [] ∨ env.sendOk = false then ({ queued with packet }, [])
  else ({ queued with packet }, [⟨target, bytes, queued, sequenceNumber, true⟩])

/-- The loop of `RetransmitPacket` over the peers. -/
def retransmitToEach (env : UInt32 → SendEnv) (sequenceNumber : UInt32) :
    List (ZPeer A) → Queued → Queued × List (Sent A)
  | [], queued => (queued, [])
  | peer :: peers, queued =>
      let (queued, sent) := retransmitTo lz4 gcm crypto (.peer peer.address)
        (env peer.identifier) sequenceNumber queued
      let (queued, rest) := retransmitToEach env sequenceNumber peers queued
      (queued, sent ++ rest)

/-- `RetransmitPacket`: the packet may lose its compressed flag, the sequence number stays. -/
def retransmitPacket (peerList : ZPeerMapping A) (env : UInt32 → SendEnv)
    (originalSequenceNumber : UInt32) (queued : Queued) : Queued × List (Sent A) :=
  let destination := queued.packet.destinationPeerId
  if destination = ZPeerId.toServer then
    retransmitTo lz4 gcm crypto .server (env destination) originalSequenceNumber queued
  else if destination = ZPeerId.toAll then
    retransmitToEach lz4 gcm crypto env originalSequenceNumber peerList.peerList queued
  else
    match peerList.getPeer destination with
    | some peer =>
        retransmitTo lz4 gcm crypto (.peer peer.address) (env destination)
          originalSequenceNumber queued
    | none => (queued, [])

end PacketDispatcher

end ZetaNet
