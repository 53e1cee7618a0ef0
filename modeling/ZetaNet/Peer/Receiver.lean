import ZetaNet.Packet.Unpack
import ZetaNet.Peer.Address
import ZetaNet.Peer.Mapping

/-!
# `PacketReceiver`

`ReceivePackets` and `IngestPacket` of `z_packet_receiver.h`. The receiver keeps one
address object for all datagrams. Of `incoming_buffer_` only the bytes of the current
datagram are looked at, so it is not part of the state.
-/

namespace ZetaNet

open Wire

/-- `ZSocket::Error`. -/
inductive SocketError
  | success
  | accessDenied
  | addressInUse
  | addressNotSupported
  | connectionRefused
  | connectionReset
  | hostUnreachable
  | networkUnreachable
  | notConnected
  | operationInProgress
  | connectionTimedOut
  | connectionAborted
  | unknownError
  deriving DecidableEq, Repr

/-- What `recvfrom` comes back with. -/
inductive RecvFrom
  | failed (error : SocketError)
  | datagram (source : Endpoint) (bytes : Bytes)

/-- `ReceiveResult`, with the packet the call filled in. -/
inductive ReceiveResult
  | success (incoming : IncomingPacket)
  | acknowledgement (incoming : IncomingPacket)
  | goodbye
  | error
  | timeout
  deriving DecidableEq

/-- `MaxBufferSize`, which is also the size of `incoming_buffer_`. -/
def kMaxBufferSize : Nat := 65507

/-- `HandleReceiveError` for a negative result. -/
def handleReceiveError (error : SocketError) : ReceiveResult :=
  if error = .connectionReset then .goodbye
  else if error = .notConnected then .goodbye
  else if error = .success then .timeout
  else .error

/-- The size checks of `ReceivePackets`: the announced number of bytes, or none. -/
def checkedBytes (received : Bytes) : Option Bytes :=
  if received.length < kPacketHeaderWireSize then none
  else
    match loadU32 received kHeaderTotalSizeOffset with
    | none => none
    | some packetSize =>
        if packetSize.toNat > kMaxBufferSize ∨ packetSize.toNat < kPacketHeaderWireSize then none
        else if received.length < packetSize.toNat then none
        else some (received.take packetSize.toNat)

variable {K A : Type} [DecidableEq A]

/-- `IngestPacket`. -/
def ingestPacket (lz4 : Lz4) (gcm : AesGcm K) (crypto : Option K) (incoming : IncomingPacket)
    (address : A) (buffer : Bytes) (peerList : ZPeerMapping A) :
    Option IncomingPacket × ZPeerMapping A :=
  match unpackPacket lz4 gcm crypto buffer incoming with
  | .error _ => (none, peerList)
  | .ok incoming =>
      match peerList.getOrCreatePeer address with
      | (none, peerList) => (none, peerList)
      | (some peer, peerList) => (some { incoming with sourcePeerId := peer.identifier }, peerList)

/-- What `ReceivePackets` does with a datagram from `address` once it is in the buffer. -/
def receiveDatagram (lz4 : Lz4) (gcm : AesGcm K) (crypto : Option K) (incoming : IncomingPacket)
    (address : A) (received : Bytes) (peerList : ZPeerMapping A) :
    ReceiveResult × ZPeerMapping A :=
  match checkedBytes received with
  | none => (.error, peerList)
  | some buffer =>
      match ingestPacket lz4 gcm crypto incoming address buffer peerList with
      | (none, peerList) => (.error, peerList)
      | (some incoming, peerList) =>
          if incoming.type = PacketType.acknowledgement then (.acknowledgement incoming, peerList)
          else (.success incoming, peerList)

/-- `class PacketReceiver` with the peer table it works on. -/
structure PacketReceiver where
  address : Address
  peerList : ZPeerMapping Address

namespace PacketReceiver

def init : PacketReceiver := ⟨Address.init, ZPeerMapping.empty⟩

/-- `ReceivePackets`. An empty datagram gives the result 0 and leaves the address alone. -/
def receivePackets (lz4 : Lz4) (gcm : AesGcm K) (crypto : Option K) (incoming : IncomingPacket)
    (recv : RecvFrom) (receiver : PacketReceiver) : ReceiveResult × PacketReceiver :=
  match recv with
  | .failed error => (handleReceiveError error, receiver)
  | .datagram source bytes =>
      let received := bytes.take kMaxBufferSize
      if received = [] then (.goodbye, receiver)
      else
        let address := receiver.address.receive source
        let (result, peerList) :=
          receiveDatagram lz4 gcm crypto incoming address received receiver.peerList
        (result, ⟨address, peerList⟩)

end PacketReceiver

/-- The peer a received packet is attributed to. -/
def ReceiveResult.sourcePeerId : ReceiveResult → Option UInt32
  | .success incoming => some incoming.sourcePeerId
  | .acknowledgement incoming => some incoming.sourcePeerId
  | _ => none

/-- The result for a packet that unpacked, by the peer of its address. -/
def receivedFrom (packet : IncomingPacket) : Option (ZPeer A) → ReceiveResult
  | none => .error
  | some peer =>
      if packet.type = PacketType.acknowledgement then
        .acknowledgement { packet with sourcePeerId := peer.identifier }
      else .success { packet with sourcePeerId := peer.identifier }

section Spec

variable {lz4 : Lz4} {gcm : AesGcm K} {crypto : Option K} {incoming packet : IncomingPacket}
  {received buffer : Bytes} (address : A) (peerList : ZPeerMapping A)

/-- A packet that passes the size checks and unpacks is handed on under the id its address
has in the peer table. -/
theorem receiveDatagram_eq (hbytes : checkedBytes received = some buffer)
    (hunpack : unpackPacket lz4 gcm crypto buffer incoming = .ok packet) :
    receiveDatagram lz4 gcm crypto incoming address received peerList =
      (receivedFrom packet (peerList.getOrCreatePeer address).1,
        (peerList.getOrCreatePeer address).2) := by
  simp only [receiveDatagram, hbytes, ingestPacket, hunpack]
  obtain ⟨found, peerList'⟩ := peerList.getOrCreatePeer address
  cases found with
  | none => rfl
  | some peer =>
      simp only [receivedFrom]
      split <;> rfl

variable (lz4 gcm crypto incoming received) in
/-- Everything the receiver can do with a datagram: reject it, or hand on its packet. -/
theorem receiveDatagram_cases :
    receiveDatagram lz4 gcm crypto incoming address received peerList = (.error, peerList) ∨
    ∃ buffer packet, checkedBytes received = some buffer ∧
      unpackPacket lz4 gcm crypto buffer incoming = .ok packet ∧
      receiveDatagram lz4 gcm crypto incoming address received peerList =
        (receivedFrom packet (peerList.getOrCreatePeer address).1,
          (peerList.getOrCreatePeer address).2) := by
  cases hbytes : checkedBytes received with
  | none => exact .inl (by simp only [receiveDatagram, hbytes])
  | some buffer =>
      cases hunpack : unpackPacket lz4 gcm crypto buffer incoming with
      | error => exact .inl (by simp only [receiveDatagram, hbytes, ingestPacket, hunpack])
      | ok packet =>
          exact .inr ⟨buffer, packet, rfl, hunpack,
            receiveDatagram_eq address peerList hbytes hunpack⟩

end Spec

omit [DecidableEq A] in
@[simp] theorem sourcePeerId_receivedFrom (packet : IncomingPacket) (found : Option (ZPeer A)) :
    (receivedFrom packet found).sourcePeerId = found.map ZPeer.identifier := by
  cases found with
  | none => rfl
  | some peer =>
      simp only [receivedFrom]
      split <;> rfl

/-- The receiver accepts the datagram but for the peer table: its sizes fit and the packet
unpacks. -/
def validDatagram (lz4 : Lz4) (gcm : AesGcm K) (crypto : Option K) (incoming : IncomingPacket)
    (bytes : Bytes) : Bool :=
  match checkedBytes (bytes.take kMaxBufferSize) with
  | none => false
  | some buffer => (unpackPacket lz4 gcm crypto buffer incoming).isOk

/-- A valid datagram writes the address object, looks it up and is attributed to the peer
found. -/
theorem PacketReceiver.receivePackets_valid {lz4 : Lz4} {gcm : AesGcm K} {crypto : Option K}
    {incoming : IncomingPacket} {bytes : Bytes}
    (h : validDatagram lz4 gcm crypto incoming bytes = true) (source : Endpoint)
    (receiver : PacketReceiver) :
    ∃ packet,
      receiver.receivePackets lz4 gcm crypto incoming (.datagram source bytes) =
        (receivedFrom packet
            (receiver.peerList.getOrCreatePeer (receiver.address.receive source)).1,
          ⟨receiver.address.receive source,
            (receiver.peerList.getOrCreatePeer (receiver.address.receive source)).2⟩) := by
  unfold validDatagram at h
  cases hbytes : checkedBytes (bytes.take kMaxBufferSize) with
  | none =>
      rw [hbytes] at h
      cases h
  | some buffer =>
      have hne : bytes.take kMaxBufferSize ≠ [] := by
        intro hnil
        rw [hnil] at hbytes
        cases hbytes
      rw [hbytes] at h
      cases hunpack : unpackPacket lz4 gcm crypto buffer incoming with
      | error =>
          simp only [hunpack] at h
          cases h
      | ok packet =>
          refine ⟨packet, ?_⟩
          simp only [receivePackets, if_neg hne, receiveDatagram_eq _ _ hbytes hunpack]

end ZetaNet
