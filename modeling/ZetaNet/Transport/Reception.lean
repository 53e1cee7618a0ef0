import ZetaNet.Packet.RoundTrip
import ZetaNet.Peer.Receiver

/-!
# Receiving what a builder sent

The receiver's checks on a datagram that `BuildPacket` made: it is taken whole or not at
all, and what it hands on is the packet that was sent.
-/

namespace ZetaNet

open Wire

variable {K A : Type} [DecidableEq A]

theorem loadU32_take {bytes : Bytes} {n off : Nat} {value : UInt32}
    (h : loadU32 (bytes.take n) off = some value) : loadU32 bytes off = some value := by
  obtain ⟨field, hread, rfl⟩ := Option.map_eq_some_iff.mp h
  have hroom : off + 4 ≤ (bytes.take n).length := by
    by_contra hshort
    rw [Buffer.read?, if_neg hshort] at hread
    cases hread
  have hwhole : Buffer.read? (bytes.take n ++ bytes.drop n) off 4 = some field := by
    rw [Buffer.read?_append_left hroom, hread]
  rw [List.take_append_drop] at hwhole
  rw [loadU32, hwhole]
  rfl

/-- The size checks pass on the announced number of bytes, which were all received. -/
theorem checkedBytes_eq_some {received buffer : Bytes} (h : checkedBytes received = some buffer) :
    ∃ size : UInt32, loadU32 received kHeaderTotalSizeOffset = some size ∧
      size.toNat ≤ received.length ∧ buffer = received.take size.toNat := by
  unfold checkedBytes at h
  split at h
  · cases h
  · cases hsize : loadU32 received kHeaderTotalSizeOffset with
    | none =>
        rw [hsize] at h
        cases h
    | some size =>
        rw [hsize] at h
        simp only at h
        split at h
        · cases h
        · split at h
          · cases h
          · rename_i hfit
            exact ⟨size, rfl, Nat.not_lt.mp hfit, (Option.some.inj h).symm⟩

/-- The header of a built datagram. -/
theorem readPacketHeader_buildPacket {lz4 : Lz4} {gcm : AesGcm K} {crypto : Option K}
    {env : BuildEnv} {packet packetInfo : OutgoingPacket} {sequenceNumber : UInt32}
    {bytes : Bytes}
    (hbuilt : buildPacket lz4 gcm crypto env packet sequenceNumber = (packetInfo, bytes))
    (hne : bytes ≠ []) :
    ∃ header, readPacketHeader bytes = some header ∧ header.type = packet.type ∧
      header.channelId = packet.channel.toU8 ∧
      header.totalPacketDataSize.toNat = bytes.length := by
  obtain ⟨compressed, payload, hcompress, hencrypt, hfit, rfl⟩ := buildPacket_eq hbuilt hne
  obtain ⟨b, rfl⟩ := compressPayload_packet hcompress
  refine ⟨_, readPacketHeader_headerFields _ _ _ _ _, rfl, rfl, ?_⟩
  show (UInt32.ofNat (sizeOfHeaders (packet.withCompressed b).flags + payload.length)).toNat = _
  rw [length_datagram, UInt32.toNat_ofNat']
  exact Nat.mod_eq_of_lt (by unfold kMaxU32 at hfit; omega)

theorem loadU32_totalSize {bytes : Bytes} {header : PacketHeader}
    (h : readPacketHeader bytes = some header) :
    loadU32 bytes kHeaderTotalSizeOffset = some header.totalPacketDataSize := by
  unfold readPacketHeader at h
  obtain ⟨magic, -, h⟩ := Option.bind_eq_some_iff.mp h
  obtain ⟨headerChecksum, -, h⟩ := Option.bind_eq_some_iff.mp h
  obtain ⟨totalPacketDataSize, htotal, h⟩ := Option.bind_eq_some_iff.mp h
  obtain ⟨version, -, h⟩ := Option.bind_eq_some_iff.mp h
  obtain ⟨flagsByte, -, h⟩ := Option.bind_eq_some_iff.mp h
  obtain ⟨type, -, h⟩ := Option.bind_eq_some_iff.mp h
  obtain ⟨alignment, -, h⟩ := Option.bind_eq_some_iff.mp h
  obtain ⟨paddingNumber, -, h⟩ := Option.bind_eq_some_iff.mp h
  obtain ⟨channelId, -, h⟩ := Option.bind_eq_some_iff.mp h
  obtain ⟨timestamp, -, h⟩ := Option.bind_eq_some_iff.mp h
  rw [htotal, ← Option.some.inj h]

/-- A built datagram passes the size checks whole, if it does. -/
theorem checkedBytes_buildPacket {bytes buffer : Bytes} {header : PacketHeader}
    (hread : readPacketHeader bytes = some header)
    (htotal : header.totalPacketDataSize.toNat = bytes.length)
    (h : checkedBytes (bytes.take kMaxBufferSize) = some buffer) : buffer = bytes := by
  obtain ⟨size, hsize, hfit, rfl⟩ := checkedBytes_eq_some h
  have hload := loadU32_take hsize
  rw [loadU32_totalSize hread] at hload
  obtain rfl := Option.some.inj hload
  rw [htotal] at hfit ⊢
  rw [List.length_take] at hfit
  rw [List.take_take, List.take_of_length_le]
  omega

/-- The packet a datagram of `packet` carries, apart from its compressed flag and the fields
the receiver keeps from its packet object. -/
structure Conveys (packet : OutgoingPacket) (sequenceNumber : UInt32)
    (received : IncomingPacket) : Prop where
  type : received.type = packet.type
  channel : received.channel = packet.channel
  reliable : received.flags.reliable = packet.flags.reliable
  sequenceNumber : received.sequenceNumber = carriedSequence packet sequenceNumber
  acknowledgementNumber : received.acknowledgementNumber = carriedAcknowledgement packet
  data : received.data = packet.heapData

/-- The receiver's answer to a built datagram under any key: a rejection that leaves the peer
table alone, or the packet sent. -/
theorem receiveDatagram_buildPacket {lz4 : Lz4} {gcm : AesGcm K} (hlz4 : lz4.RoundTrip)
    (sized : gcm.Sized) (authentic : gcm.Authentic) {crypto : Option K} {env : BuildEnv}
    {packet packetInfo : OutgoingPacket} {sequenceNumber : UInt32} {bytes : Bytes}
    (hbuilt : buildPacket lz4 gcm crypto env packet sequenceNumber = (packetInfo, bytes))
    (hne : bytes ≠ []) (crypto' : Option K) (incoming : IncomingPacket) (address : A)
    (peerList : ZPeerMapping A) :
    receiveDatagram lz4 gcm crypto' incoming address (bytes.take kMaxBufferSize) peerList =
      (.error, peerList) ∨
    ∃ received, Conveys packet sequenceNumber received ∧
      receiveDatagram lz4 gcm crypto' incoming address (bytes.take kMaxBufferSize) peerList =
        (receivedFrom received (peerList.getOrCreatePeer address).1,
          (peerList.getOrCreatePeer address).2) := by
  rcases receiveDatagram_cases lz4 gcm crypto' incoming (bytes.take kMaxBufferSize) address
    peerList with herror | ⟨buffer, received, hbytes, hunpack, hresult⟩
  · exact .inl herror
  · obtain ⟨header, hread, htype, hchannel, htotal⟩ := readPacketHeader_buildPacket hbuilt hne
    obtain rfl := checkedBytes_buildPacket hread htotal hbytes
    -- the header was accepted, so the packet had a valid type on its own channel
    obtain ⟨header', hread', hvalid, hofType⟩ := unpackPacket_header hunpack
    obtain rfl := Option.some.inj (hread.symm.trans hread')
    have hinvalid := type_ne_invalid_of_validatePacketHeader hvalid
    rw [htype] at hinvalid
    rw [hchannel, PacketChannelType.ofU8_toU8, htype] at hofType
    have hreceived := unpackPacket_sound hlz4 sized authentic hinvalid hofType hbuilt hne hunpack
    refine .inr ⟨received, ?_, hresult⟩
    obtain ⟨compressed, payload, hcompress, -, -, -⟩ := buildPacket_eq hbuilt hne
    obtain ⟨b, rfl⟩ := compressPayload_packet hcompress
    rw [hreceived]
    exact ⟨rfl, rfl, rfl, rfl, rfl, rfl⟩

end ZetaNet
