import ZetaNet.Packet.Corruption
import ZetaNet.Peer.Identity
import ZetaNet.Transport.Reception

/-!
# Decoding arbitrary bytes

`ReceivePackets` and `UnpackPacket` on a datagram that anyone may have sent. An access of the
model past the received bytes is the error `outOfBounds`, so the code reads inside its buffer
exactly if no input leads there. The invariant of the walk through the headers is that the
offset stays within the buffer.
-/

namespace ZetaNet

open Wire Checks

variable {K : Type} {lz4 : Lz4} {gcm : AesGcm K} {crypto : Option K}

theorem avoids_access {α : Type} {value : Option α} {error : UnpackError} (h : value.isSome) :
    Avoids error (access value) := by
  obtain ⟨found, rfl⟩ := Option.isSome_iff_exists.mp h
  exact avoids_ok found

/-! ## The headers -/

theorem isSome_bind {α β : Type} {value : Option α} {next : α → Option β} (h : value.isSome)
    (hnext : ∀ found, (next found).isSome) : (value >>= next).isSome := by
  obtain ⟨found, rfl⟩ := Option.isSome_iff_exists.mp h
  exact hnext found

/-- Every field of the base header lies in a buffer of its size. -/
theorem isSome_readPacketHeader {inBuffer : Bytes}
    (h : kPacketHeaderWireSize ≤ inBuffer.length) : (readPacketHeader inBuffer).isSome := by
  have hroom : 20 ≤ inBuffer.length := h
  have hU8 {off : Nat} (hoff : off + 1 ≤ 20) : (loadU8 inBuffer off).isSome :=
    isSome_loadU8 (hoff.trans hroom)
  have hU16 {off : Nat} (hoff : off + 2 ≤ 20) : (loadU16 inBuffer off).isSome :=
    isSome_loadU16 (hoff.trans hroom)
  have hU32 {off : Nat} (hoff : off + 4 ≤ 20) : (loadU32 inBuffer off).isSome :=
    isSome_loadU32 (hoff.trans hroom)
  unfold readPacketHeader
  refine isSome_bind (hU16 (by decide)) fun magic => ?_
  refine isSome_bind (hU16 (by decide)) fun headerChecksum => ?_
  refine isSome_bind (hU32 (by decide)) fun totalPacketDataSize => ?_
  refine isSome_bind (hU8 (by decide)) fun version => ?_
  refine isSome_bind (hU8 (by decide)) fun flagsByte => ?_
  refine isSome_bind (hU16 (by decide)) fun type => ?_
  refine isSome_bind (hU16 (by decide)) fun alignment => ?_
  refine isSome_bind (hU8 (by decide)) fun paddingNumber => ?_
  refine isSome_bind (hU8 (by decide)) fun channelId => ?_
  exact isSome_bind (hU32 (by decide)) fun timestamp => rfl

theorem avoids_readReliableHeader (inBuffer : Bytes) (isReliable : Bool) (offset : Nat) :
    Avoids .outOfBounds (readReliableHeader inBuffer isReliable offset) := by
  unfold readReliableHeader
  cases isReliable with
  | false => exact avoids_ok _
  | true =>
      rw [if_pos rfl]
      refine avoids_require_bind (by decide) fun hroom => ?_
      have hroom : offset + 8 ≤ inBuffer.length := of_decide_eq_true hroom
      have hload (field : Nat) (hfield : field + 4 ≤ 8) :
          (loadU32 inBuffer (offset + field)).isSome := isSome_loadU32 (by omega)
      refine (avoids_access (hload _ (by decide))).bind fun _ _ => ?_
      exact (avoids_access (hload _ (by decide))).bind fun _ _ => avoids_ok _

theorem avoids_readPayloadHeader (inBuffer : Bytes) (isCompressed : Bool) (offset : Nat) :
    Avoids .outOfBounds (readPayloadHeader inBuffer isCompressed offset) := by
  unfold readPayloadHeader
  cases isCompressed with
  | false =>
      rw [if_neg Bool.false_ne_true]
      refine avoids_require_bind (by decide) fun hroom => ?_
      have hroom : offset + 4 ≤ inBuffer.length := of_decide_eq_true hroom
      exact (avoids_access (isSome_loadU32 hroom)).bind fun _ _ => avoids_ok _
  | true =>
      rw [if_pos rfl]
      refine avoids_require_bind (by decide) fun hroom => ?_
      have hroom : offset + 16 ≤ inBuffer.length := of_decide_eq_true hroom
      have hload (field : Nat) (hfield : field + 4 ≤ 16) :
          (loadU32 inBuffer (offset + field)).isSome := isSome_loadU32 (by omega)
      have hflags : (loadU8 inBuffer (offset + kCompressedFlagsOffset)).isSome :=
        isSome_loadU8 (by rw [kCompressedFlagsOffset]; omega)
      refine (avoids_access hflags).bind fun _ _ => ?_
      refine avoids_require_bind (by decide) fun _ => ?_
      refine (avoids_access (hload _ (by decide))).bind fun _ _ => ?_
      refine (avoids_access (hload _ (by decide))).bind fun _ _ => ?_
      exact (avoids_access (hload _ (by decide))).bind fun _ _ => avoids_ok _

/-- Behind the payload header the offset is still in the buffer. -/
theorem offset_le_of_readPayloadHeader {inBuffer : Bytes} {isCompressed : Bool}
    {offset next : Nat} {compressedSize originalSize checksum : UInt32}
    (h : readPayloadHeader inBuffer isCompressed offset =
      .ok (compressedSize, originalSize, checksum, next)) : next ≤ inBuffer.length := by
  obtain ⟨hnext, -, -⟩ := readPayloadHeader_eq_ok h
  unfold readPayloadHeader at h
  cases isCompressed with
  | false =>
      obtain ⟨hroom, -⟩ := require_bind_eq_ok h
      exact hnext ▸ of_decide_eq_true hroom
  | true =>
      obtain ⟨hroom, -⟩ := require_bind_eq_ok h
      exact hnext ▸ of_decide_eq_true hroom

/-! ## The whole packet -/

/-- No input makes `UnpackPacket` read outside its buffer. -/
theorem unpackPacket_avoids_outOfBounds (inBuffer : Bytes) (out : IncomingPacket) :
    Avoids .outOfBounds (unpackPacket lz4 gcm crypto inBuffer out) := by
  unfold unpackPacket
  refine avoids_require_bind (by decide) fun hroom => ?_
  have hroom : kPacketHeaderWireSize ≤ inBuffer.length := of_decide_eq_true hroom
  refine (avoids_access (isSome_readPacketHeader hroom)).bind fun header _ => ?_
  refine avoids_require_bind (by decide) fun _ => ?_
  refine (avoids_access (isSome_read? (by rwa [Nat.zero_add]))).bind fun headerWire _ => ?_
  refine avoids_require_bind (by decide) fun _ => ?_
  refine avoids_require_bind (by decide) fun _ => ?_
  refine avoids_require_bind (by decide) fun _ => ?_
  refine (avoids_readReliableHeader _ _ _).bind fun (_, _, payloadHeader) _ => ?_
  refine (avoids_readPayloadHeader _ _ _).bind fun (_, _, _, offset) _ => ?_
  refine avoids_require_bind (by decide) fun hoffset => ?_
  have hoffset : offset ≤ inBuffer.length := of_decide_eq_true hoffset
  refine avoids_require_bind (by decide) fun _ => ?_
  -- the payload runs from the offset to the end of the buffer
  have hpayload : (Buffer.read? inBuffer offset (inBuffer.length - offset)).isSome :=
    isSome_read? (by omega)
  refine (avoids_access hpayload).bind fun wirePayload _ => ?_
  refine avoids_require_bind (by decide) fun _ => ?_
  refine (avoids_succeed (by decide) _).bind fun _ _ => ?_
  exact (avoids_succeed (by decide) _).bind fun _ _ => avoids_ok _

/-! ## What is delivered -/

theorem length_decryptPayload_le (bounded : gcm.Bounded) {key : K}
    {encryptedData aad plaintext : Bytes}
    (h : decryptPayload gcm key encryptedData aad = some plaintext) :
    plaintext.length ≤ encryptedData.length := by
  unfold decryptPayload at h
  split at h
  · cases h
  · simp only at h
    split at h
    · cases h
    · have hle := bounded _ _ _ _ _ _ h
      simp only [List.length_take, List.length_drop] at hle
      omega

theorem length_decryptPayloadIfNeeded_le (bounded : gcm.Bounded) {payload opened : Bytes}
    {sequenceNumber acknowledgementNumber : UInt32} {header : PacketHeader}
    (h : decryptPayloadIfNeeded gcm crypto payload sequenceNumber acknowledgementNumber header =
      some opened) : opened.length ≤ payload.length := by
  unfold decryptPayloadIfNeeded at h
  split at h
  · rw [Option.some.inj h]
  · cases crypto with
    | none => cases h
    | some key => exact length_decryptPayload_le bounded h

theorem decompress_eq_some {data decompressed : Bytes} {originalSize : Nat}
    (h : ZCompressionContext.decompress lz4 data originalSize = some decompressed) :
    decompressed.length = originalSize ∧
      originalSize ≤ ZCompressionContext.kMaxDecompressedSize := by
  unfold ZCompressionContext.decompress at h
  split at h
  · cases h
  · rename_i hmax
    refine ⟨?_, Nat.not_lt.mp hmax⟩
    split at h
    · rename_i hempty
      rw [← Option.some.inj h, hempty.2]
      rfl
    · cases hwritten : lz4.decompressSafe data originalSize with
      | none =>
          rw [hwritten] at h
          cases h
      | some written =>
          rw [hwritten] at h
          simp only at h
          split at h
          · cases h
          · rename_i hlength
            rw [← Option.some.inj h]
            exact not_not.mp hlength

theorem load_originalSize {inBuffer : Bytes} {offset next : Nat}
    {compressedSize originalSize checksum : UInt32}
    (h : readPayloadHeader inBuffer true offset =
      .ok (compressedSize, originalSize, checksum, next)) :
    loadU32 inBuffer (offset + kCompressedOriginalSizeOffset) = some originalSize := by
  unfold readPayloadHeader at h
  rw [if_pos rfl] at h
  obtain ⟨-, h⟩ := require_bind_eq_ok h
  obtain ⟨_, -, h⟩ := access_bind_eq_ok h
  obtain ⟨-, h⟩ := require_bind_eq_ok h
  obtain ⟨_, -, h⟩ := access_bind_eq_ok h
  obtain ⟨size, hsize, h⟩ := access_bind_eq_ok h
  obtain ⟨_, -, hresult⟩ := access_bind_eq_ok h
  obtain ⟨-, hsizes⟩ := Prod.mk.inj (Except.ok.inj hresult)
  obtain ⟨horiginal, -⟩ := Prod.mk.inj hsizes
  rw [hsize, horiginal]

/-- What the receiver promises of a packet it hands on: its type, its channel and the length
of its data, against the `buffer` it was read from. -/
structure WellDelivered (buffer : Bytes) (packet : IncomingPacket) : Prop where
  type_ne : packet.type ≠ PacketType.invalid
  channel : packet.channel = .control ↔ packet.type < 100
  plain : packet.flags.compressed = false → packet.data.length ≤ buffer.length
  /-- the declared size stands in the compressed payload header -/
  compressed : packet.flags.compressed = true → ∃ originalSize : UInt32,
    loadU32 buffer (kPacketHeaderWireSize +
        (if packet.flags.reliable then kReliableHeaderWireSize else 0) +
        kCompressedOriginalSizeOffset) = some originalSize ∧
      packet.data.length = originalSize.toNat ∧ originalSize.toNat ≤ 64 * 1024 * 1024

theorem Accepts.wellDelivered (bounded : gcm.Bounded) {inBuffer : Bytes} {d : Decoding}
    (h : Accepts lz4 gcm crypto inBuffer d) (out : IncomingPacket) :
    WellDelivered inBuffer (d.packet out) where
  type_ne := type_ne_invalid_of_validatePacketHeader h.valid
  channel := by
    show PacketChannelType.ofU8 d.header.channelId = .control ↔ d.header.type < 100
    rw [h.channel, PacketChannelType.ofType]
    cases hsystem : isSystemMessage d.header.type with
    | false => exact iff_of_false (by decide) (of_decide_eq_false hsystem)
    | true => exact iff_of_true rfl (of_decide_eq_true hsystem)
  plain := by
    intro hplain
    have hdata := h.decompressed
    rw [show d.header.flags.isCompressed = false from hplain] at hdata
    have hdata : d.opened = d.data := Option.some.inj hdata
    have hopened := length_decryptPayloadIfNeeded_le bounded h.decrypted
    rw [hdata, List.length_drop] at hopened
    exact hopened.trans (Nat.sub_le ..)
  compressed := by
    intro hcompressed
    have hdata := h.decompressed
    have hpayload := h.payload
    rw [show d.header.flags.isCompressed = true from hcompressed] at hdata hpayload
    obtain ⟨hlength, hmax⟩ := decompress_eq_some hdata
    refine ⟨d.originalSize, ?_, hlength, hmax⟩
    have hload := load_originalSize hpayload
    rwa [h.payloadHeader_eq] at hload

/-! ## The receiver -/

/-- The size checks leave a prefix of the received bytes that holds a base header. -/
theorem checkedBytes_front {received buffer : Bytes} (h : checkedBytes received = some buffer) :
    buffer <+: received ∧ kPacketHeaderWireSize ≤ buffer.length := by
  obtain ⟨size, hload, hle, rfl⟩ := checkedBytes_eq_some h
  have hfront := List.take_prefix size.toNat received
  refine ⟨hfront, ?_⟩
  rw [List.length_take, Nat.min_eq_left hle]
  by_contra hshort
  unfold checkedBytes at h
  rw [hload] at h
  simp only [if_pos (Or.inr (Nat.lt_of_not_le hshort)), ite_self] at h
  cases h

/-- `UnpackPacket` reads `buffer` inside its bounds: no access leaves it, and whatever the flags
say, the offset at which the payload size is taken is not beyond its end. -/
structure DecodesInside (lz4 : Lz4) (gcm : AesGcm K) (crypto : Option K)
    (incoming : IncomingPacket) (buffer : Bytes) : Prop where
  access : unpackPacket lz4 gcm crypto buffer incoming ≠ .error .outOfBounds
  offset_le : ∀ isReliable isCompressed sequenceNumber acknowledgementNumber payloadHeader
    compressedSize originalSize checksum offset,
    readReliableHeader buffer isReliable kPacketHeaderWireSize =
        .ok (sequenceNumber, acknowledgementNumber, payloadHeader) →
      readPayloadHeader buffer isCompressed payloadHeader =
        .ok (compressedSize, originalSize, checksum, offset) →
      offset ≤ buffer.length

theorem decodesInside (incoming : IncomingPacket) (buffer : Bytes) :
    DecodesInside lz4 gcm crypto incoming buffer where
  access := unpackPacket_avoids_outOfBounds buffer incoming
  offset_le _ _ _ _ _ _ _ _ _ _ := offset_le_of_readPayloadHeader

/-- The packet that a result hands on. -/
def ReceiveResult.delivered : ReceiveResult → Option IncomingPacket
  | .success incoming => some incoming
  | .acknowledgement incoming => some incoming
  | _ => none

theorem delivered_receivedFrom {packet delivered : IncomingPacket} {A : Type}
    {found : Option (ZPeer A)} (h : (receivedFrom packet found).delivered = some delivered) :
    ∃ sourcePeerId, delivered = { packet with sourcePeerId } := by
  cases found with
  | none => cases h
  | some peer =>
      refine ⟨peer.identifier, ?_⟩
      simp only [receivedFrom] at h
      split at h
      · exact (Option.some.inj h).symm
      · exact (Option.some.inj h).symm

/-- Decoding is safe on arbitrary bytes. The receiver's own copy of the header and every read
of `UnpackPacket` lie inside the datagram, and a packet that is handed on is well formed. -/
theorem PacketReceiver.receivePackets_safe (lz4 : Lz4) (bounded : gcm.Bounded)
    (crypto : Option K) (incoming : IncomingPacket) (source : Endpoint) (bytes : Bytes)
    (receiver : PacketReceiver) :
    (kPacketHeaderWireSize ≤ (bytes.take kMaxBufferSize).length →
      (Buffer.read? (bytes.take kMaxBufferSize) 0 kPacketHeaderWireSize).isSome ∧
        (loadU32 (bytes.take kMaxBufferSize) kHeaderTotalSizeOffset).isSome) ∧
    (∀ buffer, checkedBytes (bytes.take kMaxBufferSize) = some buffer →
      buffer <+: bytes.take kMaxBufferSize ∧ kPacketHeaderWireSize ≤ buffer.length ∧
        DecodesInside lz4 gcm crypto incoming buffer) ∧
    ∀ packet,
      (receiver.receivePackets lz4 gcm crypto incoming (.datagram source bytes)).1.delivered =
          some packet →
        ∃ buffer, checkedBytes (bytes.take kMaxBufferSize) = some buffer ∧
          WellDelivered buffer packet := by
  refine ⟨fun hroom => ⟨isSome_read? (by rwa [Nat.zero_add]), isSome_loadU32 ?_⟩, ?_, ?_⟩
  · have hroom : 20 ≤ (bytes.take kMaxBufferSize).length := hroom
    rw [kHeaderTotalSizeOffset]
    omega
  · intro buffer hbuffer
    obtain ⟨hfront, hroom⟩ := checkedBytes_front hbuffer
    exact ⟨hfront, hroom, decodesInside incoming buffer⟩
  · intro packet hdelivered
    simp only [receivePackets] at hdelivered
    split at hdelivered
    · cases hdelivered
    · obtain heq | ⟨buffer, unpacked, hbuffer, hunpack, heq⟩ :=
        receiveDatagram_cases lz4 gcm crypto incoming (bytes.take kMaxBufferSize)
          (receiver.address.receive source) receiver.peerList
      · rw [heq] at hdelivered
        cases hdelivered
      · rw [heq] at hdelivered
        obtain ⟨sourcePeerId, rfl⟩ := delivered_receivedFrom hdelivered
        obtain ⟨d, haccepts, rfl⟩ := unpackPacket_eq_ok_iff.mp hunpack
        -- the receiver only writes the peer's id into the packet
        have hwell := haccepts.wellDelivered bounded incoming
        exact ⟨buffer, hbuffer, hwell.type_ne, hwell.channel, hwell.plain, hwell.compressed⟩

theorem maskGcm_bounded : maskGcm.Bounded := by
  intro key nonce aad ciphertext tag plaintext h
  simp only [maskGcm] at h
  split at h
  · rw [← Option.some.inj h, List.length_map]
  · cases h

theorem PacketReceiver.receivePackets_safe_plainDatagram :
    ∃ packet,
      (PacketReceiver.init.receivePackets literalLz4 maskGcm none sampleIncoming
        (.datagram shortEndpoint plainDatagram)).1.delivered = some packet ∧
      DecodesInside literalLz4 maskGcm none sampleIncoming plainDatagram ∧
      ∃ buffer, checkedBytes (plainDatagram.take kMaxBufferSize) = some buffer ∧
        WellDelivered buffer packet := by
  obtain ⟨-, hreads, hdelivers⟩ := PacketReceiver.receivePackets_safe literalLz4 maskGcm_bounded
    none sampleIncoming shortEndpoint plainDatagram PacketReceiver.init
  have hdelivered : ((PacketReceiver.init.receivePackets literalLz4 maskGcm none sampleIncoming
      (.datagram shortEndpoint plainDatagram)).1.delivered).isSome := by decide +kernel
  obtain ⟨packet, hpacket⟩ := Option.isSome_iff_exists.mp hdelivered
  exact ⟨packet, hpacket, (hreads plainDatagram (by decide +kernel)).2.2, hdelivers packet hpacket⟩

end ZetaNet
