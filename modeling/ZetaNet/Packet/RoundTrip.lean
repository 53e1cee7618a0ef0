import ZetaNet.Packet.Layout
import ZetaNet.Packet.Unpack

/-!
# `UnpackPacket` after `BuildPacket`

The receiver's reads, field by field, on a datagram laid out by the builder
(`unpackPacket_datagram`), and what follows for the two payload transforms: with the
sender's key the payload comes back (`unpackPacket_buildPacket`), and under any key an
accepted datagram yields the sender's payload (`unpackPacket_sound`).
-/

namespace ZetaNet

open Wire Checks

/-! ## Reading the headers back -/

theorem unpackHeaderFlags_packHeaderFlags (reliable encrypted compressed : Bool)
    (priority : PacketPriority) :
    unpackHeaderFlags (packHeaderFlags reliable encrypted compressed priority) =
      { isReliable := reliable, isEncrypted := encrypted, isCompressed := compressed,
        isFragmented := false, priority := priority.toU8, reserved := 0 } := by
  cases reliable <;> cases encrypted <;> cases compressed <;> cases priority <;> rfl

/-- The header the receiver parses out of the builder's bytes. -/
def parsedHeader (checksum : UInt16) (total : UInt32) (packet : OutgoingPacket)
    (unixTime : UInt64) : PacketHeader where
  magic := kMagic
  headerChecksum := checksum
  totalPacketDataSize := total
  version := kProtocolVersion
  flags :=
    { isReliable := packet.flags.reliable, isEncrypted := packet.flags.encrypted,
      isCompressed := packet.flags.compressed, isFragmented := false,
      priority := packet.flags.priority.toU8, reserved := 0 }
  type := packet.type
  alignment := 0
  paddingNumber := 0
  channelId := packet.channel.toU8
  timestamp := (unixTime - kTimeshift).toUInt32

theorem readPacketHeader_headerFields (checksum : UInt16) (total : UInt32)
    (packet : OutgoingPacket) (unixTime : UInt64) (back : Bytes) :
    readPacketHeader (headerFields checksum total packet unixTime ++ back) =
      some (parsedHeader checksum total packet unixTime) := by
  simp (disch := simp) only [readPacketHeader, headerFields, List.append_assoc,
    kHeaderMagicOffset, kHeaderChecksumOffset, kHeaderTotalSizeOffset, kHeaderVersionOffset,
    kHeaderFlagsOffset, kHeaderTypeOffset, kHeaderAlignmentOffset, kHeaderPaddingOffset,
    kHeaderChannelOffset, kHeaderTimestampOffset, loadU8_skip, loadU16_skip, loadU32_skip,
    length_leU16, length_leU32, List.length_singleton, Nat.reduceSub, loadU8_front,
    loadU16_front, loadU32_front]
  simp [parsedHeader, unpackHeaderFlags_packHeaderFlags]

/-- The sequence and acknowledgement numbers a packet carries, zero without a reliable
header. -/
def carriedSequence (packet : OutgoingPacket) (sequenceNumber : UInt32) : UInt32 :=
  if packet.flags.reliable then sequenceNumber else 0

def carriedAcknowledgement (packet : OutgoingPacket) : UInt32 :=
  if packet.flags.reliable then acknowledgementField packet else 0

theorem readReliableHeader_fields (front back : Bytes) (packet : OutgoingPacket)
    (sequenceNumber : UInt32) {offset : Nat} (hoffset : offset = front.length) :
    readReliableHeader (front ++ (reliableFields packet sequenceNumber ++ back))
        packet.flags.reliable offset =
      .ok (carriedSequence packet sequenceNumber, carriedAcknowledgement packet,
        offset + (if packet.flags.reliable then kReliableHeaderWireSize else 0)) := by
  subst hoffset
  cases hrel : packet.flags.reliable with
  | false =>
      simp [readReliableHeader, carriedSequence, carriedAcknowledgement, hrel]
      rfl
  | true =>
      have hfields : reliableFields packet sequenceNumber =
          leU32 sequenceNumber ++ leU32 (acknowledgementField packet) := by
        simp [reliableFields, hrel]
      have hroom : front.length + kReliableHeaderWireSize ≤
          (front ++ (leU32 sequenceNumber ++
            (leU32 (acknowledgementField packet) ++ back))).length := by
        simp [kReliableHeaderWireSize]
        omega
      rw [hfields, List.append_assoc]
      simp (disch := simp) only [readReliableHeader, kReliableSequenceOffset,
        kReliableAcknowledgementOffset, loadU32_skip, Nat.add_zero, Nat.add_sub_cancel_left,
        Nat.sub_self, length_leU32, loadU32_front, if_true]
      rw [require_true (decide_eq_true hroom)]
      simp [carriedSequence, carriedAcknowledgement, hrel]

theorem readPayloadHeader_fields (front payload : Bytes) (compressed : Bool)
    (payloadSize originalSize checksum : UInt32) {offset : Nat}
    (hoffset : offset = front.length) :
    readPayloadHeader
        (front ++ (payloadFields compressed payloadSize originalSize checksum ++ payload))
        compressed offset =
      .ok (if compressed then payloadSize else 0, if compressed then originalSize else 0,
        checksum, offset + (if compressed then kCompressedHeaderWireSize
          else kUncompressedHeaderWireSize)) := by
  subst hoffset
  cases compressed with
  | false =>
      have hroom : front.length + kUncompressedHeaderWireSize ≤
          (front ++ (leU32 checksum ++ payload)).length := by
        simp [kUncompressedHeaderWireSize]
      simp (disch := simp) only [readPayloadHeader, payloadFields, kUncompressedChecksumOffset,
        loadU32_skip, Nat.add_zero, Nat.sub_self, loadU32_front, if_false, Bool.false_eq_true]
      rw [require_true (decide_eq_true hroom)]
      rfl
  | true =>
      have hroom : front.length + kCompressedHeaderWireSize ≤
          (front ++ (leU32 payloadSize ++ (leU32 originalSize ++ (leU32 checksum ++
            ([1, 0, 0, 0] ++ payload))))).length := by
        simp [kCompressedHeaderWireSize]
        omega
      simp (disch := simp) only [readPayloadHeader, payloadFields, kCompressedSizeOffset,
        kCompressedOriginalSizeOffset, kCompressedChecksumOffset, kCompressedFlagsOffset,
        loadU8_skip, loadU32_skip, List.append_assoc, Nat.add_zero, Nat.sub_self,
        Nat.add_sub_cancel_left, Nat.reduceSub, length_leU32, loadU32_front, if_true]
      rw [require_true (decide_eq_true hroom)]
      rfl

/-! ## The receiver on a datagram -/

variable {K : Type}

/-- The fields the receiver assigns for an opened payload. -/
def receivedPacket (packet : OutgoingPacket) (sequenceNumber : UInt32) (data : Bytes)
    (out : IncomingPacket) : IncomingPacket :=
  { out with
    type := packet.type
    channel := packet.channel
    flags :=
      { reliable := packet.flags.reliable, encrypted := packet.flags.encrypted,
        compressed := packet.flags.compressed, priority := packet.flags.priority }
    sequenceNumber := carriedSequence packet sequenceNumber
    acknowledgementNumber := carriedAcknowledgement packet
    data }

@[simp] theorem PacketPriority.ofU8_toU8 (priority : PacketPriority) :
    ofU8 priority.toU8 = priority := by
  cases priority <;> rfl

theorem validatePacketHeader_parsedHeader (checksum : UInt16) {total : UInt32}
    {packet : OutgoingPacket} (unixTime : UInt64) {size : Nat}
    (htype : packet.type ≠ PacketType.invalid) (hsize : kPacketHeaderWireSize ≤ size)
    (htotal : total.toNat = size) :
    validatePacketHeader (parsedHeader checksum total packet unixTime) size = true := by
  have hchannel : ¬ packet.channel.toU8 > PacketChannelType.data.toU8 := by
    cases packet.channel <;> decide
  have hpriority : ¬ packet.flags.priority.toU8 > PacketPriority.critical.toU8 := by
    cases packet.flags.priority <;> decide
  unfold validatePacketHeader
  rw [if_neg (by omega)]
  simp [parsedHeader, htotal, hchannel, hpriority, htype]

/-! ### The reads of the receiver, in order -/

section Datagram

variable (packet : OutgoingPacket) (sequenceNumber originalSize : UInt32) (unixTime : UInt64)
  (payload : Bytes)

/-- The size that the header announces. -/
def announcedTotal : UInt32 :=
  UInt32.ofNat (sizeOfHeaders packet.flags + payload.length)

/-- The header that the receiver reads. -/
def datagramHeader : PacketHeader :=
  parsedHeader (headerChecksum (announcedTotal packet payload) packet unixTime)
    (announcedTotal packet payload) packet unixTime

theorem toNat_announcedTotal (hfit : sizeOfHeaders packet.flags + payload.length ≤ kMaxU32) :
    (announcedTotal packet payload).toNat =
      (datagram packet sequenceNumber originalSize unixTime payload).length := by
  rw [length_datagram, announcedTotal, UInt32.toNat_ofNat']
  exact Nat.mod_eq_of_lt (by unfold kMaxU32 at hfit; omega)

theorem kPacketHeaderWireSize_le_datagram :
    kPacketHeaderWireSize ≤
      (datagram packet sequenceNumber originalSize unixTime payload).length := by
  rw [length_datagram, sizeOfHeaders]
  omega

theorem readPacketHeader_datagram :
    readPacketHeader (datagram packet sequenceNumber originalSize unixTime payload) =
      some (datagramHeader packet unixTime payload) := by
  rw [datagram]
  exact readPacketHeader_headerFields ..

theorem validatePacketHeader_datagram (htype : packet.type ≠ PacketType.invalid)
    (hfit : sizeOfHeaders packet.flags + payload.length ≤ kMaxU32) :
    validatePacketHeader (datagramHeader packet unixTime payload)
      (datagram packet sequenceNumber originalSize unixTime payload).length = true :=
  validatePacketHeader_parsedHeader _ _ htype
    (kPacketHeaderWireSize_le_datagram packet sequenceNumber originalSize unixTime payload)
    (toNat_announcedTotal packet sequenceNumber originalSize unixTime payload hfit)

theorem read?_headerFields_datagram :
    Buffer.read? (datagram packet sequenceNumber originalSize unixTime payload) 0
        kPacketHeaderWireSize =
      some (headerFields (headerChecksum (announcedTotal packet payload) packet unixTime)
        (announcedTotal packet payload) packet unixTime) := by
  rw [datagram]
  exact Buffer.read?_front (length_headerFields ..).symm

theorem computePacketHeaderChecksum_datagramHeader :
    computePacketHeaderChecksum
        (headerFields (headerChecksum (announcedTotal packet payload) packet unixTime)
          (announcedTotal packet payload) packet unixTime) =
      headerChecksum (announcedTotal packet payload) packet unixTime := by
  have h := computePacketHeaderChecksum_headerFields
    (headerChecksum (announcedTotal packet payload) packet unixTime)
    (announcedTotal packet payload) packet unixTime []
  rwa [List.append_nil] at h

/-- The builder's channel is the one of the packet's type, so neither channel test refuses. -/
theorem channel_of_type (hchannel : packet.channel = PacketChannelType.ofType packet.type) :
    (!(isSystemMessage packet.type && packet.channel != .control)) = true ∧
      (!(!isSystemMessage packet.type && packet.channel != .data)) = true := by
  rw [hchannel, PacketChannelType.ofType]
  cases isSystemMessage packet.type <;> exact ⟨rfl, rfl⟩

theorem readReliableHeader_datagram :
    readReliableHeader (datagram packet sequenceNumber originalSize unixTime payload)
        packet.flags.reliable kPacketHeaderWireSize =
      .ok (carriedSequence packet sequenceNumber, carriedAcknowledgement packet,
        kPacketHeaderWireSize +
          (if packet.flags.reliable then kReliableHeaderWireSize else 0)) := by
  rw [datagram]
  exact readReliableHeader_fields _ _ _ _ (length_headerFields ..).symm

/-- The payload header of a datagram, behind the base header and the reliable one. -/
theorem readPayloadHeader_datagram :
    readPayloadHeader (datagram packet sequenceNumber originalSize unixTime payload)
        packet.flags.compressed
        (kPacketHeaderWireSize + (if packet.flags.reliable then kReliableHeaderWireSize else 0)) =
      .ok (if packet.flags.compressed then UInt32.ofNat payload.length else 0,
        if packet.flags.compressed then originalSize else 0, computeChecksum payload,
        sizeOfHeaders packet.flags) := by
  rw [datagram, ← List.append_assoc]
  exact readPayloadHeader_fields _ _ _ _ _ _ (by simp)

theorem compressedSize_datagram
    (hfit : sizeOfHeaders packet.flags + payload.length ≤ kMaxU32) :
    (!(packet.flags.compressed &&
      (if packet.flags.compressed then UInt32.ofNat payload.length else 0).toNat !=
        payload.length)) = true := by
  have hsmall : payload.length < 4294967296 := by unfold kMaxU32 at hfit; omega
  cases packet.flags.compressed <;> simp [hsmall]

theorem read?_payload_datagram :
    Buffer.read? (datagram packet sequenceNumber originalSize unixTime payload)
      (sizeOfHeaders packet.flags) payload.length = some payload := by
  set total := UInt32.ofNat (sizeOfHeaders packet.flags + payload.length)
  set headers := headerFields (headerChecksum total packet unixTime) total packet unixTime ++
    (reliableFields packet sequenceNumber ++
      payloadFields packet.flags.compressed (UInt32.ofNat payload.length) originalSize
        (computeChecksum payload)) with hheaders
  have hlength : headers.length = sizeOfHeaders packet.flags := by
    simp [hheaders, sizeOfHeaders, Nat.add_assoc]
  have hcut : datagram packet sequenceNumber originalSize unixTime payload =
      headers ++ (payload ++ []) := by
    rw [datagram, hheaders, List.append_nil, List.append_assoc, List.append_assoc]
  rw [hcut]
  exact Buffer.read?_field hlength.symm rfl

end Datagram

/-- `UnpackPacket` on a datagram: every test of the headers passes, and what remains are the
two payload transforms. -/
theorem unpackPacket_datagram (lz4 : Lz4) (gcm : AesGcm K) (crypto : Option K)
    (packet : OutgoingPacket) (sequenceNumber originalSize : UInt32) (unixTime : UInt64)
    (payload : Bytes) (out : IncomingPacket)
    (htype : packet.type ≠ PacketType.invalid)
    (hchannel : packet.channel = PacketChannelType.ofType packet.type)
    (hfit : sizeOfHeaders packet.flags + payload.length ≤ kMaxU32) :
    unpackPacket lz4 gcm crypto
        (datagram packet sequenceNumber originalSize unixTime payload) out =
      (do
        let opened ← succeed
          (decryptPayloadIfNeeded gcm crypto payload (carriedSequence packet sequenceNumber)
            (carriedAcknowledgement packet)
            (parsedHeader
              (headerChecksum (UInt32.ofNat (sizeOfHeaders packet.flags + payload.length))
                packet unixTime) (UInt32.ofNat (sizeOfHeaders packet.flags + payload.length))
              packet unixTime)) .decryptionFailed
        let data ← succeed
          (decompressIfNeeded lz4 packet.flags.compressed opened
            (if packet.flags.compressed then originalSize else 0)) .decompressionFailed
        return receivedPacket packet sequenceNumber data out) := by
  obtain ⟨hsystem, hdata⟩ := channel_of_type packet hchannel
  have hroom := kPacketHeaderWireSize_le_datagram packet sequenceNumber originalSize unixTime
    payload
  have hoffset : sizeOfHeaders packet.flags ≤
      (datagram packet sequenceNumber originalSize unixTime payload).length := by
    rw [length_datagram]
    exact Nat.le_add_right ..
  have hpayloadSize : (datagram packet sequenceNumber originalSize unixTime payload).length -
      sizeOfHeaders packet.flags = payload.length := by
    rw [length_datagram, Nat.add_sub_cancel_left]
  -- the run of the receiver, test by test
  unfold unpackPacket
  rw [require_true (decide_eq_true hroom), readPacketHeader_datagram]
  simp only [ok_bind, access_some]
  rw [require_true (validatePacketHeader_datagram packet sequenceNumber originalSize unixTime
    payload htype hfit), read?_headerFields_datagram]
  simp only [ok_bind, access_some]
  rw [computePacketHeaderChecksum_datagramHeader]
  simp only [datagramHeader, parsedHeader, PacketChannelType.ofU8_toU8]
  rw [require_true (beq_self_eq_true _), require_true hsystem, require_true hdata,
    readReliableHeader_datagram]
  simp only [ok_bind, readPayloadHeader_datagram]
  rw [require_true (decide_eq_true hoffset), hpayloadSize,
    require_true (compressedSize_datagram packet payload hfit), read?_payload_datagram]
  simp only [ok_bind, access_some]
  rw [require_true (beq_self_eq_true _)]
  simp only [ok_bind, PacketPriority.ofU8_toU8, receivedPacket, announcedTotal]

/-! ## The two transforms undone -/

/-- The packet as the compression stage leaves it: only its `compressed` flag may change. -/
def OutgoingPacket.withCompressed (packet : OutgoingPacket) (compressed : Bool) :
    OutgoingPacket :=
  { packet with flags := { packet.flags with compressed } }

/-- What the compression stage hands on: either the payload as it is, or a compressor output
under the compressed flag. An empty payload keeps the flag and is not compressed at all. -/
theorem compressPayload_cases {lz4 : Lz4} {packet packetInfo : OutgoingPacket}
    {compressed : Bytes} (h : compressPayload lz4 packet = (packetInfo, compressed)) :
    (packetInfo = packet.withCompressed false ∧ compressed = packet.heapData) ∨
    (packetInfo = packet.withCompressed true ∧ packet.heapData = [] ∧ compressed = []) ∨
    (packetInfo = packet.withCompressed true ∧ packet.heapData ≠ [] ∧
      ZCompressionContext.compress lz4 packet.heapData = some compressed) := by
  have hkeep {b : Bool} (hb : packet.flags.compressed = b) : packet = packet.withCompressed b := by
    subst hb
    rfl
  have hsize : packet.heapDataSize > 0 ↔ packet.heapData ≠ [] := by
    rw [gt_iff_lt, UInt32.lt_iff_toNat_lt, OutgoingPacket.toNat_heapDataSize]
    exact List.length_pos_iff
  unfold compressPayload at h
  split at h
  · rename_i hon
    obtain ⟨hflag, hpos⟩ := hon
    split at h
    · injection h with hp hc
      exact .inl ⟨hp.symm, hc.symm⟩
    · rename_i output houtput
      split at h
      · injection h with hp hc
        exact .inl ⟨hp.symm, hc.symm⟩
      · injection h with hp hc
        subst hc
        exact .inr (.inr ⟨hp.symm.trans (hkeep hflag), hsize.mp hpos, houtput⟩)
  · rename_i hoff
    injection h with hp hc
    cases hflag : packet.flags.compressed with
    | false => exact .inl ⟨hp.symm.trans (hkeep hflag), hc.symm⟩
    | true =>
        have hempty : packet.heapData = [] := by
          by_contra hne
          exact hoff ⟨hflag, hsize.mpr hne⟩
        exact .inr (.inl ⟨hp.symm.trans (hkeep hflag), hempty, hc.symm.trans hempty⟩)

/-- The size the receiver passes to the decompressor. -/
def announcedSize (packetInfo packet : OutgoingPacket) : UInt32 :=
  if packetInfo.flags.compressed then packet.heapDataSize else 0

/-- Decompression undoes the compression stage, for a payload the decompressor admits. -/
theorem decompressIfNeeded_compressPayload {lz4 : Lz4} (roundTrip : lz4.RoundTrip)
    {packet packetInfo : OutgoingPacket} {compressed : Bytes}
    (h : compressPayload lz4 packet = (packetInfo, compressed))
    (hsize : packet.heapData.length ≤ ZCompressionContext.kMaxDecompressedSize) :
    decompressIfNeeded lz4 packetInfo.flags.compressed compressed
      (announcedSize packetInfo packet) = some packet.heapData := by
  obtain ⟨rfl, rfl⟩ | ⟨rfl, hempty, rfl⟩ | ⟨rfl, hne, hcompress⟩ := compressPayload_cases h
  · rfl
  · simp [decompressIfNeeded, announcedSize, OutgoingPacket.withCompressed,
      ZCompressionContext.decompress, hempty]
  · simpa [decompressIfNeeded, announcedSize, OutgoingPacket.withCompressed] using
      ZCompressionContext.decompress_compress roundTrip hne hsize hcompress

/-- Whatever the size, decompression does not yield anything but the payload. -/
theorem decompressIfNeeded_sound {lz4 : Lz4} (roundTrip : lz4.RoundTrip)
    {packet packetInfo : OutgoingPacket} {compressed data : Bytes}
    (h : compressPayload lz4 packet = (packetInfo, compressed))
    (hdata : decompressIfNeeded lz4 packetInfo.flags.compressed compressed
      (announcedSize packetInfo packet) = some data) : data = packet.heapData := by
  by_cases hsize : packet.heapData.length ≤ ZCompressionContext.kMaxDecompressedSize
  · rw [decompressIfNeeded_compressPayload roundTrip h hsize] at hdata
    exact (Option.some.inj hdata).symm
  · obtain ⟨rfl, rfl⟩ | ⟨rfl, hempty, rfl⟩ | ⟨rfl, hne, hcompress⟩ := compressPayload_cases h
    · exact (Option.some.inj hdata).symm
    · rw [hempty] at hsize
      exact absurd (Nat.zero_le _) hsize
    · simp [decompressIfNeeded, announcedSize, OutgoingPacket.withCompressed,
        ZCompressionContext.decompress, Nat.lt_of_not_le hsize] at hdata

/-- The receiver rebuilds the sender's AAD from the header, so the same key opens the
payload. -/
theorem decryptPayloadIfNeeded_encryptPayloadIfNeeded {gcm : AesGcm K} (sized : gcm.Sized)
    (roundTrip : gcm.RoundTrip) {crypto crypto' : Option K} {nonce : Option Nonce}
    {packet : OutgoingPacket} {sequenceNumber : UInt32} {plaintext payload : Bytes}
    (checksum : UInt16) (total : UInt32) (unixTime : UInt64)
    (hkey : packet.flags.encrypted = true → crypto' = crypto)
    (h : encryptPayloadIfNeeded gcm crypto nonce packet sequenceNumber plaintext =
      some payload) :
    decryptPayloadIfNeeded gcm crypto' payload (carriedSequence packet sequenceNumber)
        (carriedAcknowledgement packet) (parsedHeader checksum total packet unixTime) =
      some plaintext := by
  cases henc : packet.flags.encrypted with
  | false =>
      unfold encryptPayloadIfNeeded at h
      rw [if_pos henc] at h
      unfold decryptPayloadIfNeeded
      rw [if_pos (by exact henc), ← h]
  | true =>
      obtain rfl := hkey henc
      unfold encryptPayloadIfNeeded at h
      rw [if_neg (by simp [henc])] at h
      cases crypto' with
      | none => cases h
      | some key =>
          obtain ⟨n, ciphertext, tag, -, hne, hgcm, rfl⟩ := encryptPayload_eq_some h
          obtain ⟨hlen, htag⟩ := sized _ _ _ _ _ _ hgcm
          have hcne : ciphertext ≠ [] := by
            rw [← List.length_pos_iff, hlen]
            exact List.length_pos_iff.mpr hne
          unfold decryptPayloadIfNeeded
          rw [if_neg (by simp [parsedHeader, henc])]
          exact (decryptPayload_layout gcm key n _ hcne htag).trans (roundTrip _ _ _ _ _ _ hgcm)

/-- Under any key at all, what an accepted payload opens to is the sender's plaintext. -/
theorem decryptPayloadIfNeeded_sound {gcm : AesGcm K} (sized : gcm.Sized)
    (authentic : gcm.Authentic) {crypto crypto' : Option K} {nonce : Option Nonce}
    {packet : OutgoingPacket} {sequenceNumber : UInt32} {plaintext payload opened : Bytes}
    (checksum : UInt16) (total : UInt32) (unixTime : UInt64)
    (h : encryptPayloadIfNeeded gcm crypto nonce packet sequenceNumber plaintext =
      some payload)
    (hopen : decryptPayloadIfNeeded gcm crypto' payload (carriedSequence packet sequenceNumber)
        (carriedAcknowledgement packet) (parsedHeader checksum total packet unixTime) =
      some opened) : opened = plaintext := by
  cases henc : packet.flags.encrypted with
  | false =>
      unfold encryptPayloadIfNeeded at h
      rw [if_pos henc] at h
      unfold decryptPayloadIfNeeded at hopen
      rw [if_pos (by exact henc), ← h] at hopen
      exact (Option.some.inj hopen).symm
  | true =>
      unfold encryptPayloadIfNeeded at h
      rw [if_neg (by simp [henc])] at h
      unfold decryptPayloadIfNeeded at hopen
      rw [if_neg (by simp [parsedHeader, henc])] at hopen
      cases crypto with
      | none => cases h
      | some key =>
          cases crypto' with
          | none => cases hopen
          | some key' =>
              obtain ⟨n, ciphertext, tag, -, hne, hgcm, rfl⟩ := encryptPayload_eq_some h
              obtain ⟨hlen, htag⟩ := sized _ _ _ _ _ _ hgcm
              have hcne : ciphertext ≠ [] := by
                rw [← List.length_pos_iff, hlen]
                exact List.length_pos_iff.mpr hne
              have hdecrypt := (decryptPayload_layout gcm key' n _ hcne htag).symm.trans hopen
              exact authentic _ _ _ _ _ _ _ _ _ hgcm hdecrypt

/-! ## The codec as a whole -/

@[simp] theorem acknowledgementField_withCompressed (packet : OutgoingPacket) (b : Bool) :
    acknowledgementField (packet.withCompressed b) = acknowledgementField packet := rfl

/-- Everything but the compressed flag of the received packet is the sent packet's. -/
theorem compressPayload_packet {lz4 : Lz4} {packet packetInfo : OutgoingPacket}
    {compressed : Bytes} (h : compressPayload lz4 packet = (packetInfo, compressed)) :
    ∃ b, packetInfo = packet.withCompressed b := by
  obtain ⟨rfl, -⟩ | ⟨rfl, -⟩ | ⟨rfl, -⟩ := compressPayload_cases h <;> exact ⟨_, rfl⟩

/-- What the receiver makes of a built datagram, whoever's key it holds: the sender's packet
or a rejection. -/
theorem unpackPacket_sound {lz4 : Lz4} {gcm : AesGcm K} (hlz4 : lz4.RoundTrip)
    (sized : gcm.Sized) (authentic : gcm.Authentic) {crypto crypto' : Option K}
    {env : BuildEnv} {packet packetInfo : OutgoingPacket} {sequenceNumber : UInt32}
    {bytes : Bytes} {out received : IncomingPacket}
    (htype : packet.type ≠ PacketType.invalid)
    (hchannel : packet.channel = PacketChannelType.ofType packet.type)
    (hbuilt : buildPacket lz4 gcm crypto env packet sequenceNumber = (packetInfo, bytes))
    (hne : bytes ≠ [])
    (h : unpackPacket lz4 gcm crypto' bytes out = .ok received) :
    received = receivedPacket packetInfo sequenceNumber packet.heapData out := by
  obtain ⟨compressed, payload, hcompress, hencrypt, hfit, rfl⟩ := buildPacket_eq hbuilt hne
  obtain ⟨b, hb⟩ := compressPayload_packet hcompress
  rw [unpackPacket_datagram _ _ _ _ _ _ _ _ _ (by rw [hb]; exact htype)
    (by rw [hb]; exact hchannel) hfit] at h
  cases hopen : decryptPayloadIfNeeded gcm crypto' payload
      (carriedSequence packetInfo sequenceNumber) (carriedAcknowledgement packetInfo)
      (parsedHeader (headerChecksum (UInt32.ofNat (sizeOfHeaders packetInfo.flags + payload.length))
        packetInfo env.unixTime) (UInt32.ofNat (sizeOfHeaders packetInfo.flags + payload.length))
        packetInfo env.unixTime) with
  | none =>
      rw [hopen] at h
      cases h
  | some opened =>
      obtain rfl := decryptPayloadIfNeeded_sound sized authentic _ _ _ hencrypt hopen
      rw [hopen, succeed_some, ok_bind] at h
      cases hdata : decompressIfNeeded lz4 packetInfo.flags.compressed opened
          (if packetInfo.flags.compressed then packet.heapDataSize else 0) with
      | none =>
          rw [hdata] at h
          cases h
      | some data =>
          obtain rfl := decompressIfNeeded_sound hlz4 hcompress hdata
          rw [hdata, succeed_some, ok_bind] at h
          exact (Except.ok.inj h).symm

/-! ## Concrete backends

Small stand-ins for the two libraries, for evaluating the model. -/

/-- LZ4 on at most twelve bytes, where a block is one run of literals: a token with the
length in its upper half, then the bytes. -/
def literalLz4 : Lz4 where
  compressDefault input :=
    if input.length ≤ 12 then UInt8.ofNat (16 * input.length) :: input else []
  decompressSafe data capacity :=
    match data with
    | [] => none
    | token :: literals =>
        if token.toNat = 16 * literals.length ∧ literals.length ≤ capacity then some literals
        else none

theorem literalLz4_roundTrip : literalLz4.RoundTrip := by
  intro input hne
  by_cases hsmall : input.length ≤ 12
  · have htoken : 16 * input.length < 256 := by omega
    simp [literalLz4, hsmall, htoken]
  · exact absurd (if_neg hsmall) hne

/-- A cipher that masks every byte and repeats the key byte as the tag. -/
def maskGcm : AesGcm UInt8 where
  encrypt key _ _ plaintext := some (plaintext.map (· ^^^ 0x5c), List.replicate kTagSize key)
  decrypt key _ _ ciphertext tag :=
    if tag = List.replicate kTagSize key then some (ciphertext.map (· ^^^ 0x5c)) else none

theorem map_mask_mask (data : Bytes) : (data.map (· ^^^ 0x5c)).map (· ^^^ 0x5c) = data := by
  have hmask : ((· ^^^ 0x5c) ∘ (· ^^^ 0x5c) : UInt8 → UInt8) = id := by
    funext b
    show b ^^^ 0x5c ^^^ 0x5c = b
    rw [UInt8.xor_assoc, UInt8.xor_self, UInt8.xor_zero]
  rw [List.map_map, hmask, List.map_id]

theorem maskGcm_sized : maskGcm.Sized := by
  intro key nonce aad plaintext ciphertext tag h
  obtain ⟨rfl, rfl⟩ := Prod.mk.inj (Option.some.inj h)
  simp

theorem maskGcm_roundTrip : maskGcm.RoundTrip := by
  intro key nonce aad plaintext ciphertext tag h
  obtain ⟨rfl, rfl⟩ := Prod.mk.inj (Option.some.inj h)
  simpa [maskGcm] using map_mask_mask plaintext

theorem maskGcm_authentic : maskGcm.Authentic := by
  intro key key' nonce aad aad' plaintext plaintext' ciphertext tag h hopen
  obtain ⟨rfl, rfl⟩ := Prod.mk.inj (Option.some.inj h)
  simp only [maskGcm] at hopen
  split at hopen
  · rw [map_mask_mask] at hopen
    exact (Option.some.inj hopen).symm
  · cases hopen

/-- The codec round trip: a datagram `BuildPacket` returns is accepted by an unpacker with
the same key, and carries type, channel, priority, reliable flag, sequence number and payload
over unchanged. -/
theorem unpackPacket_buildPacket {lz4 : Lz4} {gcm : AesGcm K} (hlz4 : lz4.RoundTrip)
    (sized : gcm.Sized) (roundTrip : gcm.RoundTrip) (crypto : Option K) (env : BuildEnv)
    (packet : OutgoingPacket) (sequenceNumber : UInt32) (out : IncomingPacket)
    (htype : packet.type ≠ PacketType.invalid)
    (hchannel : packet.channel = PacketChannelType.ofType packet.type)
    (hsize : packet.heapData.length ≤ ZCompressionContext.kMaxDecompressedSize)
    (hne : (buildPacket lz4 gcm crypto env packet sequenceNumber).2 ≠ []) :
    ∃ received,
      unpackPacket lz4 gcm crypto (buildPacket lz4 gcm crypto env packet sequenceNumber).2 out =
        .ok received ∧
      received.type = packet.type ∧ received.channel = packet.channel ∧
      received.flags.priority = packet.flags.priority ∧
      received.flags.reliable = packet.flags.reliable ∧
      received.data = packet.heapData ∧
      received.sequenceNumber = if packet.flags.reliable then sequenceNumber else 0 := by
  rcases hbuilt : buildPacket lz4 gcm crypto env packet sequenceNumber with ⟨packetInfo, bytes⟩
  rw [hbuilt] at hne
  obtain ⟨compressed, payload, hcompress, hencrypt, hfit, rfl⟩ := buildPacket_eq hbuilt hne
  obtain ⟨b, rfl⟩ := compressPayload_packet hcompress
  refine ⟨receivedPacket (packet.withCompressed b) sequenceNumber packet.heapData out, ?_,
    rfl, rfl, rfl, rfl, rfl, rfl⟩
  rw [unpackPacket_datagram _ _ _ (packet.withCompressed b) _ _ _ _ _ htype hchannel hfit,
    decryptPayloadIfNeeded_encryptPayloadIfNeeded sized roundTrip _ _ _ (fun _ => rfl) hencrypt,
    succeed_some, ok_bind]
  have hdata := decompressIfNeeded_compressPayload hlz4 hcompress hsize
  rw [announcedSize] at hdata
  rw [hdata]
  rfl

/-- A reliable, encrypted and compressed application packet of three bytes; LZ4 would make it
longer, so it goes out uncompressed. -/
def samplePacket : OutgoingPacket where
  channel := .data
  flags := { reliable := true, encrypted := true, compressed := true, priority := .critical }
  type := 101
  lastSendTime := 0
  destinationPeerId := 2
  scalar := 0x10
  heapData := [7, 8, 9]
  heap_lt := by decide
  heap_ptr := by decide

def sampleEnv : BuildEnv where
  unixTime := 1701290990
  nonce := some ⟨[1, 2, 3, 4, 5, 6, 7, 8, 9, 10, 11, 12], rfl⟩

def sampleIncoming : IncomingPacket where
  channel := .control
  flags := { reliable := false, encrypted := false, compressed := false, priority := .low }
  type := PacketType.invalid
  sourcePeerId := 0
  acknowledgementNumber := 0
  sequenceNumber := 0
  data := []

theorem unpackPacket_buildPacket_samplePacket :
    ∃ received,
      unpackPacket literalLz4 maskGcm (some 0x21)
          (buildPacket literalLz4 maskGcm (some 0x21) sampleEnv samplePacket 77).2
          sampleIncoming = .ok received ∧
      received.type = 101 ∧ received.channel = .data ∧
      received.flags.priority = .critical ∧ received.flags.reliable = true ∧
      received.data = [7, 8, 9] ∧ received.sequenceNumber = 77 :=
  unpackPacket_buildPacket literalLz4_roundTrip maskGcm_sized maskGcm_roundTrip (some 0x21)
    sampleEnv samplePacket 77 sampleIncoming (by decide) (by decide) (by decide)
    (by decide +kernel)

end ZetaNet
