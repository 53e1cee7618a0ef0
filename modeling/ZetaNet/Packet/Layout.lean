import ZetaNet.Packet.Build

/-!
# The layout of a datagram

`BuildPacket` zeroes a buffer and stores into it at fixed offsets, patching the two
checksums in at the end. Here the result is written as the concatenation of its fields
(`datagram`), and a non-empty result of `buildPacket` is shown to be exactly that.
-/

namespace ZetaNet

open Wire

/-! ## The headers as concatenations -/

/-- The base header with its fields in wire order. -/
def headerFields (checksum : UInt16) (total : UInt32) (packet : OutgoingPacket)
    (unixTime : UInt64) : Bytes :=
  leU16 kMagic ++ (leU16 checksum ++ (leU32 total ++ ([kProtocolVersion] ++
    ([packHeaderFlags packet.flags.reliable packet.flags.encrypted packet.flags.compressed
      packet.flags.priority] ++ (leU16 packet.type ++ (leU16 0 ++ ([0] ++
        ([packet.channel.toU8] ++ leU32 (unixTime - kTimeshift).toUInt32))))))))

/-- The reliable header, if the packet is reliable. -/
def reliableFields (packet : OutgoingPacket) (sequenceNumber : UInt32) : Bytes :=
  if packet.flags.reliable then leU32 sequenceNumber ++ leU32 (acknowledgementField packet)
  else []

/-- The compressed or uncompressed payload header. -/
def payloadFields (compressed : Bool) (payloadSize originalSize checksum : UInt32) : Bytes :=
  if compressed then leU32 payloadSize ++ (leU32 originalSize ++ (leU32 checksum ++ [1, 0, 0, 0]))
  else leU32 checksum

@[simp] theorem length_headerFields (checksum : UInt16) (total : UInt32)
    (packet : OutgoingPacket) (unixTime : UInt64) :
    (headerFields checksum total packet unixTime).length = kPacketHeaderWireSize := by
  simp [headerFields, kPacketHeaderWireSize]

@[simp] theorem length_reliableFields (packet : OutgoingPacket) (sequenceNumber : UInt32) :
    (reliableFields packet sequenceNumber).length =
      if packet.flags.reliable then kReliableHeaderWireSize else 0 := by
  unfold reliableFields
  split <;> simp [kReliableHeaderWireSize]

@[simp] theorem length_payloadFields (compressed : Bool)
    (payloadSize originalSize checksum : UInt32) :
    (payloadFields compressed payloadSize originalSize checksum).length =
      if compressed then kCompressedHeaderWireSize else kUncompressedHeaderWireSize := by
  unfold payloadFields
  split <;> simp [kCompressedHeaderWireSize, kUncompressedHeaderWireSize]

/-! ## Filling the zeroed buffer -/

theorem fillBaseHeader_zeros (n : Nat) (total : UInt32) (packet : OutgoingPacket)
    (unixTime : UInt64) :
    fillBaseHeader (List.replicate (kPacketHeaderWireSize + n) 0) total packet unixTime =
      headerFields 0 total packet unixTime ++ List.replicate n 0 := by
  rw [fillBaseHeader, ← List.nil_append (List.replicate _ _)]
  simp (disch := simp) only [storeU16, storeU32, storeU8, kHeaderMagicOffset,
    kHeaderChecksumOffset, kHeaderTotalSizeOffset, kHeaderVersionOffset, kHeaderFlagsOffset,
    kHeaderTypeOffset, kHeaderAlignmentOffset, kHeaderPaddingOffset, kHeaderChannelOffset,
    kHeaderTimestampOffset, Buffer.store_fill]
  simp [headerFields, kPacketHeaderWireSize]
  omega

theorem fillReliableHeader_zeros (front : Bytes) (n : Nat) (packet : OutgoingPacket)
    (nextSequenceNumber : UInt32) {base : Nat} (hbase : base = front.length) :
    fillReliableHeader (front ++ List.replicate (kReliableHeaderWireSize + n) 0) base packet
        nextSequenceNumber =
      (front ++ (leU32 nextSequenceNumber ++ leU32 (acknowledgementField packet))) ++
        List.replicate n 0 := by
  subst hbase
  simp (disch := simp) only [fillReliableHeader, storeU32, kReliableSequenceOffset,
    kReliableAcknowledgementOffset, Buffer.store_fill]
  simp [kReliableHeaderWireSize]
  omega

theorem fillPayloadHeader_zeros (front : Bytes) (n : Nat) (compressed : Bool)
    (payloadSize originalPayloadSize : UInt32) {base : Nat} (hbase : base = front.length) :
    fillPayloadHeader
        (front ++ List.replicate
          ((if compressed then kCompressedHeaderWireSize else kUncompressedHeaderWireSize) + n) 0)
        base compressed payloadSize originalPayloadSize =
      (front ++ payloadFields compressed payloadSize originalPayloadSize 0) ++
        List.replicate n 0 := by
  subst hbase
  cases compressed with
  | false =>
      simp (disch := simp) only [fillPayloadHeader, storeU32, kUncompressedChecksumOffset,
        Buffer.store_fill]
      simp [payloadFields, kUncompressedHeaderWireSize]
  | true =>
      simp (disch := simp [Nat.add_assoc]) only [fillPayloadHeader, storeU32, storeU8,
        kCompressedSizeOffset, kCompressedOriginalSizeOffset, kCompressedChecksumOffset,
        kCompressedFlagsOffset, Buffer.store_fill, Nat.add_assoc, if_true]
      simp [payloadFields, kCompressedHeaderWireSize]
      omega

/-- The filled buffer: every field in order, both checksums still zero. -/
theorem fillPacketHeader_zeros (n : Nat) (packet : OutgoingPacket)
    (payloadSize originalPayloadSize nextSequenceNumber : UInt32) (unixTime : UInt64) :
    fillPacketHeader (List.replicate (sizeOfHeaders packet.flags + n) 0) packet payloadSize
        originalPayloadSize nextSequenceNumber unixTime =
      (headerFields 0 (UInt32.ofNat (sizeOfHeaders packet.flags + n)) packet unixTime ++
        (reliableFields packet nextSequenceNumber ++
          payloadFields packet.flags.compressed payloadSize originalPayloadSize 0)) ++
        List.replicate n 0 := by
  unfold fillPacketHeader
  rw [List.length_replicate]
  cases hrel : packet.flags.reliable with
  | false =>
      have hsize : sizeOfHeaders packet.flags + n = kPacketHeaderWireSize +
          ((if packet.flags.compressed then kCompressedHeaderWireSize
            else kUncompressedHeaderWireSize) + n) := by
        simp [sizeOfHeaders, hrel, Nat.add_assoc]
      simp only [hsize, fillBaseHeader_zeros]
      simp [fillPayloadHeader_zeros, reliableFields, hrel]
  | true =>
      have hsize : sizeOfHeaders packet.flags + n = kPacketHeaderWireSize +
          (kReliableHeaderWireSize +
            ((if packet.flags.compressed then kCompressedHeaderWireSize
              else kUncompressedHeaderWireSize) + n)) := by
        simp [sizeOfHeaders, hrel, Nat.add_assoc]
      simp only [hsize, fillBaseHeader_zeros, if_true]
      rw [fillReliableHeader_zeros _ _ _ _ (by simp),
        fillPayloadHeader_zeros _ _ _ _ _ (by simp [kReliableHeaderWireSize])]
      simp [reliableFields, hrel]

/-! ## The two checksums -/

/-- The header checksum of a finished header: FNV-1a over the header with a zero in the
checksum's place. -/
def headerChecksum (total : UInt32) (packet : OutgoingPacket) (unixTime : UInt64) : UInt16 :=
  (computeChecksum (headerFields 0 total packet unixTime) &&& 0xFFFF).toUInt16

theorem storeU16_headerFields (old new : UInt16) (total : UInt32) (packet : OutgoingPacket)
    (unixTime : UInt64) (back : Bytes) :
    storeU16 (headerFields old total packet unixTime ++ back) kHeaderChecksumOffset new =
      headerFields new total packet unixTime ++ back := by
  unfold headerFields storeU16
  simp only [List.append_assoc]
  exact Buffer.store_field _ _ _ _ (by simp [kHeaderChecksumOffset]) (by simp)

theorem computePacketHeaderChecksum_headerFields (checksum : UInt16) (total : UInt32)
    (packet : OutgoingPacket) (unixTime : UInt64) (back : Bytes) :
    computePacketHeaderChecksum (headerFields checksum total packet unixTime ++ back) =
      headerChecksum total packet unixTime := by
  have htake : (headerFields checksum total packet unixTime ++ back).take
      kPacketHeaderWireSize = headerFields checksum total packet unixTime ++ [] := by
    rw [← length_headerFields checksum total packet unixTime, List.take_left, List.append_nil]
  rw [computePacketHeaderChecksum, htake, storeU16_headerFields, List.append_nil,
    headerChecksum]

theorem storeU32_payloadFields (compressed : Bool) (payloadSize originalSize old new : UInt32)
    (back : Bytes) :
    storeU32 (payloadFields compressed payloadSize originalSize old ++ back)
        (if compressed then kCompressedChecksumOffset else kUncompressedChecksumOffset) new =
      payloadFields compressed payloadSize originalSize new ++ back := by
  unfold payloadFields storeU32
  cases compressed with
  | false =>
      have hoff : kUncompressedChecksumOffset = ([] : Bytes).length := rfl
      have hlen : (leU32 new).length = (leU32 old).length := by simp
      exact Buffer.store_field [] (leU32 old) back (leU32 new) hoff hlen
  | true =>
      have hoff : kCompressedChecksumOffset = (leU32 payloadSize ++ leU32 originalSize).length := by
        simp [kCompressedChecksumOffset]
      have hlen : (leU32 new).length = (leU32 old).length := by simp
      have hfront := Buffer.store_field (leU32 payloadSize ++ leU32 originalSize) (leU32 old)
        ([1, 0, 0, 0] ++ back) (leU32 new) hoff hlen
      simpa only [if_true, List.append_assoc] using hfront

/-- The finished datagram, field by field. -/
def datagram (packet : OutgoingPacket) (sequenceNumber originalSize : UInt32)
    (unixTime : UInt64) (payload : Bytes) : Bytes :=
  let total := UInt32.ofNat (sizeOfHeaders packet.flags + payload.length)
  headerFields (headerChecksum total packet unixTime) total packet unixTime ++
    (reliableFields packet sequenceNumber ++
      (payloadFields packet.flags.compressed (UInt32.ofNat payload.length) originalSize
        (computeChecksum payload) ++ payload))

theorem length_datagram (packet : OutgoingPacket) (sequenceNumber originalSize : UInt32)
    (unixTime : UInt64) (payload : Bytes) :
    (datagram packet sequenceNumber originalSize unixTime payload).length =
      sizeOfHeaders packet.flags + payload.length := by
  simp [datagram, sizeOfHeaders, Nat.add_assoc]

/-- The finishing pass over a filled buffer puts the two checksums in. -/
theorem finalizePacket_filled (packet : OutgoingPacket) (sequenceNumber originalSize : UInt32)
    (unixTime : UInt64) (payload : Bytes)
    (hfit : sizeOfHeaders packet.flags + payload.length ≤ kMaxU32) :
    finalizePacket packet.flags
        (headerFields 0 (UInt32.ofNat (sizeOfHeaders packet.flags + payload.length)) packet
            unixTime ++
          (reliableFields packet sequenceNumber ++
            (payloadFields packet.flags.compressed (UInt32.ofNat payload.length) originalSize 0 ++
              payload))) =
      datagram packet sequenceNumber originalSize unixTime payload := by
  set total := UInt32.ofNat (sizeOfHeaders packet.flags + payload.length) with htotal
  set header := headerFields 0 total packet unixTime with hheader
  set front := header ++ reliableFields packet sequenceNumber with hfront
  set fields := payloadFields packet.flags.compressed (UInt32.ofNat payload.length) originalSize
  have hfrontLength : front.length = kPacketHeaderWireSize +
      (if packet.flags.reliable then kReliableHeaderWireSize else 0) := by
    simp [hfront, hheader]
  have hfieldsLength (checksum : UInt32) : (fields checksum).length =
      if packet.flags.compressed then kCompressedHeaderWireSize
      else kUncompressedHeaderWireSize := by
    simp [fields]
  have hsize : sizeOfHeaders packet.flags = front.length + (fields 0).length := by
    rw [hfrontLength, hfieldsLength, sizeOfHeaders]
  -- the buffer, cut behind the reliable header
  have hcut : header ++ (reliableFields packet sequenceNumber ++ (fields 0 ++ payload)) =
      front ++ (fields 0 ++ payload) := by
    simp [hfront]
  have hpayload : (front ++ (fields 0 ++ payload)).drop (front.length + (fields 0).length) =
      payload := by
    rw [← List.drop_drop, List.drop_left, List.drop_left]
  have hstore : storeU32 (front ++ (fields 0 ++ payload))
      (front.length +
        (if packet.flags.compressed then kCompressedChecksumOffset
          else kUncompressedChecksumOffset)) (computeChecksum payload) =
      front ++ (fields (computeChecksum payload) ++ payload) := by
    rw [storeU32, Buffer.store_append_right _ _ _ (Nat.le_add_right ..), Nat.add_sub_cancel_left]
    exact congrArg (front ++ ·) (storeU32_payloadFields ..)
  have hlong : ¬ (front ++ (fields 0 ++ payload)).length < kPacketHeaderWireSize := by
    simp [hfrontLength]
    omega
  have hroom : ¬ front.length + (fields 0).length > (front ++ (fields 0 ++ payload)).length := by
    simp
  -- the finished bytes: header checksum over the header alone, and the total size as stored
  have hdatagram : storeU16 (front ++ (fields (computeChecksum payload) ++ payload))
      kHeaderChecksumOffset (computePacketHeaderChecksum
        (front ++ (fields (computeChecksum payload) ++ payload))) =
      datagram packet sequenceNumber originalSize unixTime payload := by
    rw [hfront, List.append_assoc, hheader, computePacketHeaderChecksum_headerFields,
      storeU16_headerFields, datagram]
  have hloaded : loadU32 (datagram packet sequenceNumber originalSize unixTime payload)
      kHeaderTotalSizeOffset = some total := by
    rw [datagram, headerFields]
    exact loadU32_field (leU16 kMagic ++ leU16 _) _ total (by simp [kHeaderTotalSizeOffset])
  have htotalSize : total.toNat =
      (datagram packet sequenceNumber originalSize unixTime payload).length := by
    rw [length_datagram, htotal, UInt32.toNat_ofNat']
    exact Nat.mod_eq_of_lt (by unfold kMaxU32 at hfit; omega)
  rw [hcut, finalizePacket, if_neg hlong]
  simp only [← hfrontLength, ← hfieldsLength 0]
  rw [if_neg hroom, hpayload, hstore, hdatagram, hloaded, Option.map_some, htotalSize]
  simp

/-! ## The result of `BuildPacket` -/

variable {K : Type}

/-- A payload that fits is put into a datagram. -/
theorem buildPacket_of_fits {lz4 : Lz4} {gcm : AesGcm K} {crypto : Option K} {env : BuildEnv}
    {packet packetInfo : OutgoingPacket} {nextSequenceNumber : UInt32}
    {compressed payload : Bytes} (hheap : ¬ (packet.heapDataSize > 0 ∧ packet.scalar = 0))
    (hcompress : compressPayload lz4 packet = (packetInfo, compressed))
    (hencrypt : encryptPayloadIfNeeded gcm crypto env.nonce packetInfo nextSequenceNumber
      compressed = some payload)
    (hfit : sizeOfHeaders packetInfo.flags + payload.length ≤ kMaxU32) :
    buildPacket lz4 gcm crypto env packet nextSequenceNumber =
      (packetInfo,
        datagram packetInfo nextSequenceNumber packet.heapDataSize env.unixTime payload) := by
  unfold buildPacket
  rw [if_neg hheap]
  simp only [hcompress, hencrypt]
  rw [if_neg (by omega), if_neg (by omega), fillPacketHeader_zeros,
    Buffer.store_fill _ _ _ _ (by simp [sizeOfHeaders, Nat.add_assoc]), Nat.sub_self,
    List.replicate_zero, List.append_nil, List.append_assoc, List.append_assoc,
    finalizePacket_filled _ _ _ _ _ hfit]

/-- A non-empty result is the datagram of the packet as compression left it and of the
payload as encryption left it. -/
theorem buildPacket_eq {lz4 : Lz4} {gcm : AesGcm K} {crypto : Option K} {env : BuildEnv}
    {packet packetInfo : OutgoingPacket} {nextSequenceNumber : UInt32} {bytes : Bytes}
    (h : buildPacket lz4 gcm crypto env packet nextSequenceNumber = (packetInfo, bytes))
    (hne : bytes ≠ []) :
    ∃ compressed payload,
      compressPayload lz4 packet = (packetInfo, compressed) ∧
      encryptPayloadIfNeeded gcm crypto env.nonce packetInfo nextSequenceNumber compressed =
        some payload ∧
      sizeOfHeaders packetInfo.flags + payload.length ≤ kMaxU32 ∧
      bytes = datagram packetInfo nextSequenceNumber packet.heapDataSize env.unixTime payload := by
  rcases hcompress : compressPayload lz4 packet with ⟨p, compressed⟩
  have hfail {q : OutgoingPacket} (h : (q, ([] : Bytes)) = (packetInfo, bytes)) : False :=
    hne (congrArg Prod.snd h).symm
  have hbuilt := h
  unfold buildPacket at h
  simp only [hcompress] at h
  split at h
  · exact (hfail h).elim
  rename_i hheap
  split at h
  · exact (hfail h).elim
  rename_i payload hencrypt
  split at h
  · exact (hfail h).elim
  rename_i hpayload
  split at h
  · exact (hfail h).elim
  rename_i hheaders
  have hfit : sizeOfHeaders p.flags + payload.length ≤ kMaxU32 := by omega
  rw [buildPacket_of_fits hheap hcompress hencrypt hfit] at hbuilt
  obtain ⟨rfl, rfl⟩ := Prod.mk.inj hbuilt
  exact ⟨compressed, payload, rfl, hencrypt, hfit, rfl⟩

end ZetaNet
