import ZetaNet.Packet.RoundTrip

/-!
# What the checksums cover

Two FNV-1a checksums guard a datagram: sixteen bits over the base header, thirty-two over the
wire payload. A change of one byte in the base header, in the payload, in the payload's
checksum or in the compressed size is always noticed. The reliable header is in neither range,
so without encryption any other numbers pass.
-/

namespace ZetaNet

open Wire Checks Buffer

variable {K : Type} {lz4 : Lz4} {gcm : AesGcm K} {crypto crypto' : Option K}

/-! ## Where the fields stand -/

def HeaderFlags.payloadHeaderOffset (flags : HeaderFlags) : Nat :=
  kPacketHeaderWireSize + (if flags.isReliable then kReliableHeaderWireSize else 0)

def HeaderFlags.checksumOffset (flags : HeaderFlags) : Nat :=
  flags.payloadHeaderOffset +
    (if flags.isCompressed then kCompressedChecksumOffset else kUncompressedChecksumOffset)

def HeaderFlags.payloadOffset (flags : HeaderFlags) : Nat :=
  flags.payloadHeaderOffset +
    (if flags.isCompressed then kCompressedHeaderWireSize else kUncompressedHeaderWireSize)

/-- What a reliable header says. -/
theorem readReliableHeader_eq_ok {inBuffer : Bytes} {isReliable : Bool} {offset next : Nat}
    {sequenceNumber acknowledgementNumber : UInt32}
    (h : readReliableHeader inBuffer isReliable offset =
      .ok (sequenceNumber, acknowledgementNumber, next)) :
    next = offset + (if isReliable then kReliableHeaderWireSize else 0) ∧
      if isReliable then offset + kReliableHeaderWireSize ≤ inBuffer.length ∧
        loadU32 inBuffer (offset + kReliableSequenceOffset) = some sequenceNumber ∧
        loadU32 inBuffer (offset + kReliableAcknowledgementOffset) = some acknowledgementNumber
      else sequenceNumber = 0 ∧ acknowledgementNumber = 0 := by
  unfold readReliableHeader at h
  cases isReliable with
  | false =>
      obtain ⟨hsequence, hnumbers⟩ := Prod.mk.inj (Except.ok.inj h)
      obtain ⟨hacknowledgement, hnext⟩ := Prod.mk.inj hnumbers
      exact ⟨hnext.symm, hsequence.symm, hacknowledgement.symm⟩
  | true =>
      rw [if_pos rfl] at h
      obtain ⟨hroom, h⟩ := require_bind_eq_ok h
      obtain ⟨seq, hseq, h⟩ := access_bind_eq_ok h
      obtain ⟨ack, hack, hresult⟩ := access_bind_eq_ok h
      obtain ⟨hsequence, hnumbers⟩ := Prod.mk.inj (Except.ok.inj hresult)
      obtain ⟨hacknowledgement, hnext⟩ := Prod.mk.inj hnumbers
      rw [hsequence] at hseq
      rw [hacknowledgement] at hack
      exact ⟨hnext.symm, of_decide_eq_true hroom, hseq, hack⟩

/-- What a payload header says. -/
theorem readPayloadHeader_eq_ok {inBuffer : Bytes} {isCompressed : Bool} {offset next : Nat}
    {compressedSize originalSize checksum : UInt32}
    (h : readPayloadHeader inBuffer isCompressed offset =
      .ok (compressedSize, originalSize, checksum, next)) :
    next = offset +
        (if isCompressed then kCompressedHeaderWireSize else kUncompressedHeaderWireSize) ∧
      loadU32 inBuffer (offset + (if isCompressed then kCompressedChecksumOffset
        else kUncompressedChecksumOffset)) = some checksum ∧
      (isCompressed = true →
        loadU32 inBuffer (offset + kCompressedSizeOffset) = some compressedSize) := by
  unfold readPayloadHeader at h
  cases isCompressed with
  | false =>
      rw [if_neg Bool.false_ne_true] at h
      obtain ⟨-, h⟩ := require_bind_eq_ok h
      obtain ⟨value, hvalue, hresult⟩ := access_bind_eq_ok h
      obtain ⟨-, hsizes⟩ := Prod.mk.inj (Except.ok.inj hresult)
      obtain ⟨-, hlast⟩ := Prod.mk.inj hsizes
      obtain ⟨hchecksum, hnext⟩ := Prod.mk.inj hlast
      rw [hchecksum] at hvalue
      exact ⟨hnext.symm, hvalue, fun hfalse => absurd hfalse Bool.false_ne_true⟩
  | true =>
      rw [if_pos rfl] at h
      obtain ⟨-, h⟩ := require_bind_eq_ok h
      obtain ⟨_, -, h⟩ := access_bind_eq_ok h
      obtain ⟨-, h⟩ := require_bind_eq_ok h
      obtain ⟨size, hsize, h⟩ := access_bind_eq_ok h
      obtain ⟨_, -, h⟩ := access_bind_eq_ok h
      obtain ⟨value, hvalue, hresult⟩ := access_bind_eq_ok h
      obtain ⟨hcompressed, hsizes⟩ := Prod.mk.inj (Except.ok.inj hresult)
      obtain ⟨-, hlast⟩ := Prod.mk.inj hsizes
      obtain ⟨hchecksum, hnext⟩ := Prod.mk.inj hlast
      rw [hchecksum] at hvalue
      rw [hcompressed] at hsize
      exact ⟨hnext.symm, hvalue, fun _ => hsize⟩

namespace Accepts

variable {inBuffer : Bytes} {d : Decoding}

theorem payloadHeader_eq (h : Accepts lz4 gcm crypto inBuffer d) :
    d.payloadHeader = d.header.flags.payloadHeaderOffset :=
  (readReliableHeader_eq_ok h.reliable).1

theorem offset_eq (h : Accepts lz4 gcm crypto inBuffer d) :
    d.offset = d.header.flags.payloadOffset := by
  rw [(readPayloadHeader_eq_ok h.payload).1, h.payloadHeader_eq]
  rfl

theorem load_checksum (h : Accepts lz4 gcm crypto inBuffer d) :
    loadU32 inBuffer d.header.flags.checksumOffset = some d.checksum := by
  have hload := (readPayloadHeader_eq_ok h.payload).2.1
  rw [h.payloadHeader_eq] at hload
  exact hload

theorem load_compressedSize (h : Accepts lz4 gcm crypto inBuffer d)
    (hcompressed : d.header.flags.isCompressed = true) :
    loadU32 inBuffer (d.header.flags.payloadHeaderOffset + kCompressedSizeOffset) =
      some d.compressedSize := by
  have hload := (readPayloadHeader_eq_ok h.payload).2.2 hcompressed
  rwa [h.payloadHeader_eq] at hload

end Accepts

/-! ## The base header -/

theorem readPacketHeader_congr {b b' : Bytes} (h : Agree 0 kPacketHeaderWireSize b b') :
    readPacketHeader b = readPacketHeader b' := by
  have hcell {lo hi : Nat} (hhi : hi ≤ 20) : Agree lo hi b b' := h.mono (Nat.zero_le lo) hhi
  unfold readPacketHeader
  rw [loadU16_congr (hcell (by decide)), loadU16_congr (hcell (by decide)),
    loadU32_congr (hcell (by decide)), loadU8_congr (hcell (by decide)),
    loadU8_congr (hcell (by decide)), loadU16_congr (hcell (by decide)),
    loadU16_congr (hcell (by decide)), loadU8_congr (hcell (by decide)),
    loadU8_congr (hcell (by decide)), loadU32_congr (hcell (by decide))]

theorem load_headerChecksum {b : Bytes} {header : PacketHeader}
    (h : readPacketHeader b = some header) :
    loadU16 b kHeaderChecksumOffset = some header.headerChecksum := by
  unfold readPacketHeader at h
  simp only [Option.bind_eq_bind, Option.bind_eq_some_iff, Option.pure_def,
    Option.some.injEq] at h
  obtain ⟨_, -, headerChecksum, hload, _, -, _, -, _, -, _, -, _, -, _, -, _, -, _, -, rfl⟩ := h
  exact hload

theorem toUInt16_and_mask (hash : UInt32) : (hash &&& 0xFFFF).toUInt16 = hash.toUInt16 := by
  rw [UInt32.toUInt16_and]
  exact UInt16.and_neg_one

/-- The header with a zero in the checksum's place. -/
theorem differsAt_headerCopy {b b' : Bytes} {i : Nat} (h : DiffersAt i b b')
    (hroom : kPacketHeaderWireSize ≤ b.length) (hi : i < kPacketHeaderWireSize)
    (hchecksum : i < kHeaderChecksumOffset ∨ kHeaderChecksumOffset + 2 ≤ i) :
    DiffersAt i (storeU16 (b.take kPacketHeaderWireSize) kHeaderChecksumOffset 0)
      (storeU16 (b'.take kPacketHeaderWireSize) kHeaderChecksumOffset 0) := by
  have hroom' : kPacketHeaderWireSize ≤ b'.length := h.length_eq ▸ hroom
  have hin {c : Bytes} (hc : kPacketHeaderWireSize ≤ c.length) :
      kHeaderChecksumOffset + (leU16 0).length ≤ (c.take kPacketHeaderWireSize).length := by
    rw [List.length_take, Nat.min_eq_left hc]
    decide
  have htake := h.take hi
  refine ⟨?_, ?_, fun j hj => ?_⟩
  · rw [storeU16, storeU16, length_store (hin hroom), length_store (hin hroom'),
      htake.length_eq]
  · rw [storeU16, storeU16, getElem?_store (hin hroom), getElem?_store (hin hroom'),
      length_leU16, if_neg (by omega), if_neg (by omega)]
    exact htake.ne
  · rw [storeU16, storeU16, getElem?_store (hin hroom), getElem?_store (hin hroom'),
      htake.same j hj]

/-- The truncated header checksum loses no change outside its own field. -/
theorem computePacketHeaderChecksum_ne {b b' : Bytes} {i : Nat} (h : DiffersAt i b b')
    (hroom : kPacketHeaderWireSize ≤ b.length) (hi : i < kPacketHeaderWireSize)
    (hchecksum : i < kHeaderChecksumOffset ∨ kHeaderChecksumOffset + 2 ≤ i) :
    computePacketHeaderChecksum b ≠ computePacketHeaderChecksum b' := by
  unfold computePacketHeaderChecksum
  simp only [toUInt16_and_mask]
  exact toUInt16_computeChecksum_ne (differsAt_headerCopy h hroom hi hchecksum)

/-- A change in the checksum's field does not change what is computed. -/
theorem computePacketHeaderChecksum_eq {b b' : Bytes} {i : Nat} (h : DiffersAt i b b')
    (hlo : kHeaderChecksumOffset ≤ i) (hhi : i < kHeaderChecksumOffset + 2) :
    computePacketHeaderChecksum b = computePacketHeaderChecksum b' := by
  have hfront : (b.take kPacketHeaderWireSize).take kHeaderChecksumOffset =
      (b'.take kPacketHeaderWireSize).take kHeaderChecksumOffset := by
    rw [List.take_take, List.take_take]
    exact h.take_eq (Nat.le_trans (Nat.min_le_left ..) hlo)
  have hback : (b.take kPacketHeaderWireSize).drop (kHeaderChecksumOffset + 2) =
      (b'.take kPacketHeaderWireSize).drop (kHeaderChecksumOffset + 2) := by
    rw [List.drop_take, List.drop_take, h.drop_eq hhi]
  unfold computePacketHeaderChecksum storeU16 store
  simp only [length_leU16, hfront, hback]

/-! ## One changed byte -/

/-- The places the two checksums cover, by the layout the flags give. -/
def Covered (flags : HeaderFlags) (i : Nat) : Prop :=
  i < kPacketHeaderWireSize ∨
  (flags.checksumOffset ≤ i ∧ i < flags.checksumOffset + 4) ∨
  (flags.isCompressed = true ∧ flags.payloadHeaderOffset + kCompressedSizeOffset ≤ i ∧
    i < flags.payloadHeaderOffset + kCompressedSizeOffset + 4) ∨
  flags.payloadOffset ≤ i

/-- No two accepted datagrams differ in the base header alone. -/
theorem Accepts.not_differsAt_header {b b' : Bytes} {d d' : Decoding} {i : Nat}
    (h : Accepts lz4 gcm crypto b d) (h' : Accepts lz4 gcm crypto' b' d')
    (hdiff : DiffersAt i b b') (hi : i < kPacketHeaderWireSize) : False := by
  have hstored := load_headerChecksum h.read
  have hstored' := load_headerChecksum h'.read
  have hcomputed (c : Bytes) : computePacketHeaderChecksum (c.take kPacketHeaderWireSize) =
      computePacketHeaderChecksum c := by
    unfold computePacketHeaderChecksum
    rw [List.take_take, Nat.min_self]
  rw [h.headerChecksum, hcomputed] at hstored
  rw [h'.headerChecksum, hcomputed] at hstored'
  by_cases hfield : kHeaderChecksumOffset ≤ i ∧ i < kHeaderChecksumOffset + 2
  · -- the stored sum changes, the computed one does not
    rw [← computePacketHeaderChecksum_eq hdiff hfield.1 hfield.2] at hstored'
    exact hdiff.ne (getElem?_eq_of_loadU16 hstored hstored' hfield.1 hfield.2)
  · -- the computed sum changes, the stored one does not
    have hsame : loadU16 b kHeaderChecksumOffset = loadU16 b' kHeaderChecksumOffset :=
      loadU16_congr ⟨hdiff.length_eq, fun j hlo hhi => hdiff.same j (by omega)⟩
    rw [hstored, hstored'] at hsame
    exact computePacketHeaderChecksum_ne hdiff h.room hi (by omega) (Option.some.inj hsame)

/-- Nor anywhere else that is covered. -/
theorem Accepts.not_differsAt_covered {b b' : Bytes} {d d' : Decoding} {i : Nat}
    (h : Accepts lz4 gcm crypto b d) (h' : Accepts lz4 gcm crypto' b' d')
    (hdiff : DiffersAt i b b') (hcovered : Covered d.header.flags i) : False := by
  by_cases hi : i < kPacketHeaderWireSize
  · exact h.not_differsAt_header h' hdiff hi
  have hheader : d'.header = d.header := by
    have hagree : Agree 0 kPacketHeaderWireSize b b' :=
      ⟨hdiff.length_eq, fun j _ hj => hdiff.same j (by omega)⟩
    have hread := readPacketHeader_congr hagree
    rw [h.read, h'.read] at hread
    exact (Option.some.inj hread).symm
  have hstored := h.load_checksum
  have hstored' := h'.load_checksum
  have hcomputed := h.checksum
  have hcomputed' := h'.checksum
  rw [hheader] at hstored'
  rw [h.offset_eq] at hcomputed
  rw [h'.offset_eq, hheader] at hcomputed'
  have hlayout : d.header.flags.checksumOffset + 4 ≤ d.header.flags.payloadOffset ∧
      d.header.flags.payloadHeaderOffset ≤ d.header.flags.checksumOffset ∧
      (d.header.flags.isCompressed = true → d.header.flags.payloadHeaderOffset + 8 ≤
        d.header.flags.checksumOffset) := by
    unfold HeaderFlags.checksumOffset HeaderFlags.payloadOffset
    cases d.header.flags.isCompressed <;>
      simp [kUncompressedChecksumOffset, kUncompressedHeaderWireSize, kCompressedChecksumOffset,
        kCompressedHeaderWireSize]
  rcases hcovered with hbase | ⟨hlo, hhi⟩ | ⟨hcompressed, hlo, hhi⟩ | hpayload
  · exact hi hbase
  · -- the stored payload sum changes, the payload does not
    have hdrop := hdiff.drop_eq (show i < d.header.flags.payloadOffset by omega)
    rw [← hcomputed', ← hdrop, hcomputed] at hstored'
    exact hdiff.ne (getElem?_eq_of_loadU32 hstored hstored' hlo hhi)
  · -- both sizes are what is left of the datagram
    have hsize := h.size hcompressed
    have hsize' := h'.size (by rw [hheader]; exact hcompressed)
    rw [h.offset_eq] at hsize
    rw [h'.offset_eq, hheader, ← hdiff.length_eq, ← hsize] at hsize'
    have hload := h.load_compressedSize hcompressed
    have hload' := h'.load_compressedSize (by rw [hheader]; exact hcompressed)
    rw [hheader, UInt32.toNat_inj.mp hsize'] at hload'
    exact hdiff.ne (getElem?_eq_of_loadU32 hload hload' hlo hhi)
  · -- the payload changes, its stored sum does not
    have hsame : loadU32 b d.header.flags.checksumOffset =
        loadU32 b' d.header.flags.checksumOffset :=
      loadU32_congr ⟨hdiff.length_eq, fun j hlo hhi => hdiff.same j (by omega)⟩
    rw [hstored, hstored', ← hcomputed, ← hcomputed'] at hsame
    exact computeChecksum_ne (hdiff.drop hpayload) (Option.some.inj hsame)

/-- One changed byte in what the checksums cover is always noticed, and the header checksum
notices it in spite of its truncation. -/
theorem single_byte_corruption_rejected {b b' : Bytes} {out out' received : IncomingPacket}
    {header : PacketHeader} {i : Nat} (h : unpackPacket lz4 gcm crypto b out = .ok received)
    (hread : readPacketHeader b = some header) (hdiff : DiffersAt i b b')
    (hcovered : Covered header.flags i) :
    (∃ e, unpackPacket lz4 gcm crypto' b' out' = .error e) ∧
    (i < kPacketHeaderWireSize → (i < kHeaderChecksumOffset ∨ kHeaderChecksumOffset + 2 ≤ i) →
      computePacketHeaderChecksum b ≠ computePacketHeaderChecksum b') := by
  obtain ⟨d, haccepts, -⟩ := unpackPacket_eq_ok_iff.mp h
  rw [haccepts.read] at hread
  obtain rfl := Option.some.inj hread
  refine ⟨?_, computePacketHeaderChecksum_ne hdiff haccepts.room⟩
  cases hresult : unpackPacket lz4 gcm crypto' b' out' with
  | error e => exact ⟨e, rfl⟩
  | ok received' =>
      obtain ⟨d', haccepts', -⟩ := unpackPacket_eq_ok_iff.mp hresult
      exact (haccepts.not_differsAt_covered haccepts' hdiff hcovered).elim

/-- The sample packet in the clear. -/
def plainPacket : OutgoingPacket :=
  { samplePacket with flags := { samplePacket.flags with encrypted := false } }

def plainDatagram : Bytes := (buildPacket literalLz4 maskGcm none sampleEnv plainPacket 77).2

/-- A changed timestamp. -/
theorem single_byte_corruption_rejected_timestamp :
    ∃ e, unpackPacket literalLz4 maskGcm none (plainDatagram.set 16 0xFF) sampleIncoming =
      .error e := by
  obtain ⟨received, hok, -⟩ := unpackPacket_buildPacket literalLz4_roundTrip maskGcm_sized
    maskGcm_roundTrip none sampleEnv plainPacket 77 sampleIncoming (by decide) (by decide)
    (by decide) (by decide +kernel)
  have hread : (readPacketHeader plainDatagram).isSome = true := by decide +kernel
  have hdiff : DiffersAt 16 plainDatagram (plainDatagram.set 16 0xFF) :=
    ⟨List.length_set.symm, by decide +kernel,
      fun j hj => (List.getElem?_set_ne (Ne.symm hj)).symm⟩
  exact (single_byte_corruption_rejected hok (Option.some_get hread).symm hdiff
    (.inl (by decide))).1

/-! ## The reliable header -/

/-- The two datagrams are alike outside the reliable header. -/
def AgreeButReliableHeader (b b' : Bytes) : Prop :=
  Agree 0 kPacketHeaderWireSize b b' ∧
    Agree (kPacketHeaderWireSize + kReliableHeaderWireSize) b.length b b'

theorem readPayloadHeader_congr {b b' : Bytes} {offset : Nat} (isCompressed : Bool)
    (h : Agree offset b.length b b') :
    readPayloadHeader b isCompressed offset = readPayloadHeader b' isCompressed offset := by
  have hcell {lo hi : Nat} (hlo : offset ≤ lo) : Agree lo hi b b' := by
    refine ⟨h.length_eq, fun i hi _ => ?_⟩
    by_cases hend : i < b.length
    · exact h.same i (Nat.le_trans hlo hi) hend
    · have hlength := h.length_eq
      rw [List.getElem?_eq_none (by omega), List.getElem?_eq_none (by omega)]
  unfold readPayloadHeader
  rw [h.length_eq, loadU8_congr (hcell (Nat.le_add_right ..)),
    loadU32_congr (hcell (Nat.le_add_right offset kCompressedSizeOffset)),
    loadU32_congr (hcell (Nat.le_add_right offset kCompressedOriginalSizeOffset)),
    loadU32_congr (hcell (Nat.le_add_right offset kCompressedChecksumOffset)),
    loadU32_congr (hcell (Nat.le_add_right offset kUncompressedChecksumOffset))]

/-- An accepted datagram in the clear is accepted with any other reliable header, and delivered
under the numbers that header holds. -/
theorem Accepts.renumber {b b' : Bytes} {d : Decoding} (h : Accepts lz4 gcm crypto b d)
    (hreliable : d.header.flags.isReliable = true) (hplain : d.header.flags.isEncrypted = false)
    (hagree : AgreeButReliableHeader b b') :
    ∃ sequenceNumber acknowledgementNumber,
      loadU32 b' (kPacketHeaderWireSize + kReliableSequenceOffset) = some sequenceNumber ∧
      loadU32 b' (kPacketHeaderWireSize + kReliableAcknowledgementOffset) =
        some acknowledgementNumber ∧
      Accepts lz4 gcm crypto b' { d with sequenceNumber, acknowledgementNumber } := by
  obtain ⟨hfront, hback⟩ := hagree
  have hlength := hfront.length_eq
  have hheader := readReliableHeader_eq_ok h.reliable
  rw [hreliable] at hheader
  obtain ⟨hnext, hroom, -, -⟩ := hheader
  have hload (offset : Nat) (hoffset : offset + 4 ≤ b'.length) :
      ∃ value, loadU32 b' offset = some value := by
    rw [loadU32, read?, if_pos hoffset]
    exact ⟨_, rfl⟩
  -- whatever stands in the reliable header is read as numbers
  obtain ⟨sequenceNumber, hsequence⟩ := hload (kPacketHeaderWireSize + kReliableSequenceOffset)
    (by rw [← hlength]; exact Nat.le_trans (by decide) hroom)
  obtain ⟨acknowledgementNumber, hacknowledgement⟩ :=
    hload (kPacketHeaderWireSize + kReliableAcknowledgementOffset)
      (by rw [← hlength]; exact hroom)
  have hoffset : kPacketHeaderWireSize + kReliableHeaderWireSize ≤ d.offset := by
    rw [(readPayloadHeader_eq_ok h.payload).1, hnext, if_pos rfl]
    exact Nat.le_add_right ..
  -- payload header and payload lie behind it
  have hdrop : b.drop d.offset = b'.drop d.offset :=
    (hback.mono hoffset (Nat.le_refl _)).drop_eq
  have hheaderBytes := hfront.take_eq
  refine ⟨sequenceNumber, acknowledgementNumber, hsequence, hacknowledgement, ?_⟩
  exact
    { room := hlength ▸ h.room
      read := by rw [← readPacketHeader_congr hfront]; exact h.read
      valid := by rw [← hlength]; exact h.valid
      headerChecksum := by rw [← hheaderBytes]; exact h.headerChecksum
      channel := h.channel
      reliable := by
        show readReliableHeader b' d.header.flags.isReliable kPacketHeaderWireSize = _
        unfold readReliableHeader
        rw [if_pos hreliable, require_true (decide_eq_true (hlength ▸ hroom)), hsequence,
          hacknowledgement, hnext]
        rfl
      payload := by
        show readPayloadHeader b' d.header.flags.isCompressed d.payloadHeader = _
        rw [← readPayloadHeader_congr _ (hback.mono (by rw [hnext, if_pos rfl])
          (Nat.le_refl _))]
        exact h.payload
      offset_le := hlength ▸ h.offset_le
      size := by rw [← hlength]; exact h.size
      checksum := by rw [← hdrop]; exact h.checksum
      -- nothing to authenticate: the packet is in the clear
      decrypted := by
        have hopened := h.decrypted
        unfold decryptPayloadIfNeeded at hopened ⊢
        rw [if_pos hplain] at hopened ⊢
        rw [← hdrop]
        exact hopened
      decompressed := h.decompressed }

theorem AgreeButReliableHeader.symm {b b' : Bytes} (h : AgreeButReliableHeader b b') :
    AgreeButReliableHeader b' b :=
  ⟨⟨h.1.length_eq.symm, fun i hlo hhi => (h.1.same i hlo hhi).symm⟩,
    ⟨h.2.length_eq.symm, fun i hlo hhi => (h.2.same i hlo (h.2.length_eq ▸ hhi)).symm⟩⟩

/-- The receiver rejects a built datagram in the clear whatever its numbers are: its type is
invalid, its channel another's, or it is compressed and too large to be decompressed. -/
def RejectedAnyway (lz4 : Lz4) (packet : OutgoingPacket) : Prop :=
  packet.type = PacketType.invalid ∨ packet.channel ≠ PacketChannelType.ofType packet.type ∨
    ((compressPayload lz4 packet).1.flags.compressed = true ∧
      ZCompressionContext.kMaxDecompressedSize < packet.heapData.length)

section Built

variable {env : BuildEnv} {packet packetInfo : OutgoingPacket} {sequenceNumber : UInt32}
  {bytes : Bytes}

/-- What the receiver reads out of a built datagram's header. -/
theorem readPacketHeader_parsedHeader
    (hbuilt : buildPacket lz4 gcm crypto env packet sequenceNumber = (packetInfo, bytes))
    (hne : bytes ≠ []) :
    ∃ checksum total unixTime,
      readPacketHeader bytes = some (parsedHeader checksum total packetInfo unixTime) := by
  obtain ⟨compressed, payload, -, -, -, rfl⟩ := buildPacket_eq hbuilt hne
  exact ⟨_, _, _, readPacketHeader_headerFields ..⟩

/-- A built datagram in the clear that is not rejected anyway is accepted. -/
theorem exists_accepts_buildPacket (hlz4 : lz4.RoundTrip)
    (hplain : packet.flags.encrypted = false)
    (hbuilt : buildPacket lz4 gcm crypto env packet sequenceNumber = (packetInfo, bytes))
    (hne : bytes ≠ []) (hkept : ¬ RejectedAnyway lz4 packet) :
    ∃ d, Accepts lz4 gcm crypto' bytes d := by
  obtain ⟨htype, hrest⟩ := not_or.mp hkept
  obtain ⟨hchannel, hsize⟩ := not_or.mp hrest
  obtain ⟨compressed, payload, hcompress, hencrypt, hfit, rfl⟩ := buildPacket_eq hbuilt hne
  obtain ⟨b, rfl⟩ := compressPayload_packet hcompress
  have hclear : (packet.withCompressed b).flags.encrypted = false := hplain
  -- in the clear the payload is what was compressed
  have hpayload : payload = compressed := by
    unfold encryptPayloadIfNeeded at hencrypt
    rw [if_pos hclear] at hencrypt
    exact (Option.some.inj hencrypt).symm
  subst hpayload
  have hdata : ∃ data, decompressIfNeeded lz4 b payload (if b then packet.heapDataSize else 0) =
      some data := by
    cases b with
    | false => exact ⟨payload, rfl⟩
    | true =>
        have hcompressed : (compressPayload lz4 packet).1.flags.compressed = true := by
          rw [hcompress]
          rfl
        -- it was small enough to be decompressed again
        have hroom : packet.heapData.length ≤ ZCompressionContext.kMaxDecompressedSize :=
          Nat.le_of_not_lt fun hlarge => hsize ⟨hcompressed, hlarge⟩
        exact ⟨_, decompressIfNeeded_compressPayload hlz4 hcompress hroom⟩
  obtain ⟨data, hdata⟩ := hdata
  have hunpack := unpackPacket_datagram lz4 gcm crypto' (packet.withCompressed b) sequenceNumber
    packet.heapDataSize env.unixTime payload sampleIncoming htype
    (Classical.not_not.mp hchannel) hfit
  have hopened (header : PacketHeader) (hclear : header.flags.isEncrypted = false)
      (sequence acknowledgement : UInt32) :
      decryptPayloadIfNeeded gcm crypto' payload sequence acknowledgement header =
        some payload := by
    unfold decryptPayloadIfNeeded
    exact if_pos hclear
  rw [hopened _ hplain, succeed_some, ok_bind] at hunpack
  change _ = (succeed (decompressIfNeeded lz4 b payload (if b then packet.heapDataSize else 0))
    _ >>= _) at hunpack
  rw [hdata, succeed_some, ok_bind] at hunpack
  obtain ⟨d, hd, -⟩ := unpackPacket_eq_ok_iff.mp hunpack
  exact ⟨d, hd⟩

/-- An accepted one was not. -/
theorem Accepts.not_rejectedAnyway {d : Decoding}
    (hbuilt : buildPacket lz4 gcm crypto env packet sequenceNumber = (packetInfo, bytes))
    (hne : bytes ≠ []) (h : Accepts lz4 gcm crypto' bytes d) :
    ¬ RejectedAnyway lz4 packet := by
  obtain ⟨checksum, total, unixTime, hread⟩ := readPacketHeader_parsedHeader hbuilt hne
  obtain ⟨compressed, payload, hcompress, -, -, rfl⟩ := buildPacket_eq hbuilt hne
  obtain ⟨b, rfl⟩ := compressPayload_packet hcompress
  rw [h.read] at hread
  have hheader := Option.some.inj hread
  rintro (htype | hchannel | ⟨hcompressed, hlarge⟩)
  · refine type_ne_invalid_of_validatePacketHeader h.valid ?_
    rw [hheader]
    exact htype
  · apply hchannel
    have hofType := h.channel
    rw [hheader] at hofType
    exact (PacketChannelType.ofU8_toU8 _).symm.trans hofType
  · -- the announced size is the payload's, which is over the limit
    rw [hcompress] at hcompressed
    obtain rfl : b = true := hcompressed
    have hpayload := h.payload
    rw [h.payloadHeader_eq, hheader] at hpayload
    have hsizes := Except.ok.inj ((readPayloadHeader_datagram (packet.withCompressed true)
      sequenceNumber packet.heapDataSize env.unixTime payload).symm.trans hpayload)
    have hannounced : packet.heapDataSize = d.originalSize :=
      (Prod.mk.inj (Prod.mk.inj hsizes).2).1
    have hdecompressed := h.decompressed
    rw [hheader, ← hannounced] at hdecompressed
    unfold decompressIfNeeded ZCompressionContext.decompress at hdecompressed
    rw [OutgoingPacket.toNat_heapDataSize, if_pos hlarge] at hdecompressed
    cases hdecompressed

/-- The flags a built datagram announces. -/
theorem Accepts.flags_eq {b' : Bytes} {d : Decoding}
    (hbuilt : buildPacket lz4 gcm crypto env packet sequenceNumber = (packetInfo, bytes))
    (hne : bytes ≠ []) (hagree : Agree 0 kPacketHeaderWireSize bytes b')
    (h : Accepts lz4 gcm crypto' b' d) :
    d.header.flags.isReliable = packet.flags.reliable ∧
      d.header.flags.isEncrypted = packet.flags.encrypted := by
  obtain ⟨checksum, total, unixTime, hread⟩ := readPacketHeader_parsedHeader hbuilt hne
  obtain ⟨compressed, payload, hcompress, -, -, -⟩ := buildPacket_eq hbuilt hne
  obtain ⟨b, rfl⟩ := compressPayload_packet hcompress
  rw [readPacketHeader_congr hagree, h.read] at hread
  rw [Option.some.inj hread]
  exact ⟨rfl, rfl⟩

/-- The datagram with the next sequence number in its reliable header. -/
theorem exists_renumbered {d : Decoding} (h : Accepts lz4 gcm crypto' bytes d)
    (hreliable : d.header.flags.isReliable = true) :
    ∃ b', AgreeButReliableHeader bytes b' ∧ b' ≠ bytes := by
  have hheader := readReliableHeader_eq_ok h.reliable
  rw [if_pos hreliable, if_pos hreliable] at hheader
  obtain ⟨-, hroom, hsequence, -⟩ := hheader
  have hin : kPacketHeaderWireSize + (leU32 (d.sequenceNumber + 1)).length ≤ bytes.length := by
    rw [length_leU32]
    exact Nat.le_trans (by decide) hroom
  have hlength := length_store hin
  have hfar {j : Nat} (hj : j < kPacketHeaderWireSize ∨ kPacketHeaderWireSize + 4 ≤ j) :
      bytes[j]? = (storeU32 bytes kPacketHeaderWireSize (d.sequenceNumber + 1))[j]? := by
    rw [storeU32, getElem?_store hin, length_leU32, if_neg (by omega)]
  refine ⟨storeU32 bytes kPacketHeaderWireSize (d.sequenceNumber + 1),
    ⟨⟨hlength.symm, fun j _ hj => hfar (.inl hj)⟩,
      ⟨hlength.symm, fun j hj _ => hfar (.inr (Nat.le_trans (by decide) hj))⟩⟩, fun heq => ?_⟩
  -- the stored number would be its own successor
  have hnext : loadU32 (storeU32 bytes kPacketHeaderWireSize (d.sequenceNumber + 1))
      (kPacketHeaderWireSize + kReliableSequenceOffset) = some (d.sequenceNumber + 1) := by
    rw [storeU32, store, List.append_assoc]
    have hfront : (bytes.take kPacketHeaderWireSize).length = kPacketHeaderWireSize :=
      List.length_take_of_le (by omega)
    exact loadU32_field _ _ _ hfront.symm
  rw [heq, hsequence] at hnext
  have hself : d.sequenceNumber = d.sequenceNumber + 1 := Option.some.inj hnext
  have hvalue := congrArg UInt32.toNat hself
  rw [UInt32.toNat_add] at hvalue
  have hlt := d.sequenceNumber.toNat_lt
  have hone : (1 : UInt32).toNat = 1 := rfl
  omega

/-- In the clear, every other reliable header is rejected exactly when the datagram is rejected
whatever that header says. -/
theorem reliable_header_rejected_iff (hlz4 : lz4.RoundTrip)
    (hplain : packet.flags.encrypted = false) (hreliable : packet.flags.reliable = true)
    (hbuilt : buildPacket lz4 gcm crypto env packet sequenceNumber = (packetInfo, bytes))
    (hne : bytes ≠ []) :
    (∀ b' out, AgreeButReliableHeader bytes b' → b' ≠ bytes →
      ∃ e, unpackPacket lz4 gcm crypto' b' out = .error e) ↔ RejectedAnyway lz4 packet := by
  constructor
  · intro hreject
    by_contra hkept
    have haccepts : ∃ d, Accepts lz4 gcm crypto' bytes d :=
      exists_accepts_buildPacket hlz4 hplain hbuilt hne hkept
    obtain ⟨d, hd⟩ := haccepts
    have hflags := hd.flags_eq hbuilt hne ⟨rfl, fun _ _ _ => rfl⟩
    rw [hreliable, hplain] at hflags
    obtain ⟨b', hagree, hchanged⟩ := exists_renumbered hd hflags.1
    obtain ⟨sequence, acknowledgement, -, -, hd'⟩ := hd.renumber hflags.1 hflags.2 hagree
    obtain ⟨e, herror⟩ := hreject b' sampleIncoming hagree hchanged
    rw [unpackPacket_eq_ok_iff.mpr ⟨_, hd', rfl⟩] at herror
    cases herror
  · intro hrejected b' out hagree _
    cases hresult : unpackPacket lz4 gcm crypto' b' out with
    | error e => exact ⟨e, rfl⟩
    | ok received =>
        obtain ⟨d', hd', -⟩ := unpackPacket_eq_ok_iff.mp hresult
        have hflags := hd'.flags_eq hbuilt hne hagree.1
        rw [hreliable, hplain] at hflags
        -- put the original numbers back
        obtain ⟨sequence, acknowledgement, -, -, hd⟩ :=
          hd'.renumber hflags.1 hflags.2 hagree.symm
        exact (hd.not_rejectedAnyway hbuilt hne hrejected).elim

end Built

/-- The sample packet is sent under 77 and, with one byte changed, received under 78. -/
theorem renumbered_datagram_accepted :
    plainPacket.flags.encrypted = false ∧ plainPacket.flags.reliable = true ∧
      plainDatagram ≠ [] ∧ plainDatagram.set 20 78 ≠ plainDatagram ∧
      AgreeButReliableHeader plainDatagram (plainDatagram.set 20 78) ∧
      (unpackPacket literalLz4 maskGcm none plainDatagram sampleIncoming).toOption.map
        (·.sequenceNumber) = some 77 ∧
      (unpackPacket literalLz4 maskGcm none (plainDatagram.set 20 78) sampleIncoming).toOption.map
        (·.sequenceNumber) = some 78 := by
  have hsame {j : Nat} (hj : 20 ≠ j) : plainDatagram[j]? = (plainDatagram.set 20 78)[j]? :=
    (List.getElem?_set_ne hj).symm
  refine ⟨rfl, rfl, by decide +kernel, by decide +kernel,
    ⟨⟨List.length_set.symm, fun j _ hj => hsame (Nat.ne_of_gt hj)⟩,
      ⟨List.length_set.symm, fun j hj _ => hsame (Nat.ne_of_lt (Nat.lt_of_lt_of_le (by decide)
        hj))⟩⟩, by decide +kernel, by decide +kernel⟩

theorem reliable_header_rejected_iff_plainPacket :
    ¬ ∀ b' out, AgreeButReliableHeader plainDatagram b' → b' ≠ plainDatagram →
      ∃ e, unpackPacket literalLz4 maskGcm none b' out = .error e := by
  have hkept : ¬ RejectedAnyway literalLz4 plainPacket := by
    unfold RejectedAnyway
    decide +kernel
  have hbuilt : buildPacket literalLz4 maskGcm none sampleEnv plainPacket 77 =
      ((buildPacket literalLz4 maskGcm none sampleEnv plainPacket 77).1, plainDatagram) := rfl
  have hne : plainDatagram ≠ [] := by decide +kernel
  rw [reliable_header_rejected_iff literalLz4_roundTrip rfl rfl hbuilt hne]
  exact hkept

end ZetaNet
