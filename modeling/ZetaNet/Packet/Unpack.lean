import ZetaNet.Lib.Checks
import ZetaNet.Packet.Build

/-!
# `PacketUnpacker`

`UnpackPacket` of `z_packet_serdes.cc` with `ValidatePacketHeader` and
`DecryptPayloadIfNeeded` of `z_packet_serdes.h`. Every rejection of the code is an
error of its own; `outOfBounds` is an access past the received bytes, which the code
does not test for at the access itself.
-/

namespace ZetaNet

open Wire Checks

/-- The exits of `UnpackPacket` that return `false`. -/
inductive UnpackError
  | invalidBuffer
  | invalidHeader
  | headerChecksumMismatch
  | systemPacketOnDataChannel
  | dataPacketOnControlChannel
  | truncatedReliableHeader
  | truncatedCompressedHeader
  | invalidCompressedFlags
  | truncatedUncompressedHeader
  | invalidPayloadOffset
  | compressedSizeMismatch
  | payloadChecksumMismatch
  | decryptionFailed
  | decompressionFailed
  /-- not an exit of the code: a read outside the buffer -/
  | outOfBounds
  deriving DecidableEq, Repr

/-- The bit-field struct of `PacketHeader`. -/
structure HeaderFlags where
  isReliable : Bool
  isEncrypted : Bool
  isCompressed : Bool
  isFragmented : Bool
  priority : UInt8
  reserved : UInt8
  deriving DecidableEq, Repr

/-- `struct PacketHeader`. -/
structure PacketHeader where
  magic : UInt16
  headerChecksum : UInt16
  totalPacketDataSize : UInt32
  version : UInt8
  flags : HeaderFlags
  type : UInt16
  alignment : UInt16
  paddingNumber : UInt8
  channelId : UInt8
  timestamp : UInt32
  deriving DecidableEq, Repr

/-- `UnpackHeaderFlags`. -/
def unpackHeaderFlags (flagsByte : UInt8) : HeaderFlags where
  isReliable := flagsByte &&& 1 ≠ 0
  isEncrypted := (flagsByte >>> 1) &&& 1 ≠ 0
  isCompressed := (flagsByte >>> 2) &&& 1 ≠ 0
  isFragmented := (flagsByte >>> 3) &&& 1 ≠ 0
  priority := (flagsByte >>> 4) &&& 3
  reserved := (flagsByte >>> 6) &&& 3

/-- `ValidatePacketHeader`. -/
def validatePacketHeader (header : PacketHeader) (size : Nat) : Bool :=
  if size < kPacketHeaderWireSize then false
  else if header.magic ≠ kMagic then false
  else if header.version ≠ kProtocolVersion then false
  else if header.totalPacketDataSize.toNat ≠ size then false
  else if header.flags.reserved ≠ 0 ∨ header.flags.isFragmented then false
  else if header.channelId > PacketChannelType.data.toU8 then false
  else if header.flags.priority > PacketPriority.critical.toU8 then false
  else header.type ≠ PacketType.invalid

/-- The sequence of loads that fills `header`. -/
def readPacketHeader (inBuffer : Bytes) : Option PacketHeader := do
  let magic ← loadU16 inBuffer kHeaderMagicOffset
  let headerChecksum ← loadU16 inBuffer kHeaderChecksumOffset
  let totalPacketDataSize ← loadU32 inBuffer kHeaderTotalSizeOffset
  let version ← loadU8 inBuffer kHeaderVersionOffset
  let flagsByte ← loadU8 inBuffer kHeaderFlagsOffset
  let type ← loadU16 inBuffer kHeaderTypeOffset
  let alignment ← loadU16 inBuffer kHeaderAlignmentOffset
  let paddingNumber ← loadU8 inBuffer kHeaderPaddingOffset
  let channelId ← loadU8 inBuffer kHeaderChannelOffset
  let timestamp ← loadU32 inBuffer kHeaderTimestampOffset
  return { magic, headerChecksum, totalPacketDataSize, version,
           flags := unpackHeaderFlags flagsByte, type, alignment, paddingNumber, channelId,
           timestamp }

variable {K : Type}

/-- `DecryptPayloadIfNeeded`; `none` is the return value `false`. -/
def decryptPayloadIfNeeded (gcm : AesGcm K) (crypto : Option K) (payload : Bytes)
    (sequenceNumber acknowledgementNumber : UInt32) (header : PacketHeader) : Option Bytes :=
  if header.flags.isEncrypted = false then some payload
  else
    match crypto with
    | none => none
    | some key =>
        decryptPayload gcm key payload
          (aadBytes header.type header.channelId header.flags.isReliable
            header.flags.isEncrypted header.flags.isCompressed header.flags.priority
            sequenceNumber acknowledgementNumber)

/-- The value of an access, or the fault. -/
def access {α : Type} (value : Option α) : Except UnpackError α :=
  match value with
  | some value => .ok value
  | none => .error .outOfBounds

@[simp] theorem access_some {α : Type} (value : α) : access (some value) = .ok value := rfl

/-- The reliable header at `offset`, if the packet has one: sequence number,
acknowledgement number and the offset behind it. -/
def readReliableHeader (inBuffer : Bytes) (isReliable : Bool) (offset : Nat) :
    Except UnpackError (UInt32 × UInt32 × Nat) :=
  if isReliable then do
    require (offset + kReliableHeaderWireSize ≤ inBuffer.length) .truncatedReliableHeader
    let sequenceNumber ← access (loadU32 inBuffer (offset + kReliableSequenceOffset))
    let acknowledgementNumber ←
      access (loadU32 inBuffer (offset + kReliableAcknowledgementOffset))
    return (sequenceNumber, acknowledgementNumber, offset + kReliableHeaderWireSize)
  else return (0, 0, offset)

/-- The payload header at `offset`: `compressed_size`, `original_size`, the expected
checksum and the payload's offset. -/
def readPayloadHeader (inBuffer : Bytes) (isCompressed : Bool) (offset : Nat) :
    Except UnpackError (UInt32 × UInt32 × UInt32 × Nat) :=
  if isCompressed then do
    require (offset + kCompressedHeaderWireSize ≤ inBuffer.length) .truncatedCompressedHeader
    let compressionFlags ← access (loadU8 inBuffer (offset + kCompressedFlagsOffset))
    require (compressionFlags &&& ~~~1 == 0) .invalidCompressedFlags
    let compressedSize ← access (loadU32 inBuffer (offset + kCompressedSizeOffset))
    let originalSize ← access (loadU32 inBuffer (offset + kCompressedOriginalSizeOffset))
    let checksum ← access (loadU32 inBuffer (offset + kCompressedChecksumOffset))
    return (compressedSize, originalSize, checksum, offset + kCompressedHeaderWireSize)
  else do
    require (offset + kUncompressedHeaderWireSize ≤ inBuffer.length)
      .truncatedUncompressedHeader
    let checksum ← access (loadU32 inBuffer (offset + kUncompressedChecksumOffset))
    return (0, 0, checksum, offset + kUncompressedHeaderWireSize)

/-- The decompression stage. -/
def decompressIfNeeded (lz4 : Lz4) (isCompressed : Bool) (payload : Bytes)
    (originalSize : UInt32) : Option Bytes :=
  if isCompressed then ZCompressionContext.decompress lz4 payload originalSize.toNat
  else some payload

/-- `UnpackPacket`: `out` with the fields the call assigns. `source_peer_id` is not one of
them; the receiver sets it afterwards. -/
def unpackPacket (lz4 : Lz4) (gcm : AesGcm K) (crypto : Option K) (inBuffer : Bytes)
    (out : IncomingPacket) : Except UnpackError IncomingPacket := do
  require (kPacketHeaderWireSize ≤ inBuffer.length) .invalidBuffer
  let header ← access (readPacketHeader inBuffer)
  require (validatePacketHeader header inBuffer.length) .invalidHeader
  let headerWire ← access (Buffer.read? inBuffer 0 kPacketHeaderWireSize)
  require (header.headerChecksum == computePacketHeaderChecksum headerWire)
    .headerChecksumMismatch
  let packetType : PacketType := header.type
  let channel := PacketChannelType.ofU8 header.channelId
  require (!(isSystemMessage packetType && channel != .control)) .systemPacketOnDataChannel
  require (!(!isSystemMessage packetType && channel != .data)) .dataPacketOnControlChannel
  let (sequenceNumber, acknowledgementNumber, offset) ←
    readReliableHeader inBuffer header.flags.isReliable kPacketHeaderWireSize
  let (compressedSize, originalSize, expectedPayloadChecksum, offset) ←
    readPayloadHeader inBuffer header.flags.isCompressed offset
  require (offset ≤ inBuffer.length) .invalidPayloadOffset
  let payloadSize := inBuffer.length - offset
  require (!(header.flags.isCompressed && compressedSize.toNat != payloadSize))
    .compressedSizeMismatch
  let wirePayload ← access (Buffer.read? inBuffer offset payloadSize)
  require (computeChecksum wirePayload == expectedPayloadChecksum) .payloadChecksumMismatch
  let flags : PackageFlags :=
    { reliable := header.flags.isReliable
      encrypted := header.flags.isEncrypted
      compressed := header.flags.isCompressed
      priority := PacketPriority.ofU8 header.flags.priority }
  let payloadData ←
    succeed (decryptPayloadIfNeeded gcm crypto wirePayload sequenceNumber acknowledgementNumber
      header) .decryptionFailed
  let payloadData ←
    succeed (decompressIfNeeded lz4 header.flags.isCompressed payloadData originalSize)
      .decompressionFailed
  return { out with type := packetType, channel, flags, sequenceNumber, acknowledgementNumber,
                    data := payloadData }

theorem type_ne_invalid_of_validatePacketHeader {header : PacketHeader} {size : Nat}
    (h : validatePacketHeader header size = true) : header.type ≠ PacketType.invalid := by
  intro htype
  have hlast : decide (header.type ≠ PacketType.invalid) = false := by simp [htype]
  simp only [validatePacketHeader, hlast, ite_self] at h
  cases h

theorem access_bind_eq_ok {α β : Type} {value : Option α} {next : α → Except UnpackError β}
    {result : β} (h : (access value >>= next) = .ok result) :
    ∃ a, value = some a ∧ next a = .ok result := by
  cases value with
  | none =>
      rw [access, error_bind] at h
      cases h
  | some a => exact ⟨a, rfl, by rwa [access_some, ok_bind] at h⟩

/-- What the receiver reads out of a datagram on its way to a packet. -/
structure Decoding where
  header : PacketHeader
  sequenceNumber : UInt32
  acknowledgementNumber : UInt32
  /-- where the payload header stands -/
  payloadHeader : Nat
  compressedSize : UInt32
  originalSize : UInt32
  checksum : UInt32
  /-- where the payload stands -/
  offset : Nat
  opened : Bytes
  data : Bytes

/-- The packet the receiver makes of it. -/
def Decoding.packet (d : Decoding) (out : IncomingPacket) : IncomingPacket :=
  { out with
    type := d.header.type
    channel := PacketChannelType.ofU8 d.header.channelId
    flags :=
      { reliable := d.header.flags.isReliable
        encrypted := d.header.flags.isEncrypted
        compressed := d.header.flags.isCompressed
        priority := PacketPriority.ofU8 d.header.flags.priority }
    sequenceNumber := d.sequenceNumber
    acknowledgementNumber := d.acknowledgementNumber
    data := d.data }

/-- Every test of `UnpackPacket` passes on the datagram, with `d` what it reads. -/
structure Accepts (lz4 : Lz4) (gcm : AesGcm K) (crypto : Option K) (inBuffer : Bytes)
    (d : Decoding) : Prop where
  room : kPacketHeaderWireSize ≤ inBuffer.length
  read : readPacketHeader inBuffer = some d.header
  valid : validatePacketHeader d.header inBuffer.length = true
  headerChecksum : d.header.headerChecksum =
    computePacketHeaderChecksum (inBuffer.take kPacketHeaderWireSize)
  channel : PacketChannelType.ofU8 d.header.channelId = PacketChannelType.ofType d.header.type
  reliable : readReliableHeader inBuffer d.header.flags.isReliable kPacketHeaderWireSize =
    .ok (d.sequenceNumber, d.acknowledgementNumber, d.payloadHeader)
  payload : readPayloadHeader inBuffer d.header.flags.isCompressed d.payloadHeader =
    .ok (d.compressedSize, d.originalSize, d.checksum, d.offset)
  offset_le : d.offset ≤ inBuffer.length
  size : d.header.flags.isCompressed = true →
    d.compressedSize.toNat = inBuffer.length - d.offset
  checksum : computeChecksum (inBuffer.drop d.offset) = d.checksum
  decrypted : decryptPayloadIfNeeded gcm crypto (inBuffer.drop d.offset) d.sequenceNumber
    d.acknowledgementNumber d.header = some d.opened
  decompressed : decompressIfNeeded lz4 d.header.flags.isCompressed d.opened d.originalSize =
    some d.data

theorem read?_rest {inBuffer : Bytes} {offset : Nat} (h : offset ≤ inBuffer.length) :
    Buffer.read? inBuffer offset (inBuffer.length - offset) = some (inBuffer.drop offset) := by
  rw [Buffer.read?, if_pos (by omega), List.take_of_length_le (by simp)]

/-- An accepted datagram, test by test. -/
theorem unpackPacket_eq_ok_iff {lz4 : Lz4} {gcm : AesGcm K} {crypto : Option K}
    {inBuffer : Bytes} {out received : IncomingPacket} :
    unpackPacket lz4 gcm crypto inBuffer out = .ok received ↔
      ∃ d, Accepts lz4 gcm crypto inBuffer d ∧ received = d.packet out := by
  constructor
  · intro h
    -- each test of the source in turn, from the end it must have come to
    unfold unpackPacket at h
    obtain ⟨hroom, h⟩ := require_bind_eq_ok h
    obtain ⟨header, hread, h⟩ := access_bind_eq_ok h
    obtain ⟨hvalid, h⟩ := require_bind_eq_ok h
    obtain ⟨headerWire, hwire, h⟩ := access_bind_eq_ok h
    obtain ⟨hheaderChecksum, h⟩ := require_bind_eq_ok h
    obtain ⟨hsystem, h⟩ := require_bind_eq_ok h
    obtain ⟨hdata, h⟩ := require_bind_eq_ok h
    obtain ⟨⟨sequenceNumber, acknowledgementNumber, payloadHeader⟩, hreliable, h⟩ :=
      except_bind_eq_ok h
    obtain ⟨⟨compressedSize, originalSize, checksum, offset⟩, hpayload, h⟩ := except_bind_eq_ok h
    obtain ⟨hoffset, h⟩ := require_bind_eq_ok h
    obtain ⟨hsize, h⟩ := require_bind_eq_ok h
    obtain ⟨wirePayload, hwirePayload, h⟩ := access_bind_eq_ok h
    obtain ⟨hchecksum, h⟩ := require_bind_eq_ok h
    obtain ⟨opened, hopened, h⟩ := succeed_bind_eq_ok h
    obtain ⟨data, hdecompressed, hreceived⟩ := succeed_bind_eq_ok h
    have hroom := of_decide_eq_true hroom
    have hoffset := of_decide_eq_true hoffset
    rw [read?_rest hoffset] at hwirePayload
    obtain rfl := Option.some.inj hwirePayload
    rw [Buffer.read?, if_pos (by omega), List.drop_zero] at hwire
    obtain rfl := Option.some.inj hwire
    -- the two tests on system and data messages say one thing
    have hchannel : PacketChannelType.ofU8 header.channelId =
        PacketChannelType.ofType header.type := by
      unfold PacketChannelType.ofType
      cases htype : isSystemMessage header.type with
      | false => simpa [htype] using hdata
      | true => simpa [htype] using hsystem
    have hsize (hcompressed : header.flags.isCompressed = true) :
        compressedSize.toNat = inBuffer.length - offset := by
      simpa [hcompressed] using hsize
    refine ⟨⟨header, sequenceNumber, acknowledgementNumber, payloadHeader, compressedSize,
      originalSize, checksum, offset, opened, data⟩, ?_, (Except.ok.inj hreceived).symm⟩
    exact
      { room := hroom
        read := hread
        valid := hvalid
        headerChecksum := eq_of_beq hheaderChecksum
        channel := hchannel
        reliable := hreliable
        payload := hpayload
        offset_le := hoffset
        size := hsize
        checksum := eq_of_beq hchecksum
        decrypted := hopened
        decompressed := hdecompressed }
  · rintro ⟨d, h, rfl⟩
    -- back: with these facts every test passes
    have hwire : Buffer.read? inBuffer 0 kPacketHeaderWireSize =
        some (inBuffer.take kPacketHeaderWireSize) := by
      have hroom := h.room
      rw [Buffer.read?, if_pos (by omega), List.drop_zero]
    have hsystem : (!(isSystemMessage d.header.type &&
        PacketChannelType.ofU8 d.header.channelId != .control)) = true := by
      rw [h.channel, PacketChannelType.ofType]
      cases isSystemMessage d.header.type <;> rfl
    have hdata : (!(!isSystemMessage d.header.type &&
        PacketChannelType.ofU8 d.header.channelId != .data)) = true := by
      rw [h.channel, PacketChannelType.ofType]
      cases isSystemMessage d.header.type <;> rfl
    have hsize : (!(d.header.flags.isCompressed &&
        d.compressedSize.toNat != inBuffer.length - d.offset)) = true := by
      cases hcompressed : d.header.flags.isCompressed with
      | false => rfl
      | true => simp [h.size hcompressed]
    unfold unpackPacket
    rw [require_true (decide_eq_true h.room), h.read]
    simp only [ok_bind, access_some]
    rw [require_true h.valid, hwire]
    simp only [ok_bind, access_some]
    rw [← h.headerChecksum, require_true (beq_self_eq_true _), require_true hsystem,
      require_true hdata, h.reliable]
    simp only [ok_bind, h.payload]
    rw [require_true (decide_eq_true h.offset_le), require_true hsize, read?_rest h.offset_le]
    simp only [ok_bind, access_some]
    rw [h.checksum, require_true (beq_self_eq_true _), h.decrypted, succeed_some]
    simp only [ok_bind]
    rw [h.decompressed, succeed_some]
    rfl

/-- The header of an accepted packet: it passes the validation, and its channel is the one
its type travels on. -/
theorem unpackPacket_header {lz4 : Lz4} {gcm : AesGcm K} {crypto : Option K} {inBuffer : Bytes}
    {out received : IncomingPacket}
    (h : unpackPacket lz4 gcm crypto inBuffer out = .ok received) :
    ∃ header, readPacketHeader inBuffer = some header ∧
      validatePacketHeader header inBuffer.length = true ∧
      PacketChannelType.ofU8 header.channelId = PacketChannelType.ofType header.type := by
  obtain ⟨d, haccepts, -⟩ := unpackPacket_eq_ok_iff.mp h
  exact ⟨d.header, haccepts.read, haccepts.valid, haccepts.channel⟩

end ZetaNet
