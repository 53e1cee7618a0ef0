import ZetaNet.Packet.Payload
import ZetaNet.Wire.Checksum

/-!
# `PacketBuilder`

`BuildPacket` and `FillPacketHeader` of `z_packet_serdes.cc` with
`EncryptPayloadIfNeeded` of `z_packet_serdes.h`, store by store.
-/

namespace ZetaNet

open Wire

/-! ## Field offsets -/

def kHeaderMagicOffset : Nat := 0
def kHeaderChecksumOffset : Nat := 2
def kHeaderTotalSizeOffset : Nat := 4
def kHeaderVersionOffset : Nat := 8
def kHeaderFlagsOffset : Nat := 9
def kHeaderTypeOffset : Nat := 10
def kHeaderAlignmentOffset : Nat := 12
def kHeaderPaddingOffset : Nat := 14
def kHeaderChannelOffset : Nat := 15
def kHeaderTimestampOffset : Nat := 16
def kReliableSequenceOffset : Nat := 0
def kReliableAcknowledgementOffset : Nat := 4
def kCompressedSizeOffset : Nat := 0
def kCompressedOriginalSizeOffset : Nat := 4
def kCompressedChecksumOffset : Nat := 8
def kCompressedFlagsOffset : Nat := 12
def kUncompressedChecksumOffset : Nat := 0

/-- `kTimeshift`. -/
def kTimeshift : UInt64 := 1701290985

/-- `std::numeric_limits<u32>::max()`. -/
def kMaxU32 : Nat := 4294967295

/-! ## Flags and AAD -/

/-- `PackHeaderFlags`. -/
def packHeaderFlags (reliable encrypted compressed : Bool) (priority : PacketPriority) : UInt8 :=
  let bit (b : Bool) : UInt8 := if b then 1 else 0
  bit reliable ||| (bit encrypted <<< 1) ||| (bit compressed <<< 2) |||
    ((priority.toU8 &&& 3) <<< 4)

/-- The twelve bytes of associated data that both sides assemble on their own. The flag
byte is written here as the two sides write it, bit by bit. -/
def aadBytes (type : UInt16) (channel : UInt8) (reliable encrypted compressed : Bool)
    (priority : UInt8) (sequence acknowledgement : UInt32) : Bytes :=
  let mask (b : Bool) (value : UInt8) : UInt8 := if b then value else 0
  let flags :=
    mask reliable 1 ||| mask encrypted 2 ||| mask compressed 4 |||
      ((priority &&& 3) <<< 4)
  let aad := List.replicate 12 0
  let aad := storeU16 aad 0 type
  let aad := storeU8 aad 2 channel
  let aad := storeU8 aad 3 flags
  let aad := storeU32 aad 4 sequence
  storeU32 aad 8 acknowledgement

/-! ## The builder -/

/-- What `BuildPacket` takes from its surroundings: the clock and the random nonce. -/
structure BuildEnv where
  /-- `base::GetUnixTimeStamp()` -/
  unixTime : UInt64
  /-- the result of `RandomBytes`, if it succeeds -/
  nonce : Option Nonce

/-- `static_cast<u32>(packet_info.payload.scalar)` for an acknowledgement, 0 otherwise. -/
def acknowledgementField (packet : OutgoingPacket) : UInt32 :=
  if packet.type = PacketType.acknowledgement then packet.scalar.toUInt32 else 0

/-- The compression stage: the payload to go on with, and the packet, whose own flag is
cleared when compression fails or does not help. -/
def compressPayload (lz4 : Lz4) (packet : OutgoingPacket) : OutgoingPacket × Bytes :=
  let uncompressed := { packet with flags := { packet.flags with compressed := false } }
  if packet.flags.compressed = true ∧ packet.heapDataSize > 0 then
    match ZCompressionContext.compress lz4 packet.heapData with
    | none => (uncompressed, packet.heapData)
    | some compressed =>
        if compressed.length ≥ packet.heapData.length then (uncompressed, packet.heapData)
        else (packet, compressed)
  else (packet, packet.heapData)

variable {K : Type}

/-- `EncryptPayloadIfNeeded`; `none` is the return value `false`. -/
def encryptPayloadIfNeeded (gcm : AesGcm K) (crypto : Option K) (nonce : Option Nonce)
    (packet : OutgoingPacket) (nextSequenceNumber : UInt32) (payload : Bytes) : Option Bytes :=
  if packet.flags.encrypted = false then some payload
  else
    match crypto with
    | none => none
    | some key =>
        let sequence := if packet.flags.reliable then nextSequenceNumber else 0
        let acknowledgement :=
          if packet.flags.reliable then acknowledgementField packet else 0
        encryptPayload gcm key nonce payload
          (aadBytes packet.type packet.channel.toU8 packet.flags.reliable packet.flags.encrypted
            packet.flags.compressed packet.flags.priority.toU8 sequence acknowledgement)

/-- `size_of_headers`. -/
def sizeOfHeaders (flags : PackageFlags) : Nat :=
  kPacketHeaderWireSize + (if flags.reliable then kReliableHeaderWireSize else 0) +
    (if flags.compressed then kCompressedHeaderWireSize else kUncompressedHeaderWireSize)

/-- `FillPacketHeader`, the twenty bytes of the base header. -/
def fillBaseHeader (out : Bytes) (totalSize : UInt32) (packet : OutgoingPacket)
    (unixTime : UInt64) : Bytes :=
  let out := storeU16 out kHeaderMagicOffset kMagic
  let out := storeU16 out kHeaderChecksumOffset 0
  let out := storeU32 out kHeaderTotalSizeOffset totalSize
  let out := storeU8 out kHeaderVersionOffset kProtocolVersion
  let out := storeU8 out kHeaderFlagsOffset
    (packHeaderFlags packet.flags.reliable packet.flags.encrypted packet.flags.compressed
      packet.flags.priority)
  let out := storeU16 out kHeaderTypeOffset packet.type
  let out := storeU16 out kHeaderAlignmentOffset 0
  let out := storeU8 out kHeaderPaddingOffset 0
  let out := storeU8 out kHeaderChannelOffset packet.channel.toU8
  storeU32 out kHeaderTimestampOffset (unixTime - kTimeshift).toUInt32

/-- `FillPacketHeader`, the reliable header at `base`. -/
def fillReliableHeader (out : Bytes) (base : Nat) (packet : OutgoingPacket)
    (nextSequenceNumber : UInt32) : Bytes :=
  let out := storeU32 out (base + kReliableSequenceOffset) nextSequenceNumber
  storeU32 out (base + kReliableAcknowledgementOffset) (acknowledgementField packet)

/-- `FillPacketHeader`, the payload header at `base`. -/
def fillPayloadHeader (out : Bytes) (base : Nat) (compressed : Bool)
    (payloadSize originalPayloadSize : UInt32) : Bytes :=
  if compressed then
    let out := storeU32 out (base + kCompressedSizeOffset) payloadSize
    let out := storeU32 out (base + kCompressedOriginalSizeOffset) originalPayloadSize
    let out := storeU32 out (base + kCompressedChecksumOffset) 0
    let out := storeU8 out (base + kCompressedFlagsOffset) 1
    let out := storeU8 out (base + kCompressedFlagsOffset + 1) 0
    let out := storeU8 out (base + kCompressedFlagsOffset + 2) 0
    storeU8 out (base + kCompressedFlagsOffset + 3) 0
  else storeU32 out (base + kUncompressedChecksumOffset) 0

/-- `FillPacketHeader`: the stores into the zeroed packet buffer. -/
def fillPacketHeader (outgoingData : Bytes) (packet : OutgoingPacket)
    (payloadSize originalPayloadSize nextSequenceNumber : UInt32) (unixTime : UInt64) : Bytes :=
  let out := fillBaseHeader outgoingData (UInt32.ofNat outgoingData.length) packet unixTime
  let base := kPacketHeaderWireSize
  if packet.flags.reliable then
    let out := fillReliableHeader out base packet nextSequenceNumber
    fillPayloadHeader out (base + kReliableHeaderWireSize) packet.flags.compressed payloadSize
      originalPayloadSize
  else fillPayloadHeader out base packet.flags.compressed payloadSize originalPayloadSize

/-- `ComputePacketHeaderChecksum`: FNV-1a of the 20 header bytes with the checksum field
zeroed, cut to 16 bits. -/
def computePacketHeaderChecksum (headerWire : Bytes) : UInt16 :=
  let headerCopy := storeU16 (headerWire.take kPacketHeaderWireSize) kHeaderChecksumOffset 0
  (computeChecksum headerCopy &&& 0xFFFF).toUInt16

/-- The tail of `BuildPacket`: payload checksum, header checksum and the last size check. -/
def finalizePacket (flags : PackageFlags) (packet : Bytes) : Bytes :=
  if packet.length < kPacketHeaderWireSize then []
  else
    let offset := kPacketHeaderWireSize + (if flags.reliable then kReliableHeaderWireSize else 0)
    let payloadHeaderSize :=
      if flags.compressed then kCompressedHeaderWireSize else kUncompressedHeaderWireSize
    let checksumOffset :=
      if flags.compressed then kCompressedChecksumOffset else kUncompressedChecksumOffset
    if offset + payloadHeaderSize > packet.length then []
    else
      let payloadChecksum := computeChecksum (packet.drop (offset + payloadHeaderSize))
      let packet := storeU32 packet (offset + checksumOffset) payloadChecksum
      let headerChecksum := computePacketHeaderChecksum packet
      let packet := storeU16 packet kHeaderChecksumOffset headerChecksum
      if (loadU32 packet kHeaderTotalSizeOffset).map UInt32.toNat ≠ some packet.length then []
      else packet

/-- `BuildPacket`: the packet as the call leaves it and the datagram, empty on failure. -/
def buildPacket (lz4 : Lz4) (gcm : AesGcm K) (crypto : Option K) (env : BuildEnv)
    (packet : OutgoingPacket) (nextSequenceNumber : UInt32) : OutgoingPacket × Bytes :=
  if packet.heapDataSize > 0 ∧ packet.scalar = 0 then (packet, [])
  else
    let (packetInfo, compressed) := compressPayload lz4 packet
    match encryptPayloadIfNeeded gcm crypto env.nonce packetInfo nextSequenceNumber compressed with
    | none => (packetInfo, [])
    | some payload =>
        -- the source makes this test after encryption only; a plain payload fits by its type
        if payload.length > kMaxU32 then (packetInfo, [])
        else
          let headers := sizeOfHeaders packetInfo.flags
          if headers > kMaxU32 - payload.length then (packetInfo, [])
          else
            let buffer := List.replicate (headers + payload.length) 0
            let buffer := fillPacketHeader buffer packetInfo (UInt32.ofNat payload.length)
              packet.heapDataSize nextSequenceNumber env.unixTime
            let buffer := Buffer.store buffer headers payload
            (packetInfo, finalizePacket packetInfo.flags buffer)

end ZetaNet
