import ZetaNet.Wire.Le

/-!
# Packets

The packet records of `z_packets.h` and the wire constants of
`z_packet_bin_fmt.h`. `PacketType` is an open enumeration (applications define
their own values from 101 on), so it stays a 16-bit word; the other enumerations
are closed.
-/

namespace ZetaNet

/-- `enum class PacketPriority`, which is also every value of the two priority bits. -/
inductive PacketPriority
  | low
  | medium
  | high
  | critical
  deriving DecidableEq, Repr

namespace PacketPriority

def toU8 : PacketPriority → UInt8
  | low => 0
  | medium => 1
  | high => 2
  | critical => 3

/-- The priority a two-bit field holds. -/
def ofU8 (bits : UInt8) : PacketPriority :=
  if bits &&& 3 = 0 then low
  else if bits &&& 3 = 1 then medium
  else if bits &&& 3 = 2 then high
  else critical

end PacketPriority

/-- `enum class PacketType : u16`. -/
abbrev PacketType := UInt16

namespace PacketType

def invalid : PacketType := 0
def acknowledgement : PacketType := 1
def clientHello : PacketType := 10
def serverHello : PacketType := 11
def networkControl : PacketType := 17
def clientAuthProof : PacketType := 18
def fileTransfer : PacketType := 19
def message : PacketType := 100

end PacketType

/-- `IsSystemMessage`. -/
def isSystemMessage (type : PacketType) : Bool := type < PacketType.message

/-- `enum class PacketChannelType`. -/
inductive PacketChannelType
  | control
  | data
  deriving DecidableEq, Repr

namespace PacketChannelType

def toU8 : PacketChannelType → UInt8
  | control => 0
  | data => 1

/-- `static_cast<PacketChannelType>` of a channel id that passed validation. -/
def ofU8 (id : UInt8) : PacketChannelType := if id = 0 then control else data

/-- The channel a packet type travels on. -/
def ofType (type : PacketType) : PacketChannelType :=
  if isSystemMessage type then control else data

@[simp] theorem ofU8_toU8 (channel : PacketChannelType) : ofU8 channel.toU8 = channel := by
  cases channel <;> rfl

end PacketChannelType

/-! ## Peer identifiers -/

namespace ZPeerId

def invalidId : UInt32 := 0xFFFFFFFF
/-- the biggest assignable id -/
def maxId : UInt32 := invalidId - 1
def toAll : UInt32 := maxId - 1
def toServer : UInt32 := maxId - 2

end ZPeerId

/-! ## Packet records -/

/-- `struct PackageFlags`; every field but the priority is one bit. -/
structure PackageFlags where
  reliable : Bool
  encrypted : Bool
  compressed : Bool
  priority : PacketPriority
  acknowledged : Bool := false
  awaitingAck : Bool := false
  reserved : Bool := false
  deriving DecidableEq, Repr

/-- `struct IncomingPacket`. -/
structure IncomingPacket where
  channel : PacketChannelType
  flags : PackageFlags
  type : PacketType
  sourcePeerId : UInt32
  acknowledgementNumber : UInt32
  sequenceNumber : UInt32
  data : Bytes
  deriving DecidableEq, Repr

/-- `class OutgoingPacket`. The payload union is its eight bytes read as
`payload.scalar`, with the heap block `payload.data` then points to beside it;
`heap_data_size` is the length of that block. -/
structure OutgoingPacket where
  channel : PacketChannelType
  flags : PackageFlags
  type : PacketType
  lastSendTime : UInt32
  destinationPeerId : UInt32
  scalar : UInt64
  heapData : Bytes
  /-- the block's length is a `u32` -/
  heap_lt : heapData.length < 2 ^ 32
  /-- a packet that owns a block points to it -/
  heap_ptr : heapData ≠ [] → scalar ≠ 0
  deriving DecidableEq

namespace OutgoingPacket

/-- The constructor with data: it copies the span into a fresh block and keeps its length as
a `u32`. The allocator's address is not null; which one it is does not matter. -/
def ofData (peerId : UInt32) (type : PacketType) (channel : PacketChannelType)
    (flags : PackageFlags) (data : Bytes) : OutgoingPacket where
  channel
  flags
  type
  lastSendTime := 0
  destinationPeerId := peerId
  scalar := if data.length % 2 ^ 32 > 0 then 1 else 0
  heapData := data.take (data.length % 2 ^ 32)
  heap_lt := by
    have hmod := Nat.mod_lt data.length (show 2 ^ 32 > 0 by norm_num)
    rw [List.length_take]
    omega
  heap_ptr := by
    intro hne
    have hpos : data.length % 2 ^ 32 > 0 := by
      by_contra h
      exact hne (by rw [Nat.eq_zero_of_not_pos h, List.take_zero])
    rw [if_pos hpos]
    decide

/-- The constructor without data. -/
def ofHeader (peerId : UInt32) (type : PacketType) (channel : PacketChannelType)
    (flags : PackageFlags) : OutgoingPacket where
  channel
  flags
  type
  lastSendTime := 0
  destinationPeerId := peerId
  scalar := 0
  heapData := []
  heap_lt := by decide
  heap_ptr := fun h => absurd rfl h

theorem heapData_ofData {peerId : UInt32} {type : PacketType} {channel : PacketChannelType}
    {flags : PackageFlags} {data : Bytes} (h : data.length < 2 ^ 32) :
    (ofData peerId type channel flags data).heapData = data := by
  simp only [ofData, Nat.mod_eq_of_lt h, List.take_length]

/-- `heap_data_size`. -/
def heapDataSize (packet : OutgoingPacket) : UInt32 := UInt32.ofNat packet.heapData.length

@[simp] theorem toNat_heapDataSize (packet : OutgoingPacket) :
    packet.heapDataSize.toNat = packet.heapData.length := by
  simp only [heapDataSize, UInt32.toNat_ofNat']
  exact Nat.mod_eq_of_lt packet.heap_lt

end OutgoingPacket

/-! ## Wire constants -/

/-- `kProtocolVersion`. -/
def kProtocolVersion : UInt8 := 1

/-- `PacketHeader::kMagic`. -/
def kMagic : UInt16 := 0x1337

/-- `sizeof(PacketHeader)`, `sizeof(ReliableHeader)`, `sizeof(UncompressedPayloadHeader)` and
`sizeof(CompressedPayloadHeader)`. -/
def kPacketHeaderWireSize : Nat := 20
def kReliableHeaderWireSize : Nat := 8
def kUncompressedHeaderWireSize : Nat := 4
def kCompressedHeaderWireSize : Nat := 16

end ZetaNet
