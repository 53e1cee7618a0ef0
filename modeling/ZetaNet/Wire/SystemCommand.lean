import ZetaNet.Wire.Le

/-!
# System commands

`PacketWriter`, `PacketReader` and the hello structs of `z_system_command.h`. A read
returns the value and the advanced reader, `none` for `false`.
-/

namespace ZetaNet

open Wire

/-! ## The writer -/

/-- `class PacketWriter`: the bytes up to `offset_` and the size of the allocation. -/
structure PacketWriter where
  data : Bytes
  capacity : Nat
  /-- an initial size of zero would make the doubling loop spin -/
  capacity_pos : 0 < capacity
  fits : data.length ≤ capacity

namespace PacketWriter

/-- `PacketWriter()`, with the default `initial_size`. -/
def empty : PacketWriter where
  data := []
  capacity := 1024
  capacity_pos := by decide
  fits := by decide

/-- `while (new_capacity < required) new_capacity *= 2`, which takes fewer than `required`
turns. -/
def grow (required : Nat) : Nat → Nat → Nat
  | 0, newCapacity => newCapacity
  | turns + 1, newCapacity =>
      if newCapacity < required then grow required turns (newCapacity * 2) else newCapacity

theorem le_grow (required turns newCapacity : Nat) :
    newCapacity ≤ grow required turns newCapacity := by
  induction turns generalizing newCapacity with
  | zero => exact le_rfl
  | succ turns ih =>
      unfold grow
      split
      · exact le_trans (by omega) (ih _)
      · exact le_rfl

theorem required_le_grow {required turns newCapacity : Nat} (hpos : 0 < newCapacity)
    (hturns : required ≤ newCapacity + turns) : required ≤ grow required turns newCapacity := by
  induction turns generalizing newCapacity with
  | zero => exact hturns
  | succ turns ih =>
      unfold grow
      split
      · exact ih (by omega) (by omega)
      · omega

/-- `EnsureCapacity`: the new allocation. -/
def ensureCapacity (writer : PacketWriter) (required : Nat) : Nat :=
  if required ≤ writer.capacity then writer.capacity
  else grow required required writer.capacity

theorem capacity_le_ensureCapacity (writer : PacketWriter) (required : Nat) :
    writer.capacity ≤ writer.ensureCapacity required := by
  unfold ensureCapacity
  split
  · exact le_rfl
  · exact le_grow ..

theorem required_le_ensureCapacity (writer : PacketWriter) (required : Nat) :
    required ≤ writer.ensureCapacity required := by
  unfold ensureCapacity
  split
  · assumption
  · exact required_le_grow writer.capacity_pos (by omega)

/-- `PutS`: make room, copy, advance. -/
def putS (writer : PacketWriter) (bytes : Bytes) : PacketWriter where
  data := writer.data ++ bytes
  capacity := writer.ensureCapacity (writer.data.length + bytes.length)
  capacity_pos := lt_of_lt_of_le writer.capacity_pos (writer.capacity_le_ensureCapacity _)
  fits := by
    rw [List.length_append]
    exact writer.required_le_ensureCapacity _

/-- `Put` of a byte-sized integer or enumeration, and of a struct of such. -/
def putU8 (writer : PacketWriter) (value : UInt8) : PacketWriter := writer.putS [value]
def putU16 (writer : PacketWriter) (value : UInt16) : PacketWriter := writer.putS (leU16 value)
def putStruct (writer : PacketWriter) (fields : Bytes) : PacketWriter := writer.putS fields

/-- `PutList`: a `u16` count and the bytes. The `false` for more than 65535 bytes leaves the
writer as it was. -/
def putList (writer : PacketWriter) (bytes : Bytes) : PacketWriter :=
  if bytes.length > 65535 then writer
  else (writer.putU16 (UInt16.ofNat bytes.length)).putS bytes

@[simp] theorem data_empty : empty.data = [] := rfl

@[simp] theorem data_putS (writer : PacketWriter) (bytes : Bytes) :
    (writer.putS bytes).data = writer.data ++ bytes := rfl

@[simp] theorem data_putU8 (writer : PacketWriter) (value : UInt8) :
    (writer.putU8 value).data = writer.data ++ [value] := rfl

@[simp] theorem data_putStruct (writer : PacketWriter) (fields : Bytes) :
    (writer.putStruct fields).data = writer.data ++ fields := rfl

/-- The wire form of a list of at most 65535 bytes. -/
def listBytes (bytes : Bytes) : Bytes := leU16 (UInt16.ofNat bytes.length) ++ bytes

theorem putList_long (writer : PacketWriter) {bytes : Bytes} (h : 65535 < bytes.length) :
    writer.putList bytes = writer := if_pos h

theorem data_putList (writer : PacketWriter) {bytes : Bytes} (h : bytes.length ≤ 65535) :
    (writer.putList bytes).data = writer.data ++ listBytes bytes := by
  rw [putList, if_neg (by omega), data_putS, putU16, data_putS, listBytes, List.append_assoc]

end PacketWriter

/-! ## The reader -/

/-- `class PacketReader`. -/
structure PacketReader where
  buffer : Bytes
  offset : Nat

namespace PacketReader

/-- `PacketReader(buffer, size)`. -/
def ofBytes (buffer : Bytes) : PacketReader := { buffer, offset := 0 }

/-- `Read` of a struct of `size` bytes, and `ReadS` into a vector of that length. -/
def readS (reader : PacketReader) (size : Nat) : Option (Bytes × PacketReader) :=
  if reader.offset + size > reader.buffer.length then none
  else
    (Buffer.read? reader.buffer reader.offset size).map fun bytes =>
      (bytes, { reader with offset := reader.offset + size })

/-- `ReadList`. -/
def readList (reader : PacketReader) : Option (Bytes × PacketReader) :=
  if reader.offset + 2 > reader.buffer.length then none
  else
    match loadU16 reader.buffer reader.offset with
    | none => none
    | some size =>
        let reader := { reader with offset := reader.offset + 2 }
        if reader.offset + size.toNat > reader.buffer.length then none
        else reader.readS size.toNat

/-- The reader stands behind `front`, with `back` still to come. -/
def At (reader : PacketReader) (front back : Bytes) : Prop :=
  reader.buffer = front ++ back ∧ reader.offset = front.length

theorem at_ofBytes (bytes : Bytes) : (ofBytes bytes).At [] bytes := ⟨rfl, rfl⟩

/-- A read of the next field's size takes that field. -/
theorem readS_at {reader : PacketReader} {front field back : Bytes} {size : Nat}
    (h : reader.At front (field ++ back)) (hsize : size = field.length) :
    ∃ next, reader.readS size = some (field, next) ∧ next.At (front ++ field) back := by
  obtain ⟨hbuffer, hoffset⟩ := h
  subst hsize
  have hroom : ¬ reader.offset + field.length > reader.buffer.length := by
    rw [hbuffer, hoffset]
    simp
  have hread : Buffer.read? reader.buffer reader.offset field.length = some field := by
    rw [hbuffer, hoffset]
    exact Buffer.read?_field rfl rfl
  refine ⟨{ reader with offset := reader.offset + field.length }, ?_, ?_, ?_⟩
  · rw [readS, if_neg hroom, hread, Option.map_some]
  · rw [hbuffer, List.append_assoc]
  · rw [hoffset, List.length_append]

/-- `ReadList` takes back what `PutList` wrote. -/
theorem readList_at {reader : PacketReader} {front bytes back : Bytes}
    (h : reader.At front (PacketWriter.listBytes bytes ++ back)) (hlen : bytes.length ≤ 65535) :
    ∃ next, reader.readList = some (bytes, next) ∧
      next.At (front ++ PacketWriter.listBytes bytes) back := by
  obtain ⟨hbuffer, hoffset⟩ := h
  have hcount : (UInt16.ofNat bytes.length).toNat = bytes.length := by
    rw [UInt16.toNat_ofNat']
    exact Nat.mod_eq_of_lt (by omega)
  rw [PacketWriter.listBytes, List.append_assoc] at hbuffer
  have hload : loadU16 reader.buffer reader.offset = some (UInt16.ofNat bytes.length) := by
    rw [hbuffer]
    exact loadU16_field _ _ _ hoffset
  have hroom : ¬ reader.offset + 2 > reader.buffer.length := by
    rw [hbuffer, hoffset]
    simp
    omega
  have hafter : ({ reader with offset := reader.offset + 2 } : PacketReader).At
      (front ++ leU16 (UInt16.ofNat bytes.length)) (bytes ++ back) :=
    ⟨by rw [hbuffer, List.append_assoc], by simp [hoffset]⟩
  obtain ⟨next, hread, hat⟩ := readS_at hafter rfl
  have hinside : ¬ reader.offset + 2 + bytes.length > reader.buffer.length := by
    rw [hbuffer, hoffset]
    simp
    omega
  refine ⟨next, ?_, ?_⟩
  · rw [readList, if_neg hroom, hload]
    simp only [hcount]
    rw [if_neg hinside, hread]
  · rw [PacketWriter.listBytes, ← List.append_assoc]
    exact hat

end PacketReader

/-! ## The hello structs -/

namespace SystemCommands

/-- `struct ClientHello`. -/
structure ClientHello where
  encryptionAlgoListLen : UInt8
  compressionAlgoListLen : UInt8
  pubKeyListLen : UInt8
  challengeLen : UInt8
  deriving DecidableEq, Repr

/-- `struct ServerHello`. -/
structure ServerHello where
  encryptionAlgoListLen : UInt8
  compressionAlgoListLen : UInt8
  pubKeyListLen : UInt8
  challengeLen : UInt8
  proofLen : UInt8
  deriving DecidableEq, Repr

/-- `struct ClientAuthProof`. -/
structure ClientAuthProof where
  proofLen : UInt8
  deriving DecidableEq, Repr

def ClientHello.bytes (hello : ClientHello) : Bytes :=
  [hello.encryptionAlgoListLen, hello.compressionAlgoListLen, hello.pubKeyListLen,
    hello.challengeLen]

def ServerHello.bytes (hello : ServerHello) : Bytes :=
  [hello.encryptionAlgoListLen, hello.compressionAlgoListLen, hello.pubKeyListLen,
    hello.challengeLen, hello.proofLen]

def ClientAuthProof.bytes (proof : ClientAuthProof) : Bytes := [proof.proofLen]

/-- `reader.Read(request)` for each struct. -/
def readClientHello (reader : PacketReader) : Option (ClientHello × PacketReader) :=
  match reader.readS 4 with
  | some ([a, b, c, d], next) => some (⟨a, b, c, d⟩, next)
  | _ => none

def readServerHello (reader : PacketReader) : Option (ServerHello × PacketReader) :=
  match reader.readS 5 with
  | some ([a, b, c, d, e], next) => some (⟨a, b, c, d, e⟩, next)
  | _ => none

def readClientAuthProof (reader : PacketReader) : Option (ClientAuthProof × PacketReader) :=
  match reader.readS 1 with
  | some ([a], next) => some (⟨a⟩, next)
  | _ => none

theorem readClientHello_at {reader : PacketReader} {front back : Bytes} (hello : ClientHello)
    (h : reader.At front (hello.bytes ++ back)) :
    ∃ next, readClientHello reader = some (hello, next) ∧
      next.At (front ++ hello.bytes) back := by
  have hsize : 4 = hello.bytes.length := rfl
  obtain ⟨next, hread, hat⟩ := PacketReader.readS_at h hsize
  refine ⟨next, ?_, hat⟩
  rw [readClientHello, hread]
  rfl

theorem readServerHello_at {reader : PacketReader} {front back : Bytes} (hello : ServerHello)
    (h : reader.At front (hello.bytes ++ back)) :
    ∃ next, readServerHello reader = some (hello, next) ∧
      next.At (front ++ hello.bytes) back := by
  have hsize : 5 = hello.bytes.length := rfl
  obtain ⟨next, hread, hat⟩ := PacketReader.readS_at h hsize
  refine ⟨next, ?_, hat⟩
  rw [readServerHello, hread]
  rfl

theorem readClientAuthProof_at {reader : PacketReader} {front back : Bytes}
    (proof : ClientAuthProof) (h : reader.At front (proof.bytes ++ back)) :
    ∃ next, readClientAuthProof reader = some (proof, next) ∧
      next.At (front ++ proof.bytes) back := by
  have hsize : 1 = proof.bytes.length := rfl
  obtain ⟨next, hread, hat⟩ := PacketReader.readS_at h hsize
  refine ⟨next, ?_, hat⟩
  rw [readClientAuthProof, hread]
  rfl

end SystemCommands
end ZetaNet
