import ZetaNet.Lib.Faults
import ZetaNet.Lib.Formats
import ZetaNet.Wire.Scalars
import ZetaNet.Wire.SystemCommand

/-!
# `PacketReader` access by access

The reads of `z_system_command.h` once more, with each access apart from the test before it: a
read that returns `false` exits, and a load outside the buffer is a fault. First with the
positions as numbers, then over machine words, with the size that the caller gives and with
sums that may wrap.
-/

namespace ZetaNet

open Wire Checks Formats

/-! ## Positions as numbers -/

namespace PacketReader

variable {ε : Type}

/-- `ReadS`, and what the caller does when it returns `false`. -/
def readSOrExit (reader : PacketReader) (size : Nat) (error : ε) :
    Except (Stop ε) (Bytes × PacketReader) := do
  require (reader.offset + size ≤ reader.buffer.length) (.exit error)
  let bytes ← fetch (Buffer.read? reader.buffer reader.offset size)
  return (bytes, { reader with offset := reader.offset + size })

/-- `ReadList`, which steps over the count before it tests for the bytes. -/
def readListOrExit (reader : PacketReader) (error : ε) :
    Except (Stop ε) (Bytes × PacketReader) := do
  require (reader.offset + 2 ≤ reader.buffer.length) (.exit error)
  let size ← fetch (loadU16 reader.buffer reader.offset)
  let reader := { reader with offset := reader.offset + 2 }
  require (reader.offset + size.toNat ≤ reader.buffer.length) (.exit error)
  reader.readSOrExit size.toNat error

/-- Behind its test the access of `ReadS` is inside the buffer. -/
theorem readSOrExit_eq (reader : PacketReader) (size : Nat) (error : ε) :
    reader.readSOrExit size error = safely (succeed (reader.readS size) error) := by
  rw [safely_succeed]
  unfold readSOrExit readS
  by_cases hroom : reader.offset + size ≤ reader.buffer.length
  · obtain ⟨bytes, hbytes⟩ := Option.isSome_iff_exists.mp (isSome_read? hroom)
    rw [require_true (decide_eq_true hroom), ok_bind, hbytes, fetch_some, ok_bind,
      if_neg (Nat.not_lt.mpr hroom)]
    rfl
  · rw [require, if_neg (by simpa using hroom), error_bind, if_pos (Nat.lt_of_not_le hroom),
      succeed_none]

theorem readListOrExit_eq (reader : PacketReader) (error : ε) :
    reader.readListOrExit error = safely (succeed reader.readList error) := by
  rw [safely_succeed]
  unfold readListOrExit readList
  by_cases hroom : reader.offset + 2 ≤ reader.buffer.length
  · obtain ⟨size, hsize⟩ := Option.isSome_iff_exists.mp (isSome_loadU16 hroom)
    rw [require_true (decide_eq_true hroom), ok_bind, hsize, fetch_some, ok_bind,
      if_neg (Nat.not_lt.mpr hroom)]
    by_cases hinside : reader.offset + 2 + size.toNat ≤ reader.buffer.length
    · simp only [require_true (decide_eq_true hinside), ok_bind, readSOrExit_eq,
        safely_succeed, if_neg (Nat.not_lt.mpr hinside)]
    · simp only [require, decide_eq_true_eq, if_neg hinside, error_bind,
        if_pos (Nat.lt_of_not_le hinside), succeed_none]
  · rw [require, if_neg (by simpa using hroom), error_bind, if_pos (Nat.lt_of_not_le hroom),
      succeed_none]

/-- `Read` of a struct of `size` bytes. -/
def readStructOrExit {α : Type} (reader : PacketReader) (size : Nat)
    (decode : Bytes → Option α) (error : ε) : Except (Stop ε) (α × PacketReader) := do
  let (bytes, reader) ← reader.readSOrExit size error
  let value ← fetch (decode bytes)
  return (value, reader)

theorem length_of_readS {reader next : PacketReader} {size : Nat} {bytes : Bytes}
    (h : reader.readS size = some (bytes, next)) : bytes.length = size := by
  unfold readS at h
  split at h
  · cases h
  · obtain ⟨found, hread, heq⟩ := Option.map_eq_some_iff.mp h
    rw [← (Prod.mk.inj heq).1]
    exact Buffer.length_of_read? hread

/-- A struct that has a value for every run of its size. -/
theorem readStructOrExit_eq {α : Type} {size : Nat} {decode : Bytes → Option α}
    (hdecode : ∀ bytes : Bytes, bytes.length = size → (decode bytes).isSome)
    (reader : PacketReader) (error : ε) :
    reader.readStructOrExit size decode error =
      safely (succeed ((reader.readS size).bind fun (bytes, next) =>
        (decode bytes).map fun value => (value, next)) error) := by
  rw [readStructOrExit, readSOrExit_eq]
  cases hread : reader.readS size with
  | none => rfl
  | some found =>
      obtain ⟨bytes, next⟩ := found
      obtain ⟨value, hvalue⟩ := Option.isSome_iff_exists.mp
        (hdecode bytes (length_of_readS hread))
      simp only [succeed_some, safely_ok, ok_bind, hvalue, fetch_some, Option.bind_some,
        Option.map_some]
      rfl

end PacketReader

/-! ## Positions as machine words -/

/-- `class PacketReader`: what is behind the pointer, and the size the caller passed with it. -/
structure SpanReader where
  buffer : Bytes
  capacity : UInt64
  offset : UInt64
  deriving DecidableEq, Repr

namespace SpanReader

/-- `PacketReader(buffer, size)` on the bytes of a span. -/
def ofBytes (bytes : Bytes) : SpanReader :=
  { buffer := bytes, capacity := UInt64.ofNat bytes.length, offset := 0 }

/-- `offset_ + size <= capacity_`. -/
def hasRoom (reader : SpanReader) (size : Nat) : Bool :=
  reader.offset + UInt64.ofNat size ≤ reader.capacity

/-- `offset_ += size`. -/
def advance (reader : SpanReader) (size : Nat) : SpanReader :=
  { reader with offset := reader.offset + UInt64.ofNat size }

/-- `Read` of a scalar. -/
def read (T : Type) [WireScalar T] (reader : SpanReader) :
    Except (Stop Unit) (T × SpanReader) := do
  require (reader.hasRoom (WireScalar.width T).sizeOf) (.exit ())
  let bits ← fetch ((WireScalar.width T).load reader.buffer reader.offset.toNat)
  return (WireScalar.ofBits bits, reader.advance (WireScalar.width T).sizeOf)

/-- `ReadS` into a vector of `size` bytes. -/
def readS (reader : SpanReader) (size : Nat) : Except (Stop Unit) (Bytes × SpanReader) := do
  require (reader.hasRoom size) (.exit ())
  let bytes ← fetch (Buffer.read? reader.buffer reader.offset.toNat size)
  return (bytes, reader.advance size)

/-- `ReadList`, which has stepped over the count when it tests for the bytes. -/
def readList (reader : SpanReader) : Except (Stop Unit) (Bytes × SpanReader) := do
  require (reader.hasRoom 2) (.exit ())
  let size ← fetch (loadU16 reader.buffer reader.offset.toNat)
  let reader := reader.advance 2
  require (reader.hasRoom size.toNat) (.exit ())
  reader.readS size.toNat

/-- `position()`. -/
def position (reader : SpanReader) : UInt64 := reader.offset

/-- The reader stands behind `front` of a buffer below 2^62 bytes, with `back` still to come. -/
structure At (reader : SpanReader) (front back : Bytes) : Prop where
  buffer_eq : reader.buffer = front ++ back
  offset_eq : reader.offset.toNat = front.length
  capacity_eq : reader.capacity.toNat = reader.buffer.length
  below : reader.buffer.length < 2 ^ 62

theorem at_ofBytes {bytes : Bytes} (h : bytes.length < 2 ^ 62) : (ofBytes bytes).At [] bytes where
  buffer_eq := rfl
  offset_eq := rfl
  capacity_eq := by
    have hword : bytes.length < 2 ^ 64 := h.trans (by decide)
    exact (UInt64.toNat_ofNat' ..).trans (Nat.mod_eq_of_lt hword)
  below := h

variable {reader : SpanReader} {front field back part : Bytes} {size : Nat}

theorem hasRoom_eq (h : reader.offset.toNat + size < 2 ^ 64) :
    reader.hasRoom size = decide (reader.offset.toNat + size ≤ reader.capacity.toNat) := by
  rw [hasRoom, decide_eq_decide, UInt64.le_iff_toNat_le, toNat_add_ofNat h]

namespace At

theorem length_eq (h : reader.At front back) :
    reader.capacity.toNat = reader.offset.toNat + back.length := by
  rw [h.capacity_eq, h.buffer_eq, h.offset_eq, List.length_append]

theorem capacity_lt (h : reader.At front back) : reader.capacity.toNat < 2 ^ 62 :=
  lt_of_eq_of_lt h.capacity_eq h.below

theorem hasRoom (h : reader.At front (field ++ back)) : reader.hasRoom field.length = true := by
  have hlength := h.length_eq
  have hbelow := h.capacity_lt
  rw [List.length_append] at hlength
  rw [hasRoom_eq (by omega), decide_eq_true_eq]
  omega

theorem noRoom (h : reader.At front part) (hshort : part.length < size)
    (hsize : size ≤ 2 ^ 62) : reader.hasRoom size = false := by
  have hlength := h.length_eq
  have hbelow := h.capacity_lt
  rw [hasRoom_eq (by omega), decide_eq_false_iff_not]
  omega

theorem advance (h : reader.At front (field ++ back)) :
    (reader.advance field.length).At (front ++ field) back where
  buffer_eq := h.buffer_eq.trans (List.append_assoc ..).symm
  offset_eq := by
    have hlength := h.length_eq
    have hbelow := h.capacity_lt
    rw [List.length_append] at hlength
    rw [List.length_append, ← h.offset_eq]
    exact toNat_add_ofNat (by omega)
  capacity_eq := h.capacity_eq
  below := h.below

/-- Nothing is left to come at the end of the buffer. -/
theorem position_eq (h : reader.At front []) : reader.position.toNat = front.length :=
  h.offset_eq

/-! ### Reading what comes next -/

variable {T : Type} [WireScalar T]

theorem read_eq {value : T} (h : reader.At front (WireScalar.encode value ++ back)) :
    ∃ next, reader.read T = .ok (value, next) ∧
      next.At (front ++ WireScalar.encode value) back := by
  have hload : (WireScalar.width T).load reader.buffer reader.offset.toNat =
      some (WireScalar.toBits value) := by
    rw [h.buffer_eq, h.offset_eq]
    exact WireScalar.load_encode front back value
  refine ⟨_, ?_, h.advance⟩
  have hroom := h.hasRoom
  rw [WireScalar.length_encode] at hroom ⊢
  rw [SpanReader.read, require_true hroom, ok_bind, hload, fetch_some, ok_bind,
    WireScalar.ofBits_toBits]
  rfl

theorem readS_eq (h : reader.At front (field ++ back)) :
    ∃ next, reader.readS field.length = .ok (field, next) ∧ next.At (front ++ field) back := by
  have hread : Buffer.read? reader.buffer reader.offset.toNat field.length = some field := by
    rw [h.buffer_eq, h.offset_eq]
    exact Buffer.read?_field rfl rfl
  refine ⟨_, ?_, h.advance⟩
  rw [SpanReader.readS, require_true h.hasRoom, ok_bind, hread, fetch_some, ok_bind]
  rfl

/-- `ReadList` behind the count. -/
theorem readList_counted {count : Nat} (hcount : count ≤ 65535)
    (h : reader.At front (leU16 (UInt16.ofNat count) ++ back)) :
    reader.readList = (do
      require ((reader.advance 2).hasRoom count) (.exit ())
      (reader.advance 2).readS count) := by
  have hload : loadU16 reader.buffer reader.offset.toNat = some (UInt16.ofNat count) := by
    rw [h.buffer_eq, h.offset_eq]
    exact loadU16_field front back _ rfl
  have hword : (UInt16.ofNat count).toNat = count := by
    rw [UInt16.toNat_ofNat']
    exact Nat.mod_eq_of_lt (by omega)
  have hroom := h.hasRoom
  rw [length_leU16] at hroom
  rw [readList, require_true hroom, ok_bind, hload, fetch_some, ok_bind, hword]

theorem readList_eq (hlist : field.length ≤ 65535)
    (h : reader.At front (PacketWriter.listBytes field ++ back)) :
    ∃ next, reader.readList = .ok (field, next) ∧
      next.At (front ++ PacketWriter.listBytes field) back := by
  rw [PacketWriter.listBytes, List.append_assoc] at h
  have hbehind := h.advance
  rw [length_leU16] at hbehind
  obtain ⟨next, hread, hnext⟩ := hbehind.readS_eq
  refine ⟨next, ?_, ?_⟩
  · rw [h.readList_counted hlist, require_true hbehind.hasRoom, ok_bind, hread]
  · rw [PacketWriter.listBytes, ← List.append_assoc]
    exact hnext

/-! ### Reading what is not all there -/

theorem read_cutOff (h : reader.At front part)
    (hshort : part.length < (WireScalar.width T).sizeOf) : reader.read T = .error (.exit ()) := by
  have hsize := (WireScalar.width T).sizeOf_le
  rw [SpanReader.read, h.noRoom hshort (by omega)]
  rfl

theorem readS_cutOff (h : reader.At front part) (hshort : part.length < size)
    (hsize : size ≤ 2 ^ 62) : reader.readS size = .error (.exit ()) := by
  rw [SpanReader.readS, h.noRoom hshort hsize]
  rfl

theorem readList_cutOff (h : reader.At front part) (hlist : field.length ≤ 65535)
    (hcut : CutOff part (PacketWriter.listBytes field)) :
    reader.readList = .error (.exit ()) := by
  obtain hinside | ⟨rest, hbehind, rfl⟩ := hcut.append_cases
  · -- the count itself is cut off
    have hshort := hinside.length_lt
    rw [length_leU16] at hshort
    rw [readList, h.noRoom hshort (by decide)]
    rfl
  · -- the count is there and promises more than there is
    have hrest := h.advance
    rw [length_leU16] at hrest
    rw [h.readList_counted hlist, hrest.noRoom hbehind.length_lt (by omega)]
    rfl

end At

/-! ## From words to numbers -/

/-- The same place in the same buffer. -/
def packetReader (reader : SpanReader) : PacketReader :=
  { buffer := reader.buffer, offset := reader.offset.toNat }

@[simp] theorem packetReader_buffer (reader : SpanReader) :
    reader.packetReader.buffer = reader.buffer := rfl

@[simp] theorem packetReader_offset (reader : SpanReader) :
    reader.packetReader.offset = reader.offset.toNat := rfl

@[simp] theorem buffer_advance (reader : SpanReader) (size : Nat) :
    (reader.advance size).buffer = reader.buffer := rfl

theorem packetReader_advance (h : reader.offset.toNat + size < 2 ^ 64) :
    (reader.advance size).packetReader =
      { buffer := reader.buffer, offset := reader.offset.toNat + size } :=
  congrArg (PacketReader.mk reader.buffer) (toNat_add_ofNat h)

/-- While no sum wraps, `ReadS` over words is `ReadS` over numbers. -/
theorem readS_packetReader (hspan : reader.capacity.toNat = reader.buffer.length)
    (hword : reader.offset.toNat + size < 2 ^ 64) :
    (reader.readS size).map (Prod.map id packetReader) =
      reader.packetReader.readSOrExit size () := by
  rw [readS, PacketReader.readSOrExit, hasRoom_eq hword, hspan, packetReader_buffer,
    packetReader_offset, ← packetReader_advance hword]
  cases decide (reader.offset.toNat + size ≤ reader.buffer.length) with
  | false => rfl
  | true => cases Buffer.read? reader.buffer reader.offset.toNat size <;> rfl

/-- While no sum wraps, `ReadList` over words is `ReadList` over numbers. -/
theorem readList_packetReader (hspan : reader.capacity.toNat = reader.buffer.length)
    (hword : reader.offset.toNat + 65537 < 2 ^ 64) :
    reader.readList.map (Prod.map id packetReader) = reader.packetReader.readListOrExit () := by
  have hcounted : reader.offset.toNat + 2 < 2 ^ 64 := by omega
  have hbehind : (reader.advance 2).offset.toNat = reader.offset.toNat + 2 :=
    toNat_add_ofNat hcounted
  have hrest : (reader.advance 2).capacity.toNat = reader.buffer.length := hspan
  rw [readList, PacketReader.readListOrExit, hasRoom_eq hcounted, hspan, packetReader_buffer,
    packetReader_offset, ← packetReader_advance hcounted]
  cases decide (reader.offset.toNat + 2 ≤ reader.buffer.length) with
  | false => rfl
  | true =>
      cases loadU16 reader.buffer reader.offset.toNat with
      | none => rfl
      | some count =>
          have hbytes : (reader.advance 2).offset.toNat + count.toNat < 2 ^ 64 := by
            have hcount := count.toNat_lt
            omega
          -- behind the count both read on from the same place
          simp only [require_true, fetch_some, ok_bind, hasRoom_eq hbytes, hbehind, hrest,
            ← readS_packetReader hrest hbytes, packetReader_buffer, packetReader_offset,
            buffer_advance]
          cases decide (reader.offset.toNat + 2 + count.toNat ≤ reader.buffer.length) with
          | false => rfl
          | true => rfl

end SpanReader
end ZetaNet
