import ZetaNet.Wire.Le

/-!
# Integers and enumerations as scalars of the wire

What `PacketWriter::Put` and `PacketReader::Read` do with a scalar type: they go over from the
type to the unsigned type of its size, whose bytes are on the wire. The `if constexpr` of both
tells four sizes apart.
-/

namespace ZetaNet

open Wire

/-- A sum of words that is still a word. -/
theorem Wire.toNat_add_ofNat {word : UInt64} {n : Nat} (h : word.toNat + n < 2 ^ 64) :
    (word + UInt64.ofNat n).toNat = word.toNat + n := by
  rw [UInt64.toNat_add, UInt64.toNat_ofNat', Nat.mod_eq_of_lt (a := n) (by omega),
    Nat.mod_eq_of_lt h]

/-- `sizeof` of a scalar type. -/
inductive WireWidth
  | one
  | two
  | four
  | eight
  deriving DecidableEq, Repr

namespace WireWidth

/-- `UnsignedRawT`. -/
def UnsignedRaw : WireWidth → Type
  | one => UInt8
  | two => UInt16
  | four => UInt32
  | eight => UInt64

def sizeOf : WireWidth → Nat
  | one => 1
  | two => 2
  | four => 4
  | eight => 8

/-- The bytes that `Put` stores for the raw bits. -/
def encode : (width : WireWidth) → width.UnsignedRaw → Bytes
  | one, bits => [bits]
  | two, bits => leU16 bits
  | four, bits => leU32 bits
  | eight, bits => leU64 bits

/-- The raw bits that `Read` loads. -/
def load : (width : WireWidth) → Bytes → Nat → Option width.UnsignedRaw
  | one, buffer, off => loadU8 buffer off
  | two, buffer, off => loadU16 buffer off
  | four, buffer, off => loadU32 buffer off
  | eight, buffer, off => loadU64 buffer off

@[simp] theorem length_encode (width : WireWidth) (bits : width.UnsignedRaw) :
    (width.encode bits).length = width.sizeOf := by
  cases width with
  | one => rfl
  | two => exact length_leU16 bits
  | four => exact length_leU32 bits
  | eight => exact length_leU64 bits

theorem sizeOf_le (width : WireWidth) : width.sizeOf ≤ 8 := by
  cases width <;> decide

theorem load_field (width : WireWidth) (front back : Bytes) (bits : width.UnsignedRaw) :
    width.load (front ++ (width.encode bits ++ back)) front.length = some bits := by
  cases width with
  | one => exact loadU8_field front back bits rfl
  | two => exact loadU16_field front back bits rfl
  | four => exact loadU32_field front back bits rfl
  | eight => exact loadU64_field front back bits rfl

end WireWidth

/-- A type that `Put` and `Read` take: its size and the two `memcpy`s between its values and
the raw bits. -/
class WireScalar (T : Type) where
  width : WireWidth
  toBits : T → width.UnsignedRaw
  ofBits : width.UnsignedRaw → T
  ofBits_toBits : ∀ value, ofBits (toBits value) = value

namespace WireScalar

instance : WireScalar UInt8 := ⟨.one, id, id, fun _ => rfl⟩
instance : WireScalar UInt16 := ⟨.two, id, id, fun _ => rfl⟩
instance : WireScalar UInt32 := ⟨.four, id, id, fun _ => rfl⟩
instance : WireScalar UInt64 := ⟨.eight, id, id, fun _ => rfl⟩

instance : WireScalar Int8 := ⟨.one, Int8.toUInt8, UInt8.toInt8, Int8.toInt8_toUInt8⟩
instance : WireScalar Int16 := ⟨.two, Int16.toUInt16, UInt16.toInt16, Int16.toInt16_toUInt16⟩
instance : WireScalar Int32 := ⟨.four, Int32.toUInt32, UInt32.toInt32, Int32.toInt32_toUInt32⟩
instance : WireScalar Int64 := ⟨.eight, Int64.toUInt64, UInt64.toInt64, Int64.toInt64_toUInt64⟩

/-- An enumeration goes through its underlying type (`WireRawType`). The cast back is only
determined on the values of the enumeration. -/
@[reducible]
def ofEnum {T : Type} (RawT : Type) [raw : WireScalar RawT] (toRaw : T → RawT)
    (ofRaw : RawT → T) (ofRaw_toRaw : ∀ value, ofRaw (toRaw value) = value) : WireScalar T where
  width := raw.width
  toBits value := raw.toBits (toRaw value)
  ofBits bits := ofRaw (raw.ofBits bits)
  ofBits_toBits value := by rw [raw.ofBits_toBits, ofRaw_toRaw]

variable {T : Type} [WireScalar T]

/-- The wire form of a scalar. -/
def encode (value : T) : Bytes := (width T).encode (toBits value)

theorem length_encode (value : T) : (encode value).length = (width T).sizeOf :=
  WireWidth.length_encode _ _

theorem load_encode (front back : Bytes) (value : T) :
    (width T).load (front ++ (encode value ++ back)) front.length = some (toBits value) :=
  WireWidth.load_field _ front back _

end WireScalar
end ZetaNet
