import ZetaNet.Lib.Mixing
import ZetaNet.Wire.Le

/-!
# The FNV-1a checksum

`ComputeChecksum32` of `z_packet_serdes.cc` and `UpdateChecksum` /
`ComputeChecksum` of `z_file_transporter.cc` are the same loop over the same two
constants.
-/

namespace ZetaNet

def kFnv1aOffset : UInt32 := 2166136261
def kFnv1aPrime : UInt32 := 16777619

/-- One turn of the loop: `hash ^= data[i]; hash *= kFnv1aPrime`. -/
def fnv1aStep (hash : UInt32) (b : UInt8) : UInt32 := (hash ^^^ b.toUInt32) * kFnv1aPrime

/-- `UpdateChecksum(data, size, seed)`. -/
def updateChecksum (data : Bytes) (seed : UInt32) : UInt32 := data.foldl fnv1aStep seed

/-- `ComputeChecksum(data, size)`, also called `ComputeChecksum32`. -/
def computeChecksum (data : Bytes) : UInt32 := updateChecksum data kFnv1aOffset

@[simp] theorem updateChecksum_nil (seed : UInt32) : updateChecksum [] seed = seed := rfl

/-- Checksumming block by block is checksumming the concatenation. -/
theorem updateChecksum_append (first second : Bytes) (seed : UInt32) :
    updateChecksum (first ++ second) seed =
      updateChecksum second (updateChecksum first seed) :=
  List.foldl_append

/-! ## No single byte is lost -/

/-- The prime is odd, hence invertible modulo `2 ^ 32`. -/
theorem mul_kFnv1aPrime_inj {a b : UInt32} (h : a * kFnv1aPrime = b * kFnv1aPrime) : a = b := by
  have hinv : kFnv1aPrime * 899433627 = 1 := by decide
  calc a = a * (kFnv1aPrime * 899433627) := by rw [hinv, UInt32.mul_one]
    _ = b * (kFnv1aPrime * 899433627) := by rw [← UInt32.mul_assoc, h, UInt32.mul_assoc]
    _ = b := by rw [hinv, UInt32.mul_one]

theorem mixing_fnv1aStep : Mixing fnv1aStep where
  state _ _ _ heq := (UInt32.xor_left_inj _).mp (mul_kFnv1aPrime_inj heq)
  input _ _ _ heq :=
    UInt8.toUInt32_inj.mp ((UInt32.xor_right_inj _).mp (mul_kFnv1aPrime_inj heq))

theorem computeChecksum_ne {i : Nat} {data data' : Bytes} (h : DiffersAt i data data') :
    computeChecksum data ≠ computeChecksum data' :=
  mixing_fnv1aStep.foldl_ne h _

/-- The loop on the lower half of the hash: no step needs the upper one. -/
def fnv1aStep16 (hash : UInt16) (b : UInt8) : UInt16 :=
  (hash ^^^ b.toUInt16) * kFnv1aPrime.toUInt16

theorem toUInt16_updateChecksum (data : Bytes) (seed : UInt32) :
    (updateChecksum data seed).toUInt16 = data.foldl fnv1aStep16 seed.toUInt16 := by
  unfold updateChecksum
  refine (List.foldl_hom UInt32.toUInt16 ?_).symm
  intro hash b
  simp [fnv1aStep, fnv1aStep16]

theorem mul_kFnv1aPrime16_inj {a b : UInt16}
    (h : a * kFnv1aPrime.toUInt16 = b * kFnv1aPrime.toUInt16) : a = b := by
  have hinv : kFnv1aPrime.toUInt16 * 17563 = 1 := by decide
  calc a = a * (kFnv1aPrime.toUInt16 * 17563) := by rw [hinv, UInt16.mul_one]
    _ = b * (kFnv1aPrime.toUInt16 * 17563) := by rw [← UInt16.mul_assoc, h, UInt16.mul_assoc]
    _ = b := by rw [hinv, UInt16.mul_one]

theorem mixing_fnv1aStep16 : Mixing fnv1aStep16 where
  state _ _ _ heq := (UInt16.xor_left_inj _).mp (mul_kFnv1aPrime16_inj heq)
  input _ _ _ heq :=
    UInt8.toUInt16_inj.mp ((UInt16.xor_right_inj _).mp (mul_kFnv1aPrime16_inj heq))

/-- Nor does the lower half of the checksum lose a byte. -/
theorem toUInt16_computeChecksum_ne {i : Nat} {data data' : Bytes}
    (h : DiffersAt i data data') :
    (computeChecksum data).toUInt16 ≠ (computeChecksum data').toUInt16 := by
  unfold computeChecksum
  rw [toUInt16_updateChecksum, toUInt16_updateChecksum]
  exact mixing_fnv1aStep16.foldl_ne h _

end ZetaNet
