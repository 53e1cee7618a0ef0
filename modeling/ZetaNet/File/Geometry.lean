import ZetaNet.File.Codec
import ZetaNet.Lib.Blocks
import Mathlib.Algebra.Order.Floor.Div
import Mathlib.Algebra.Order.Floor.Semiring

/-!
# The place of a parsed chunk in its file

`CalculateTotalChunks` adds the two sizes modulo 2^64. A sum that wraps gives no chunks at all,
so what the parser accepts is the ceiling of the quotient, and the chunks of a file tile it.
-/

namespace ZetaNet

open Blocks

theorem ceil_div_natCast {n size : ℕ} (hsize : 0 < size) :
    ⌈(n : ℚ) / size⌉₊ = (n + size - 1) / size := by
  refine eq_of_forall_ge_iff fun k => ?_
  have hpos : (0 : ℚ) < size := Nat.cast_pos.mpr hsize
  rw [Nat.ceil_le, div_le_iff₀ hpos, ← Nat.ceilDiv_eq_add_pred_div, ceilDiv_le_iff_le_mul hsize,
    Nat.mul_comm]
  exact_mod_cast Iff.rfl

/-- The sum of the two sizes wraps to less than a chunk. -/
theorem toNat_calculateTotalChunks_wrap {fileSize : UInt64} {chunkSize : UInt32}
    (hchunk : chunkSize ≠ 0) (hfile : fileSize ≠ 0) :
    (calculateTotalChunks fileSize chunkSize).toNat =
      if fileSize.toNat + chunkSize.toNat - 1 < 2 ^ 64 then
        (fileSize.toNat + chunkSize.toNat - 1) / chunkSize.toNat
      else 0 := by
  have hfileNat : fileSize.toNat ≠ 0 := fun h => hfile (UInt64.toNat_inj.mp h)
  have hlt := chunkSize.toNat_lt
  have hfileLt := fileSize.toNat_lt
  have hsum : (fileSize + chunkSize.toUInt64 - 1).toNat =
      (fileSize.toNat + chunkSize.toNat - 1) % 2 ^ 64 := by
    rw [UInt64.toNat_sub, UInt64.toNat_add, UInt32.toNat_toUInt64]
    show (2 ^ 64 - 1 + _) % 2 ^ 64 = _
    omega
  rw [calculateTotalChunks, if_neg hchunk, if_neg hfile, UInt64.toNat_div, hsum,
    UInt32.toNat_toUInt64]
  split
  · rename_i hfits
    rw [Nat.mod_eq_of_lt hfits]
  · exact Nat.div_eq_of_lt (by omega)

namespace TransferChunk.Placed

variable {chunk : TransferChunk} (h : chunk.Placed)
include h

theorem chunkSize_pos : 0 < chunk.chunkSize.toNat :=
  Nat.pos_of_ne_zero fun hzero => h.chunkSize_ne (UInt32.toNat_inj.mp hzero)

theorem index_lt_nat : chunk.chunkIndex.toNat < chunk.totalChunks.toNat :=
  UInt32.lt_iff_toNat_lt.mp h.index_lt

/-- The number of chunks, whatever the size of the file. -/
theorem toNat_totalChunks :
    chunk.totalChunks.toNat =
      if chunk.fileSize = 0 then 1 else ⌈(chunk.fileSize.toNat : ℚ) / chunk.chunkSize.toNat⌉₊ := by
  have htotal : (calculateTotalChunks chunk.fileSize chunk.chunkSize).toNat =
      chunk.totalChunks.toNat := by
    rw [h.total, UInt32.toNat_toUInt64]
  have hindex := h.index_lt_nat
  rw [← htotal] at hindex ⊢
  split
  · rename_i hempty
    rw [calculateTotalChunks, if_neg h.chunkSize_ne, if_pos hempty]
    rfl
  · rename_i hfile
    rw [toNat_calculateTotalChunks_wrap h.chunkSize_ne hfile] at hindex ⊢
    split at hindex
    · rename_i hfits
      rw [if_pos hfits, ceil_div_natCast h.chunkSize_pos]
    · omega

/-- The chunks are enough for the file. -/
theorem fileSize_le : chunk.fileSize.toNat ≤ chunk.totalChunks.toNat * chunk.chunkSize.toNat := by
  have hpos : (0 : ℚ) < chunk.chunkSize.toNat := Nat.cast_pos.mpr h.chunkSize_pos
  rw [h.toNat_totalChunks]
  split
  · rename_i hempty
    rw [hempty]
    exact Nat.zero_le _
  · have hceil := Nat.le_ceil ((chunk.fileSize.toNat : ℚ) / chunk.chunkSize.toNat)
    exact_mod_cast (div_le_iff₀ hpos).mp hceil

end TransferChunk.Placed

/-- What the parser accepts stands where the sizes it claims put it: the count is the ceiling of
the quotient, the chunk begins inside the file without a wrap and carries all of its range, and
the ranges of all indices tile the file. -/
theorem geometry_of_parse {payload : Bytes} {chunk : TransferChunk}
    (h : parseTransferChunkPayload payload = some chunk) :
    let fileSize := chunk.fileSize.toNat
    let chunkSize := chunk.chunkSize.toNat
    let index := chunk.chunkIndex.toNat
    let total := chunk.totalChunks.toNat
    total = (if fileSize = 0 then 1 else ⌈(fileSize : ℚ) / chunkSize⌉₊) ∧ index < total ∧
      index * chunkSize < 2 ^ 64 ∧ chunk.start.toNat = index * chunkSize ∧
      index * chunkSize ≤ fileSize ∧
      chunk.data.length = min chunkSize (fileSize - index * chunkSize) ∧
      (∀ i < total, ∀ j < total, i ≠ j →
        Disjoint (range chunkSize fileSize i) (range chunkSize fileSize j)) ∧
      ⋃ i < total, range chunkSize fileSize i = Set.Iio fileSize := by
  intro fileSize chunkSize index total
  have hplaced : chunk.Placed := (parse_eq_some_iff.mp h).1.toPlaced
  have hstart : chunk.start.toNat = index * chunkSize := chunk.toNat_start
  have hstartLe : index * chunkSize ≤ fileSize := by
    rw [← hstart]
    exact UInt64.le_iff_toNat_le.mp hplaced.start_le
  have hnowrap : index * chunkSize < 2 ^ 64 := hstartLe.trans_lt chunk.fileSize.toNat_lt
  refine ⟨?_, hplaced.index_lt_nat, hnowrap, hstart, hstartLe, ?_,
    fun i _ j _ hne => disjoint_range chunkSize fileSize hne,
    iUnion_range hplaced.chunkSize_pos hplaced.fileSize_le⟩
  · show chunk.totalChunks.toNat = _
    rw [hplaced.toNat_totalChunks]
    exact if_congr ⟨congrArg UInt64.toNat, fun hzero => UInt64.toNat_inj.mp hzero⟩ rfl rfl
  · rw [hplaced.length_data, TransferChunk.toNat_expectedBytes hplaced.start_le, hstart,
      Nat.min_comm]

theorem geometry_of_parse_fiveByteChunk :
    (3 = ⌈(5 : ℚ) / 2⌉₊) ∧ (fiveByteChunk 2).start.toNat = 4 ∧ (fiveByteChunk 2).data.length = 1 ∧
      (∀ i < 3, ∀ j < 3, i ≠ j → Disjoint (range 2 5 i) (range 2 5 j)) ∧
      ⋃ i < 3, range 2 5 i = Set.Iio 5 := by
  obtain ⟨htotal, -, -, hstart, -, hdata, hdisjoint, hcover⟩ :=
    @geometry_of_parse (fiveByteChunk 2).wire (fiveByteChunk 2) (by decide +kernel)
  exact ⟨htotal, hstart, hdata, hdisjoint, hcover⟩

end ZetaNet
