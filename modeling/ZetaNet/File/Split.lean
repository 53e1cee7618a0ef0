import ZetaNet.File.Enqueue
import ZetaNet.Lib.Blocks

/-!
# The chunks of a file

What `SendFile` makes of a file whose content stays: the payload of index `i` carries the `i`-th
block and parses to the `i`-th chunk, the last one with the checksum of the whole content.
-/

namespace ZetaNet

open Wire Blocks

/-! ## Geometry -/

/-- Without a wrap the count is the ceiling of the quotient, and one for an empty file. -/
theorem toNat_calculateTotalChunks {fileSize : UInt64} {chunkSize : UInt32}
    (hsize : fileSize.toNat < 2 ^ 63) (hchunk : chunkSize ≠ 0) :
    (calculateTotalChunks fileSize chunkSize).toNat =
      if fileSize.toNat = 0 then 1
      else (fileSize.toNat + chunkSize.toNat - 1) / chunkSize.toNat := by
  have hpos : 0 < chunkSize.toNat :=
    Nat.pos_of_ne_zero fun h => hchunk (UInt32.toNat_inj.mp h)
  have hlt := chunkSize.toNat_lt
  rw [calculateTotalChunks, if_neg hchunk]
  by_cases hempty : fileSize = 0
  · rw [if_pos hempty, if_pos (show fileSize.toNat = 0 from congrArg UInt64.toNat hempty)]
    rfl
  · have hne : fileSize.toNat ≠ 0 := fun h => hempty (UInt64.toNat_inj.mp h)
    have hsum : (fileSize + chunkSize.toUInt64).toNat = fileSize.toNat + chunkSize.toNat := by
      rw [UInt64.toNat_add, UInt32.toNat_toUInt64]
      omega
    have hone : (1 : UInt64) ≤ fileSize + chunkSize.toUInt64 := by
      refine UInt64.le_iff_toNat_le.mpr ?_
      rw [hsum]
      show 1 ≤ _
      omega
    rw [if_neg hempty, if_neg hne, UInt64.toNat_div, UInt64.toNat_sub_of_le _ _ hone, hsum,
      UInt32.toNat_toUInt64]
    rfl

/-- A transfer as `SendFile` sets it up for `content`, under an id and a name that a receiver
takes. -/
structure Transfer.Sendable (content : Bytes) (transfer : Transfer) : Prop where
  transferId_ne : transfer.transferId ≠ 0
  toNat_fileSize : transfer.fileSize.toNat = content.length
  length_lt : content.length < 2 ^ 63
  chunkSize_ne : transfer.chunkSize ≠ 0
  totalChunks :
    calculateTotalChunks transfer.fileSize transfer.chunkSize = transfer.totalChunks.toUInt64
  fileName_ne : transfer.fileName ≠ []
  fileName_le : transfer.fileName.length ≤ 0xFFFF
  fileName_safe : containsPathTraversal transfer.fileName = false

namespace Transfer.Sendable

variable {content : Bytes} {transfer : Transfer} (h : transfer.Sendable content)
include h

theorem chunkSize_pos : 0 < transfer.chunkSize.toNat :=
  Nat.pos_of_ne_zero fun hzero => h.chunkSize_ne (UInt32.toNat_inj.mp hzero)

theorem toNat_totalChunks :
    transfer.totalChunks.toNat =
      if content.length = 0 then 1
      else (content.length + transfer.chunkSize.toNat - 1) / transfer.chunkSize.toNat := by
  have hlt : transfer.fileSize.toNat < 2 ^ 63 := by
    rw [h.toNat_fileSize]
    exact h.length_lt
  rw [← UInt32.toNat_toUInt64, ← h.totalChunks, toNat_calculateTotalChunks hlt h.chunkSize_ne,
    h.toNat_fileSize]

theorem totalChunks_pos : 0 < transfer.totalChunks.toNat := by
  rw [h.toNat_totalChunks]
  split
  · exact Nat.one_pos
  · have := h.chunkSize_pos
    exact Nat.div_pos (by omega) this

/-- Every chunk begins inside the file, and an empty file has one. -/
theorem start_lt {i : Nat} (hi : i < transfer.totalChunks.toNat) (hne : content.length ≠ 0) :
    i * transfer.chunkSize.toNat < content.length := by
  have hpos := h.chunkSize_pos
  rw [h.toNat_totalChunks, if_neg hne] at hi
  have hmul := (Nat.le_div_iff_mul_le hpos).mp hi
  rw [Nat.succ_mul] at hmul
  omega

theorem start_le {i : Nat} (hi : i < transfer.totalChunks.toNat) :
    i * transfer.chunkSize.toNat ≤ content.length := by
  by_cases hempty : content.length = 0
  · rw [h.toNat_totalChunks, if_pos hempty] at hi
    rw [show i = 0 by omega, Nat.zero_mul]
    exact Nat.zero_le _
  · exact Nat.le_of_lt (h.start_lt hi hempty)

/-- The chunks reach to the end of the file. -/
theorem lt_totalChunks {i : Nat} (hi : i * transfer.chunkSize.toNat < content.length) :
    i < transfer.totalChunks.toNat := by
  have hpos := h.chunkSize_pos
  rw [h.toNat_totalChunks, if_neg (by omega)]
  refine (Nat.le_div_iff_mul_le hpos).mpr ?_
  rw [Nat.succ_mul]
  omega

end Transfer.Sendable

/-! ## What is read -/

namespace SourceFile

/-- The file has this content and keeps it. A read may return less than there is. -/
def Reads (file : SourceFile) (content : Bytes) : Prop :=
  ∀ offset count, file.read offset count <+: (content.drop offset).take count

theorem reads_ofContent (content : Bytes) : (ofContent content).Reads content :=
  fun _ _ => List.prefix_refl _

variable {file : SourceFile} {content : Bytes}

theorem Reads.safeReadLoop (h : file.Reads content) {offset targetSize fuel : Nat} {total : Bytes}
    (htotal : total <+: (content.drop offset).take targetSize) :
    file.safeReadLoop offset targetSize fuel total <+: (content.drop offset).take targetSize := by
  induction fuel generalizing total with
  | zero => exact htotal
  | succ fuel ih =>
      unfold SourceFile.safeReadLoop
      dsimp only
      split
      · exact htotal
      split
      · exact htotal
      · -- the next read continues where the last one ended
        obtain ⟨rest, hrest⟩ := htotal
        have hback : rest = (content.drop (offset + total.length)).take
            (targetSize - total.length) := by
          rw [← List.drop_drop, ← List.drop_take, ← hrest, List.drop_left]
        refine ih ?_
        rw [← hrest, List.prefix_append_right_inj, hback]
        exact h _ _

theorem Reads.safeReadChunk (h : file.Reads content) (offset targetSize : Nat) :
    file.safeReadChunk offset targetSize <+: (content.drop offset).take targetSize :=
  h.safeReadLoop List.nil_prefix

end SourceFile

namespace Transfer

/-- The checksum the loop has run up to after chunk `i`. -/
def checksumUpTo (transfer : Transfer) (content : Bytes) (i : Nat) : UInt32 :=
  updateChecksum (content.take (i * transfer.chunkSize.toNat)) kFnv1aOffset

/-- The payload of chunk `i` of `content`. -/
def payload (transfer : Transfer) (content : Bytes) (i : Nat) : Bytes :=
  transfer.chunkPayload (UInt32.ofNat i) (block transfer.chunkSize.toNat content i)
    (transfer.checksumUpTo content (i + 1))

theorem checksumUpTo_succ (transfer : Transfer) (content : Bytes) (i : Nat) :
    updateChecksum (block transfer.chunkSize.toNat content i) (transfer.checksumUpTo content i) =
      transfer.checksumUpTo content (i + 1) := by
  rw [checksumUpTo, checksumUpTo, ← updateChecksum_append, take_append_block]

end Transfer

/-- What the loop reads for chunk `i`. -/
theorem take_target_eq_block {size : Nat} (content : Bytes) (i : Nat) :
    (content.drop (min (i * size) content.length)).take
        (min (content.length - min (i * size) content.length) size) =
      block size content i := by
  rcases Nat.le_total (i * size) content.length with hle | hle
  · rw [Nat.min_eq_left hle, block, List.take_eq_take_iff, List.length_drop]
    omega
  · rw [Nat.min_eq_right hle, block, List.drop_length, List.drop_eq_nil_of_le hle, List.take_nil,
      List.take_nil]

/-- Every call of the loop carries the payload of its index. -/
theorem sendLoop_payload {encrypted : Bool} {destination : UInt32} {tuning : TransferTuning}
    {turns : Nat → SendTurn} {file : SourceFile} {content : Bytes} {transfer : Transfer}
    (hfile : file.Reads content) (hsize : transfer.fileSize.toNat = content.length)
    {todo : Nat} :
    ∀ {i : Nat} {layer : ZAsyncTransportLayer}, ∀ call ∈ (sendLoop encrypted destination tuning
        turns file transfer todo i (min (i * transfer.chunkSize.toNat) content.length)
        (transfer.checksumUpTo content i) layer).calls,
      call.payload = transfer.payload content call.chunkIndex ∧
        i ≤ call.chunkIndex ∧ call.chunkIndex < i + todo := by
  induction todo with
  | zero => exact fun call hcall => absurd hcall List.not_mem_nil
  | succ todo ih =>
      intro i layer call hcall
      set size := transfer.chunkSize.toNat with hchunk
      set offset := min (i * size) content.length with hoffset
      set bytes := file.safeReadChunk offset (min (transfer.fileSize.toNat - offset) size)
        with hbytes
      rcases sendLoop_succ encrypted destination tuning turns file transfer todo i offset
        (transfer.checksumUpTo content i) layer hbytes with
        ⟨result, layer', -, hstop⟩ | ⟨hread, first, hindex, hpayload, -, hcase⟩
      · rw [hstop] at hcall
        exact absurd hcall List.not_mem_nil
      have hblock : bytes = block size content i := by
        -- what does not reach the target does not get here
        have hprefix := hfile.safeReadChunk offset (min (transfer.fileSize.toNat - offset) size)
        rw [← hbytes, hsize, take_target_eq_block content i] at hprefix
        refine hprefix.eq_of_length_le ?_
        rw [length_block]
        omega
      have hfirst : first.payload = transfer.payload content first.chunkIndex := by
        rw [hpayload, hindex, hblock, transfer.checksumUpTo_succ]
        rfl
      have hnext : offset + bytes.length = min ((i + 1) * size) content.length := by
        rw [hblock, length_block, Nat.succ_mul]
        omega
      rcases hcase with ⟨layer', hstop⟩ | ⟨-, layer', hgo⟩
      · rw [hstop] at hcall
        obtain rfl := List.mem_singleton.mp hcall
        exact ⟨hfirst, by omega⟩
      · rw [hgo, hnext, hblock, transfer.checksumUpTo_succ] at hcall
        rcases List.mem_cons.mp hcall with rfl | hrest
        · exact ⟨hfirst, by omega⟩
        · obtain ⟨hrestPayload, hlo, hhi⟩ := ih call hrest
          exact ⟨hrestPayload, by omega⟩

/-! ## What the payloads parse to -/

namespace Transfer

/-- The header of chunk `i`. -/
def chunkHeader (transfer : Transfer) (content : Bytes) (i : Nat) : ChunkHeader where
  flags := wireFlags (UInt32.ofNat i = 0) (UInt32.ofNat i = transfer.totalChunks - 1)
  transferId := transfer.transferId
  fileSize := transfer.fileSize
  chunkSize := transfer.chunkSize
  chunkIndex := UInt32.ofNat i
  totalChunks := transfer.totalChunks
  chunkDataSize := UInt32.ofNat (block transfer.chunkSize.toNat content i).length
  chunkChecksum := computeChecksum (block transfer.chunkSize.toNat content i)
  fileChecksum :=
    if UInt32.ofNat i = transfer.totalChunks - 1 then transfer.checksumUpTo content (i + 1) else 0
  fileNameSize := if UInt32.ofNat i = 0 then UInt16.ofNat transfer.fileName.length else 0

/-- The name that chunk `i` carries. -/
def chunkName (transfer : Transfer) (i : Nat) : Bytes :=
  if UInt32.ofNat i = 0 then transfer.fileName else []

/-- Chunk `i` as the receiver gets it. -/
def chunk (transfer : Transfer) (content : Bytes) (i : Nat) : TransferChunk :=
  (transfer.chunkHeader content i).toChunk (transfer.chunkName i)
    (block transfer.chunkSize.toNat content i)

section Fields

variable (transfer : Transfer) (content : Bytes) (i : Nat)

@[simp] theorem transferId_chunk : (transfer.chunk content i).transferId = transfer.transferId :=
  rfl

@[simp] theorem fileSize_chunk : (transfer.chunk content i).fileSize = transfer.fileSize := rfl

@[simp] theorem chunkSize_chunk : (transfer.chunk content i).chunkSize = transfer.chunkSize := rfl

@[simp] theorem totalChunks_chunk :
    (transfer.chunk content i).totalChunks = transfer.totalChunks := rfl

@[simp] theorem data_chunk :
    (transfer.chunk content i).data = block transfer.chunkSize.toNat content i := rfl

end Fields

theorem payload_eq (transfer : Transfer) (content : Bytes) (i : Nat) :
    transfer.payload content i = (transfer.chunkHeader content i).wire ++
      (transfer.chunkName i ++ block transfer.chunkSize.toNat content i) := by
  by_cases hfirst : UInt32.ofNat i = 0
  · simp [payload, chunkPayload, chunkHeader, chunkName, ChunkHeader.wire, wireFlags, hfirst,
      appendU16, appendU32, appendU64]
  · simp [payload, chunkPayload, chunkHeader, chunkName, ChunkHeader.wire, wireFlags, hfirst,
      appendU16, appendU32, appendU64]

end Transfer

theorem toNat_index {transfer : Transfer} {i : Nat} (hi : i < transfer.totalChunks.toNat) :
    (UInt32.ofNat i).toNat = i := by
  have := transfer.totalChunks.toNat_lt
  rw [UInt32.toNat_ofNat', Nat.mod_eq_of_lt (by omega)]

theorem toNat_dataSize (transfer : Transfer) (content : Bytes) (i : Nat) :
    (UInt32.ofNat (block transfer.chunkSize.toNat content i).length).toNat =
      (block transfer.chunkSize.toNat content i).length := by
  have hlt := transfer.chunkSize.toNat_lt
  have hlength := length_block transfer.chunkSize.toNat content i
  rw [UInt32.toNat_ofNat', Nat.mod_eq_of_lt (by omega)]

namespace Transfer.Sendable

variable {content : Bytes} {transfer : Transfer} (h : transfer.Sendable content) {i : Nat}
include h

theorem index_eq_last (hi : i < transfer.totalChunks.toNat) :
    UInt32.ofNat i = transfer.totalChunks - 1 ↔ i + 1 = transfer.totalChunks.toNat := by
  have hpos := h.totalChunks_pos
  have hone : (1 : UInt32) ≤ transfer.totalChunks := UInt32.le_iff_toNat_le.mpr hpos
  rw [← UInt32.toNat_inj, toNat_index hi, UInt32.toNat_sub_of_le _ _ hone,
    show (1 : UInt32).toNat = 1 from rfl]
  omega

theorem fileNameSize_ne : UInt16.ofNat transfer.fileName.length ≠ 0 := by
  intro hzero
  have hle := h.fileName_le
  have hpos := List.length_pos_iff.mpr h.fileName_ne
  have hlength : (UInt16.ofNat transfer.fileName.length).toNat = transfer.fileName.length := by
    rw [UInt16.toNat_ofNat', Nat.mod_eq_of_lt (by omega)]
  rw [hzero, show (0 : UInt16).toNat = 0 from rfl] at hlength
  omega

theorem check_chunkHeader (hi : i < transfer.totalChunks.toNat) :
    (transfer.chunkHeader content i).check = true := by
  have hhas : (transfer.chunkHeader content i).hasFileName = decide (UInt32.ofNat i = 0) :=
    wireFlags_hasFileName ..
  have hlast : (transfer.chunkHeader content i).isLastChunk =
      decide (UInt32.ofNat i = transfer.totalChunks - 1) := wireFlags_lastChunk ..
  rw [ChunkHeader.check_iff]
  refine ⟨h.transferId_ne, h.chunkSize_ne, ?_, hhas, ?_, ?_, ?_, h.totalChunks⟩
  · show UInt32.ofNat i < transfer.totalChunks
    rw [UInt32.lt_iff_toNat_lt, toNat_index hi]
    exact hi
  · rw [hhas, decide_eq_false_iff_not]
    show (if UInt32.ofNat i = 0 then UInt16.ofNat transfer.fileName.length else 0) = 0 ↔ _
    split
    · rename_i hfirst
      exact iff_of_false h.fileNameSize_ne (not_not.mpr hfirst)
    · rename_i hfirst
      exact iff_of_true rfl hfirst
  · rw [hlast, decide_eq_false_iff_not]
    exact fun hnot => if_neg hnot
  · rw [hlast, decide_eq_true_eq]
    exact id

theorem checkData_chunkHeader (hi : i < transfer.totalChunks.toNat) :
    (transfer.chunkHeader content i).checkData = true := by
  set header := transfer.chunkHeader content i with hheader
  have hsize : header.chunkDataSize.toNat = min (content.length - i * transfer.chunkSize.toNat)
      transfer.chunkSize.toNat := by
    rw [← length_block]
    exact toNat_dataSize ..
  have hstartNat : (header.toChunk [] []).start.toNat = i * transfer.chunkSize.toNat := by
    rw [TransferChunk.toNat_start]
    exact congrArg (· * transfer.chunkSize.toNat) (toNat_index hi)
  have hstart : (header.toChunk [] []).start ≤ header.fileSize := by
    rw [UInt64.le_iff_toNat_le, hstartNat]
    exact (h.start_le hi).trans_eq h.toNat_fileSize.symm
  have hbytes : header.chunkDataSize.toUInt64 = (header.toChunk [] []).expectedBytes := by
    rw [← UInt64.toNat_inj, TransferChunk.toNat_expectedBytes hstart, hstartNat,
      UInt32.toNat_toUInt64, hsize]
    show _ = min (transfer.fileSize.toNat - _) _
    rw [h.toNat_fileSize]
    rfl
  have hchunkSize : ¬ header.chunkDataSize > header.chunkSize := by
    rw [gt_iff_lt, UInt32.lt_iff_toNat_lt, hsize]
    exact Nat.not_lt.mpr (Nat.min_le_right ..)
  unfold ChunkHeader.checkData
  rw [if_neg hchunkSize, if_neg (UInt64.not_lt.mpr hstart)]
  split
  · -- the empty file: one chunk, which is the last
    rename_i hempty
    obtain ⟨hfileSize, hfirst, htotal⟩ := hempty
    have hlength : content.length = 0 := by
      rw [← h.toNat_fileSize]
      exact congrArg UInt64.toNat hfileSize
    have hlast : header.isLastChunk = true := by
      refine (wireFlags_lastChunk ..).trans (decide_eq_true ?_)
      rw [show UInt32.ofNat i = 0 from hfirst, show transfer.totalChunks = 1 from htotal]
      rfl
    have hzero : header.chunkDataSize = 0 := by
      rw [← UInt32.toNat_inj, hsize, hlength, Nat.zero_sub, Nat.zero_min]
      rfl
    simp [hzero, hlast]
  · exact decide_eq_true hbytes

theorem parse_payload (hi : i < transfer.totalChunks.toNat) :
    parseTransferChunkPayload (transfer.payload content i) =
      some (transfer.chunk content i) := by
  rw [transfer.payload_eq]
  refine parseTransferChunkPayload_wire (wireFlags_known ..) (h.check_chunkHeader hi) ?_ ?_
    (toNat_dataSize ..).symm (h.checkData_chunkHeader hi) rfl
  · have hle := h.fileName_le
    simp only [Transfer.chunkName, Transfer.chunkHeader]
    split
    · rw [UInt16.toNat_ofNat', Nat.mod_eq_of_lt (by omega)]
    · rfl
  · intro hname
    have hfirst : UInt32.ofNat i = 0 := by
      have := wireFlags_hasFileName (UInt32.ofNat i = 0)
        (UInt32.ofNat i = transfer.totalChunks - 1)
      exact of_decide_eq_true (this.symm.trans hname)
    rw [Transfer.chunkName, if_pos hfirst]
    exact h.fileName_safe

end Transfer.Sendable

end ZetaNet
