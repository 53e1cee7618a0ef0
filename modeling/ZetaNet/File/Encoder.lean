import ZetaNet.File.Codec
import ZetaNet.File.Split

/-!
# The two encoders of a chunk

`SendFile` lays out its payloads itself, with a running offset and a running checksum.
`BuildTransferChunkPayload` makes the same bytes of the chunk that the content gives for the
index.
-/

namespace ZetaNet

open Wire Blocks

/-! ## Files that are read to the end -/

/-- The file has this content, keeps it and reads at least a byte where there is one. -/
structure SourceFile.Steady (file : SourceFile) (content : Bytes) : Prop where
  length : file.length = content.length
  /-- a length is an `int64_t` -/
  length_lt : content.length < 2 ^ 63
  reads : file.Reads content
  read_ne : ∀ offset count, offset < content.length → count ≠ 0 → file.read offset count ≠ []

theorem SourceFile.steady_ofContent {content : Bytes} (h : content.length < 2 ^ 63) :
    (SourceFile.ofContent content).Steady content where
  length := if_pos h
  length_lt := h
  reads := SourceFile.reads_ofContent content
  read_ne offset count hoffset hcount := by
    refine List.ne_nil_of_length_pos ?_
    show 0 < ((content.drop offset).take count).length
    rw [List.length_take, List.length_drop]
    omega

namespace SourceFile.Steady

variable {file : SourceFile} {content : Bytes} (h : file.Steady content)
include h

/-- The loop goes on until the target is reached. -/
theorem length_safeReadLoop {offset targetSize fuel : Nat} {total : Bytes}
    (hoffset : offset + targetSize ≤ content.length) (hsize : targetSize < 2 ^ 31)
    (htotal : total.length ≤ targetSize) (hfuel : targetSize ≤ total.length + fuel) :
    (file.safeReadLoop offset targetSize fuel total).length = targetSize := by
  induction fuel generalizing total with
  | zero =>
      show total.length = targetSize
      omega
  | succ fuel ih =>
      unfold SourceFile.safeReadLoop
      dsimp only
      split
      · omega
      · rename_i hcount
        have hread := h.read_ne (offset + total.length) (targetSize - total.length)
          (by omega) (by omega)
        have hpos := List.length_pos_iff.mpr hread
        have hle := file.length_read_le (offset + total.length) (targetSize - total.length)
        rw [if_neg hread]
        refine ih ?_ ?_
        · rw [List.length_append]
          omega
        · rw [List.length_append]
          omega

theorem safeReadChunk {offset targetSize : Nat} (hoffset : offset + targetSize ≤ content.length)
    (hsize : targetSize < 2 ^ 31) :
    file.safeReadChunk offset targetSize = (content.drop offset).take targetSize := by
  refine (h.reads.safeReadChunk offset targetSize).eq_of_length_le ?_
  have hlength : (file.safeReadChunk offset targetSize).length = targetSize :=
    h.length_safeReadLoop hoffset hsize (Nat.zero_le _) (Nat.le_add_left ..)
  rw [hlength]
  exact List.length_take_le ..

end SourceFile.Steady

/-! ## A transport that takes every chunk -/

def freshLayer : ZAsyncTransportLayer := ⟨.connected, ZPacketQueue.init 0⟩

/-- A turn in which the other threads empty the queue. -/
def openTurn : SendTurn := ⟨[⟨fun _ => freshLayer, 0⟩], fun _ => freshLayer, 0⟩

theorem waitForSendWindow_openTurn (tuning : TransferTuning) (layer : ZAsyncTransportLayer) :
    ∃ layer', tuning.waitForSendWindow openTurn.polls layer = (some true, layer') := by
  unfold TransferTuning.waitForSendWindow
  split
  · exact ⟨layer, rfl⟩
  · have hopen : tuning.windowOpen freshLayer = true := by
      show decide (_ ∧ _) = true
      refine decide_eq_true ⟨?_, ?_⟩
      · exact (Nat.eq_zero_or_pos tuning.maxInflightChunks).imp id id
      · exact (Nat.eq_zero_or_pos tuning.maxInflightBytes).imp id id
    refine ⟨freshLayer, ?_⟩
    show tuning.waitLoop [⟨fun _ => freshLayer, 0⟩] layer = _
    unfold TransferTuning.waitLoop
    dsimp only
    rw [if_neg (by decide), if_pos hopen]

/-- The loop gets to the end of the file. -/
theorem sendLoop_openTurn (encrypted : Bool) (destination : UInt32) (tuning : TransferTuning)
    {file : SourceFile} {content : Bytes} {transfer : Transfer} (hfile : file.Steady content)
    (hsize : transfer.fileSize.toNat = content.length) (hchunk : transfer.chunkSize.toNat < 2 ^ 31)
    {total : Nat} (htotal : content.length ≤ total * transfer.chunkSize.toNat) {todo : Nat} :
    ∀ {i : Nat} {fileChecksum : UInt32} {layer : ZAsyncTransportLayer}, i + todo = total →
      (sendLoop encrypted destination tuning (fun _ => openTurn) file transfer todo i
        (min (i * transfer.chunkSize.toNat) content.length) fileChecksum layer).result =
          some true := by
  induction todo with
  | zero =>
      rintro i fileChecksum layer rfl
      rw [sendLoop, hsize]
      exact congrArg some (decide_eq_true (Nat.min_eq_right htotal))
  | succ todo ih =>
      intro i fileChecksum layer hi
      set size := transfer.chunkSize.toNat
      set offset := min (i * size) content.length with hoffset
      set target := min (transfer.fileSize.toNat - offset) size with htarget
      have hread : (file.safeReadChunk offset target).length = target := by
        rw [hfile.safeReadChunk (by omega) (by omega), List.length_take, List.length_drop]
        omega
      have hnext : offset + target = min ((i + 1) * size) content.length := by
        rw [Nat.succ_mul]
        omega
      obtain ⟨layer', hwait⟩ := waitForSendWindow_openTurn tuning layer
      rw [sendLoop]
      dsimp only
      rw [hread, if_neg (by omega), if_neg (fun h => h.1 rfl), hwait]
      dsimp only
      have hconnected : (openTurn.others layer').state = .connected := rfl
      rw [ZAsyncTransportLayer.enqueuePacket_of_connected hconnected, hnext]
      exact ih (by omega)

/-! ## The chunk of an index -/

/-- The number of chunks of a content. -/
def chunkCount (length size : Nat) : Nat :=
  if length = 0 then 1 else (length + size - 1) / size

/-- Chunk `i` of a content, with the checksum of the whole content on the last one. -/
def contentChunk (transferId : UInt64) (fileName content : Bytes) (size i : Nat) :
    TransferChunk where
  transferId
  fileSize := UInt64.ofNat content.length
  chunkSize := UInt32.ofNat size
  chunkIndex := UInt32.ofNat i
  totalChunks := UInt32.ofNat (chunkCount content.length size)
  chunkChecksum := computeChecksum (block size content i)
  fileChecksum := if i + 1 = chunkCount content.length size then computeChecksum content else 0
  hasFileName := i = 0
  isLastChunk := i + 1 = chunkCount content.length size
  fileName := if i = 0 then fileName else []
  data := block size content i

/-- The transfer that `SendFile` sets up. -/
def contentTransfer (transferId : UInt64) (fileName content : Bytes) (size : Nat) : Transfer where
  transferId
  fileSize := UInt64.ofNat content.length
  chunkSize := UInt32.ofNat size
  totalChunks := UInt32.ofNat (chunkCount content.length size)
  fileName

section Chunks

variable {transferId : UInt64} {fileName content : Bytes} {size i : Nat}

theorem toNat_chunkSize (hsize : size < 2 ^ 31) : (UInt32.ofNat size).toNat = size := by
  rw [UInt32.toNat_ofNat', Nat.mod_eq_of_lt (by omega)]

theorem toNat_totalChunks (hcount : chunkCount content.length size < 2 ^ 32) :
    (UInt32.ofNat (chunkCount content.length size)).toNat = chunkCount content.length size := by
  rw [UInt32.toNat_ofNat', Nat.mod_eq_of_lt hcount]

variable (hid : transferId ≠ 0) (hlength : content.length < 2 ^ 63) (hpos : 0 < size)
  (hsize : size < 2 ^ 31) (hcount : chunkCount content.length size < 2 ^ 32)

include hlength hpos hsize hcount in
theorem calculateTotalChunks_content :
    calculateTotalChunks (UInt64.ofNat content.length) (UInt32.ofNat size) =
      (UInt32.ofNat (chunkCount content.length size)).toUInt64 := by
  have hfile : (UInt64.ofNat content.length).toNat = content.length := by
    rw [UInt64.toNat_ofNat', Nat.mod_eq_of_lt (by omega)]
  have hne : UInt32.ofNat size ≠ 0 := by
    intro hzero
    have := congrArg UInt32.toNat hzero
    rw [toNat_chunkSize hsize] at this
    exact absurd this (Nat.ne_of_gt hpos)
  rw [← UInt64.toNat_inj, toNat_calculateTotalChunks (by rw [hfile]; exact hlength) hne, hfile,
    toNat_chunkSize hsize, UInt32.toNat_toUInt64, toNat_totalChunks hcount]
  rfl

include hid hlength hpos hsize hcount in
/-- The geometry does not depend on the name. -/
theorem sendable_contentTransfer :
    (contentTransfer transferId [0x61] content size).Sendable content where
  transferId_ne := hid
  toNat_fileSize := by
    show (UInt64.ofNat content.length).toNat = _
    rw [UInt64.toNat_ofNat', Nat.mod_eq_of_lt (by omega)]
  length_lt := hlength
  chunkSize_ne hzero := by
    have := congrArg UInt32.toNat hzero
    rw [show (contentTransfer transferId [0x61] content size).chunkSize.toNat = size from
      toNat_chunkSize hsize] at this
    exact absurd this (Nat.ne_of_gt hpos)
  totalChunks := calculateTotalChunks_content hlength hpos hsize hcount
  fileName_ne := List.cons_ne_nil 0x61 []
  fileName_le := Nat.le_of_ble_eq_true rfl
  fileName_safe := (by decide : containsPathTraversal [0x61] = false)

include hcount in
theorem toNat_contentIndex (hi : i < chunkCount content.length size) :
    (UInt32.ofNat i).toNat = i := by
  rw [UInt32.toNat_ofNat', Nat.mod_eq_of_lt (by omega)]

include hid hlength hpos hsize hcount in
/-- The builder accepts the chunk of every index. -/
theorem buildable_contentChunk (hne : fileName ≠ []) (hname : fileName.length ≤ 0xFFFF)
    (hi : i < chunkCount content.length size) :
    (contentChunk transferId fileName content size i).Buildable := by
  have hsend := sendable_contentTransfer hid hlength hpos hsize hcount
  -- nothing wraps: index, count and size are the numbers they are made of
  have hindex := toNat_contentIndex hcount hi
  have htotal := toNat_totalChunks hcount
  have hchunk := toNat_chunkSize hsize
  have hlt : i < (contentTransfer transferId [0x61] content size).totalChunks.toNat :=
    hi.trans_eq htotal.symm
  set chunk := contentChunk transferId fileName content size i
  have hfile : chunk.fileSize.toNat = content.length := hsend.toNat_fileSize
  have hstartNat : chunk.start.toNat = i * size := by
    rw [TransferChunk.toNat_start]
    exact congrArg₂ _ hindex hchunk
  -- a chunk that exists starts within the file
  have hstart : chunk.start ≤ chunk.fileSize := by
    rw [UInt64.le_iff_toNat_le, hstartNat, hfile]
    exact (congrArg (i * ·) hchunk).symm.trans_le (hsend.start_le hlt)
  have hzero : UInt32.ofNat i = 0 ↔ i = 0 := by
    rw [← UInt32.toNat_inj, hindex]
    rfl
  refine
    { transferId_ne := hid
      chunkSize_ne := hsend.chunkSize_ne
      index_lt := UInt32.lt_iff_toNat_lt.mpr (hindex.trans_lt hlt)
      hasFileName := decide_eq_decide.mpr hzero.symm
      total := hsend.totalChunks
      start_le := hstart
      length_data := ?_
      fileName := ?_
      length_fileName := ?_
      lastIndex := fun hlast => ?_
      fileChecksum := fun hlast => ?_ }
  · show (block size content i).length = _
    rw [TransferChunk.toNat_expectedBytes hstart, hstartNat, hfile, length_block]
    exact congrArg _ hchunk.symm
  · show (if i = 0 then fileName else []) = [] ↔ decide (i = 0) = false
    by_cases hfirst : i = 0
    · simp [hfirst, hne]
    · simp [hfirst]
  · show (if i = 0 then fileName else []).length < 2 ^ 16
    split
    · omega
    · exact Nat.two_pow_pos 16
  · refine (hsend.index_eq_last hlt).mpr ?_
    exact (of_decide_eq_true hlast).trans htotal.symm
  · exact if_neg (of_decide_eq_false hlast)

include hpos in
/-- The last chunk ends where the content ends. -/
theorem length_le_chunkCount : content.length ≤ chunkCount content.length size * size := by
  unfold chunkCount
  split
  · omega
  · have hceil := Nat.div_add_mod' (content.length + size - 1) size
    have hmod := Nat.mod_lt (content.length + size - 1) hpos
    omega

include hid hlength hpos hsize hcount in
/-- The builder lays the chunk out as `SendFile` does. -/
theorem wire_contentChunk (hi : i < chunkCount content.length size) :
    (contentChunk transferId fileName content size i).wire =
      (contentTransfer transferId fileName content size).payload content i := by
  have hsend := sendable_contentTransfer hid hlength hpos hsize hcount
  have hindex := toNat_contentIndex hcount hi
  have htotal := toNat_totalChunks hcount
  have hchunk := toNat_chunkSize hsize
  have hfirst : UInt32.ofNat i = 0 ↔ i = 0 := by
    rw [← UInt32.toNat_inj, hindex]
    rfl
  have hlast : UInt32.ofNat i = UInt32.ofNat (chunkCount content.length size) - 1 ↔
      i + 1 = chunkCount content.length size := by
    refine (hsend.index_eq_last (hi.trans_eq htotal.symm)).trans ?_
    exact Iff.of_eq (congrArg (i + 1 = ·) htotal)
  -- the running checksum has seen the whole content at the last index
  have hchecksum : (if i + 1 = chunkCount content.length size then computeChecksum content else 0) =
      if i + 1 = chunkCount content.length size then
        (contentTransfer transferId fileName content size).checksumUpTo content (i + 1)
      else 0 := by
    refine ite_congr rfl (fun heq => ?_) fun _ => rfl
    show _ = updateChecksum (content.take ((i + 1) * (UInt32.ofNat size).toNat)) kFnv1aOffset
    rw [hchunk, heq, List.take_of_length_le (length_le_chunkCount hpos)]
    rfl
  have hheader : (contentChunk transferId fileName content size i).header =
      (contentTransfer transferId fileName content size).chunkHeader content i := by
    simp only [TransferChunk.header, Transfer.chunkHeader, contentChunk, hchecksum]
    simp only [contentTransfer, hchunk, hfirst, hlast, ChunkHeader.mk.injEq, true_and]
    split
    · rfl
    · rfl
  have hname : (contentChunk transferId fileName content size i).fileName =
      (contentTransfer transferId fileName content size).chunkName i :=
    ite_congr (propext hfirst.symm) (fun _ => rfl) fun _ => rfl
  have hdata : (contentChunk transferId fileName content size i).data =
      block (contentTransfer transferId fileName content size).chunkSize.toNat content i :=
    congrArg (block · content i) hchunk.symm
  rw [Transfer.payload_eq, TransferChunk.wire_eq, hheader, hname, hdata]

end Chunks

/-! ## The encoders agree -/

section Agreement

variable {content path : Bytes} {file : SourceFile} {tuning : TransferTuning} {counter : UInt64}
  (hfile : file.Steady content) (hne : baseName path ≠ [])
  (hname : (baseName path).length ≤ 65535) (hpos : 1 ≤ tuning.chunkSize.toNat)
  (hsize : tuning.chunkSize.toNat < 2 ^ 31)
  (hcount : chunkCount content.length tuning.chunkSize.toNat < 2 ^ 32)
include hfile hne hname hpos hsize hcount

theorem prepareTransfer_content :
    prepareTransfer tuning path (some file) counter =
      (some (file, contentTransfer counter (baseName path) content tuning.chunkSize.toNat),
        counter + 1) := by
  have hchunk : tuning.chunkSize.toUInt32 = UInt32.ofNat tuning.chunkSize.toNat := by
    rw [← UInt32.toNat_inj, UInt64.toNat_toUInt32, UInt32.toNat_ofNat']
  -- none of the checks on the way fails
  have hchunkOk : ¬ (tuning.chunkSize = 0 ∨ tuning.chunkSize > 0xFFFFFFFF) := by
    rintro (hzero | hlarge)
    · rw [hzero] at hpos
      exact absurd hpos (by decide)
    · have := UInt64.lt_iff_toNat_lt.mp hlarge
      rw [show (0xFFFFFFFF : UInt64).toNat = 4294967295 from rfl] at this
      omega
  set total := UInt32.ofNat (chunkCount content.length tuning.chunkSize.toNat) with htotal
  have htotalNat : total.toNat = chunkCount content.length tuning.chunkSize.toNat :=
    toNat_totalChunks hcount
  have htotalPos : 0 < total.toNat := by
    rw [htotalNat]
    unfold chunkCount
    split
    · exact Nat.one_pos
    · exact Nat.div_pos (by omega) hpos
  have htotalOk : ¬ (total.toUInt64 = 0 ∨ total.toUInt64 > 0xFFFFFFFF) := by
    rintro (hzero | hlarge)
    · have := congrArg UInt64.toNat hzero
      rw [UInt32.toNat_toUInt64] at this
      exact absurd this (Nat.ne_of_gt htotalPos)
    · have := UInt64.lt_iff_toNat_lt.mp hlarge
      rw [UInt32.toNat_toUInt64, show (0xFFFFFFFF : UInt64).toNat = 4294967295 from rfl] at this
      have := total.toNat_lt
      omega
  have hnameOk : ¬ (baseName path = [] ∨ (baseName path).length > 0xFFFF) :=
    not_or.mpr ⟨hne, Nat.not_lt.mpr hname⟩
  unfold prepareTransfer
  dsimp only
  rw [if_neg (by rw [hfile.length]; exact Int.not_lt.mpr (Int.natCast_nonneg _)), if_neg hchunkOk,
    hfile.length, Int.toNat_natCast, hchunk,
    calculateTotalChunks_content hfile.length_lt hpos hsize hcount, ← htotal, if_neg htotalOk,
    if_neg hnameOk, UInt32.toUInt32_toUInt64]
  rfl

end Agreement

/-- For every index the builder accepts the chunk of the content, every payload that `SendFile`
puts together for the index is the builder's, and it gets to every index where the transport
takes the chunks before. -/
theorem sendFile_agrees_build {content path : Bytes} {file : SourceFile} {tuning : TransferTuning}
    {counter : UInt64} (hfile : file.Steady content) (hne : baseName path ≠ [])
    (hname : (baseName path).length ≤ 65535) (hpos : 1 ≤ tuning.chunkSize.toNat)
    (hsize : tuning.chunkSize.toNat < 2 ^ 31)
    (hcount : chunkCount content.length tuning.chunkSize.toNat < 2 ^ 32) (hid : counter ≠ 0) :
    let count := chunkCount content.length tuning.chunkSize.toNat
    let chunk := contentChunk counter (baseName path) content tuning.chunkSize.toNat
    (∀ i < count, (buildTransferChunkPayload (chunk i)).isSome) ∧
      (∀ encrypted destination turns layer, ∀ call ∈
        (sendFile encrypted destination tuning turns path (some file) counter layer).1.calls,
        call.chunkIndex < count ∧
          buildTransferChunkPayload (chunk call.chunkIndex) = some call.payload) ∧
      ∀ encrypted destination, ∃ turns layer,
        (sendFile encrypted destination tuning turns path (some file) counter layer).1.calls.map
          EnqueueCall.chunkIndex = List.range count := by
  intro count chunk
  set size := tuning.chunkSize.toNat
  set transfer := contentTransfer counter (baseName path) content size with htransfer
  have hprepare : prepareTransfer tuning path (some file) counter =
      (some (file, transfer), counter + 1) :=
    prepareTransfer_content hfile hne hname hpos hsize hcount
  have htotal : transfer.totalChunks.toNat = count := toNat_totalChunks hcount
  have hfileSize : transfer.fileSize.toNat = content.length :=
    (sendable_contentTransfer hid hfile.length_lt hpos hsize hcount).toNat_fileSize
  have hchunk : transfer.chunkSize.toNat = size := toNat_chunkSize hsize
  have hbuild : ∀ i < count, buildTransferChunkPayload (chunk i) =
      some (transfer.payload content i) := fun i hi =>
    TransferChunk.build_eq_some_iff.mpr
      ⟨buildable_contentChunk hid hfile.length_lt hpos hsize hcount hne hname hi,
        (wire_contentChunk hid hfile.length_lt hpos hsize hcount hi).symm⟩
  -- the loop starts at offset 0 with the offset basis
  have hstart : ∀ encrypted destination turns layer,
      (sendFile encrypted destination tuning turns path (some file) counter layer).1 =
        sendLoop encrypted destination tuning turns file transfer count 0
          (min (0 * transfer.chunkSize.toNat) content.length) (transfer.checksumUpTo content 0)
          layer := by
    intro encrypted destination turns layer
    unfold sendFile
    rw [hprepare, ← htotal]
    simp [Transfer.checksumUpTo]
  refine ⟨fun i hi => by rw [hbuild i hi]; rfl, ?_, ?_⟩
  · intro encrypted destination turns layer call hcall
    rw [hstart] at hcall
    obtain ⟨hpayload, -, hlt⟩ := sendLoop_payload hfile.reads hfileSize call hcall
    rw [Nat.zero_add] at hlt
    exact ⟨hlt, by rw [hbuild _ hlt, hpayload]⟩
  · intro encrypted destination
    refine ⟨fun _ => openTurn, freshLayer, ?_⟩
    have hreach : content.length ≤ count * transfer.chunkSize.toNat := by
      rw [hchunk]
      exact length_le_chunkCount hpos
    have hresult : (sendLoop encrypted destination tuning (fun _ => openTurn) file transfer count 0
        (min (0 * transfer.chunkSize.toNat) content.length) (transfer.checksumUpTo content 0)
        freshLayer).result = some true :=
      sendLoop_openTurn encrypted destination tuning hfile hfileSize (hchunk.trans_lt hsize) hreach
        (Nat.zero_add count)
    rw [hstart, List.range_eq_range']
    exact (sendLoop_calls rfl hresult).1

theorem sendFile_agrees_build_fiveBytes :
    let tuning : TransferTuning := { chunkSize := 2 }
    let path : Bytes := [0x2F, 0x61]
    let content : Bytes := [1, 2, 3, 4, 5]
    let count := chunkCount content.length tuning.chunkSize.toNat
    let chunk := contentChunk 1 (baseName path) content tuning.chunkSize.toNat
    count = 3 ∧ (∀ i < count, (buildTransferChunkPayload (chunk i)).isSome) ∧
      (∀ encrypted destination turns layer, ∀ call ∈
        (sendFile encrypted destination tuning turns path
          (some (SourceFile.ofContent content)) 1 layer).1.calls,
        call.chunkIndex < count ∧
          buildTransferChunkPayload (chunk call.chunkIndex) = some call.payload) ∧
      ∀ encrypted destination, ∃ turns layer,
        (sendFile encrypted destination tuning turns path
          (some (SourceFile.ofContent content)) 1 layer).1.calls.map
          EnqueueCall.chunkIndex = List.range count :=
  ⟨rfl, sendFile_agrees_build (SourceFile.steady_ofContent (by decide)) (by decide) (by decide)
    (by decide) (by decide) (by decide) (by decide)⟩

end ZetaNet
