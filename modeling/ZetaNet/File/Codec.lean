import ZetaNet.File.Chunk

/-!
# The chunk format

`ParseTransferChunkPayload` against `BuildTransferChunkPayload`: each is characterised by what
it accepts, and the two are compared.
-/

namespace ZetaNet

open Wire

namespace TransferChunk

/-- The header `BuildTransferChunkPayload` writes. -/
def header (chunk : TransferChunk) : ChunkHeader where
  flags := wireFlags chunk.hasFileName chunk.isLastChunk
  transferId := chunk.transferId
  fileSize := chunk.fileSize
  chunkSize := chunk.chunkSize
  chunkIndex := chunk.chunkIndex
  totalChunks := chunk.totalChunks
  chunkDataSize := UInt32.ofNat chunk.data.length
  chunkChecksum := chunk.chunkChecksum
  fileChecksum := chunk.fileChecksum
  fileNameSize := UInt16.ofNat chunk.fileName.length

theorem wire_eq (chunk : TransferChunk) :
    chunk.wire = chunk.header.wire ++ (chunk.fileName ++ chunk.data) := by
  simp [wire, header, ChunkHeader.wire, appendU16, appendU32, appendU64]

@[simp] theorem hasFileName_header (chunk : TransferChunk) :
    chunk.header.hasFileName = chunk.hasFileName := wireFlags_hasFileName ..

@[simp] theorem isLastChunk_header (chunk : TransferChunk) :
    chunk.header.isLastChunk = chunk.isLastChunk := wireFlags_lastChunk ..

theorem toChunk_header (chunk : TransferChunk) :
    chunk.header.toChunk chunk.fileName chunk.data = chunk := by
  rw [ChunkHeader.toChunk, hasFileName_header, isLastChunk_header]
  rfl

/-! ## What the builder accepts -/

/-- A chunk the builder puts on the wire. -/
structure Buildable (chunk : TransferChunk) : Prop extends chunk.Placed where
  fileName : chunk.fileName = [] ↔ chunk.hasFileName = false
  length_fileName : chunk.fileName.length < 2 ^ 16
  lastIndex : chunk.isLastChunk = true → chunk.chunkIndex = chunk.totalChunks - 1
  fileChecksum : chunk.isLastChunk = false → chunk.fileChecksum = 0

theorem expectedBytes_le {chunk : TransferChunk} (h : chunk.start ≤ chunk.fileSize) :
    chunk.expectedBytes.toNat ≤ chunk.chunkSize.toNat := by
  rw [toNat_expectedBytes h]
  exact Nat.min_le_right ..

theorem expectedBytes_of_empty {chunk : TransferChunk} (h : chunk.start ≤ chunk.fileSize)
    (hempty : chunk.fileSize = 0) : chunk.expectedBytes.toNat = 0 := by
  have hzero : chunk.fileSize.toNat = 0 := congrArg UInt64.toNat hempty
  rw [toNat_expectedBytes h]
  omega

theorem buildCheck_iff {chunk : TransferChunk} : chunk.buildCheck = true ↔ chunk.Buildable := by
  simp only [buildCheck, Bool.if_false_left, Bool.and_eq_true, Bool.not_eq_true',
    decide_eq_false_iff_not, not_or, not_and, not_not, ge_iff_le, UInt32.not_le, gt_iff_lt,
    Nat.not_lt, UInt64.not_lt]
  constructor
  · rintro ⟨⟨hid, hsize, -, hindex⟩, -, hname, hsome, hlength, hnone, hlast, hchecksum, htotal,
      hstart, hdata⟩
    refine ⟨⟨hid, hsize, hindex, hname, htotal, hstart, ?_⟩, ⟨fun hnil => ?_, hnone⟩, ?_, hlast,
      hchecksum⟩
    · split at hdata
      · rename_i hempty
        rw [of_decide_eq_true hdata, expectedBytes_of_empty hstart hempty.1]
        rfl
      · exact of_decide_eq_true hdata
    · by_contra hhas
      exact hsome (Bool.not_eq_false _ ▸ hhas) hnil
    · omega
  · intro h
    have htotal : chunk.totalChunks ≠ 0 := by
      rintro hzero
      have := h.index_lt
      rw [hzero] at this
      exact absurd this UInt32.not_lt_zero
    refine ⟨⟨h.transferId_ne, h.chunkSize_ne, htotal, h.index_lt⟩,
      h.length_data.trans_le (expectedBytes_le h.start_le), h.hasFileName, fun hhas hnil => ?_,
      Nat.le_of_lt_succ h.length_fileName, h.fileName.mpr, h.lastIndex, h.fileChecksum, h.total,
      h.start_le, ?_⟩
    · rw [h.fileName.mp hnil] at hhas
      cases hhas
    · split
      · rename_i hempty
        have := h.length_data
        rw [expectedBytes_of_empty h.start_le hempty.1] at this
        exact decide_eq_true (List.eq_nil_of_length_eq_zero this)
      · exact decide_eq_true h.length_data

theorem build_eq_some_iff {chunk : TransferChunk} {payload : Bytes} :
    buildTransferChunkPayload chunk = some payload ↔ chunk.Buildable ∧ payload = chunk.wire := by
  rw [buildTransferChunkPayload, ← buildCheck_iff]
  split
  · rename_i hcheck
    exact ⟨fun h => ⟨hcheck, (Option.some.inj h).symm⟩, fun h => congrArg some h.2.symm⟩
  · rename_i hcheck
    exact iff_of_false (by simp) fun h => hcheck h.1

end TransferChunk

/-! ## What the parser accepts -/

/-- The two known flags are all there is in an accepted flag byte. -/
theorem wireFlags_of_known {flags : UInt8}
    (h : flags &&& ~~~(kFlagHasFileName ||| kFlagLastChunk) = 0) :
    wireFlags (flags &&& kFlagHasFileName ≠ 0) (flags &&& kFlagLastChunk ≠ 0) = flags := by
  have hall : ∀ n : Fin 256, UInt8.ofNat n.val &&& ~~~(kFlagHasFileName ||| kFlagLastChunk) = 0 →
      wireFlags (UInt8.ofNat n.val &&& kFlagHasFileName ≠ 0)
        (UInt8.ofNat n.val &&& kFlagLastChunk ≠ 0) = UInt8.ofNat n.val := by decide +kernel
  have hflags := hall ⟨flags.toNat, flags.toNat_lt⟩
  rw [UInt8.ofNat_toNat] at hflags
  exact hflags h

theorem readU8_eq_some {payload : Bytes} {cursor cursor' : Nat} {value : UInt8}
    (h : readU8 payload cursor = some (value, cursor')) :
    cursor' = cursor + 1 ∧ payload.drop cursor = value :: payload.drop cursor' := by
  obtain ⟨value', hload, heq⟩ := Option.map_eq_some_iff.mp h
  obtain ⟨rfl, rfl⟩ := Prod.mk.inj heq
  have hcell : payload[cursor]? = some value' := hload
  exact ⟨rfl, List.drop_eq_getElem?_toList_append.trans (by rw [hcell]; rfl)⟩

/-- A header that is read is the front of its payload. -/
theorem readChunkHeader_eq_some {payload : Bytes} {header : ChunkHeader} {cursor : Nat}
    (h : readChunkHeader payload = some (header, cursor)) :
    header.flags &&& ~~~(kFlagHasFileName ||| kFlagLastChunk) = 0 ∧
      cursor = kFixedHeaderSize ∧ payload = header.wire ++ payload.drop cursor := by
  -- the reads and the guards one by one, in the order of the parser
  obtain ⟨-, -, h⟩ := Option.bind_eq_some_iff.mp h
  obtain ⟨⟨magic, c₁⟩, hmagic, h⟩ := Option.bind_eq_some_iff.mp h
  obtain ⟨⟨⟩, hmagicEq, h⟩ := Option.bind_eq_some_iff.mp h
  obtain ⟨⟨version, c₂⟩, hversion, h⟩ := Option.bind_eq_some_iff.mp h
  obtain ⟨⟨⟩, hversionEq, h⟩ := Option.bind_eq_some_iff.mp h
  obtain ⟨⟨flags, c₃⟩, hflags, h⟩ := Option.bind_eq_some_iff.mp h
  obtain ⟨⟨⟩, hknown, h⟩ := Option.bind_eq_some_iff.mp h
  obtain ⟨⟨transferId, c₄⟩, hid, h⟩ := Option.bind_eq_some_iff.mp h
  obtain ⟨⟨fileSize, c₅⟩, hfileSize, h⟩ := Option.bind_eq_some_iff.mp h
  obtain ⟨⟨chunkSize, c₆⟩, hchunkSize, h⟩ := Option.bind_eq_some_iff.mp h
  obtain ⟨⟨chunkIndex, c₇⟩, hindex, h⟩ := Option.bind_eq_some_iff.mp h
  obtain ⟨⟨totalChunks, c₈⟩, htotal, h⟩ := Option.bind_eq_some_iff.mp h
  obtain ⟨⟨chunkDataSize, c₉⟩, hdataSize, h⟩ := Option.bind_eq_some_iff.mp h
  obtain ⟨⟨chunkChecksum, c₁₀⟩, hchecksum, h⟩ := Option.bind_eq_some_iff.mp h
  obtain ⟨⟨fileChecksum, c₁₁⟩, hfileChecksum, h⟩ := Option.bind_eq_some_iff.mp h
  obtain ⟨⟨fileNameSize, c₁₂⟩, hnameSize, hheader⟩ := Option.bind_eq_some_iff.mp h
  obtain ⟨rfl, rfl⟩ := Prod.mk.inj (Option.some.inj hheader)
  obtain ⟨rfl, -⟩ : magic = kWireMagic ∧ c₁ < payload.length :=
    (Option.guard_eq_some' _).mp hmagicEq
  obtain ⟨rfl, -⟩ : version = kWireVersion ∧ c₂ < payload.length :=
    (Option.guard_eq_some' _).mp hversionEq
  replace hknown := (Option.guard_eq_some' _).mp hknown
  -- each read stands at its field and leaves the cursor behind it
  obtain ⟨rfl, hmagic⟩ := drop_of_readU32 hmagic
  obtain ⟨rfl, hversion⟩ := readU8_eq_some hversion
  obtain ⟨rfl, hflags⟩ := readU8_eq_some hflags
  obtain ⟨rfl, hid⟩ := drop_of_readU64 hid
  obtain ⟨rfl, hfileSize⟩ := drop_of_readU64 hfileSize
  obtain ⟨rfl, hchunkSize⟩ := drop_of_readU32 hchunkSize
  obtain ⟨rfl, hindex⟩ := drop_of_readU32 hindex
  obtain ⟨rfl, htotal⟩ := drop_of_readU32 htotal
  obtain ⟨rfl, hdataSize⟩ := drop_of_readU32 hdataSize
  obtain ⟨rfl, hchecksum⟩ := drop_of_readU32 hchecksum
  obtain ⟨rfl, hfileChecksum⟩ := drop_of_readU32 hfileChecksum
  obtain ⟨rfl, hnameSize⟩ := drop_of_readU16 hnameSize
  refine ⟨hknown, rfl, ?_⟩
  rw [List.drop_zero] at hmagic
  calc payload
      = _ := hmagic
    _ = _ := by
      rw [hversion, hflags, hid, hfileSize, hchunkSize, hindex, htotal, hdataSize, hchecksum,
        hfileChecksum, hnameSize]
      simp [ChunkHeader.wire]

/-- The name and the data behind a header are those of the chunk. -/
theorem header_toChunk {header : ChunkHeader} {fileName data : Bytes}
    (hflags : header.flags &&& ~~~(kFlagHasFileName ||| kFlagLastChunk) = 0)
    (hname : fileName.length = header.fileNameSize.toNat)
    (hsize : data.length = header.chunkDataSize.toNat) :
    (header.toChunk fileName data).header = header := by
  have hknown : wireFlags header.hasFileName header.isLastChunk = header.flags :=
    wireFlags_of_known hflags
  simp only [TransferChunk.header, ChunkHeader.toChunk, hknown, hname, hsize, UInt32.ofNat_toNat,
    UInt16.ofNat_toNat]

theorem buildable_toChunk {header : ChunkHeader} {fileName data : Bytes}
    (hcheck : header.check = true) (hdata : header.checkData = true)
    (hname : fileName.length = header.fileNameSize.toNat)
    (hsize : data.length = header.chunkDataSize.toNat) :
    (header.toChunk fileName data).Buildable := by
  have hchecked := ChunkHeader.check_iff.mp hcheck
  refine ⟨placed_toChunk hcheck hdata hsize, ?_, ?_, hchecked.lastIndex, hchecked.fileChecksum⟩
  · show fileName = [] ↔ header.hasFileName = false
    rw [← hchecked.fileNameSize, ← List.length_eq_zero_iff, hname, ← UInt16.toNat_inj]
    rfl
  · show fileName.length < 2 ^ 16
    rw [hname]
    exact header.fileNameSize.toNat_lt

/-- The empty file has one chunk. -/
theorem TransferChunk.Placed.of_empty {chunk : TransferChunk} (h : chunk.Placed)
    (hempty : chunk.fileSize = 0) : chunk.chunkIndex = 0 ∧ chunk.totalChunks = 1 := by
  have htotal := h.total
  rw [calculateTotalChunks, if_neg h.chunkSize_ne, if_pos hempty] at htotal
  have hone : chunk.totalChunks = 1 := by
    have := congrArg UInt64.toNat htotal
    rw [UInt32.toNat_toUInt64] at this
    exact UInt32.toNat_inj.mp this.symm
  have hindex := h.index_lt
  rw [hone] at hindex
  refine ⟨?_, hone⟩
  have := UInt32.lt_iff_toNat_lt.mp hindex
  exact UInt32.toNat_inj.mp (Nat.lt_one_iff.mp this)

/-- What the checks on the data ask of a chunk that is well placed. -/
theorem checkData_iff {header : ChunkHeader} {fileName data : Bytes}
    (h : (header.toChunk fileName data).Placed)
    (hsize : data.length = header.chunkDataSize.toNat) :
    header.checkData = true ↔ (header.fileSize = 0 → header.isLastChunk = true) := by
  have hbound := h.length_data
  have hexpected : (header.toChunk fileName data).expectedBytes =
      header.chunkDataSize.toUInt64 := by
    rw [← UInt64.toNat_inj, UInt32.toNat_toUInt64, ← hsize]
    exact hbound.symm
  have hle : header.chunkDataSize ≤ header.chunkSize := by
    rw [UInt32.le_iff_toNat_le, ← hsize]
    exact hbound.trans_le (TransferChunk.expectedBytes_le h.start_le)
  have hstart : ¬ (header.toChunk [] []).start > header.fileSize := UInt64.not_lt.mpr h.start_le
  have hsame : (header.toChunk [] []).expectedBytes = header.chunkDataSize.toUInt64 := hexpected
  rw [ChunkHeader.checkData, if_neg (UInt32.not_lt.mpr hle), if_neg hstart]
  by_cases hempty : header.fileSize = 0
  · obtain ⟨hindex, htotal⟩ := h.of_empty hempty
    have hzero : header.chunkDataSize = 0 := by
      have := TransferChunk.expectedBytes_of_empty h.start_le hempty
      rw [hexpected, UInt32.toNat_toUInt64] at this
      exact UInt32.toNat_inj.mp this
    rw [if_pos ⟨hempty, hindex, htotal⟩]
    simp [hzero, hempty]
  · rw [if_neg fun hall => hempty hall.1]
    simp [hsame, hempty]

namespace TransferChunk.Buildable

variable {chunk : TransferChunk} (h : chunk.Buildable)

include h

theorem fileNameSize : chunk.fileName.length = chunk.header.fileNameSize.toNat := by
  show _ = (UInt16.ofNat chunk.fileName.length).toNat
  rw [UInt16.toNat_ofNat', Nat.mod_eq_of_lt h.length_fileName]

theorem chunkDataSize : chunk.data.length = chunk.header.chunkDataSize.toNat := by
  have hle := h.length_data.trans_le (expectedBytes_le h.start_le)
  have hlt := chunk.chunkSize.toNat_lt
  show _ = (UInt32.ofNat chunk.data.length).toNat
  rw [UInt32.toNat_ofNat', Nat.mod_eq_of_lt (by omega)]

theorem check_header : chunk.header.check = true := by
  rw [ChunkHeader.check_iff]
  refine ⟨h.transferId_ne, h.chunkSize_ne, h.index_lt, ?_, ?_, ?_, ?_, h.total⟩
  · rw [hasFileName_header]
    exact h.hasFileName
  · rw [hasFileName_header, ← h.fileName, ← List.length_eq_zero_iff, h.fileNameSize,
      ← UInt16.toNat_inj]
    rfl
  · rw [isLastChunk_header]
    exact h.fileChecksum
  · rw [isLastChunk_header]
    exact h.lastIndex

end TransferChunk.Buildable

/-- `ParseTransferChunkPayload` accepts what the builder writes of the chunks it accepts, but
for three conditions. -/
theorem parse_eq_some_iff {payload : Bytes} {chunk : TransferChunk} :
    parseTransferChunkPayload payload = some chunk ↔
      chunk.Buildable ∧ payload = chunk.wire ∧
      (chunk.hasFileName = true → containsPathTraversal chunk.fileName = false) ∧
      (chunk.fileSize = 0 → chunk.isLastChunk = true) ∧
      computeChecksum chunk.data = chunk.chunkChecksum := by
  constructor
  · intro h
    simp only [parseTransferChunkPayload, Option.bind_eq_bind, Option.bind_eq_some_iff,
      Option.guard_eq_some', exists_const, Prod.exists] at h
    obtain ⟨header, cursor, hread, hcheck, hroom, hsafe, hend, hdata, hchecksum, hchunk⟩ := h
    obtain ⟨hflags, rfl, hpayload⟩ := readChunkHeader_eq_some hread
    set fileName := (payload.drop kFixedHeaderSize).take header.fileNameSize.toNat with hfileName
    set data := (payload.drop (kFixedHeaderSize + header.fileNameSize.toNat)).take
      header.chunkDataSize.toNat with hdataEq
    obtain rfl := Option.some.inj hchunk
    -- name and data are as long as the header says, or the payload were too short
    have hname : fileName.length = header.fileNameSize.toNat := by
      rw [hfileName, List.length_take, List.length_drop]
      omega
    have hsize : data.length = header.chunkDataSize.toNat := by
      rw [hdataEq, List.length_take, List.length_drop]
      omega
    have hbuildable := buildable_toChunk hcheck hdata hname hsize
    have hbody : payload.drop kFixedHeaderSize = fileName ++ data := by
      rw [hdataEq, List.take_of_length_le (by rw [List.length_drop]; omega), ← List.drop_drop,
        hfileName, List.take_append_drop]
    refine ⟨hbuildable, ?_, fun hhas => ?_, (checkData_iff hbuildable.toPlaced hsize).mp hdata,
      hchecksum⟩
    · rw [TransferChunk.wire_eq, header_toChunk hflags hname hsize]
      exact hpayload.trans (congrArg (header.wire ++ ·) hbody)
    · exact Bool.eq_false_of_not_eq_true fun htraversal => hsafe ⟨hhas, htraversal⟩
  · rintro ⟨hbuildable, rfl, hsafe, hlast, hchecksum⟩
    -- back: what the builder checks is what the parser asks for
    have hplaced : (chunk.header.toChunk chunk.fileName chunk.data).Placed := by
      rw [chunk.toChunk_header]
      exact hbuildable.toPlaced
    have hdata : chunk.header.checkData = true := by
      rw [checkData_iff hplaced hbuildable.chunkDataSize, chunk.isLastChunk_header]
      exact hlast
    rw [chunk.wire_eq, parseTransferChunkPayload_wire (wireFlags_known ..) hbuildable.check_header
      hbuildable.fileNameSize (by rwa [chunk.hasFileName_header]) hbuildable.chunkDataSize hdata
      hchecksum, chunk.toChunk_header]

/-! ## The two against each other -/

/-- An accepted payload is the one the builder makes of its chunk; no other payload gives this
chunk. -/
theorem build_of_parse {payload : Bytes} {chunk : TransferChunk}
    (h : parseTransferChunkPayload payload = some chunk) :
    buildTransferChunkPayload chunk = some payload ∧
      ∀ payload', parseTransferChunkPayload payload' = some chunk → payload' = payload := by
  obtain ⟨hbuildable, hpayload, -⟩ := parse_eq_some_iff.mp h
  refine ⟨TransferChunk.build_eq_some_iff.mpr ⟨hbuildable, hpayload⟩, fun payload' h' => ?_⟩
  obtain ⟨-, hpayload', -⟩ := parse_eq_some_iff.mp h'
  rw [hpayload, hpayload']

/-- Chunk `i` of the file `a` of the bytes 1 to 5, in chunks of two. -/
def fiveByteChunk (i : UInt32) : TransferChunk :=
  let data : Bytes := ([1, 2, 3, 4, 5].drop (i.toNat * 2)).take 2
  { transferId := 1
    fileSize := 5
    chunkSize := 2
    chunkIndex := i
    totalChunks := 3
    chunkChecksum := computeChecksum data
    fileChecksum := if i = 2 then computeChecksum [1, 2, 3, 4, 5] else 0
    hasFileName := i = 0
    isLastChunk := i = 2
    fileName := if i = 0 then [0x61] else []
    data }

theorem build_of_parse_fiveByteChunk :
    (fiveByteChunk 0).data = [1, 2] ∧
      buildTransferChunkPayload (fiveByteChunk 0) = some (fiveByteChunk 0).wire ∧
      ∀ payload, parseTransferChunkPayload payload = some (fiveByteChunk 0) →
        payload = (fiveByteChunk 0).wire :=
  ⟨by decide, @build_of_parse (fiveByteChunk 0).wire (fiveByteChunk 0) (by decide +kernel)⟩

/-- The decoder gives back what the encoder accepts, exactly if the chunk is not one of the
empty file without the last flag: this the encoder lets through and the decoder does not. -/
theorem parse_build_iff {chunk : TransferChunk} {payload : Bytes}
    (hchecksum : chunk.chunkChecksum = computeChecksum chunk.data)
    (hname : chunk.hasFileName = true → containsPathTraversal chunk.fileName = false)
    (hbuild : buildTransferChunkPayload chunk = some payload) :
    parseTransferChunkPayload payload = some chunk ↔
      ¬ (chunk.fileSize = 0 ∧ chunk.isLastChunk = false) := by
  obtain ⟨hbuildable, hpayload⟩ := TransferChunk.build_eq_some_iff.mp hbuild
  rw [parse_eq_some_iff, not_and, Bool.not_eq_false]
  exact ⟨fun h => h.2.2.2.1, fun hlast => ⟨hbuildable, hpayload, hname, hlast, hchecksum.symm⟩⟩

theorem parse_build_iff_fiveByteChunk :
    (fiveByteChunk 0).data = [1, 2] ∧
      parseTransferChunkPayload (fiveByteChunk 0).wire = some (fiveByteChunk 0) :=
  ⟨by decide, (@parse_build_iff (fiveByteChunk 0) (fiveByteChunk 0).wire (by decide +kernel)
    (by decide +kernel) (by decide +kernel)).mpr (by decide)⟩

/-- The only chunk of the empty file `a`, without the last flag. -/
def emptyFileChunk : TransferChunk where
  transferId := 1
  fileSize := 0
  chunkSize := 1024
  chunkIndex := 0
  totalChunks := 1
  chunkChecksum := kFnv1aOffset
  fileChecksum := 0
  hasFileName := true
  isLastChunk := false
  fileName := [0x61]
  data := []

/-- The encoder accepts the empty file's chunk without the last flag; the decoder rejects the
payload. -/
theorem empty_file_not_last_rejected :
    let chunk := emptyFileChunk
    chunk.chunkChecksum = computeChecksum chunk.data ∧
      containsPathTraversal chunk.fileName = false ∧
      ∃ payload, buildTransferChunkPayload chunk = some payload ∧
        parseTransferChunkPayload payload = none :=
  ⟨by decide +kernel, by decide +kernel, emptyFileChunk.wire, by decide +kernel,
    by decide +kernel⟩

end ZetaNet
