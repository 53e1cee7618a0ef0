import ZetaNet.Wire.Checksum

/-!
# The chunk payload of a file transfer

`TransferChunk`, `BuildTransferChunkPayload` and `ParseTransferChunkPayload` of
`z_file_transporter.cc` with `ContainsPathTraversal` and `CalculateTotalChunks`: what the parser
accepts, and that it reads a payload laid out field by field.
-/

namespace ZetaNet

open Wire

def kWireMagic : UInt32 := 0x5A465452
def kWireVersion : UInt8 := 1
def kFlagHasFileName : UInt8 := 1
def kFlagLastChunk : UInt8 := 2
def kFixedHeaderSize : Nat := 48

/-- `struct TransferChunk`. -/
structure TransferChunk where
  transferId : UInt64
  fileSize : UInt64
  chunkSize : UInt32
  chunkIndex : UInt32
  totalChunks : UInt32
  chunkChecksum : UInt32
  fileChecksum : UInt32
  hasFileName : Bool
  isLastChunk : Bool
  fileName : Bytes
  data : Bytes
  deriving DecidableEq

/-! ## File names -/

def kDot : UInt8 := 0x2E
def kColon : UInt8 := 0x3A

/-- A slash or a backslash. -/
def isSeparator (char : UInt8) : Bool := char = 0x2F ∨ char = 0x5C

/-- `std::isalpha` in the C locale. -/
def isAlpha (char : UInt8) : Bool :=
  (0x41 ≤ char ∧ char ≤ 0x5A) ∨ (0x61 ≤ char ∧ char ≤ 0x7A)

/-- The two tests of the loop at `path[i]`. -/
def traversalAt (path : Bytes) (i : Nat) : Bool :=
  (path[i]? = some kDot ∧ path[i + 1]? = some kDot ∧
      (path[i + 2]?.elim true isSeparator)) ∨
    (path[i]?.any isSeparator ∧ path[i + 1]? = some kDot ∧ path[i + 2]? = some kDot)

/-- `ContainsPathTraversal`, also called `IsPathTraversal`. -/
def containsPathTraversal (path : Bytes) : Bool :=
  if path = [] then true
  else if path[0]?.any isSeparator then true
  else if path[0]?.any isAlpha ∧ path[1]? = some kColon then true
  else (List.range path.length).any (traversalAt path)

/-! ## Geometry -/

/-- `CalculateTotalChunks`; the sum wraps around as `u64` does. -/
def calculateTotalChunks (fileSize : UInt64) (chunkSize : UInt32) : UInt64 :=
  if chunkSize = 0 then 0
  else if fileSize = 0 then 1
  else (fileSize + chunkSize.toUInt64 - 1) / chunkSize.toUInt64

namespace TransferChunk

/-- `chunk_start`. -/
def start (chunk : TransferChunk) : UInt64 := chunk.chunkIndex.toUInt64 * chunk.chunkSize.toUInt64

/-- `expected_chunk_bytes`. -/
def expectedBytes (chunk : TransferChunk) : UInt64 :=
  let remaining := chunk.fileSize - chunk.start
  if chunk.chunkSize.toUInt64 < remaining then chunk.chunkSize.toUInt64 else remaining

end TransferChunk

/-! ## Parsing -/

/-- The fields in front of the file name. -/
structure ChunkHeader where
  flags : UInt8
  transferId : UInt64
  fileSize : UInt64
  chunkSize : UInt32
  chunkIndex : UInt32
  totalChunks : UInt32
  chunkDataSize : UInt32
  chunkChecksum : UInt32
  fileChecksum : UInt32
  fileNameSize : UInt16
  deriving DecidableEq

namespace ChunkHeader

def hasFileName (header : ChunkHeader) : Bool := header.flags &&& kFlagHasFileName ≠ 0
def isLastChunk (header : ChunkHeader) : Bool := header.flags &&& kFlagLastChunk ≠ 0

/-- The checks of `ParseTransferChunkPayload` on the header alone. -/
def check (header : ChunkHeader) : Bool :=
  if header.transferId = 0 ∨ header.chunkSize = 0 ∨ header.totalChunks = 0 ∨
      header.chunkIndex ≥ header.totalChunks then false
  else if header.hasFileName ≠ decide (header.chunkIndex = 0) then false
  else if header.hasFileName = false ∧ header.fileNameSize ≠ 0 then false
  else if header.hasFileName ∧ header.fileNameSize = 0 then false
  else if header.isLastChunk = false ∧ header.fileChecksum ≠ 0 then false
  else if header.isLastChunk ∧ header.chunkIndex ≠ header.totalChunks - 1 then false
  else calculateTotalChunks header.fileSize header.chunkSize = header.totalChunks.toUInt64

/-- The chunk `ParseTransferChunkPayload` fills in. -/
def toChunk (header : ChunkHeader) (fileName data : Bytes) : TransferChunk where
  transferId := header.transferId
  fileSize := header.fileSize
  chunkSize := header.chunkSize
  chunkIndex := header.chunkIndex
  totalChunks := header.totalChunks
  chunkChecksum := header.chunkChecksum
  fileChecksum := header.fileChecksum
  hasFileName := header.hasFileName
  isLastChunk := header.isLastChunk
  fileName
  data

/-- The checks that follow on the chunk's place in the file. -/
def checkData (header : ChunkHeader) : Bool :=
  let chunk := header.toChunk [] []
  if header.chunkDataSize > header.chunkSize then false
  else if chunk.start > header.fileSize then false
  else if header.fileSize = 0 ∧ header.chunkIndex = 0 ∧ header.totalChunks = 1 then
    header.chunkDataSize = 0 ∧ header.isLastChunk
  else header.chunkDataSize.toUInt64 = chunk.expectedBytes

end ChunkHeader

/-- `payload[cursor++]`. -/
def readU8 (payload : Bytes) (cursor : Nat) : Option (UInt8 × Nat) :=
  (loadU8 payload cursor).map fun value => (value, cursor + 1)

/-- The reads up to the size of the file name, and the cursor behind it. -/
def readChunkHeader (payload : Bytes) : Option (ChunkHeader × Nat) := do
  guard (kFixedHeaderSize ≤ payload.length)
  let (magic, cursor) ← readU32 payload 0
  guard (magic = kWireMagic ∧ cursor < payload.length)
  let (version, cursor) ← readU8 payload cursor
  guard (version = kWireVersion ∧ cursor < payload.length)
  let (flags, cursor) ← readU8 payload cursor
  guard (flags &&& ~~~(kFlagHasFileName ||| kFlagLastChunk) = 0)
  let (transferId, cursor) ← readU64 payload cursor
  let (fileSize, cursor) ← readU64 payload cursor
  let (chunkSize, cursor) ← readU32 payload cursor
  let (chunkIndex, cursor) ← readU32 payload cursor
  let (totalChunks, cursor) ← readU32 payload cursor
  let (chunkDataSize, cursor) ← readU32 payload cursor
  let (chunkChecksum, cursor) ← readU32 payload cursor
  let (fileChecksum, cursor) ← readU32 payload cursor
  let (fileNameSize, cursor) ← readU16 payload cursor
  return ({ flags, transferId, fileSize, chunkSize, chunkIndex, totalChunks, chunkDataSize,
            chunkChecksum, fileChecksum, fileNameSize }, cursor)

/-- `ParseTransferChunkPayload`, `none` for `false`. -/
def parseTransferChunkPayload (payload : Bytes) : Option TransferChunk := do
  let (header, cursor) ← readChunkHeader payload
  guard header.check
  guard (cursor + header.fileNameSize.toNat ≤ payload.length)
  let fileName := (payload.drop cursor).take header.fileNameSize.toNat
  let cursor := cursor + header.fileNameSize.toNat
  guard (¬ (header.hasFileName ∧ containsPathTraversal fileName))
  guard (cursor + header.chunkDataSize.toNat = payload.length)
  guard header.checkData
  let data := (payload.drop cursor).take header.chunkDataSize.toNat
  guard (computeChecksum data = header.chunkChecksum)
  return header.toChunk fileName data

/-! ## Building -/

/-- The flag byte of a chunk. -/
def wireFlags (first last : Bool) : UInt8 :=
  let flags : UInt8 := if first then 0 ||| kFlagHasFileName else 0
  if last then flags ||| kFlagLastChunk else flags

theorem wireFlags_known (first last : Bool) :
    wireFlags first last &&& ~~~(kFlagHasFileName ||| kFlagLastChunk) = 0 := by
  cases first <;> cases last <;> decide

theorem wireFlags_hasFileName (first last : Bool) :
    decide (wireFlags first last &&& kFlagHasFileName ≠ 0) = first := by
  cases first <;> cases last <;> decide

theorem wireFlags_lastChunk (first last : Bool) :
    decide (wireFlags first last &&& kFlagLastChunk ≠ 0) = last := by
  cases first <;> cases last <;> decide

namespace TransferChunk

/-- What `BuildTransferChunkPayload` appends. -/
def wire (chunk : TransferChunk) : Bytes :=
  let payload := appendU32 [] kWireMagic ++ [kWireVersion]
  let payload := payload ++ [wireFlags chunk.hasFileName chunk.isLastChunk]
  let payload := appendU64 payload chunk.transferId
  let payload := appendU64 payload chunk.fileSize
  let payload := appendU32 payload chunk.chunkSize
  let payload := appendU32 payload chunk.chunkIndex
  let payload := appendU32 payload chunk.totalChunks
  let payload := appendU32 payload (UInt32.ofNat chunk.data.length)
  let payload := appendU32 payload chunk.chunkChecksum
  let payload := appendU32 payload chunk.fileChecksum
  let payload := appendU16 payload (UInt16.ofNat chunk.fileName.length)
  payload ++ chunk.fileName ++ chunk.data

/-- The checks of `BuildTransferChunkPayload`. -/
def buildCheck (chunk : TransferChunk) : Bool :=
  if chunk.transferId = 0 ∨ chunk.chunkSize = 0 ∨ chunk.totalChunks = 0 ∨
      chunk.chunkIndex ≥ chunk.totalChunks then false
  else if chunk.data.length > chunk.chunkSize.toNat then false
  else if chunk.hasFileName ≠ decide (chunk.chunkIndex = 0) then false
  else if chunk.hasFileName ∧ chunk.fileName = [] then false
  else if chunk.fileName.length > 0xFFFF then false
  else if chunk.hasFileName = false ∧ chunk.fileName ≠ [] then false
  else if chunk.isLastChunk ∧ chunk.chunkIndex ≠ chunk.totalChunks - 1 then false
  else if chunk.isLastChunk = false ∧ chunk.fileChecksum ≠ 0 then false
  else if calculateTotalChunks chunk.fileSize chunk.chunkSize ≠ chunk.totalChunks.toUInt64 then
    false
  else if chunk.start > chunk.fileSize then false
  else if chunk.fileSize = 0 ∧ chunk.chunkIndex = 0 ∧ chunk.totalChunks = 1 then chunk.data = []
  else chunk.data.length = chunk.expectedBytes.toNat

end TransferChunk

/-- `BuildTransferChunkPayload`, `none` for `false`. -/
def buildTransferChunkPayload (chunk : TransferChunk) : Option Bytes :=
  if chunk.buildCheck then some chunk.wire else none

/-! ## What is read of a payload laid out field by field -/

/-- The bytes `readChunkHeader` reads. -/
def ChunkHeader.wire (header : ChunkHeader) : Bytes :=
  leU32 kWireMagic ++ (kWireVersion :: header.flags :: (leU64 header.transferId ++
    (leU64 header.fileSize ++ (leU32 header.chunkSize ++ (leU32 header.chunkIndex ++
      (leU32 header.totalChunks ++ (leU32 header.chunkDataSize ++ (leU32 header.chunkChecksum ++
        (leU32 header.fileChecksum ++ leU16 header.fileNameSize)))))))))

@[simp] theorem ChunkHeader.length_wire (header : ChunkHeader) :
    header.wire.length = kFixedHeaderSize := by
  simp [wire, kFixedHeaderSize]

theorem bind_of_eq_some {α β : Type} {x : Option α} {a : α} {f : α → Option β} (h : x = some a) :
    (x >>= f) = f a := by
  rw [h]
  rfl

theorem guard_eq_some {p : Prop} [Decidable p] (h : p) : (guard p : Option Unit) = some () :=
  if_pos h

theorem readU8_of_drop {payload back : Bytes} {cursor : Nat} {value : UInt8}
    (h : payload.drop cursor = value :: back) :
    readU8 payload cursor = some (value, cursor + 1) := by
  rw [readU8, loadU8_of_drop h, Option.map_some]

theorem readChunkHeader_wire {header : ChunkHeader}
    (hflags : header.flags &&& ~~~(kFlagHasFileName ||| kFlagLastChunk) = 0) (back : Bytes) :
    readChunkHeader (header.wire ++ back) = some (header, kFixedHeaderSize) := by
  set payload := header.wire ++ back with hpayload
  have hlength : 48 ≤ payload.length := by simp [hpayload, kFixedHeaderSize]
  have hversionIn : 4 < payload.length := by omega
  have hflagsIn : 5 < payload.length := by omega
  have hmagic : payload.drop 0 = leU32 kWireMagic ++ ([kWireVersion] ++ ([header.flags] ++
      (leU64 header.transferId ++ (leU64 header.fileSize ++ (leU32 header.chunkSize ++
        (leU32 header.chunkIndex ++ (leU32 header.totalChunks ++ (leU32 header.chunkDataSize ++
          (leU32 header.chunkChecksum ++ (leU32 header.fileChecksum ++
            (leU16 header.fileNameSize ++ back))))))))))) := by
    simp [hpayload, ChunkHeader.wire]
  have hversion := drop_field hmagic
  have hflagsAt := drop_field hversion
  have hid := drop_field hflagsAt
  have hfileSize := drop_field hid
  have hchunkSize := drop_field hfileSize
  have hindex := drop_field hchunkSize
  have htotal := drop_field hindex
  have hdataSize := drop_field htotal
  have hchecksum := drop_field hdataSize
  have hfileChecksum := drop_field hchecksum
  have hnameSize := drop_field hfileChecksum
  simp only [length_leU32, length_leU64, List.length_singleton, Nat.zero_add, Nat.reduceAdd]
    at hversion hflagsAt hid hfileSize hchunkSize hindex htotal hdataSize hchecksum hfileChecksum
  simp only [length_leU32, length_leU64, List.length_singleton, Nat.zero_add, Nat.reduceAdd]
    at hnameSize
  -- the reads one by one, each from the cursor the one before leaves
  refine (bind_of_eq_some (guard_eq_some hlength)).trans ?_
  refine (bind_of_eq_some (readU32_of_drop hmagic)).trans ?_
  refine (bind_of_eq_some (guard_eq_some ⟨rfl, hversionIn⟩)).trans ?_
  refine (bind_of_eq_some (readU8_of_drop hversion)).trans ?_
  refine (bind_of_eq_some (guard_eq_some ⟨rfl, hflagsIn⟩)).trans ?_
  refine (bind_of_eq_some (readU8_of_drop hflagsAt)).trans ?_
  refine (bind_of_eq_some (guard_eq_some hflags)).trans ?_
  refine (bind_of_eq_some (readU64_of_drop hid)).trans ?_
  refine (bind_of_eq_some (readU64_of_drop hfileSize)).trans ?_
  refine (bind_of_eq_some (readU32_of_drop hchunkSize)).trans ?_
  refine (bind_of_eq_some (readU32_of_drop hindex)).trans ?_
  refine (bind_of_eq_some (readU32_of_drop htotal)).trans ?_
  refine (bind_of_eq_some (readU32_of_drop hdataSize)).trans ?_
  refine (bind_of_eq_some (readU32_of_drop hchecksum)).trans ?_
  refine (bind_of_eq_some (readU32_of_drop hfileChecksum)).trans ?_
  exact (bind_of_eq_some (readU16_of_drop hnameSize)).trans rfl

/-- A payload whose header passes the checks and describes what follows it. -/
theorem parseTransferChunkPayload_wire {header : ChunkHeader} {fileName data : Bytes}
    (hflags : header.flags &&& ~~~(kFlagHasFileName ||| kFlagLastChunk) = 0)
    (hcheck : header.check = true) (hname : fileName.length = header.fileNameSize.toNat)
    (hsafe : header.hasFileName = true → containsPathTraversal fileName = false)
    (hsize : data.length = header.chunkDataSize.toNat) (hdata : header.checkData = true)
    (hchecksum : computeChecksum data = header.chunkChecksum) :
    parseTransferChunkPayload (header.wire ++ (fileName ++ data)) =
      some (header.toChunk fileName data) := by
  set payload := header.wire ++ (fileName ++ data) with hpayload
  have hlength : payload.length = 48 + fileName.length + data.length := by
    simp [hpayload, kFixedHeaderSize]
    omega
  have hbody : payload.drop 48 = fileName ++ data :=
    List.drop_left' (header.length_wire.trans rfl)
  have hback : payload.drop (48 + header.fileNameSize.toNat) = data := by
    rw [← hname]
    exact drop_field hbody
  have hunsafe : ¬ (header.hasFileName = true ∧ containsPathTraversal fileName = true) := by
    rintro ⟨hhas, htraversal⟩
    rw [hsafe hhas] at htraversal
    cases htraversal
  have hroom : 48 + header.fileNameSize.toNat ≤ payload.length := by omega
  have hend : 48 + header.fileNameSize.toNat + header.chunkDataSize.toNat = payload.length := by
    omega
  have hnameRead : (payload.drop 48).take header.fileNameSize.toNat = fileName := by
    rw [hbody, List.take_left' hname]
  have hdataRead : (payload.drop (48 + header.fileNameSize.toNat)).take
      header.chunkDataSize.toNat = data := by
    rw [hback, List.take_of_length_le (by omega)]
  rw [parseTransferChunkPayload, readChunkHeader_wire hflags]
  simp only [Option.bind_eq_bind, Option.bind_some, kFixedHeaderSize, hnameRead, hdataRead]
  simp [guard, hcheck, hdata, hchecksum, hunsafe, hroom, hend]

/-! ## The checks as propositions -/

namespace ChunkHeader

/-- What `check` lets through. -/
structure Checked (header : ChunkHeader) : Prop where
  transferId_ne : header.transferId ≠ 0
  chunkSize_ne : header.chunkSize ≠ 0
  index_lt : header.chunkIndex < header.totalChunks
  hasFileName : header.hasFileName = decide (header.chunkIndex = 0)
  fileNameSize : header.fileNameSize = 0 ↔ header.hasFileName = false
  fileChecksum : header.isLastChunk = false → header.fileChecksum = 0
  lastIndex : header.isLastChunk = true → header.chunkIndex = header.totalChunks - 1
  total : calculateTotalChunks header.fileSize header.chunkSize = header.totalChunks.toUInt64

theorem check_iff {header : ChunkHeader} : header.check = true ↔ header.Checked := by
  simp only [check, Bool.if_false_left, Bool.and_eq_true, Bool.not_eq_true',
    decide_eq_false_iff_not, decide_eq_true_eq, not_or, not_and, not_not, ge_iff_le,
    UInt32.not_le]
  constructor
  · rintro ⟨⟨hid, hsize, -, hindex⟩, hname, hnone, hsome, hchecksum, hlast, htotal⟩
    refine ⟨hid, hsize, hindex, hname, ⟨fun hzero => ?_, hnone⟩, hchecksum, hlast, htotal⟩
    by_contra hhas
    exact hsome (Bool.not_eq_false _ ▸ hhas) hzero
  · intro h
    have htotal : header.totalChunks ≠ 0 := by
      rintro hzero
      have := h.index_lt
      rw [hzero] at this
      exact absurd this (UInt32.not_lt_zero)
    refine ⟨⟨h.transferId_ne, h.chunkSize_ne, htotal, h.index_lt⟩, h.hasFileName,
      h.fileNameSize.mpr, fun hhas hzero => ?_, h.fileChecksum, h.lastIndex, h.total⟩
    rw [h.fileNameSize.mp hzero] at hhas
    cases hhas

end ChunkHeader

/-! ## What is known of a parsed chunk -/

namespace TransferChunk

/-- Where a parsed chunk stands in its file. -/
structure Placed (chunk : TransferChunk) : Prop where
  transferId_ne : chunk.transferId ≠ 0
  chunkSize_ne : chunk.chunkSize ≠ 0
  index_lt : chunk.chunkIndex < chunk.totalChunks
  hasFileName : chunk.hasFileName = decide (chunk.chunkIndex = 0)
  total : calculateTotalChunks chunk.fileSize chunk.chunkSize = chunk.totalChunks.toUInt64
  start_le : chunk.start ≤ chunk.fileSize
  length_data : chunk.data.length = chunk.expectedBytes.toNat

/-- The product of two `u32` values is no more than a `u64`. -/
theorem toNat_start (chunk : TransferChunk) :
    chunk.start.toNat = chunk.chunkIndex.toNat * chunk.chunkSize.toNat := by
  have hindex := chunk.chunkIndex.toNat_lt
  have hsize := chunk.chunkSize.toNat_lt
  have hmul : chunk.chunkIndex.toNat * chunk.chunkSize.toNat < 2 ^ 64 := by
    calc chunk.chunkIndex.toNat * chunk.chunkSize.toNat
        ≤ (2 ^ 32 - 1) * (2 ^ 32 - 1) := Nat.mul_le_mul (by omega) (by omega)
      _ < 2 ^ 64 := by norm_num
  rw [start, UInt64.toNat_mul, UInt32.toNat_toUInt64, UInt32.toNat_toUInt64,
    Nat.mod_eq_of_lt hmul]

theorem toNat_expectedBytes {chunk : TransferChunk} (h : chunk.start ≤ chunk.fileSize) :
    chunk.expectedBytes.toNat =
      min (chunk.fileSize.toNat - chunk.start.toNat) chunk.chunkSize.toNat := by
  have hsub : (chunk.fileSize - chunk.start).toNat =
      chunk.fileSize.toNat - chunk.start.toNat := UInt64.toNat_sub_of_le _ _ h
  rw [expectedBytes, ← hsub, ← UInt32.toNat_toUInt64]
  split
  · rename_i hlt
    have := UInt64.lt_iff_toNat_lt.mp hlt
    omega
  · rename_i hge
    have := UInt64.le_iff_toNat_le.mp (UInt64.not_lt.mp hge)
    omega

/-- A parsed chunk ends inside its file. -/
theorem Placed.end_le {chunk : TransferChunk} (h : chunk.Placed) :
    chunk.start.toNat + chunk.data.length ≤ chunk.fileSize.toNat := by
  have hstart := UInt64.le_iff_toNat_le.mp h.start_le
  have hlength := h.length_data
  rw [toNat_expectedBytes h.start_le] at hlength
  omega

end TransferChunk

theorem placed_toChunk {header : ChunkHeader} {fileName data : Bytes}
    (hcheck : header.check = true) (hdata : header.checkData = true)
    (hsize : data.length = header.chunkDataSize.toNat) :
    (header.toChunk fileName data).Placed := by
  have hchecked := ChunkHeader.check_iff.mp hcheck
  simp only [ChunkHeader.checkData, Bool.if_false_left, Bool.and_eq_true, Bool.not_eq_true',
    decide_eq_false_iff_not, gt_iff_lt, UInt32.not_lt, UInt64.not_lt] at hdata
  obtain ⟨-, hstart, hbytes⟩ := hdata
  refine ⟨hchecked.transferId_ne, hchecked.chunkSize_ne, hchecked.index_lt, hchecked.hasFileName,
    hchecked.total, hstart, ?_⟩
  · have hbound :=
      @TransferChunk.toNat_expectedBytes (header.toChunk fileName data) hstart
    show data.length = (header.toChunk fileName data).expectedBytes.toNat
    split at hbytes
    · -- the empty file, where no byte is expected
      rename_i hempty
      have hzero : (header.toChunk fileName data).fileSize.toNat = 0 := congrArg _ hempty.1
      simp only [Bool.decide_and, Bool.and_eq_true, decide_eq_true_eq] at hbytes
      rw [hsize, hbytes.1, hbound]
      show 0 = _
      omega
    · rw [hsize, ← UInt32.toNat_toUInt64]
      exact congrArg UInt64.toNat (of_decide_eq_true hbytes)

theorem placed_of_parse {payload : Bytes} {chunk : TransferChunk}
    (h : parseTransferChunkPayload payload = some chunk) : chunk.Placed := by
  simp only [parseTransferChunkPayload, Option.bind_eq_bind, Option.bind_eq_some_iff,
    Option.guard_eq_some', exists_and_left, exists_const, Prod.exists] at h
  obtain ⟨header, cursor, -, hcheck, -, -, hsize, hdata, -, hchunk⟩ := h
  obtain rfl := Option.some.inj hchunk
  refine placed_toChunk hcheck hdata ?_
  rw [List.length_take, List.length_drop]
  omega

end ZetaNet
