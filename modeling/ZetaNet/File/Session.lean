import ZetaNet.File.Split
import ZetaNet.File.Stream
import Mathlib.Data.Finset.Card

/-!
# A receive session while a file comes in

What a session and its temporary file are after a set of chunks has been received, in whatever
order and however often, and what one more call of `StreamChunkToFile` makes of them.
-/

namespace ZetaNet

open Blocks

/-! ## The write handles -/

/-- A write hands over what was in the buffer and takes the new bytes, to the buffer or to the
file. -/
theorem FileStream.exists_write {N : Type} {stream : FileStream} (hgood : stream.good = true)
    {offset : UInt64} (hoffset : offset.toNat < 2 ^ 63) {data : Bytes}
    (hdata : data.length < 2 ^ 31) (files : FileSystem N) :
    ∃ stream' files', stream.write {} offset data files = (true, stream', files') ∧
      stream'.file = stream.file ∧ stream'.good = true ∧
      stream'.flushed files' = (stream.flushed files).write stream.file offset.toNat data := by
  have hsync : stream.sync {} files = ({ stream with buffer := [] }, stream.flushed files) := by
    simp [FileStream.sync, FileSystem.store, FileStream.flushed, hgood]
  have hmax : ¬ offset > kMaxFileOffset := by
    rw [gt_iff_lt, UInt64.lt_iff_toNat_lt, show kMaxFileOffset.toNat = 2 ^ 63 - 1 from rfl]
    omega
  unfold FileStream.write
  simp only [hsync, hgood, Bool.true_eq_false, if_false, hmax]
  by_cases hshort : data.length < stream.bufferSize
  · refine ⟨{ stream with bufferOffset := offset.toNat, buffer := data }, stream.flushed files,
      ?_, rfl, hgood, rfl⟩
    rw [if_pos hshort, decide_eq_true hdata, hgood]
  · refine ⟨{ stream with buffer := [] },
      (stream.flushed files).write stream.file offset.toNat data, ?_, rfl, hgood, ?_⟩
    · rw [if_neg hshort, decide_eq_true hdata]
      simp [FileSystem.store, hgood]
    · exact FileSystem.write_nil ..

namespace FileWriteHandle

/-- The handle writes to the inode, a mapping to its first `size` bytes. -/
inductive Serves (inode : Nat) (size : UInt64) : FileWriteHandle → Prop
  | positional {stream : FileStream} : stream.file = inode →
      Serves inode size (.positional (some stream))
  | mapped : Serves inode size (.memoryMapped (some inode) size)
  | unmapped : size = 0 → Serves inode size (.memoryMapped none 0)

variable {N : Type} {inode : Nat} {size : UInt64} {handle : FileWriteHandle}

/-- Both kinds of handle take bytes that lie within the size. -/
theorem Serves.writeAt (h : handle.Serves inode size) (hgood : handle.good = true)
    (hsize : size.toNat < 2 ^ 63) {offset : UInt64} {data : Bytes}
    (hdata : data.length < 2 ^ 31) (hend : offset.toNat + data.length ≤ size.toNat)
    (files : FileSystem N) :
    ∃ handle' files', handle.writeAt {} offset data files = (true, handle', files') ∧
      handle'.Serves inode size ∧ handle'.good = true ∧
      handle'.flushed files' = (handle.flushed files).write inode offset.toNat data := by
  by_cases hempty : data = []
  · refine ⟨handle, files, ?_, h, hgood, by rw [hempty, FileSystem.write_nil]⟩
    cases h <;> simp [FileWriteHandle.writeAt, hempty]
  have hpos := List.length_pos_iff.mpr hempty
  cases h with
  | positional hfile =>
      have hoffset : offset.toNat < 2 ^ 63 := by omega
      obtain ⟨stream', files', hwrite, hfile', hgood', hflushed⟩ :=
        FileStream.exists_write hgood hoffset hdata files
      refine ⟨.positional (some stream'), files', ?_, .positional (hfile'.trans hfile), hgood', ?_⟩
      · simp [FileWriteHandle.writeAt, hempty, hwrite]
      · rw [← hfile]
        exact hflushed
  | mapped =>
      have hle : offset ≤ size := UInt64.le_iff_toNat_le.mpr (by omega)
      have hroom : ¬ data.length > (size - offset).toNat := by
        rw [UInt64.toNat_sub_of_le _ _ hle]
        omega
      refine ⟨.memoryMapped (some inode) size, files.write inode offset.toNat data, ?_, .mapped,
        rfl, rfl⟩
      simp [FileWriteHandle.writeAt, hempty, UInt64.not_lt.mpr hle, hroom]
  | unmapped hzero =>
      rw [hzero, show (0 : UInt64).toNat = 0 from rfl] at hend
      omega

/-- Without failures nothing of the buffer is lost. -/
theorem exists_flushAndClose (hgood : handle.good = true) (files : FileSystem N) :
    ∃ closed, handle.flushAndClose {} files = (true, closed, handle.flushed files) := by
  cases handle with
  | positional file =>
      cases file with
      | none => exact ⟨_, rfl⟩
      | some stream =>
          have hstream : stream.good = true := hgood
          refine ⟨.positional none, ?_⟩
          simp [FileWriteHandle.flushAndClose, FileStream.sync, FileSystem.store, hstream,
            FileWriteHandle.flushed, FileStream.flushed]
  | memoryMapped mapping mappedSize =>
      refine ⟨.memoryMapped none 0, ?_⟩
      simp [FileWriteHandle.flushAndClose, FileWriteHandle.flushed]

end FileWriteHandle

section Open

variable {N : Type} [DecidableEq N]

theorem createAlways_spec (name : N) (files : FileSystem N) :
    (files.createAlways name).2.entries name = some (files.createAlways name).1 ∧
      (files.createAlways name).2.contents (files.createAlways name).1 = [] := by
  unfold FileSystem.createAlways
  split
  · rename_i inode hentry
    exact ⟨hentry, Function.update_self ..⟩
  · exact ⟨Function.update_self .., Function.update_self ..⟩

/-- Opening yields a handle to the file of that name, which is no longer than expected. -/
theorem exists_openHandle (factory : FileWriteFactory) (name : N) {size : UInt64}
    (hsize : size.toNat < 2 ^ 63) (files : FileSystem N) :
    ∃ handle inode files', factory.openHandle {} name size files = (some handle, files') ∧
      handle.Serves inode size ∧ handle.good = true ∧ files'.entries name = some inode ∧
        ((handle.flushed files').contents inode).length ≤ size.toNat := by
  obtain ⟨hentry, hcontent⟩ := createAlways_spec name files
  set created := files.createAlways name with hcreated
  cases factory with
  | positional bufferSize =>
      refine ⟨.positional (some { file := created.1, bufferSize }), created.1, created.2, ?_,
        .positional rfl, rfl, hentry, ?_⟩
      · simp [FileWriteFactory.openHandle, ← hcreated]
      · simp [FileWriteHandle.flushed, FileStream.flushed, hcontent]
  | memoryMapped =>
      have hmax : ¬ size > kMaxFileOffset := by
        rw [gt_iff_lt, UInt64.lt_iff_toNat_lt,
          show kMaxFileOffset.toNat = 2 ^ 63 - 1 from rfl]
        omega
      have htruncated : ((created.2.truncate created.1 size.toNat).contents created.1).length ≤
          size.toNat := by
        simp [FileSystem.truncate, FileSystem.setContents, hcontent]
      by_cases hzero : size = 0
      · refine ⟨.memoryMapped none 0, created.1, created.2.truncate created.1 size.toNat, ?_,
          .unmapped hzero, rfl, hentry, htruncated⟩
        simp [FileWriteFactory.openHandle, ← hcreated, hzero]
      · refine ⟨.memoryMapped (some created.1) size, created.1,
          created.2.truncate created.1 size.toNat, ?_, .mapped, rfl, hentry, htruncated⟩
        simp [FileWriteFactory.openHandle, ← hcreated, hmax, hzero]

end Open

/-! ## What a session has recorded -/

/-- The session of a transfer of `content` with the chunks `held` received. -/
structure Recorded (content : Bytes) (transfer : Transfer) (held : Finset ℕ)
    (session : StreamReceiveSession) : Prop where
  fileSize : session.fileSize = transfer.fileSize
  chunkSize : session.chunkSize = transfer.chunkSize
  totalChunks : session.totalChunks = transfer.totalChunks
  held_subset : held ⊆ Finset.range transfer.totalChunks.toNat
  receivedChunks : session.receivedChunks =
    (List.range transfer.totalChunks.toNat).map fun i => decide (i ∈ held)
  receivedChunkCount : session.receivedChunkCount.toNat = held.card
  hasChecksum : session.hasExpectedFileChecksum =
    decide (transfer.totalChunks.toNat - 1 ∈ held)
  checksum : transfer.totalChunks.toNat - 1 ∈ held →
    session.expectedFileChecksum = computeChecksum content

section Recorded

variable {content : Bytes} {transfer : Transfer} {held : Finset ℕ}
  {session : StreamReceiveSession} {i : Nat}

/-- The record does not depend on the handle. -/
theorem Recorded.withHandle (h : Recorded content transfer held session)
    (handle : FileWriteHandle) :
    Recorded content transfer held { session with tempFile := some handle } :=
  { h with }

/-- A session is complete when all chunks were received. -/
theorem Recorded.completed (h : Recorded content transfer held session)
    (hpos : 0 < transfer.totalChunks.toNat) :
    session.completed = decide (held = Finset.range transfer.totalChunks.toNat) := by
  have hcount : session.receivedChunkCount = session.totalChunks ↔
      held.card = transfer.totalChunks.toNat := by
    rw [← UInt32.toNat_inj, h.receivedChunkCount, h.totalChunks]
  rw [StreamReceiveSession.completed, h.hasChecksum, decide_eq_decide, hcount, decide_eq_true_eq]
  constructor
  · rintro ⟨hcard, -⟩
    exact Finset.eq_of_subset_of_card_le h.held_subset (by rw [Finset.card_range, hcard])
  · rintro rfl
    exact ⟨Finset.card_range _, Finset.mem_range.mpr (by omega)⟩

theorem map_decide_insert (n : Nat) (held : Finset ℕ) :
    ((List.range n).map fun j => decide (j ∈ held)).set i true =
      (List.range n).map fun j => decide (j ∈ insert i held) := by
  refine List.ext_getElem (by simp) fun j hj _ => ?_
  rw [List.getElem_set]
  by_cases hij : i = j
  · simp [hij]
  · simp [hij, Ne.symm hij]

theorem Transfer.Sendable.isLastChunk_chunk (h : transfer.Sendable content)
    (hi : i < transfer.totalChunks.toNat) :
    (transfer.chunk content i).isLastChunk = decide (i + 1 = transfer.totalChunks.toNat) := by
  rw [show (transfer.chunk content i).isLastChunk =
    decide (UInt32.ofNat i = transfer.totalChunks - 1) from wireFlags_lastChunk ..,
    decide_eq_decide]
  exact h.index_eq_last hi

/-- The last chunk carries the checksum of the whole file. -/
theorem Transfer.Sendable.fileChecksum_chunk (h : transfer.Sendable content)
    (hi : i + 1 = transfer.totalChunks.toNat) :
    (transfer.chunk content i).fileChecksum = computeChecksum content := by
  have hlast : UInt32.ofNat i = transfer.totalChunks - 1 := (h.index_eq_last (by omega)).mpr hi
  have hend : content.length ≤ (i + 1) * transfer.chunkSize.toNat := by
    by_contra hlt
    have := h.lt_totalChunks (Nat.not_le.mp hlt)
    omega
  calc (transfer.chunk content i).fileChecksum
      = transfer.checksumUpTo content (i + 1) := if_pos hlast
    _ = computeChecksum content := by
        rw [Transfer.checksumUpTo, List.take_of_length_le hend, computeChecksum]

/-- Recording a chunk that is not held. -/
theorem Recorded.record (h : Recorded content transfer held session)
    (hsend : transfer.Sendable content) (hi : i < transfer.totalChunks.toNat) (hnew : i ∉ held) :
    Recorded content transfer (insert i held) (session.record (transfer.chunk content i)) := by
  have hsubset : insert i held ⊆ Finset.range transfer.totalChunks.toNat :=
    Finset.insert_subset (Finset.mem_range.mpr hi) h.held_subset
  have hcard := Finset.card_le_card hsubset
  rw [Finset.card_insert_of_notMem hnew, Finset.card_range] at hcard
  refine
    { fileSize := by simp [h.fileSize]
      chunkSize := by simp [h.chunkSize]
      totalChunks := by simp [h.totalChunks]
      held_subset := hsubset
      receivedChunks := ?_
      receivedChunkCount := ?_
      hasChecksum := ?_
      checksum := ?_ }
  · rw [StreamReceiveSession.receivedChunks_record, h.receivedChunks,
      show (transfer.chunk content i).chunkIndex.toNat = i from toNat_index hi,
      map_decide_insert]
  · have hlt := transfer.totalChunks.toNat_lt
    rw [StreamReceiveSession.receivedChunkCount_record, UInt32.toNat_add, h.receivedChunkCount,
      Finset.card_insert_of_notMem hnew, show (1 : UInt32).toNat = 1 from rfl]
    exact Nat.mod_eq_of_lt (by omega)
  · rw [StreamReceiveSession.hasExpectedFileChecksum_record, hsend.isLastChunk_chunk hi,
      h.hasChecksum, ← Bool.decide_or, decide_eq_decide, Finset.mem_insert]
    exact or_congr_left (by omega)
  · intro hmem
    rw [StreamReceiveSession.expectedFileChecksum_record, hsend.isLastChunk_chunk hi]
    by_cases hlast : i + 1 = transfer.totalChunks.toNat
    · rw [if_pos (decide_eq_true hlast), hsend.fileChecksum_chunk hlast]
    · rw [if_neg (by simpa using hlast)]
      exact h.checksum ((Finset.mem_insert.mp hmem).resolve_left (by omega))

end Recorded

/-! ## What its file has stored -/

section Stored

variable {N : Type} (locate : Bytes → N)

/-- The open file of a session holds the chunks `held` under the path, in the file or still in
the buffer. -/
def Stored (content : Bytes) (transfer : Transfer) (path : Bytes) (held : Finset ℕ)
    (handle : FileWriteHandle) (files : FileSystem N) : Prop :=
  ∃ inode, handle.Serves inode transfer.fileSize ∧ handle.good = true ∧
    files.entries (locate path) = some inode ∧
    Holds transfer.chunkSize.toNat content held ((handle.flushed files).contents inode)

variable {locate} {content : Bytes} {transfer : Transfer} {path : Bytes} {held : Finset ℕ}
  {handle : FileWriteHandle} {files : FileSystem N} {i : Nat}

theorem toNat_start_chunk (hi : i < transfer.totalChunks.toNat) :
    (transfer.chunk content i).start.toNat = i * transfer.chunkSize.toNat := by
  rw [TransferChunk.toNat_start]
  exact congrArg (· * transfer.chunkSize.toNat) (toNat_index hi)

/-- Writing a chunk succeeds and stores its block. -/
theorem Stored.writeAt (h : Stored locate content transfer path held handle files)
    (hsend : transfer.Sendable content) (hsize : transfer.chunkSize.toNat < 2 ^ 31)
    (hi : i < transfer.totalChunks.toNat) :
    ∃ handle' files', handle.writeAt {} (transfer.chunk content i).start
        (transfer.chunk content i).data files = (true, handle', files') ∧
      Stored locate content transfer path (insert i held) handle' files' := by
  obtain ⟨inode, hserves, hgood, hentry, hholds⟩ := h
  have hlength := length_block transfer.chunkSize.toNat content i
  have hstart : (transfer.chunk content i).start.toNat = i * transfer.chunkSize.toNat :=
    toNat_start_chunk hi
  have hle := hsend.start_le hi
  have hfileSize := hsend.toNat_fileSize
  have hfileLt := hsend.length_lt
  obtain ⟨handle', files', hwrite, hserves', hgood', hflushed⟩ := hserves.writeAt hgood (by omega)
    (show (transfer.chunk content i).data.length < 2 ^ 31 by rw [Transfer.data_chunk]; omega)
    (show (transfer.chunk content i).start.toNat + (transfer.chunk content i).data.length ≤
      transfer.fileSize.toNat by rw [Transfer.data_chunk]; omega) files
  refine ⟨handle', files', hwrite, inode, hserves', hgood', ?_, ?_⟩
  · rw [← handle'.entries_flushed files', hflushed, FileSystem.entries_write,
      FileWriteHandle.entries_flushed, hentry]
  · rw [Finset.coe_insert, hflushed]
    by_cases hempty : (transfer.chunk content i).data = []
    · -- an empty block: nothing is written and nothing is missing
      rw [hempty, FileSystem.write_nil]
      rw [Transfer.data_chunk, ← List.length_eq_zero_iff, hlength] at hempty
      have := hsend.chunkSize_pos
      exact hholds.insert_of_length_le (by omega)
    · rw [FileSystem.contents_write _ _ hempty, hstart, Transfer.data_chunk]
      exact hholds.writeAt 0 hle

end Stored

/-! ## A call of `StreamChunkToFile` -/

section SessionReceiving

variable {N : Type} (locate : Bytes → N)

/-- The transfer has a session that received the chunks `held`, and their file. -/
def SessionReceiving (content : Bytes) (transfer : Transfer) (path : Bytes) (held : Finset ℕ)
    (transporter : ZFileTransporter N) : Prop :=
  ∃ session handle, transporter.activeStreams transfer.transferId = some session ∧
    session.tempPath = path ∧ session.tempFile = some handle ∧
      Recorded content transfer held session ∧
        Stored locate content transfer path held handle transporter.files

variable {locate} {content : Bytes} {transfer : Transfer} {path : Bytes} {held : Finset ℕ}
  {transporter : ZFileTransporter N} {i : Nat}

/-- The call with the session at hand. -/
theorem streamToSession_receiving {session : StreamReceiveSession} {handle : FileWriteHandle}
    (hactive : transporter.activeStreams transfer.transferId = some session)
    (hpath : session.tempPath = path) (hhandle : session.tempFile = some handle)
    (hrecorded : Recorded content transfer held session)
    (hstored : Stored locate content transfer path held handle transporter.files)
    (hsend : transfer.Sendable content) (hsize : transfer.chunkSize.toNat < 2 ^ 31)
    (hi : i < transfer.totalChunks.toNat) :
    ∃ transporter',
      transporter.streamToSession {} (transfer.chunk content i) session =
          some ⟨true, insert i held = Finset.range transfer.totalChunks.toNat, transporter'⟩ ∧
        SessionReceiving locate content transfer path (insert i held) transporter' := by
  have hpos := hsend.totalChunks_pos
  have hreceived : session.receivedChunks[(transfer.chunk content i).chunkIndex.toNat]? =
      some (decide (i ∈ held)) := by
    rw [show (transfer.chunk content i).chunkIndex.toNat = i from toNat_index hi,
      hrecorded.receivedChunks]
    simp [hi]
  unfold ZFileTransporter.streamToSession
  rw [hhandle, hreceived]
  by_cases hmem : i ∈ held
  · rw [Finset.insert_eq_of_mem hmem]
    refine ⟨transporter, ?_, session, handle, hactive, hpath, hhandle, hrecorded, hstored⟩
    simp [hmem, hrecorded.completed hpos]
  · obtain ⟨handle', files, hwrite, hstored'⟩ := hstored.writeAt hsend hsize hi
    have hrecorded' := (hrecorded.withHandle handle').record hsend hi hmem
    set session' := { session with tempFile := some handle' }.record (transfer.chunk content i)
      with hsession
    refine ⟨{ transporter with files }.setSession transfer.transferId (some session'), ?_,
      session', handle', Function.update_self .., ?_, ?_, hrecorded', hstored'⟩
    · simp only [hmem, decide_false, hwrite]
      rw [if_neg (by decide), hrecorded'.completed hpos]
      rfl
    · rw [StreamReceiveSession.tempPath_record, hpath]
    · rw [StreamReceiveSession.tempFile_record]

variable [DecidableEq N]

/-- A later call finds the session. -/
theorem SessionReceiving.streamChunkToFile
    (h : SessionReceiving locate content transfer path held transporter)
    (hsend : transfer.Sendable content) (hsize : transfer.chunkSize.toNat < 2 ^ 31)
    (hi : i < transfer.totalChunks.toNat) (tempDirectory : Bytes) :
    ∃ transporter',
      transporter.streamChunkToFile locate {} (transfer.chunk content i) tempDirectory =
          some ⟨true, insert i held = Finset.range transfer.totalChunks.toNat, transporter'⟩ ∧
        SessionReceiving locate content transfer path (insert i held) transporter' := by
  obtain ⟨session, handle, hactive, hpath, hhandle, hrecorded, hstored⟩ := h
  have hgeometry : session.sameGeometry (transfer.chunk content i) = true := by
    simp only [StreamReceiveSession.sameGeometry, decide_eq_true_eq]
    exact ⟨hrecorded.fileSize, hrecorded.chunkSize, hrecorded.totalChunks⟩
  have hensure : transporter.ensureStreamSession locate {} (transfer.chunk content i)
      tempDirectory = (some session, transporter) := by
    unfold ZFileTransporter.ensureStreamSession
    rw [Transfer.transferId_chunk, hactive]
    exact if_pos hgeometry
  unfold ZFileTransporter.streamChunkToFile
  rw [hensure]
  exact streamToSession_receiving hactive hpath hhandle hrecorded hstored hsend hsize hi

/-- A session as `EnsureStreamSession` opens it. -/
theorem recorded_empty {path : Bytes} {handle : FileWriteHandle} :
    Recorded content transfer ∅
      { transferId := transfer.transferId
        fileSize := transfer.fileSize
        chunkSize := transfer.chunkSize
        totalChunks := transfer.totalChunks
        expectedFileChecksum := 0
        hasExpectedFileChecksum := false
        tempPath := path
        tempFile := some handle
        receivedChunks := List.replicate transfer.totalChunks.toNat false
        receivedChunkCount := 0 } where
  fileSize := rfl
  chunkSize := rfl
  totalChunks := rfl
  held_subset := Finset.empty_subset _
  receivedChunks := by simp [List.map_const']
  receivedChunkCount := rfl
  hasChecksum := by simp
  checksum := fun hmem => absurd hmem (Finset.notMem_empty _)

variable (locate) in
/-- The call with chunk 0 that opens the session. -/
theorem streamChunkToFile_first (hsend : transfer.Sendable content)
    (hsize : transfer.chunkSize.toNat < 2 ^ 31)
    (hfresh : transporter.activeStreams transfer.transferId = none) (tempDirectory : Bytes) :
    ∃ transporter',
      transporter.streamChunkToFile locate {} (transfer.chunk content 0) tempDirectory =
          some ⟨true, {0} = Finset.range transfer.totalChunks.toNat, transporter'⟩ ∧
        SessionReceiving locate content transfer (tempPath tempDirectory transfer.transferId) {0}
          transporter' := by
  have hfileLt : transfer.fileSize.toNat < 2 ^ 63 := by
    rw [hsend.toNat_fileSize]
    exact hsend.length_lt
  obtain ⟨handle, inode, files, hopen, hserves, hgood, hentry, hlength⟩ :=
    exists_openHandle transporter.fileWriteFactory
      (locate (tempPath tempDirectory transfer.transferId)) hfileLt transporter.files
  have hname : (transfer.chunk content 0).hasFileName = true := wireFlags_hasFileName ..
  have hstored : Stored locate content transfer (tempPath tempDirectory transfer.transferId) ∅
      handle files := by
    refine ⟨inode, hserves, hgood, hentry, ?_⟩
    rw [Finset.coe_empty]
    exact holds_empty (hlength.trans_eq hsend.toNat_fileSize)
  unfold ZFileTransporter.streamChunkToFile ZFileTransporter.ensureStreamSession
  rw [Transfer.transferId_chunk, hfresh]
  simp only [hname, Transfer.fileSize_chunk, Transfer.chunkSize_chunk,
    Transfer.totalChunks_chunk, hopen, Bool.true_eq_false, if_false]
  exact streamToSession_receiving (Function.update_self ..) rfl rfl recorded_empty hstored hsend
    hsize hsend.totalChunks_pos

end SessionReceiving

end ZetaNet
