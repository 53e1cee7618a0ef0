import ZetaNet.File.Chunk
import ZetaNet.File.Storage

/-!
# Receiving a file

The receiving side of `z_file_transporter.cc`: `EnsureStreamSession`, `StreamChunkToFile`,
`FinalizeStreamedFile` and `AbortStreamedFile`. `locate` is what the operating system resolves
a path to. Each call holds the mutex or touches nothing another call does, so calls are atomic.
-/

namespace ZetaNet

/-- The bytes of a text in ASCII. -/
def asciiBytes (text : String) : Bytes := text.toList.map fun char => UInt8.ofNat char.toNat

/-- `std::to_string`. -/
def decimalBytes (number : UInt64) : Bytes :=
  (Nat.toDigits 10 number.toNat).map fun char => UInt8.ofNat char.toNat

/-- `struct StreamReceiveSession`; `received_chunks` holds zeros and ones. -/
structure StreamReceiveSession where
  transferId : UInt64
  fileSize : UInt64
  chunkSize : UInt32
  totalChunks : UInt32
  expectedFileChecksum : UInt32
  hasExpectedFileChecksum : Bool
  tempPath : Bytes
  tempFile : Option FileWriteHandle
  receivedChunks : List Bool
  receivedChunkCount : UInt32
  deriving DecidableEq

/-- The members that receiving works on, with the file system beside them. -/
structure ZFileTransporter (N : Type) where
  fileWriteFactory : FileWriteFactory
  activeStreams : UInt64 → Option StreamReceiveSession
  files : FileSystem N

/-- What a call of `StreamChunkToFile` returns and leaves. -/
structure Streamed (N : Type) where
  ok : Bool
  completed : Bool
  transporter : ZFileTransporter N

namespace StreamReceiveSession

/-- The geometry comparison of `EnsureStreamSession`. -/
def sameGeometry (chunk : TransferChunk) (session : StreamReceiveSession) : Bool :=
  session.fileSize = chunk.fileSize ∧ session.chunkSize = chunk.chunkSize ∧
    session.totalChunks = chunk.totalChunks

/-- What `StreamChunkToFile` puts into `out_completed`. -/
def completed (session : StreamReceiveSession) : Bool :=
  session.receivedChunkCount = session.totalChunks ∧ session.hasExpectedFileChecksum

/-- The bookkeeping of `StreamChunkToFile` after the write. -/
def record (chunk : TransferChunk) (session : StreamReceiveSession) : StreamReceiveSession :=
  let session :=
    { session with
      receivedChunks := session.receivedChunks.set chunk.chunkIndex.toNat true
      receivedChunkCount := session.receivedChunkCount + 1 }
  if chunk.isLastChunk then
    { session with
      expectedFileChecksum := chunk.fileChecksum
      hasExpectedFileChecksum := true }
  else session

/-! What a record changes and what it leaves alone. -/

section Record

variable (chunk : TransferChunk) (session : StreamReceiveSession)

@[simp] theorem fileSize_record : (session.record chunk).fileSize = session.fileSize := by
  unfold record
  split <;> rfl

@[simp] theorem chunkSize_record : (session.record chunk).chunkSize = session.chunkSize := by
  unfold record
  split <;> rfl

@[simp] theorem totalChunks_record : (session.record chunk).totalChunks = session.totalChunks := by
  unfold record
  split <;> rfl

@[simp] theorem tempPath_record : (session.record chunk).tempPath = session.tempPath := by
  unfold record
  split <;> rfl

@[simp] theorem tempFile_record : (session.record chunk).tempFile = session.tempFile := by
  unfold record
  split <;> rfl

@[simp] theorem receivedChunks_record :
    (session.record chunk).receivedChunks =
      session.receivedChunks.set chunk.chunkIndex.toNat true := by
  unfold record
  split <;> rfl

@[simp] theorem receivedChunkCount_record :
    (session.record chunk).receivedChunkCount = session.receivedChunkCount + 1 := by
  unfold record
  split <;> rfl

@[simp] theorem hasExpectedFileChecksum_record :
    (session.record chunk).hasExpectedFileChecksum =
      (chunk.isLastChunk || session.hasExpectedFileChecksum) := by
  unfold record
  split
  · rename_i hlast
    simp [hlast]
  · rename_i hlast
    simp [hlast]

theorem expectedFileChecksum_record :
    (session.record chunk).expectedFileChecksum =
      if chunk.isLastChunk then chunk.fileChecksum else session.expectedFileChecksum := by
  unfold record
  split <;> rfl

end Record

end StreamReceiveSession

/-- The path of the temporary file of a transfer. -/
def tempPath (tempDirectory : Bytes) (transferId : UInt64) : Bytes :=
  let tempDir :=
    if tempDirectory ≠ [] ∧ tempDirectory.getLast?.any isSeparator = false then
      tempDirectory ++ asciiBytes "/"
    else tempDirectory
  tempDir ++ asciiBytes "znet-transfer-" ++ decimalBytes transferId ++ asciiBytes ".part"

namespace ZFileTransporter

variable {N : Type} [DecidableEq N] (locate : Bytes → N)

/-- `active_streams_[transfer_id] = session`. -/
def setSession (transferId : UInt64) (session : Option StreamReceiveSession)
    (transporter : ZFileTransporter N) : ZFileTransporter N :=
  { transporter with
    activeStreams := Function.update transporter.activeStreams transferId session }

omit [DecidableEq N] in
@[simp] theorem files_setSession (transferId : UInt64) (session : Option StreamReceiveSession)
    (transporter : ZFileTransporter N) :
    (transporter.setSession transferId session).files = transporter.files := rfl

/-- `EnsureStreamSession`; no session for `false`. -/
def ensureStreamSession (faults : Faults) (chunk : TransferChunk) (tempDirectory : Bytes)
    (transporter : ZFileTransporter N) : Option StreamReceiveSession × ZFileTransporter N :=
  match transporter.activeStreams chunk.transferId with
  | some session =>
      if session.sameGeometry chunk then (some session, transporter) else (none, transporter)
  | none =>
      if chunk.hasFileName = false then (none, transporter)
      else
        let path := tempPath tempDirectory chunk.transferId
        let (tempFile, files) := transporter.fileWriteFactory.openHandle faults (locate path)
          chunk.fileSize transporter.files
        let transporter := { transporter with files }
        match tempFile with
        | none => (none, transporter)
        | some handle =>
            let session : StreamReceiveSession :=
              { transferId := chunk.transferId
                fileSize := chunk.fileSize
                chunkSize := chunk.chunkSize
                totalChunks := chunk.totalChunks
                expectedFileChecksum := 0
                hasExpectedFileChecksum := false
                tempPath := path
                tempFile := some handle
                receivedChunks := List.replicate chunk.totalChunks.toNat false
                receivedChunkCount := 0 }
            (some session, transporter.setSession chunk.transferId (some session))

/-- `StreamChunkToFile` with its session at hand; `none` is an access to `received_chunks` past
its end. -/
def streamToSession (faults : Faults) (chunk : TransferChunk) (session : StreamReceiveSession)
    (transporter : ZFileTransporter N) : Option (Streamed N) :=
  match session.tempFile with
  | none => some ⟨false, false, transporter⟩
  | some handle =>
      match session.receivedChunks[chunk.chunkIndex.toNat]? with
      | none => none
      | some true => some ⟨true, session.completed, transporter⟩
      | some false =>
          let (written, handle, files) :=
            handle.writeAt faults chunk.start chunk.data transporter.files
          let transporter := { transporter with files }
          let session := { session with tempFile := some handle }
          if written = false then
            some ⟨false, false, transporter.setSession chunk.transferId (some session)⟩
          else
            let session := session.record chunk
            some ⟨true, session.completed,
              transporter.setSession chunk.transferId (some session)⟩

/-- `StreamChunkToFile`. -/
def streamChunkToFile (faults : Faults) (chunk : TransferChunk) (tempDirectory : Bytes)
    (transporter : ZFileTransporter N) : Option (Streamed N) :=
  match transporter.ensureStreamSession locate faults chunk tempDirectory with
  | (none, transporter) => some ⟨false, false, transporter⟩
  | (some session, transporter) => transporter.streamToSession faults chunk session

/-- `FinalizeStreamedFile`. -/
def finalizeStreamedFile (faults : Faults) (transferId : UInt64) (outputPath : Bytes)
    (transporter : ZFileTransporter N) : Bool × ZFileTransporter N :=
  match transporter.activeStreams transferId with
  | none => (false, transporter)
  | some session =>
      if session.completed = false then (false, transporter)
      else
        match session.tempFile with
        | none => (false, transporter)
        | some handle =>
            let (flushed, handle, files) := handle.flushAndClose faults transporter.files
            let transporter := { transporter with files }
            if flushed = false then
              (false, transporter.setSession transferId
                (some { session with tempFile := some handle }))
            else
              let transporter := transporter.setSession transferId
                (some { session with tempFile := none })
              let temp := locate session.tempPath
              match computeFileChecksum faults temp transporter.files with
              | none => (false, transporter)
              | some computed =>
                  if computed ≠ session.expectedFileChecksum then (false, transporter)
                  else
                    let files := transporter.files.remove faults (locate outputPath)
                    let (renamed, files) := files.rename faults temp (locate outputPath)
                    let transporter := { transporter with files }
                    if renamed = false then (false, transporter)
                    else (true, transporter.setSession transferId none)

/-- `AbortStreamedFile`. -/
def abortStreamedFile (faults : Faults) (transferId : UInt64)
    (transporter : ZFileTransporter N) : ZFileTransporter N :=
  match transporter.activeStreams transferId with
  | none => transporter
  | some session =>
      let files :=
        match session.tempFile with
        | none => transporter.files
        | some handle => handle.close faults transporter.files
      { transporter.setSession transferId none with
        files := files.remove faults (locate session.tempPath) }

end ZFileTransporter

end ZetaNet
