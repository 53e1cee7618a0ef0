import ZetaNet.File.Chunk
import ZetaNet.Transport.Layer

/-!
# Sending a file

`SendFile` of `z_file_transporter.cc` with `SafeReadChunk` and `WaitForSendWindow`. What the
other threads do to the transport between two steps of the call is a parameter, and so is the
clock.
-/

namespace ZetaNet

open Wire

/-- An open `base::File`: what `GetLength` returned and what a read returns. -/
structure SourceFile where
  length : Int
  read : Nat → Nat → Bytes
  length_read_le : ∀ offset count, (read offset count).length ≤ count

namespace SourceFile

/-- A file whose content stays; a length is an `int64_t`. -/
def ofContent (content : Bytes) : SourceFile where
  length := if content.length < 2 ^ 63 then content.length else -1
  read offset count := (content.drop offset).take count
  length_read_le _ _ := List.length_take_le ..

/-- The loop of `SafeReadChunk`, which has read `total`. A count that is no `int` comes out
negative and reads nothing. -/
def safeReadLoop (file : SourceFile) (offset targetSize : Nat) : Nat → Bytes → Bytes
  | 0, total => total
  | fuel + 1, total =>
      let count := targetSize - total.length
      if count = 0 ∨ count ≥ 2 ^ 31 then total
      else
        let read := file.read (offset + total.length) count
        if read = [] then total
        else safeReadLoop file offset targetSize fuel (total ++ read)

/-- `SafeReadChunk`. Every turn but the last reads a byte or more. -/
def safeReadChunk (file : SourceFile) (offset targetSize : Nat) : Bytes :=
  file.safeReadLoop offset targetSize targetSize []

theorem length_safeReadLoop_le (file : SourceFile) (offset : Nat) {targetSize fuel : Nat}
    {total : Bytes} (h : total.length ≤ targetSize) :
    (file.safeReadLoop offset targetSize fuel total).length ≤ targetSize := by
  induction fuel generalizing total with
  | zero => exact h
  | succ fuel ih =>
      unfold safeReadLoop
      dsimp only
      split
      · exact h
      · split
        · exact h
        · have hread := file.length_read_le (offset + total.length) (targetSize - total.length)
          refine ih ?_
          rw [List.length_append]
          omega

theorem safeReadChunk_of_large (file : SourceFile) (offset : Nat) {targetSize : Nat}
    (h : targetSize ≥ 2 ^ 31) : file.safeReadChunk offset targetSize = [] := by
  obtain ⟨fuel, rfl⟩ := Nat.exists_eq_succ_of_ne_zero (show targetSize ≠ 0 by omega)
  rw [safeReadChunk, safeReadLoop, List.length_nil, Nat.sub_zero, if_pos (.inr h)]

/-- A chunk that is read at all is no longer than an `int` tells. -/
theorem length_safeReadChunk_lt (file : SourceFile) (offset targetSize : Nat) :
    (file.safeReadChunk offset targetSize).length < 2 ^ 31 := by
  by_cases hlarge : targetSize ≥ 2 ^ 31
  · rw [safeReadChunk_of_large file offset hlarge]
    norm_num
  · have hle : (file.safeReadChunk offset targetSize).length ≤ targetSize :=
      file.length_safeReadLoop_le offset (Nat.zero_le _)
    omega

end SourceFile

/-- `struct TransferTuning`, less what only affects speed. -/
structure TransferTuning where
  chunkSize : UInt64 := 1024
  maxInflightChunks : Nat := 2048
  maxInflightBytes : Nat := 64 * 1024
  backpressureTimeoutMs : UInt32 := 120000

/-- The name of a path (`BaseName`): what follows its last slash. -/
def baseName (path : Bytes) : Bytes := (path.reverse.takeWhile (· ≠ 0x2F)).reverse

/-- `GenerateTransferId` on the counter of the process, which starts at 1. -/
def generateTransferId (counter : UInt64) : UInt64 × UInt64 := (counter, counter + 1)

/-- The locals of `SendFile` that every chunk carries. -/
structure Transfer where
  transferId : UInt64
  fileSize : UInt64
  chunkSize : UInt32
  totalChunks : UInt32
  fileName : Bytes
  deriving DecidableEq

namespace Transfer

/-- The payload the loop of `SendFile` assembles. -/
def chunkPayload (transfer : Transfer) (chunkIndex : UInt32) (bytes : Bytes)
    (fileChecksum : UInt32) : Bytes :=
  let isLastChunk : Bool := chunkIndex = transfer.totalChunks - 1
  let wireFlags : UInt8 := if chunkIndex = 0 then 0 ||| kFlagHasFileName else 0
  let wireFlags := if isLastChunk then wireFlags ||| kFlagLastChunk else wireFlags
  let payload := appendU32 [] kWireMagic ++ [kWireVersion] ++ [wireFlags]
  let payload := appendU64 payload transfer.transferId
  let payload := appendU64 payload transfer.fileSize
  let payload := appendU32 payload transfer.chunkSize
  let payload := appendU32 payload chunkIndex
  let payload := appendU32 payload transfer.totalChunks
  let payload := appendU32 payload (UInt32.ofNat bytes.length)
  let payload := appendU32 payload (computeChecksum bytes)
  let payload := appendU32 payload (if isLastChunk then fileChecksum else 0)
  let payload :=
    if chunkIndex = 0 then
      appendU16 payload (UInt16.ofNat transfer.fileName.length) ++ transfer.fileName
    else appendU16 payload 0
  payload ++ bytes

theorem length_chunkPayload_le (transfer : Transfer) (chunkIndex : UInt32) (bytes : Bytes)
    (fileChecksum : UInt32) :
    (transfer.chunkPayload chunkIndex bytes fileChecksum).length ≤
      kFixedHeaderSize + transfer.fileName.length + bytes.length := by
  by_cases hfirst : chunkIndex = 0
  · simp [chunkPayload, hfirst, appendU16, appendU32, appendU64, kFixedHeaderSize]
    omega
  · simp [chunkPayload, hfirst, appendU16, appendU32, appendU64, kFixedHeaderSize]
    omega

end Transfer

/-! ## The send window -/

/-- One look of the waiting loop: what the other threads did before it and the milliseconds
waited by then. -/
structure Poll where
  others : ZAsyncTransportLayer → ZAsyncTransportLayer
  waited : Nat

namespace TransferTuning

/-- `chunks_ok && bytes_ok`. -/
def windowOpen (tuning : TransferTuning) (layer : ZAsyncTransportLayer) : Bool :=
  let queue := layer.packetQueue
  (tuning.maxInflightChunks = 0 ∨
      (queue.channelOutgoingQueues .control).sizeApprox < tuning.maxInflightChunks) ∧
    (tuning.maxInflightBytes = 0 ∨
      queue.channelOutgoingBytes .control < tuning.maxInflightBytes)

/-- The loop of `WaitForSendWindow`; `none` is a loop that still waits after the looks. -/
def waitLoop (tuning : TransferTuning) :
    List Poll → ZAsyncTransportLayer → Option Bool × ZAsyncTransportLayer
  | [], layer => (none, layer)
  | poll :: polls, layer =>
      let layer := poll.others layer
      if layer.state ≠ .connected then (some false, layer)
      else if tuning.windowOpen layer then (some true, layer)
      else if tuning.backpressureTimeoutMs > 0 ∧
          poll.waited ≥ tuning.backpressureTimeoutMs.toNat then
        (some false, layer)
      else waitLoop tuning polls layer

/-- `WaitForSendWindow`. -/
def waitForSendWindow (tuning : TransferTuning) (polls : List Poll)
    (layer : ZAsyncTransportLayer) : Option Bool × ZAsyncTransportLayer :=
  if tuning.maxInflightChunks = 0 ∧ tuning.maxInflightBytes = 0 then (some true, layer)
  else tuning.waitLoop polls layer

end TransferTuning

/-! ## The loop over the chunks -/

/-- What surrounds one chunk: the looks of the waiting loop, what the other threads do before
`EnqueuePacket`, and the clock of the rate limiter. -/
structure SendTurn where
  polls : List Poll
  others : ZAsyncTransportLayer → ZAsyncTransportLayer
  now : Nat

/-- One call of `EnqueuePacket`, with the transport as it finds it. -/
structure EnqueueCall where
  chunkIndex : Nat
  payload : Bytes
  queued : Queued
  layer : ZAsyncTransportLayer
  now : Nat

/-- What `SendFile` returned, `none` while it waits, and what it did. -/
structure SendRun where
  result : Option Bool
  calls : List EnqueueCall
  layer : ZAsyncTransportLayer

/-- A call in front of a run. -/
def SendRun.cons (call : EnqueueCall) (run : SendRun) : SendRun :=
  { run with calls := call :: run.calls }

/-- The packet of a chunk. -/
def chunkPacket (encrypted : Bool) (destination : UInt32) (payload : Bytes) : OutgoingPacket :=
  OutgoingPacket.ofData destination PacketType.fileTransfer .control
    { reliable := true, encrypted, compressed := false, priority := .high,
      acknowledged := false, awaitingAck := true } payload

section Sending

variable (encrypted : Bool) (destination : UInt32) (tuning : TransferTuning)
  (turns : Nat → SendTurn)

/-- The loop of `SendFile` with `todo` chunks to go, from `chunkIndex` on. -/
def sendLoop (file : SourceFile) (transfer : Transfer) :
    Nat → Nat → Nat → UInt32 → ZAsyncTransportLayer → SendRun
  | 0, _, fileOffset, _, layer => ⟨some (fileOffset = transfer.fileSize.toNat), [], layer⟩
  | todo + 1, chunkIndex, fileOffset, fileChecksum, layer =>
      let fileSize := transfer.fileSize.toNat
      let targetChunkBytes := min (fileSize - fileOffset) transfer.chunkSize.toNat
      let bytes := file.safeReadChunk fileOffset targetChunkBytes
      if bytes.length > 0xFFFFFFFF then ⟨some false, [], layer⟩
      else if targetChunkBytes ≠ bytes.length ∧ fileOffset + bytes.length < fileSize then
        ⟨some false, [], layer⟩
      else
        let fileOffset := fileOffset + bytes.length
        let fileChecksum := updateChecksum bytes fileChecksum
        let payload := transfer.chunkPayload (UInt32.ofNat chunkIndex) bytes fileChecksum
        let turn := turns chunkIndex
        match tuning.waitForSendWindow turn.polls layer with
        | (none, layer) => ⟨none, [], layer⟩
        | (some false, layer) => ⟨some false, [], layer⟩
        | (some true, layer) =>
            let layer := turn.others layer
            let queued : Queued := ⟨chunkPacket encrypted destination payload, none⟩
            let call : EnqueueCall := ⟨chunkIndex, payload, queued, layer, turn.now⟩
            match layer.enqueuePacket turn.now queued with
            | (false, layer) => SendRun.cons call ⟨some false, [], layer⟩
            | (true, layer) =>
                SendRun.cons call
                  (sendLoop file transfer todo (chunkIndex + 1) fileOffset fileChecksum layer)

/-- What `SendFile` sets up before its loop, and the counter of transfer ids after it; nothing
for an exit before the loop. -/
def prepareTransfer (path : Bytes) (file : Option SourceFile) (counter : UInt64) :
    Option (SourceFile × Transfer) × UInt64 :=
  match file with
  | none => (none, counter)
  | some file =>
      if file.length < 0 then (none, counter)
      else
        let fileSize := UInt64.ofNat file.length.toNat
        if tuning.chunkSize = 0 ∨ tuning.chunkSize > 0xFFFFFFFF then (none, counter)
        else
          let chunkSize := tuning.chunkSize.toUInt32
          let totalChunks := calculateTotalChunks fileSize chunkSize
          if totalChunks = 0 ∨ totalChunks > 0xFFFFFFFF then (none, counter)
          else
            let fileName := baseName path
            if fileName = [] ∨ fileName.length > 0xFFFF then (none, counter)
            else
              let (transferId, counter) := generateTransferId counter
              (some (file, ⟨transferId, fileSize, chunkSize, totalChunks.toUInt32, fileName⟩),
                counter)

/-- `SendFile`, with the counter of transfer ids before and after it. -/
def sendFile (path : Bytes) (file : Option SourceFile) (counter : UInt64)
    (layer : ZAsyncTransportLayer) : SendRun × UInt64 :=
  match prepareTransfer tuning path file counter with
  | (none, counter) => (⟨some false, [], layer⟩, counter)
  | (some (file, transfer), counter) =>
      (sendLoop encrypted destination tuning turns file transfer transfer.totalChunks.toNat 0 0
        kFnv1aOffset layer, counter)

/-! ## What the loop starts with -/

/-- What the checks in front of the loop establish. -/
structure Transfer.Prepared (tuning : TransferTuning) (path : Bytes) (source : SourceFile)
    (counter : UInt64) (transfer : Transfer) : Prop where
  length_nonneg : 0 ≤ source.length
  transferId : transfer.transferId = counter
  fileSize : transfer.fileSize = UInt64.ofNat source.length.toNat
  chunkSize : transfer.chunkSize.toUInt64 = tuning.chunkSize
  chunkSize_ne : transfer.chunkSize ≠ 0
  totalChunks :
    calculateTotalChunks transfer.fileSize transfer.chunkSize = transfer.totalChunks.toUInt64
  totalChunks_ne : transfer.totalChunks ≠ 0
  fileName : transfer.fileName = baseName path
  fileName_ne : transfer.fileName ≠ []
  fileName_le : transfer.fileName.length ≤ 0xFFFF

theorem toUInt64_toUInt32 {size : UInt64} (h : ¬ size > 0xFFFFFFFF) :
    size.toUInt32.toUInt64 = size := by
  have hle := UInt64.le_iff_toNat_le.mp (UInt64.not_lt.mp h)
  rw [show (0xFFFFFFFF : UInt64).toNat = 4294967295 from rfl] at hle
  refine UInt64.toNat_inj.mp ?_
  rw [UInt32.toNat_toUInt64, UInt64.toNat_toUInt32]
  omega

theorem toUInt32_ne_zero {size : UInt64} (h : ¬ (size = 0 ∨ size > 0xFFFFFFFF)) :
    size.toUInt32 ≠ 0 := by
  obtain ⟨hne, hle⟩ := not_or.mp h
  intro hzero
  refine hne ?_
  rw [← toUInt64_toUInt32 hle, hzero]
  rfl

theorem prepared_of_prepareTransfer {path : Bytes} {file : Option SourceFile} {counter : UInt64}
    {source : SourceFile} {transfer : Transfer}
    (h : (prepareTransfer tuning path file counter).1 = some (source, transfer)) :
    file = some source ∧ transfer.Prepared tuning path source counter := by
  unfold prepareTransfer at h
  split at h
  · cases h
  rename_i opened
  split at h
  · cases h
  rename_i hlength
  dsimp only at h
  split at h
  · cases h
  rename_i hchunkSize
  split at h
  · cases h
  rename_i htotal
  split at h
  · cases h
  rename_i hname
  obtain ⟨rfl, rfl⟩ := Prod.mk.inj (Option.some.inj h)
  exact ⟨rfl,
    { length_nonneg := Int.not_lt.mp hlength
      transferId := rfl
      fileSize := rfl
      chunkSize := toUInt64_toUInt32 (not_or.mp hchunkSize).2
      chunkSize_ne := toUInt32_ne_zero hchunkSize
      totalChunks := (toUInt64_toUInt32 (not_or.mp htotal).2).symm
      totalChunks_ne := toUInt32_ne_zero htotal
      fileName := rfl
      fileName_ne := (not_or.mp hname).1
      fileName_le := Nat.not_lt.mp (not_or.mp hname).2 }⟩

/-! ## What the loop does -/

/-- One turn of the loop: it stops without a call, or it calls `EnqueuePacket`, and the loop goes
on where the transport is connected. -/
theorem sendLoop_succ (file : SourceFile) (transfer : Transfer)
    (todo chunkIndex fileOffset : Nat) (fileChecksum : UInt32) (layer : ZAsyncTransportLayer)
    {bytes : Bytes} (hbytes : bytes = file.safeReadChunk fileOffset
      (min (transfer.fileSize.toNat - fileOffset) transfer.chunkSize.toNat)) :
    let payload := transfer.chunkPayload (UInt32.ofNat chunkIndex) bytes
      (updateChecksum bytes fileChecksum)
    let run := sendLoop encrypted destination tuning turns file transfer (todo + 1) chunkIndex
      fileOffset fileChecksum layer
    (∃ result layer', result ≠ some true ∧ run = ⟨result, [], layer'⟩) ∨
      (min (transfer.fileSize.toNat - fileOffset) transfer.chunkSize.toNat = bytes.length ∨
          transfer.fileSize.toNat ≤ fileOffset + bytes.length) ∧
        ∃ call : EnqueueCall, call.chunkIndex = chunkIndex ∧ call.payload = payload ∧
        call.queued = ⟨chunkPacket encrypted destination payload, none⟩ ∧
        ((∃ layer', run = SendRun.cons call ⟨some false, [], layer'⟩) ∨
          call.layer.state = .connected ∧ ∃ layer',
            run = SendRun.cons call
              (sendLoop encrypted destination tuning turns file transfer todo (chunkIndex + 1)
                (fileOffset + bytes.length) (updateChecksum bytes fileChecksum) layer')) := by
  intro payload run
  simp only [run, sendLoop, ← hbytes]
  split
  · exact .inl ⟨_, _, by simp, rfl⟩
  split
  · exact .inl ⟨_, _, by simp, rfl⟩
  rename_i hread
  split
  · exact .inl ⟨_, _, by simp, rfl⟩
  · exact .inl ⟨_, _, by simp, rfl⟩
  · rename_i waited _
    refine .inr ⟨by omega, ⟨chunkIndex, payload, ⟨chunkPacket encrypted destination payload, none⟩,
      (turns chunkIndex).others waited, (turns chunkIndex).now⟩, rfl, rfl, rfl, ?_⟩
    split
    · exact .inl ⟨_, rfl⟩
    · rename_i henqueue
      exact .inr ⟨ZAsyncTransportLayer.connected_of_enqueuePacket henqueue, _, rfl⟩

end Sending

end ZetaNet
