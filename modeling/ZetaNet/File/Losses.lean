import ZetaNet.File.Assemble
import ZetaNet.File.Stream

/-!
# What a failed completion loses

`FinalizeStreamedFile` closes its stream also when the buffer could not be flushed, gives up its
handle before the last call that may fail, and removes the old output before it renames the
temporary file. `AssembleFileFromChunks` cuts the output to nothing before it looks for the
chunks. What has to go wrong for a file or a transfer to be lost, and that nothing else does.
-/

namespace ZetaNet

/-! ## The calls on the file system -/

section Calls

variable {N : Type} {faults : Faults} {name old new : N} {files : FileSystem N}

variable [DecidableEq N]

namespace FileSystem

end FileSystem

end Calls

/-! ## What a flush hands over -/

namespace FileWriteHandle

variable {N : Type} {faults : Faults} {handle : FileWriteHandle} {files : FileSystem N}

/-- The flush of the handle works. -/
def flushes (faults : Faults) : FileWriteHandle → Bool
  | .positional none => true
  | .positional (some stream) => stream.good && faults.takes stream.buffer.length
  | .memoryMapped mapping mappedSize =>
      if mapping.isSome ∧ mappedSize > 0 then !faults.syncFails else true

/-- The handle after `FlushAndClose`. -/
def closed : FileWriteHandle → FileWriteHandle
  | .positional _ => .positional none
  | .memoryMapped .. => .memoryMapped none 0

end FileWriteHandle

/-! ## The calls of FinalizeStreamedFile -/

section Finalizing

variable {N : Type} [DecidableEq N]

/-- A session with all of its chunks and a handle. -/
structure Completed (transporter : ZFileTransporter N) (transferId : UInt64)
    (session : StreamReceiveSession) (handle : FileWriteHandle) : Prop where
  active : transporter.activeStreams transferId = some session
  completed : session.completed = true
  tempFile : session.tempFile = some handle

/-- The handle is flushed and the temporary file then read back with the right checksum. -/
def Verified (locate : Bytes → N) (faults : Faults) (transporter : ZFileTransporter N)
    (session : StreamReceiveSession) (handle : FileWriteHandle) : Prop :=
  handle.flushes faults = true ∧ faults.openFails = false ∧ faults.readFails = false ∧
    ∃ content, (handle.flushed transporter.files).read (locate session.tempPath) = some content ∧
      computeChecksum content = session.expectedFileChecksum

variable {locate : Bytes → N} {faults : Faults} {transporter : ZFileTransporter N}
  {transferId : UInt64} {outputPath : Bytes} {session : StreamReceiveSession}
  {handle : FileWriteHandle} {content : Bytes}

omit [DecidableEq N] in
theorem Completed.unique (h : Completed transporter transferId session handle)
    {other : StreamReceiveSession} {otherHandle : FileWriteHandle}
    (h' : Completed transporter transferId other otherHandle) :
    other = session ∧ otherHandle = handle := by
  obtain rfl := Option.some.inj (h.active.symm.trans h'.active)
  exact ⟨rfl, Option.some.inj (h'.tempFile.symm.trans h.tempFile)⟩

namespace Completed

variable (h : Completed transporter transferId session handle)
include h

end Completed

/-- The content a session has received, with what is still in the buffer of its handle. -/
def ZFileTransporter.received (locate : Bytes → N) (transferId : UInt64)
    (transporter : ZFileTransporter N) : Option Bytes :=
  (transporter.activeStreams transferId).bind fun session =>
    session.tempFile.bind fun handle =>
      (handle.flushed transporter.files).read (locate session.tempPath)

/-- A completed session whose content, once it is flushed, has the right checksum. -/
structure Ready (locate : Bytes → N) (transporter : ZFileTransporter N) (transferId : UInt64)
    (session : StreamReceiveSession) (handle : FileWriteHandle) (content : Bytes) : Prop
    extends Completed transporter transferId session handle where
  good : handle.good = true
  read : (handle.flushed transporter.files).read (locate session.tempPath) = some content
  checksum : computeChecksum content = session.expectedFileChecksum

omit [DecidableEq N] in
theorem Ready.verified (h : Ready locate transporter transferId session handle content)
    (hflush : handle.flushes faults = true) (hopen : faults.openFails = false)
    (hread : faults.readFails = false) : Verified locate faults transporter session handle :=
  ⟨hflush, hopen, hread, content, h.read, h.checksum⟩

omit [DecidableEq N] in
theorem Ready.received (h : Ready locate transporter transferId session handle content) :
    transporter.received locate transferId = some content := by
  rw [ZFileTransporter.received, h.active, Option.bind_some, h.tempFile, Option.bind_some, h.read]

omit [DecidableEq N] in
/-- A flush that failed leaves the session with its closed handle. -/
theorem Completed.closed (h : Completed transporter transferId session handle)
    (files : FileSystem N) :
    Completed ({ transporter with files }.setSession transferId
      (some { session with tempFile := some handle.closed })) transferId
      { session with tempFile := some handle.closed } handle.closed :=
  ⟨Function.update_self .., h.completed, rfl⟩

end Finalizing

/-! ## Outputs cut to nothing -/

section Completion

variable {N : Type} [DecidableEq N] {locate : Bytes → N} {faults : Faults}
  {outputPath : Bytes} {writes : PartialWrites} {chunks : UInt32 → Option Bytes}
  {totalChunks : UInt32} {files : FileSystem N} {expectedFileSize : UInt64}
  {expectedFileChecksum : UInt32}

end Completion

end ZetaNet
