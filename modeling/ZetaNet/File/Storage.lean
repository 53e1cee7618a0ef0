import ZetaNet.Lib.Blocks
import ZetaNet.Wire.Checksum

/-!
# Files and the handles that write them

The file system as the file transporter uses it, and the two implementations of
`IFileWriteFactory` and `IFileWriteHandle`: positional writes (`z_file_write_interface.cc`)
through the buffer of a `std::fstream`, and a memory mapping (`z_file_write_mmap.cc`). A name
refers to an inode and an open handle keeps its inode, whatever becomes of the name.
-/

namespace ZetaNet

/-- The calls to the operating system that fail in one call of the file transporter. -/
structure Faults where
  openFails : Bool := false
  truncateFails : Bool := false
  mapFails : Bool := false
  /-- the writes of the call fail after so many bytes -/
  writeStops : Option Nat := none
  /-- `msync` fails -/
  syncFails : Bool := false
  readFails : Bool := false
  removeFails : Bool := false
  renameFails : Bool := false
  deriving DecidableEq

namespace Faults

/-- The system takes the first so many bytes that a call hands over. -/
def takes (faults : Faults) (count : Nat) : Bool := faults.writeStops.all (count ≤ ·)

/-- What it stores of bytes that are handed over after so many others. -/
def stored (faults : Faults) (before : Nat) (data : Bytes) : Bytes :=
  match faults.writeStops with
  | some stop => data.take (stop - before)
  | none => data

@[simp] theorem takes_none (count : Nat) : takes {} count = true := rfl

@[simp] theorem stored_none (before : Nat) (data : Bytes) : stored {} before data = data := rfl

variable {faults : Faults} {content : Bytes} {count more : Nat}

theorem takes_of_le (hle : count ≤ more) (h : faults.takes more = true) :
    faults.takes count = true := by
  unfold takes at h ⊢
  cases hstop : faults.writeStops with
  | none => rfl
  | some stop =>
      rw [hstop] at h
      exact decide_eq_true (hle.trans (of_decide_eq_true h))

theorem stored_append (content data : Bytes) :
    faults.stored 0 (content ++ data) =
      faults.stored 0 content ++ faults.stored content.length data := by
  unfold stored
  cases faults.writeStops with
  | none => rfl
  | some stop => exact List.take_append

/-- What the system takes it stores. -/
theorem stored_of_takes (h : faults.takes content.length = true) :
    faults.stored 0 content = content := by
  unfold takes at h
  unfold stored
  cases hstop : faults.writeStops with
  | none => rfl
  | some stop =>
      rw [hstop] at h
      exact List.take_of_length_le (of_decide_eq_true h)

/-- What follows the end of the writes is lost. -/
theorem stored_eq_nil (h : faults.takes count = false) (data : Bytes) :
    faults.stored count data = [] := by
  unfold takes at h
  unfold stored
  cases hstop : faults.writeStops with
  | none => simp [hstop] at h
  | some stop =>
      have hlt : stop < count := by simpa [hstop] using h
      show data.take (stop - count) = []
      rw [Nat.sub_eq_zero_of_le (Nat.le_of_lt hlt), List.take_zero]

end Faults

/-- `N` are the names paths resolve to. -/
structure FileSystem (N : Type) where
  entries : N → Option Nat
  contents : Nat → Bytes
  nextInode : Nat

variable {N : Type}

namespace FileSystem

/-- The content a name leads to. -/
def read (name : N) (files : FileSystem N) : Option Bytes :=
  (files.entries name).map files.contents

theorem read_of_entries {name : N} {inode : Nat} {files : FileSystem N}
    (h : files.entries name = some inode) : files.read name = some (files.contents inode) := by
  rw [read, h, Option.map_some]

def setContents (inode : Nat) (content : Bytes) (files : FileSystem N) : FileSystem N :=
  { files with contents := Function.update files.contents inode content }

/-- `ftruncate`. -/
def truncate (inode size : Nat) (files : FileSystem N) : FileSystem N :=
  let content := files.contents inode
  files.setContents inode (content.take size ++ List.replicate (size - content.length) 0)

/-- Store bytes at an offset; a hole in front of them reads as zeros. -/
def write (inode offset : Nat) (data : Bytes) (files : FileSystem N) : FileSystem N :=
  if data = [] then files
  else files.setContents inode (Blocks.writeAt 0 (files.contents inode) offset data)

@[simp] theorem write_nil (inode offset : Nat) (files : FileSystem N) :
    files.write inode offset [] = files := if_pos rfl

@[simp] theorem entries_write (inode offset : Nat) (data : Bytes) (files : FileSystem N) :
    (files.write inode offset data).entries = files.entries := by
  unfold write
  split <;> rfl

theorem contents_write (inode offset : Nat) {data : Bytes} (h : data ≠ [])
    (files : FileSystem N) :
    (files.write inode offset data).contents inode =
      Blocks.writeAt 0 (files.contents inode) offset data := by
  rw [write, if_neg h]
  exact Function.update_self ..

/-- Hand bytes over to the system, after so many others in the same call; whether it takes all
of them. -/
def store (faults : Faults) (before inode offset : Nat) (data : Bytes) (files : FileSystem N) :
    Bool × FileSystem N :=
  (faults.takes (before + data.length), files.write inode offset (faults.stored before data))

variable [DecidableEq N]

/-- `open` that creates the file or cuts it to nothing (`FLAG_CREATE_ALWAYS`, `O_TRUNC`). -/
def createAlways (name : N) (files : FileSystem N) : Nat × FileSystem N :=
  match files.entries name with
  | some inode => (inode, files.setContents inode [])
  | none =>
      (files.nextInode,
        { entries := Function.update files.entries name (some files.nextInode)
          contents := Function.update files.contents files.nextInode []
          nextInode := files.nextInode + 1 })

/-- `std::remove`, whose result is not looked at. -/
def remove (faults : Faults) (name : N) (files : FileSystem N) : FileSystem N :=
  if faults.removeFails then files
  else { files with entries := Function.update files.entries name none }

/-- `std::rename`: the old file of the new name is replaced; two names of one file stay. -/
def rename (faults : Faults) (old new : N) (files : FileSystem N) : Bool × FileSystem N :=
  if faults.renameFails then (false, files)
  else
    match files.entries old with
    | none => (false, files)
    | some inode =>
        if files.entries new = some inode then (true, files)
        else
          (true,
            { files with
              entries := Function.update (Function.update files.entries old none) new
                (some inode) })

/-- Removing the new name and renaming the old one moves the content. -/
theorem exists_replace {old new : N} {content : Bytes} {files : FileSystem N}
    (h : files.read old = some content) (hne : new ≠ old) :
    ∃ files', (files.remove {} new).rename {} old new = (true, files') ∧
      files'.read new = some content := by
  obtain ⟨inode, hentry, rfl⟩ := Option.map_eq_some_iff.mp h
  have hold : (files.remove {} new).entries old = some inode :=
    (Function.update_of_ne (Ne.symm hne) ..).trans hentry
  have hnew : (files.remove {} new).entries new = none := Function.update_self ..
  refine ⟨{ files.remove {} new with
    entries := Function.update (Function.update (files.remove {} new).entries old none) new
      (some inode) }, by simp [rename, hold, hnew], ?_⟩
  exact read_of_entries (Function.update_self ..)

end FileSystem

/-! ## The stream of a file -/

/-- The largest `off_t`. -/
def kMaxFileOffset : UInt64 := 0x7FFFFFFFFFFFFFFF

/-- The `std::fstream` of a `base::File`. A write that is shorter than the buffer stays in it,
where it belongs `bufferOffset` bytes into the file, until the next seek, a flush or the end of
the stream. -/
structure FileStream where
  file : Nat
  bufferSize : Nat
  bufferOffset : Nat := 0
  buffer : Bytes := []
  good : Bool := true
  deriving DecidableEq

namespace FileStream

/-- The files once the buffer has got into its file. -/
def flushed (files : FileSystem N) (stream : FileStream) : FileSystem N :=
  files.write stream.file stream.bufferOffset stream.buffer

/-- Hand the buffer over to the system. Bytes it does not take are gone, and a stream that has
failed once does nothing any more. -/
def sync (faults : Faults) (files : FileSystem N) (stream : FileStream) :
    FileStream × FileSystem N :=
  if stream.good = false then ({ stream with buffer := [] }, files)
  else
    let (stored, files) :=
      files.store faults 0 stream.file stream.bufferOffset stream.buffer
    ({ stream with buffer := [], good := stored }, files)

/-- `File::Write`: `seekp`, which hands the buffer over, and `write`. The offset goes over as an
`int64_t`, and the number of bytes comes back as an `int`. -/
def write (faults : Faults) (offset : UInt64) (data : Bytes) (files : FileSystem N)
    (stream : FileStream) : Bool × FileStream × FileSystem N :=
  let buffered := stream.buffer.length
  let (stream, files) := stream.sync faults files
  if stream.good = false then (false, stream, files)
  else if offset > kMaxFileOffset then (false, { stream with good := false }, files)
  else if data.length < stream.bufferSize then
    (data.length < 2 ^ 31, { stream with bufferOffset := offset.toNat, buffer := data }, files)
  else
    let (stored, files) := files.store faults buffered stream.file offset.toNat data
    (stored && data.length < 2 ^ 31, { stream with good := stored }, files)

/-- A stream stays with its file. -/
theorem file_write (faults : Faults) (offset : UInt64) (data : Bytes) (files : FileSystem N)
    (stream : FileStream) : (stream.write faults offset data files).2.1.file = stream.file := by
  have hsync : (stream.sync faults files).1.file = stream.file := by
    unfold sync
    split <;> rfl
  unfold write
  dsimp only
  split
  · exact hsync
  split
  · exact hsync
  split
  · exact hsync
  · exact hsync

end FileStream

/-! ## The write handles -/

/-- The two `IFileWriteFactory` objects; the streams of the positional one have a buffer of some
size. -/
inductive FileWriteFactory
  | positional (bufferSize : Nat)
  | memoryMapped
  deriving DecidableEq

/-- The two kinds of `IFileWriteHandle`; without a stream or an inode the file is closed or not
mapped. -/
inductive FileWriteHandle
  | positional (file : Option FileStream)
  | memoryMapped (mapping : Option Nat) (mappedSize : UInt64)
  deriving DecidableEq

namespace FileWriteFactory

/-- `Open`. -/
def openHandle [DecidableEq N] (faults : Faults) (name : N) (expectedSize : UInt64)
    (files : FileSystem N) (factory : FileWriteFactory) : Option FileWriteHandle × FileSystem N :=
  if faults.openFails then (none, files)
  else
    let (inode, files) := files.createAlways name
    match factory with
    | .positional bufferSize =>
        (some (.positional (some { file := inode, bufferSize })), files)
    | .memoryMapped =>
        if expectedSize > kMaxFileOffset then (none, files)
        else if faults.truncateFails then (none, files)
        else
          let files := files.truncate inode expectedSize.toNat
          if expectedSize = 0 then (some (.memoryMapped none 0), files)
          else if faults.mapFails then (none, files)
          else (some (.memoryMapped (some inode) expectedSize), files)

end FileWriteFactory

namespace FileWriteHandle

/-- `WriteAt`. -/
def writeAt (faults : Faults) (offset : UInt64) (data : Bytes) (files : FileSystem N) :
    FileWriteHandle → Bool × FileWriteHandle × FileSystem N
  | .positional none => (false, .positional none, files)
  | .positional (some stream) =>
      if data = [] then (true, .positional (some stream), files)
      else
        let (written, stream, files) := stream.write faults offset data files
        (written, .positional (some stream), files)
  | .memoryMapped mapping mappedSize =>
      if data = [] then (true, .memoryMapped mapping mappedSize, files)
      else
        match mapping with
        | none => (false, .memoryMapped none mappedSize, files)
        | some inode =>
            if offset > mappedSize then (false, .memoryMapped mapping mappedSize, files)
            else if data.length > (mappedSize - offset).toNat then
              (false, .memoryMapped mapping mappedSize, files)
            else
              (true, .memoryMapped mapping mappedSize, files.write inode offset.toNat data)

/-- `FlushAndClose`. The stream goes with its file, also when it could not be flushed; a mapping
has its bytes in the file already. -/
def flushAndClose (faults : Faults) (files : FileSystem N) :
    FileWriteHandle → Bool × FileWriteHandle × FileSystem N
  | .positional none => (true, .positional none, files)
  | .positional (some stream) =>
      let (stream, files) := stream.sync faults files
      (stream.good, .positional none, files)
  | .memoryMapped mapping mappedSize =>
      (if mapping.isSome ∧ mappedSize > 0 then !faults.syncFails else true,
        .memoryMapped none 0, files)

/-- `Close`: the end of a stream hands its buffer over, and nobody asks whether that worked. -/
def close (faults : Faults) (files : FileSystem N) : FileWriteHandle → FileSystem N
  | .positional (some stream) => (stream.sync faults files).2
  | _ => files

/-! What a handle holds besides the file. -/

/-- The handle has not failed yet. -/
def good : FileWriteHandle → Bool
  | .positional (some stream) => stream.good
  | _ => true

/-- The files once the buffer of the handle has got into its file. -/
def flushed (files : FileSystem N) : FileWriteHandle → FileSystem N
  | .positional (some stream) => stream.flushed files
  | _ => files

@[simp] theorem entries_flushed (files : FileSystem N) (handle : FileWriteHandle) :
    (handle.flushed files).entries = files.entries := by
  unfold flushed FileStream.flushed
  split
  · exact FileSystem.entries_write ..
  · rfl

end FileWriteHandle

/-! ## Reading a file back -/

/-- The size of the buffer of `ComputeFileChecksum`. -/
def kChecksumBlockSize : Nat := 64 * 1024

/-- The loop of `ComputeFileChecksum` from `offset` on; `fuel` bounds the number of reads. -/
def checksumLoop (content : Bytes) : Nat → Nat → UInt32 → UInt32
  | 0, _, checksum => checksum
  | fuel + 1, offset, checksum =>
      let read := (content.drop offset).take kChecksumBlockSize
      if read = [] then checksum
      else checksumLoop content fuel (offset + read.length) (updateChecksum read checksum)

/-- `ComputeFileChecksum`, `none` for `false`. Every read but the last takes a byte or more. -/
def computeFileChecksum (faults : Faults) (name : N) (files : FileSystem N) : Option UInt32 :=
  if faults.openFails ∨ faults.readFails then none
  else
    (files.read name).map fun content =>
      checksumLoop content (content.length + 1) 0 kFnv1aOffset

/-- The loop reads on to the end of the file. -/
theorem checksumLoop_eq {content : Bytes} {fuel offset : Nat}
    (hfuel : content.length - offset < fuel) (checksum : UInt32) :
    checksumLoop content fuel offset checksum =
      updateChecksum (content.drop offset) checksum := by
  induction fuel generalizing offset checksum with
  | zero => omega
  | succ fuel ih =>
      set read := (content.drop offset).take kChecksumBlockSize with hread
      rw [checksumLoop, ← hread]
      have hlength : read.length = min kChecksumBlockSize (content.length - offset) := by
        simp [hread]
      have hblock : kChecksumBlockSize = 65536 := rfl
      split
      · rename_i hempty
        have hend : content.length ≤ offset := by
          have := congrArg List.length hempty
          rw [hlength, List.length_nil] at this
          omega
        rw [List.drop_eq_nil_of_le hend, updateChecksum_nil]
      · rename_i hsome
        have hpos : 0 < read.length := List.length_pos_iff.mpr hsome
        have hrest : content.drop offset = read ++ content.drop (offset + read.length) := by
          rw [← List.drop_drop]
          exact (List.prefix_iff_eq_append.mp (List.take_prefix ..)).symm
        rw [ih (by omega), hrest, updateChecksum_append]

/-- The checksum of a file read in blocks is the checksum of its content. -/
theorem computeFileChecksum_eq {name : N} {files : FileSystem N} {content : Bytes}
    (h : files.read name = some content) :
    computeFileChecksum {} name files = some (computeChecksum content) := by
  simp only [computeFileChecksum, h, Option.map_some, Bool.false_eq_true, or_self, if_false]
  rw [checksumLoop_eq (by omega), List.drop_zero, computeChecksum]

end ZetaNet
