import ZetaNet.File.Chunk
import ZetaNet.File.Storage

/-!
# Assembling a file from its chunks

`AssembleFileFromChunks` of `z_file_transporter.cc`: the output is created, the chunks of a map
are written to its stream in the order of their indices, each in as many writes as it takes, and
the size and the checksum are compared at the end.
-/

namespace ZetaNet

/-- How the stream of the output takes what is written to it: how much of a write at a position
it accepts, and how many of the bytes it has accepted have left its buffer for the system. -/
structure PartialWrites where
  taken : Nat → Nat → Nat
  taken_pos : ∀ position count, 0 < count → 0 < taken position count
  taken_le : ∀ position count, taken position count ≤ count
  handed : Nat → Nat
  handed_le : ∀ accepted, handed accepted ≤ accepted
  handed_mono : Monotone handed

/-- Every write takes all of its bytes, and no buffer holds them back. -/
def PartialWrites.whole : PartialWrites where
  taken _ count := count
  taken_pos _ _ := id
  taken_le _ _ := le_rfl
  handed := id
  handed_le _ := le_rfl
  handed_mono := monotone_id

/-- The output file of a call, with the count the call keeps of its bytes. -/
structure OutputFile (N : Type) where
  files : FileSystem N
  inode : Nat
  position : Nat
  bytesWritten : UInt64

section Assembling

variable {N : Type} (faults : Faults) (writes : PartialWrites)

/-- `WriteAtCurrentPos`: how many of the bytes are written, 0 for a failure. The size is an
`int`, so one of 2^31 or more comes out negative. What stays in the buffer is handed over at the
end of the call at the latest, so all the bytes are in the file then, up to where the writes
stop; the write itself fails when bytes beyond that leave the buffer. -/
def OutputFile.writeAtCurrentPos (data : Bytes) (output : OutputFile N) : Nat × OutputFile N :=
  let size := data.length % 2 ^ 32
  let taken := if size < 2 ^ 31 then writes.taken output.position size else 0
  let position := output.position + taken
  let data := faults.stored output.position (data.take taken)
  (if faults.takes (writes.handed position) then taken else 0,
    { output with
      files := output.files.write output.inode output.position data
      position })

/-- The loop that writes one chunk; the result tells whether it got to the end. It comes to an
end because every turn but the last writes a byte or more. -/
def writeChunk (chunkData : Bytes) (chunkOffset : Nat) (output : OutputFile N) :
    Bool × OutputFile N :=
  if chunkOffset < chunkData.length then
    let (wrote, output) := output.writeAtCurrentPos faults writes (chunkData.drop chunkOffset)
    if wrote = 0 then (false, output)
    else
      writeChunk chunkData (chunkOffset + wrote)
        { output with bytesWritten := output.bytesWritten + UInt64.ofNat wrote }
  else (true, output)
termination_by chunkData.length - chunkOffset

/-- The loop over the indices with `todo` to go, from `i` on. -/
def assembleLoop (chunks : UInt32 → Option Bytes) :
    Nat → Nat → UInt32 → OutputFile N → Bool × UInt32 × OutputFile N
  | 0, _, fileChecksum, output => (true, fileChecksum, output)
  | todo + 1, i, fileChecksum, output =>
      match chunks (UInt32.ofNat i) with
      | none => (false, fileChecksum, output)
      | some chunkData =>
          let (written, output) := writeChunk faults writes chunkData 0 output
          if written = false then (false, fileChecksum, output)
          else
            assembleLoop chunks todo (i + 1) (updateChecksum chunkData fileChecksum) output

/-- `AssembleFileFromChunks`; without a size and a checksum it is the overload that compares
neither. -/
def assembleFileFromChunks [DecidableEq N] (locate : Bytes → N) (outputPath : Bytes)
    (chunks : UInt32 → Option Bytes) (totalChunks : UInt32) (files : FileSystem N)
    (expectedFileSize : UInt64 := 0xFFFFFFFFFFFFFFFF) (expectedFileChecksum : UInt32 := 0) :
    Bool × FileSystem N :=
  if totalChunks = 0 then (false, files)
  else if containsPathTraversal outputPath then (false, files)
  else if faults.openFails then (false, files)
  else
    let (inode, files) := files.createAlways (locate outputPath)
    let (assembled, fileChecksum, output) :=
      assembleLoop faults writes chunks totalChunks.toNat 0 kFnv1aOffset ⟨files, inode, 0, 0⟩
    if assembled = false then (false, output.files)
    else if expectedFileSize ≠ 0xFFFFFFFFFFFFFFFF ∧ output.bytesWritten ≠ expectedFileSize then
      (false, output.files)
    else if expectedFileChecksum ≠ 0 ∧ fileChecksum ≠ expectedFileChecksum then
      (false, output.files)
    else (true, output.files)

end Assembling

/-! ## What the writes leave in the file -/

/-- The bytes of a chunk that are offered to the file: all, unless the size fits no `int`. -/
def offered (chunkData : Bytes) : Bytes :=
  if chunkData.length % 2 ^ 32 < 2 ^ 31 then chunkData.take (chunkData.length % 2 ^ 32) else []

theorem offered_of_lt {chunkData : Bytes} (h : chunkData.length < 2 ^ 31) :
    offered chunkData = chunkData := by
  rw [offered, Nat.mod_eq_of_lt (by omega), if_pos h, List.take_length]

theorem offered_front (chunkData : Bytes) : offered chunkData <+: chunkData := by
  unfold offered
  split
  · exact List.take_prefix ..
  · exact List.nil_prefix

theorem length_offered (chunkData : Bytes) :
    (offered chunkData).length =
      if chunkData.length % 2 ^ 32 < 2 ^ 31 then chunkData.length % 2 ^ 32 else 0 := by
  have hle := Nat.mod_le chunkData.length (2 ^ 32)
  unfold offered
  split
  · rw [List.length_take, Nat.min_eq_left hle]
  · rfl

/-- What is left of a chunk is offered as before. -/
theorem offered_drop {chunkData : Bytes} {chunkOffset : Nat}
    (h : chunkOffset ≤ (offered chunkData).length) :
    offered (chunkData.drop chunkOffset) = (offered chunkData).drop chunkOffset := by
  rw [length_offered] at h
  by_cases hfits : chunkData.length % 2 ^ 32 < 2 ^ 31
  · rw [if_pos hfits] at h
    have hmod : (chunkData.length - chunkOffset) % 2 ^ 32 =
        chunkData.length % 2 ^ 32 - chunkOffset := by
      omega
    rw [offered, offered, if_pos hfits, List.length_drop, hmod, if_pos (by omega), List.drop_take]
  · rw [if_neg hfits, Nat.le_zero] at h
    rw [h, List.drop_zero, List.drop_zero]

section Written

variable {N : Type} {faults : Faults} {writes : PartialWrites} {name : N}
  {content chunkData : Bytes} {chunkOffset : Nat} {output : OutputFile N}

/-- The output gets this content, and the next write continues it. -/
structure OutputFile.Has (faults : Faults) (writes : PartialWrites) (name : N) (content : Bytes)
    (output : OutputFile N) : Prop where
  entry : output.files.entries name = some output.inode
  contents : output.files.contents output.inode = faults.stored 0 content
  position : output.position = content.length
  bytesWritten : output.bytesWritten = UInt64.ofNat content.length
  takes : faults.takes (writes.handed content.length) = true

theorem OutputFile.Has.read (h : output.Has faults writes name content) :
    output.files.read name = some (faults.stored 0 content) := by
  rw [FileSystem.read_of_entries h.entry, h.contents]

/-- Where the buffer is not handed over the writes have stopped. -/
theorem Faults.stored_append_of_not_takes
    (h : faults.takes (writes.handed content.length) = false) (more : Bytes) :
    faults.stored 0 (content ++ more) = faults.stored 0 content := by
  have hstopped : faults.takes content.length = false :=
    Bool.eq_false_of_not_eq_true fun htakes =>
      absurd (takes_of_le (writes.handed_le _) htakes) (by rw [h]; decide)
  rw [stored_append, stored_eq_nil hstopped, List.append_nil]

/-- Writing where the content ends continues it. -/
theorem OutputFile.Has.contents_write (h : output.Has faults writes name content) (data : Bytes) :
    (output.files.write output.inode output.position
        (faults.stored output.position data)).contents output.inode =
      faults.stored 0 (content ++ data) := by
  rw [Faults.stored_append, h.position, ← h.contents]
  by_cases hnone : faults.stored content.length data = []
  · rw [hnone, FileSystem.write_nil, List.append_nil]
  · -- something is stored, so all that stands in front of it is
    have htakes : faults.takes content.length = true :=
      Bool.eq_true_of_not_eq_false fun h => hnone (Faults.stored_eq_nil h data)
    rw [FileSystem.contents_write _ _ hnone, h.contents, Faults.stored_of_takes htakes,
      Blocks.writeAt_length]

/-- How many bytes a write takes. -/
def OutputFile.taken (writes : PartialWrites) (data : Bytes) (output : OutputFile N) : Nat :=
  if data.length % 2 ^ 32 < 2 ^ 31 then writes.taken output.position (data.length % 2 ^ 32) else 0

/-- A write takes no more than what is offered, and nothing only where nothing is offered. -/
theorem OutputFile.taken_spec (writes : PartialWrites) (data : Bytes) (output : OutputFile N) :
    output.taken writes data ≤ (offered data).length ∧
      (output.taken writes data = 0 → offered data = []) := by
  unfold OutputFile.taken
  rw [length_offered]
  split
  · rename_i hfits
    refine ⟨writes.taken_le .., fun hnone => List.eq_nil_of_length_eq_zero ?_⟩
    rw [length_offered, if_pos hfits]
    by_contra hpos
    exact absurd hnone (Nat.ne_of_gt (writes.taken_pos _ _ (Nat.pos_of_ne_zero hpos)))
  · rename_i hlarge
    exact ⟨le_rfl, fun _ => List.eq_nil_of_length_eq_zero (by rw [length_offered, if_neg hlarge])⟩

theorem take_append_offered (data : Bytes) {count : Nat} (h : count ≤ (offered data).length) :
    data.take count ++ (offered data).drop count = offered data := by
  obtain ⟨rest, hrest⟩ := offered_front data
  conv_lhs => rw [← hrest, List.take_append_of_le_length h]
  rw [hrest, List.take_append_drop]

/-- A write fails where nothing is offered, or the system does not take what is handed over. -/
theorem OutputFile.Has.of_writeAtCurrentPos (h : output.Has faults writes name content)
    (data : Bytes) {wrote : Nat} {output' : OutputFile N}
    (hwrite : output.writeAtCurrentPos faults writes data = (wrote, output')) :
    if wrote = 0 then
      output'.files.read name = some (faults.stored 0 (content ++ offered data)) ∧
        (offered data = [] ∨
          faults.takes (writes.handed (content ++ offered data).length) = false)
    else
      wrote ≤ (offered data).length ∧
        ({ output' with bytesWritten := output'.bytesWritten + UInt64.ofNat wrote } :
          OutputFile N).Has faults writes name (content ++ data.take wrote) := by
  obtain ⟨hle, hzero⟩ := output.taken_spec writes data
  set taken := output.taken writes data with htaken
  have hsplit := take_append_offered data hle
  have hlength : (content ++ data.take taken).length = output.position + taken := by
    have hdata := (offered_front data).length_le
    rw [List.length_append, List.length_take, h.position]
    omega
  obtain ⟨hwrote, rfl⟩ := Prod.mk.inj hwrite
  change (if faults.takes (writes.handed (output.position + taken)) = true then taken else 0) =
    wrote at hwrote
  rw [← hlength] at hwrote
  have hcontents := h.contents_write (data.take taken)
  split
  · -- nothing was taken, or the writes stop inside what was
    rename_i hnone
    refine ⟨?_, ?_⟩
    · refine (FileSystem.read_of_entries
        ((congrFun (FileSystem.entries_write ..) name).trans h.entry)).trans ?_
      refine congrArg some (hcontents.trans ?_)
      by_cases htakes : faults.takes (writes.handed (content ++ data.take taken).length) = true
      · rw [if_pos htakes, hnone] at hwrote
        rw [hwrote, List.take_zero, hzero hwrote]
      · rw [← hsplit, ← List.append_assoc,
          Faults.stored_append_of_not_takes (Bool.eq_false_of_not_eq_true htakes)]
    · by_cases htakes : faults.takes (writes.handed (content ++ data.take taken).length) = true
      · rw [if_pos htakes, hnone] at hwrote
        exact .inl (hzero hwrote)
      · refine .inr (Bool.eq_false_of_not_eq_true fun hall => htakes ?_)
        refine Faults.takes_of_le (writes.handed_mono ?_) hall
        rw [← hsplit, ← List.append_assoc]
        exact (List.prefix_append ..).length_le
  · rename_i hsome
    by_cases htakes : faults.takes (writes.handed (content ++ data.take taken).length) = true
    · rw [if_pos htakes] at hwrote
      subst hwrote
      exact ⟨hle,
        { entry := (congrFun (FileSystem.entries_write ..) name).trans h.entry
          contents := hcontents
          position := hlength.symm
          bytesWritten := by rw [hlength, UInt64.ofNat_add, h.position, ← h.bytesWritten]
          takes := htakes }⟩
    · rw [if_neg htakes] at hwrote
      exact absurd hwrote.symm hsome

/-- The loop over one chunk leaves what is offered of it, up to where the writes stop, and gets
to the end of a chunk whose size fits an `int` where the system takes what is handed over. -/
theorem OutputFile.Has.of_writeChunk (h : output.Has faults writes name content)
    (hoffset : chunkOffset ≤ (offered chunkData).length) {ok : Bool} {output' : OutputFile N}
    (hwrite : writeChunk faults writes chunkData chunkOffset output = (ok, output')) :
    output'.files.read name =
        some (faults.stored 0 (content ++ (offered chunkData).drop chunkOffset)) ∧
      (ok = true ↔ chunkData.length < 2 ^ 31 ∧
        faults.takes (writes.handed (content ++ chunkData.drop chunkOffset).length) = true) ∧
      (ok = true → output'.Has faults writes name (content ++ chunkData.drop chunkOffset)) := by
  induction hleft : chunkData.length - chunkOffset using Nat.strong_induction_on
    generalizing content chunkOffset output with
  | _ left ih =>
  rw [writeChunk] at hwrite
  have hprefix := offered_front chunkData
  have hofferedLe := hprefix.length_le
  split at hwrite
  · rename_i hmore
    cases hcall : output.writeAtCurrentPos faults writes (chunkData.drop chunkOffset) with
    | mk wrote mid =>
    have hmid := h.of_writeAtCurrentPos _ hcall
    rw [offered_drop hoffset] at hmid
    rw [hcall] at hwrite
    dsimp only at hwrite
    split at hwrite
    · -- the write failed
      rename_i hzero
      obtain ⟨rfl, rfl⟩ := Prod.mk.inj hwrite
      rw [if_pos hzero] at hmid
      refine ⟨hmid.1, iff_of_false (by decide) fun hall => ?_, fun hok => by cases hok⟩
      rw [offered_of_lt hall.1] at hmid
      rcases hmid.2 with hempty | hstops
      · rw [List.drop_eq_nil_iff] at hempty
        omega
      · rw [hall.2] at hstops
        cases hstops
    · rename_i hpos
      rw [if_neg hpos] at hmid
      obtain ⟨hle, hmid⟩ := hmid
      have hsplit (xs : Bytes) : xs.drop chunkOffset =
          (xs.drop chunkOffset).take wrote ++ xs.drop (chunkOffset + wrote) := by
        rw [← List.drop_drop, List.take_append_drop]
      have hfront : (chunkData.drop chunkOffset).take wrote =
          ((offered chunkData).drop chunkOffset).take wrote := by
        obtain ⟨rest, hrest⟩ := hprefix.drop chunkOffset
        rw [← hrest, List.take_append_of_le_length hle]
      rw [List.length_drop] at hle
      obtain ⟨hread, hok, hhas⟩ := ih _ (by omega) hmid (by omega) hwrite rfl
      rw [List.append_assoc] at hread hok hhas
      rw [hfront, ← hsplit] at hread
      rw [← hsplit] at hok hhas
      exact ⟨hread, hok, hhas⟩
  · rename_i hend
    obtain ⟨rfl, rfl⟩ := Prod.mk.inj hwrite
    have hlength := length_offered chunkData
    rw [List.drop_eq_nil_of_le (by omega), List.drop_eq_nil_of_le (by omega), List.append_nil]
    refine ⟨h.read, iff_of_true rfl ⟨?_, h.takes⟩, fun _ => h⟩
    split at hlength
    · omega
    · omega

end Written

/-! ## What is assembled -/

/-- The chunks with `todo` indices to go, from `i` on, up to one that is missing or too large. -/
def assembled (chunks : UInt32 → Option Bytes) : Nat → Nat → Bytes
  | 0, _ => []
  | todo + 1, i =>
      match chunks (UInt32.ofNat i) with
      | none => []
      | some chunkData =>
          offered chunkData ++
            if chunkData.length < 2 ^ 31 then assembled chunks todo (i + 1) else []

section Assembled

variable {N : Type} {faults : Faults} {writes : PartialWrites} {name : N} {content : Bytes}
  {chunks : UInt32 → Option Bytes} {output : OutputFile N} {todo i : Nat}

/-- The loop leaves the chunks in their order up to where the writes stop, and gets to the end
where every chunk is there and the system takes what is handed over. -/
theorem OutputFile.Has.of_assembleLoop (h : output.Has faults writes name content)
    {fileChecksum : UInt32} {ok : Bool} {checksum : UInt32} {output' : OutputFile N}
    (hloop : assembleLoop faults writes chunks todo i fileChecksum output =
      (ok, checksum, output')) :
    output'.files.read name = some (faults.stored 0 (content ++ assembled chunks todo i)) ∧
      (ok = true ↔
        (∀ j, i ≤ j → j < i + todo →
          ∃ chunkData, chunks (UInt32.ofNat j) = some chunkData ∧ chunkData.length < 2 ^ 31) ∧
        faults.takes (writes.handed (content ++ assembled chunks todo i).length) = true) ∧
      (ok = true → checksum = updateChecksum (assembled chunks todo i) fileChecksum ∧
        output'.bytesWritten = UInt64.ofNat (content ++ assembled chunks todo i).length) := by
  induction todo generalizing content i fileChecksum output with
  | zero =>
      obtain ⟨rfl, rfl, rfl⟩ := Prod.mk.inj hloop |>.imp id Prod.mk.inj
      simp only [assembled, List.append_nil]
      exact ⟨h.read, iff_of_true trivial ⟨fun j hlo hhi => by omega, h.takes⟩,
        fun _ => ⟨rfl, h.bytesWritten⟩⟩
  | succ todo ih =>
      rw [assembleLoop] at hloop
      rw [assembled]
      cases hchunk : chunks (UInt32.ofNat i) with
      -- a chunk that is missing ends the loop
      | none =>
          rw [hchunk] at hloop
          obtain ⟨rfl, rfl, rfl⟩ := Prod.mk.inj hloop |>.imp id Prod.mk.inj
          dsimp only
          rw [List.append_nil]
          refine ⟨h.read, iff_of_false (by decide) fun hall => ?_, fun hok => by cases hok⟩
          obtain ⟨chunkData, hpresent, -⟩ := hall.1 i le_rfl (by omega)
          rw [hchunk] at hpresent
          cases hpresent
      | some chunkData =>
          rw [hchunk] at hloop
          dsimp only at hloop ⊢
          cases hwrite : writeChunk faults writes chunkData 0 output with
          | mk written mid =>
          obtain ⟨hread, hwritten, hmid⟩ := h.of_writeChunk (Nat.zero_le _) hwrite
          rw [List.drop_zero] at hread hwritten hmid
          rw [hwrite] at hloop
          dsimp only at hloop
          cases written with
          -- a chunk that was not written whole: the writes stopped in it, or its size is too large
          | false =>
              obtain ⟨rfl, rfl, rfl⟩ := Prod.mk.inj hloop |>.imp id Prod.mk.inj
              by_cases hsmall : chunkData.length < 2 ^ 31
              · have hstops :
                    faults.takes (writes.handed (content ++ chunkData).length) = false :=
                  Bool.eq_false_of_not_eq_true fun htakes =>
                    absurd (hwritten.mpr ⟨hsmall, htakes⟩) (by decide)
                rw [offered_of_lt hsmall] at hread
                rw [if_pos hsmall, offered_of_lt hsmall, ← List.append_assoc,
                  Faults.stored_append_of_not_takes hstops]
                refine ⟨hread, iff_of_false (by decide) fun hall => ?_, fun hok => by cases hok⟩
                rw [Faults.takes_of_le (writes.handed_mono ?_) hall.2] at hstops
                · cases hstops
                · exact (List.prefix_append ..).length_le
              · rw [if_neg hsmall, List.append_nil]
                refine ⟨hread, iff_of_false (by decide) fun hall => ?_, fun hok => by cases hok⟩
                obtain ⟨other, hpresent, hother⟩ := hall.1 i le_rfl (by omega)
                rw [hchunk] at hpresent
                obtain rfl := Option.some.inj hpresent
                exact hsmall hother
          -- the file has this chunk too, and the loop goes on behind it
          | true =>
              obtain ⟨hsmall, -⟩ := hwritten.mp rfl
              obtain ⟨hlast, hok, hcounts⟩ := ih (hmid rfl) hloop
              rw [List.append_assoc] at hlast hok hcounts
              rw [if_pos hsmall, offered_of_lt hsmall]
              refine ⟨hlast, hok.trans (and_congr_left fun _ => ?_), fun htrue => ?_⟩
              · constructor
                · intro hrest j hlo hhi
                  rcases Nat.eq_or_lt_of_le hlo with rfl | hlt
                  · exact ⟨chunkData, hchunk, hsmall⟩
                  · exact hrest j hlt (by omega)
                · exact fun hall j hlo hhi => hall j (by omega) (by omega)
              · rw [updateChecksum_append]
                exact hcounts htrue

/-- Every chunk up to the last one is there, and its size fits an `int`. -/
def Complete (chunks : UInt32 → Option Bytes) (totalChunks : UInt32) : Prop :=
  ∀ i < totalChunks.toNat,
    ∃ chunkData, chunks (UInt32.ofNat i) = some chunkData ∧ chunkData.length < 2 ^ 31

/-- The size and the checksum that are expected, if any are. -/
def Expected (expectedFileSize : UInt64) (expectedFileChecksum : UInt32) (content : Bytes) : Prop :=
  (expectedFileSize = 0xFFFFFFFFFFFFFFFF ∨ UInt64.ofNat content.length = expectedFileSize) ∧
    (expectedFileChecksum = 0 ∨ computeChecksum content = expectedFileChecksum)

variable [DecidableEq N]

/-- A file that is created is empty. -/
theorem OutputFile.has_createAlways (faults : Faults) (writes : PartialWrites) (name : N)
    (files : FileSystem N) :
    (⟨(files.createAlways name).2, (files.createAlways name).1, 0, 0⟩ : OutputFile N).Has faults
      writes name [] := by
  have hnone : faults.takes 0 = true := by
    unfold Faults.takes
    cases faults.writeStops with
    | none => rfl
    | some stop => exact decide_eq_true (Nat.zero_le stop)
  have hstored : faults.stored 0 ([] : Bytes) = [] := Faults.stored_of_takes hnone
  have htakes := Faults.takes_of_le (writes.handed_le 0) hnone
  unfold FileSystem.createAlways
  cases hentry : files.entries name with
  | some inode =>
      exact ⟨hentry, (Function.update_self ..).trans hstored.symm, rfl, rfl, htakes⟩
  | none =>
      exact ⟨Function.update_self .., (Function.update_self ..).trans hstored.symm, rfl, rfl,
        htakes⟩

variable {locate : Bytes → N} {outputPath : Bytes} {totalChunks : UInt32} {files : FileSystem N}
  {expectedFileSize : UInt64} {expectedFileChecksum : UInt32}

/-- A call that opens no file changes nothing. -/
theorem assemble_not_opened
    (h : totalChunks = 0 ∨ containsPathTraversal outputPath = true ∨ faults.openFails = true) :
    assembleFileFromChunks faults writes locate outputPath chunks totalChunks files
      expectedFileSize expectedFileChecksum = (false, files) := by
  unfold assembleFileFromChunks
  split
  · rfl
  split
  · rfl
  split
  · rfl
  · rename_i htotal hpath hopen
    rcases h with hzero | htraversal | hfails
    · exact absurd hzero htotal
    · exact absurd htraversal hpath
    · exact absurd hfails hopen

/-- A call that opens the output leaves there what it has assembled, up to where the writes stop,
and succeeds where nothing is missing. -/
theorem assemble_opened (htotal : totalChunks ≠ 0)
    (hpath : containsPathTraversal outputPath = false) (hopen : faults.openFails = false)
    {ok : Bool} {files' : FileSystem N}
    (h : assembleFileFromChunks faults writes locate outputPath chunks totalChunks files
      expectedFileSize expectedFileChecksum = (ok, files')) :
    files'.read (locate outputPath) =
        some (faults.stored 0 (assembled chunks totalChunks.toNat 0)) ∧
      (ok = true ↔ Complete chunks totalChunks ∧
        faults.takes (writes.handed (assembled chunks totalChunks.toNat 0).length) = true ∧
        Expected expectedFileSize expectedFileChecksum
          (assembled chunks totalChunks.toNat 0)) := by
  set content := assembled chunks totalChunks.toNat 0 with hcontent
  have hstart := OutputFile.has_createAlways faults writes (locate outputPath) files
  unfold assembleFileFromChunks at h
  rw [if_neg htotal, hpath, hopen, if_neg (by decide), if_neg (by decide)] at h
  dsimp only at h
  cases hloop : assembleLoop faults writes chunks totalChunks.toNat 0 kFnv1aOffset
      ⟨(files.createAlways (locate outputPath)).2, (files.createAlways (locate outputPath)).1,
        0, 0⟩ with
  | mk written rest =>
  obtain ⟨checksum, output⟩ := rest
  obtain ⟨hread, hwritten, hcounts⟩ := hstart.of_assembleLoop hloop
  rw [List.nil_append, ← hcontent] at hread hwritten hcounts
  rw [hloop] at h
  dsimp only at h
  -- the loop gets through exactly if no chunk is missing and no write fails
  have hcomplete : written = true ↔
      Complete chunks totalChunks ∧ faults.takes (writes.handed content.length) = true := by
    rw [hwritten]
    refine and_congr_left fun _ => ?_
    simp [Complete]
  cases written with
  | false =>
      obtain ⟨rfl, rfl⟩ := Prod.mk.inj h
      refine ⟨hread, iff_of_false (by decide) fun hall => ?_⟩
      exact absurd (hcomplete.mpr ⟨hall.1, hall.2.1⟩) (by decide)
  | true =>
      obtain ⟨hall, htakes⟩ := hcomplete.mp rfl
      obtain ⟨hchecksum, hbytes⟩ := hcounts rfl
      obtain rfl : checksum = computeChecksum content := hchecksum
      rw [if_neg (by decide), hbytes] at h
      split at h
      -- the size is not the expected one
      · rename_i hsize
        obtain ⟨rfl, rfl⟩ := Prod.mk.inj h
        refine ⟨hread, iff_of_false (by decide) fun hok => ?_⟩
        exact hok.2.2.1.elim hsize.1 hsize.2
      · rename_i hsize
        split at h
        -- the checksum is not
        · rename_i hmismatch
          obtain ⟨rfl, rfl⟩ := Prod.mk.inj h
          refine ⟨hread, iff_of_false (by decide) fun hok => ?_⟩
          exact hok.2.2.2.elim hmismatch.1 hmismatch.2
        · rename_i hmatch
          obtain ⟨rfl, rfl⟩ := Prod.mk.inj h
          refine ⟨hread, iff_of_true rfl ⟨hall, htakes, ?_, ?_⟩⟩
          · by_contra hno
            exact hsize (not_or.mp hno)
          · by_contra hno
            exact hmatch (not_or.mp hno)

end Assembled

/-! ## Exactly the concatenation -/

/-- The chunks 0 to `totalChunks - 1` one after the other. -/
def concatenation (chunks : UInt32 → Option Bytes) (totalChunks : UInt32) : Bytes :=
  (List.range totalChunks.toNat).flatMap fun i => (chunks (UInt32.ofNat i)).getD []

section Exact

variable {chunks : UInt32 → Option Bytes} {totalChunks : UInt32}

theorem assembled_eq {todo i : Nat}
    (h : ∀ j, i ≤ j → j < i + todo →
      ∃ chunkData, chunks (UInt32.ofNat j) = some chunkData ∧ chunkData.length < 2 ^ 31) :
    assembled chunks todo i =
        (List.range' i todo).flatMap (fun j => (chunks (UInt32.ofNat j)).getD []) ∧
      (assembled chunks todo i).length ≤ todo * 2 ^ 31 := by
  induction todo generalizing i with
  | zero => exact ⟨rfl, le_rfl⟩
  | succ todo ih =>
      obtain ⟨chunkData, hchunk, hsmall⟩ := h i le_rfl (by omega)
      obtain ⟨hrest, hlength⟩ := @ih (i + 1) fun j hlo hhi => h j (by omega) (by omega)
      rw [assembled, hchunk]
      dsimp only
      rw [if_pos hsmall, offered_of_lt hsmall, List.length_append, List.range'_succ,
        List.flatMap_cons, hchunk, ← hrest]
      exact ⟨rfl, by omega⟩

/-- With all chunks there the size is a `u64` below its maximum. -/
theorem Complete.assembled (h : Complete chunks totalChunks) :
    ZetaNet.assembled chunks totalChunks.toNat 0 = concatenation chunks totalChunks ∧
      (concatenation chunks totalChunks).length < 2 ^ 63 := by
  have htotal := totalChunks.toNat_lt
  obtain ⟨heq, hlength⟩ := @assembled_eq chunks totalChunks.toNat 0
    fun j _ hhi => h j (by omega)
  have hcontent : ZetaNet.assembled chunks totalChunks.toNat 0 =
      concatenation chunks totalChunks := by
    rw [heq, concatenation, List.range_eq_range']
  rw [hcontent] at hlength
  exact ⟨hcontent, by omega⟩

/-- Where the output opens and every write takes something, the call succeeds exactly if every
chunk is there and the size and the checksum are the expected ones; the file is then the
concatenation. -/
theorem assembleFileFromChunks_exact {N : Type} [DecidableEq N] (locate : Bytes → N)
    (writes : PartialWrites) {outputPath : Bytes} (totalChunks : UInt32) (files : FileSystem N)
    (expectedFileSize : UInt64) (expectedFileChecksum : UInt32)
    (hpath : containsPathTraversal outputPath = false)
    (hchunks : ∀ i chunkData, chunks i = some chunkData → chunkData.length < 2 ^ 31) :
    let content := concatenation chunks totalChunks
    let result := assembleFileFromChunks {} writes locate outputPath chunks totalChunks files
      expectedFileSize expectedFileChecksum
    (result.1 = true ↔ 1 ≤ totalChunks.toNat ∧
      (∀ i < totalChunks.toNat, (chunks (UInt32.ofNat i)).isSome) ∧
      (content.length = expectedFileSize.toNat ∨ expectedFileSize = 0xFFFFFFFFFFFFFFFF) ∧
      (computeChecksum content = expectedFileChecksum ∨ expectedFileChecksum = 0)) ∧
      (result.1 = true → result.2.read (locate outputPath) = some content) := by
  intro content result
  -- without chunks nothing is opened
  by_cases htotal : totalChunks = 0
  · have hresult : result = (false, files) := assemble_not_opened (.inl htotal)
    rw [hresult, htotal]
    exact ⟨iff_of_false Bool.false_ne_true fun hall => absurd hall.1 (by decide),
      fun h => absurd h Bool.false_ne_true⟩
  have hpos : 1 ≤ totalChunks.toNat :=
    Nat.pos_of_ne_zero fun hzero => htotal (UInt32.toNat_inj.mp hzero)
  obtain ⟨hread, hok⟩ : result.2.read (locate outputPath) =
        some (ZetaNet.assembled chunks totalChunks.toNat 0) ∧
      (result.1 = true ↔ Complete chunks totalChunks ∧ true = true ∧
        Expected expectedFileSize expectedFileChecksum
          (ZetaNet.assembled chunks totalChunks.toNat 0)) := assemble_opened htotal hpath rfl rfl
  have hcomplete : Complete chunks totalChunks ↔
      ∀ i < totalChunks.toNat, (chunks (UInt32.ofNat i)).isSome := by
    refine forall₂_congr fun i _ => ?_
    rw [Option.isSome_iff_exists]
    exact exists_congr fun chunkData =>
      ⟨fun h => h.1, fun h => ⟨h, hchunks _ _ h⟩⟩
  -- below 2^63 bytes the size comparison does not wrap
  have hsize (hall : Complete chunks totalChunks) :
      Expected expectedFileSize expectedFileChecksum
          (ZetaNet.assembled chunks totalChunks.toNat 0) ↔
        (content.length = expectedFileSize.toNat ∨ expectedFileSize = 0xFFFFFFFFFFFFFFFF) ∧
          (computeChecksum content = expectedFileChecksum ∨ expectedFileChecksum = 0) := by
    obtain ⟨heq, hlength⟩ := hall.assembled
    rw [heq, Expected, or_comm, @or_comm (expectedFileChecksum = 0)]
    refine and_congr_left fun _ => or_congr_left ?_
    rw [← UInt64.toNat_inj, UInt64.toNat_ofNat', Nat.mod_eq_of_lt (by omega)]
  refine ⟨?_, fun htrue => ?_⟩
  · rw [hok, ← hcomplete]
    constructor
    · rintro ⟨hall, -, hexpected⟩
      exact ⟨hpos, hall, (hsize hall).mp hexpected⟩
    · rintro ⟨-, hall, hexpected⟩
      exact ⟨hall, rfl, (hsize hall).mpr hexpected⟩
  · rw [hread, (hok.mp htrue).1.assembled.1]

/-- A map with an empty chunk and one beyond the end. -/
def gappedChunks (i : UInt32) : Option Bytes :=
  if i = 0 then some [1, 2, 3] else if i = 1 then some [] else if i = 2 then some [4, 5]
  else if i = 7 then some [6] else none

/-- A disk without files. -/
def emptyDisk : FileSystem Bytes := ⟨fun _ => none, fun _ => [], 0⟩

/-- Every write takes a byte at a time and all of it stays in the buffer. -/
def PartialWrites.byBytes : PartialWrites where
  taken _ count := min 1 count
  taken_pos _ count h := by omega
  taken_le _ count := Nat.min_le_right ..
  handed _ := 0
  handed_le := Nat.zero_le
  handed_mono := monotone_const

theorem assembleFileFromChunks_exact_byBytes :
    let result := assembleFileFromChunks {} .byBytes id [0x62] gappedChunks 3 emptyDisk 5
      (computeChecksum [1, 2, 3, 4, 5])
    result.1 = true ∧ result.2.read [0x62] = some [1, 2, 3, 4, 5] := by
  obtain ⟨hiff, hread⟩ := @assembleFileFromChunks_exact gappedChunks Bytes _ id .byBytes [0x62] 3
    emptyDisk 5 (computeChecksum [1, 2, 3, 4, 5]) (by decide) (by
      intro i chunkData h
      unfold gappedChunks at h
      split at h
      · cases h; decide
      split at h
      · cases h; decide
      split at h
      · cases h; decide
      split at h
      · cases h; decide
      · cases h)
  have hok := hiff.mpr ⟨by decide, by decide, .inl (by decide), .inl (by decide +kernel)⟩
  exact ⟨hok, hread hok⟩

end Exact

end ZetaNet
