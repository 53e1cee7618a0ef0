import ZetaNet.File.Session
import ZetaNet.Lib.Machine

/-!
# Receive sessions under any chunks

What holds of the sessions when anybody's chunks arrive in any order, transfers mixed, with
conflicting metadata, while files fail to open and writes fail, and transfers are aborted.
-/

namespace ZetaNet

/-- A chunk as the parser makes it of some payload. -/
structure ParsedChunk where
  chunk : TransferChunk
  parsed : ∃ payload, parseTransferChunkPayload payload = some chunk

theorem ParsedChunk.placed (parsed : ParsedChunk) : parsed.chunk.Placed :=
  let ⟨_, h⟩ := parsed.parsed
  placed_of_parse h

/-- A call of `WriteAt` for the data of a chunk, and what it returned. -/
structure WriteCall where
  chunk : TransferChunk
  ok : Bool
  deriving DecidableEq

section Receiver

variable {N : Type} [DecidableEq N] (locate : Bytes → N)

/-- The call of `WriteAt` that `StreamChunkToFile` makes once it has its session. -/
def StreamReceiveSession.writeCall (faults : Faults) (chunk : TransferChunk)
    (files : FileSystem N) (session : StreamReceiveSession) : Option WriteCall :=
  match session.tempFile, session.receivedChunks[chunk.chunkIndex.toNat]? with
  | some handle, some false => some ⟨chunk, (handle.writeAt faults chunk.start chunk.data files).1⟩
  | _, _ => none

/-- The call of `WriteAt` that `StreamChunkToFile` makes. -/
def ZFileTransporter.writeCall (faults : Faults) (chunk : TransferChunk) (tempDirectory : Bytes)
    (transporter : ZFileTransporter N) : Option WriteCall :=
  match transporter.ensureStreamSession locate faults chunk tempDirectory with
  | (none, _) => none
  | (some session, transporter) => session.writeCall faults chunk transporter.files

/-- A transporter with the writes of its open sessions. -/
structure Receiver (N : Type) where
  transporter : ZFileTransporter N
  writes : UInt64 → List WriteCall

namespace Receiver

/-- The calls of the application. -/
inductive Call
  | stream (faults : Faults) (parsed : ParsedChunk) (tempDirectory : Bytes)
  | abort (faults : Faults) (transferId : UInt64)

def fresh (factory : FileWriteFactory) (files : FileSystem N) : Receiver N :=
  ⟨⟨factory, fun _ => none, files⟩, fun _ => []⟩

/-- No step is an access to `received_chunks` past its end. -/
def machine : Machine (Receiver N) Call where
  step s
    | .stream faults parsed tempDirectory =>
        let chunk := parsed.chunk
        (s.transporter.streamChunkToFile locate faults chunk tempDirectory).map fun streamed =>
          { transporter := streamed.transporter
            writes :=
              Function.update s.writes chunk.transferId
                (s.writes chunk.transferId ++
                  (s.transporter.writeCall locate faults chunk tempDirectory).toList) }
    | .abort faults transferId =>
        some
          { transporter := s.transporter.abortStreamedFile locate faults transferId
            writes := Function.update s.writes transferId [] }

end Receiver

end Receiver

/-! ## What a session promises -/

namespace FileWriteHandle

/-- The handle writes to a mapping. -/
def mapped : FileWriteHandle → Bool
  | .positional _ => false
  | .memoryMapped .. => true

variable {N : Type} {inode : Nat} {size : UInt64} {handle : FileWriteHandle}

theorem serves_of_openHandle [DecidableEq N] {faults : Faults} {name : N}
    {factory : FileWriteFactory} {files files' : FileSystem N}
    (h : factory.openHandle faults name size files = (some handle, files')) :
    (∃ inode, handle.Serves inode size) ∧ (factory = .memoryMapped → handle.mapped = true) := by
  unfold FileWriteFactory.openHandle at h
  split at h
  · cases (Prod.mk.inj h).1
  · cases factory with
    | positional bufferSize =>
        obtain ⟨hhandle, -⟩ := Prod.mk.inj h
        obtain rfl := Option.some.inj hhandle
        exact ⟨⟨_, .positional rfl⟩, fun hfactory => by cases hfactory⟩
    | memoryMapped =>
        simp only at h
        split at h
        · cases (Prod.mk.inj h).1
        split at h
        · cases (Prod.mk.inj h).1
        split at h
        · rename_i hzero
          obtain ⟨hhandle, -⟩ := Prod.mk.inj h
          obtain rfl := Option.some.inj hhandle
          exact ⟨⟨0, .unmapped hzero⟩, fun _ => rfl⟩
        split at h
        · cases (Prod.mk.inj h).1
        · obtain ⟨hhandle, -⟩ := Prod.mk.inj h
          obtain rfl := Option.some.inj hhandle
          exact ⟨⟨_, .mapped⟩, fun _ => rfl⟩

/-- A handle stays with its file, whatever becomes of a write. -/
theorem Serves.after_writeAt (h : handle.Serves inode size) (faults : Faults) (offset : UInt64)
    (data : Bytes) (files : FileSystem N) :
    (handle.writeAt faults offset data files).2.1.Serves inode size ∧
      (handle.writeAt faults offset data files).2.1.mapped = handle.mapped := by
  unfold FileWriteHandle.writeAt
  cases h with
  | @positional stream hfile =>
      dsimp only
      split
      · exact ⟨.positional hfile, rfl⟩
      · exact ⟨.positional ((stream.file_write faults offset data files).trans hfile), rfl⟩
  | mapped =>
      dsimp only
      split
      · exact ⟨.mapped, rfl⟩
      split
      · exact ⟨.mapped, rfl⟩
      split
      · exact ⟨.mapped, rfl⟩
      · exact ⟨.mapped, rfl⟩
  | unmapped hzero =>
      dsimp only
      split
      · exact ⟨.unmapped hzero, rfl⟩
      · exact ⟨.unmapped hzero, rfl⟩

/-- A mapping takes every write that ends inside the file. -/
theorem Serves.writeAt_mapped (h : handle.Serves inode size)
    (hmapped : handle.mapped = true) {offset : UInt64} {data : Bytes}
    (hend : offset.toNat + data.length ≤ size.toNat) (faults : Faults) (files : FileSystem N) :
    (handle.writeAt faults offset data files).1 = true := by
  unfold FileWriteHandle.writeAt
  cases h with
  | positional => cases hmapped
  | mapped =>
      have hle : offset ≤ size := UInt64.le_iff_toNat_le.mpr (by omega)
      have hroom : ¬ data.length > (size - offset).toNat := by
        rw [UInt64.toNat_sub_of_le _ _ hle]
        omega
      simp only [UInt64.not_lt.mpr hle, hroom, if_false]
      split <;> rfl
  | unmapped hzero =>
      rw [hzero, show (0 : UInt64).toNat = 0 from rfl] at hend
      have hempty : data = [] := List.length_eq_zero_iff.mp (by omega)
      simp only [hempty, if_true]

end FileWriteHandle

/-- The state of a session against the writes made for it. -/
structure SessionOk (factory : FileWriteFactory) (writes : List WriteCall)
    (session : StreamReceiveSession) : Prop where
  tempFile : ∃ handle inode, session.tempFile = some handle ∧
    handle.Serves inode session.fileSize ∧ (factory = .memoryMapped → handle.mapped = true)
  length : session.receivedChunks.length = session.totalChunks.toNat
  count : session.receivedChunkCount.toNat = session.receivedChunks.count true
  written : ∀ i, session.receivedChunks[i]? = some true ↔
    ∃ call ∈ writes, call.ok = true ∧ call.chunk.chunkIndex.toNat = i
  placed : ∀ call ∈ writes, call.chunk.Placed ∧ session.sameGeometry call.chunk = true
  mapped : factory = .memoryMapped → ∀ call ∈ writes, call.ok = true

section SessionOk

variable {factory : FileWriteFactory} {writes : List WriteCall}
  {session : StreamReceiveSession} {chunk : TransferChunk}

theorem sameGeometry_record (other : TransferChunk) :
    (session.record chunk).sameGeometry other = session.sameGeometry other := by
  simp [StreamReceiveSession.sameGeometry]

theorem sameGeometry_iff : session.sameGeometry chunk = true ↔
    session.fileSize = chunk.fileSize ∧ session.chunkSize = chunk.chunkSize ∧
      session.totalChunks = chunk.totalChunks := by
  simp [StreamReceiveSession.sameGeometry]

/-- The index of a chunk that fits the session is an index of its `received_chunks`. -/
theorem SessionOk.index_lt (h : SessionOk factory writes session) (hplaced : chunk.Placed)
    (hsame : session.sameGeometry chunk = true) :
    chunk.chunkIndex.toNat < session.receivedChunks.length := by
  rw [h.length, (sameGeometry_iff.mp hsame).2.2]
  exact UInt32.lt_iff_toNat_lt.mp hplaced.index_lt

theorem count_set_true {flags : List Bool} {i : Nat} (h : flags[i]? = some false) :
    (flags.set i true).count true = flags.count true + 1 := by
  obtain ⟨hi, hflag⟩ := List.getElem?_eq_some_iff.mp h
  rw [List.count_set hi, hflag]
  simp

/-- The counter goes with the set entries. -/
theorem toNat_receivedChunkCount_record
    (hcount : session.receivedChunkCount.toNat = session.receivedChunks.count true)
    (hlength : session.receivedChunks.length < 2 ^ 32)
    (hnew : session.receivedChunks[chunk.chunkIndex.toNat]? = some false) :
    (session.record chunk).receivedChunkCount.toNat =
      (session.record chunk).receivedChunks.count true := by
  -- no more entries are set than there are, so the counter does not wrap around
  have hset := count_set_true hnew
  have hle : (session.receivedChunks.set chunk.chunkIndex.toNat true).count true ≤
      session.receivedChunks.length :=
    List.count_le_length.trans_eq List.length_set
  rw [StreamReceiveSession.receivedChunkCount_record,
    StreamReceiveSession.receivedChunks_record, UInt32.toNat_add, hset, hcount, UInt32.toNat_one]
  omega

theorem receivedChunks_record_eq_true
    (hnew : session.receivedChunks[chunk.chunkIndex.toNat]? = some false) (i : Nat) :
    (session.record chunk).receivedChunks[i]? = some true ↔
      session.receivedChunks[i]? = some true ∨ chunk.chunkIndex.toNat = i := by
  obtain ⟨hindex, -⟩ := List.getElem?_eq_some_iff.mp hnew
  rw [StreamReceiveSession.receivedChunks_record, List.getElem?_set]
  split
  · rename_i heq
    simp [heq, heq ▸ hindex]
  · rename_i hne
    simp [hne]

/-- A write leaves another handle to the same file. -/
theorem SessionOk.after_writeAt {N : Type} (h : SessionOk factory writes session)
    {handle : FileWriteHandle} (hhandle : session.tempFile = some handle) (faults : Faults)
    (offset : UInt64) (data : Bytes) (files : FileSystem N) :
    SessionOk factory writes
      { session with tempFile := some (handle.writeAt faults offset data files).2.1 } := by
  obtain ⟨other, inode, hother, hserves, hmapped⟩ := h.tempFile
  obtain rfl := Option.some.inj (hhandle.symm.trans hother)
  obtain ⟨hserves', hmapped'⟩ := hserves.after_writeAt faults offset data files
  exact { h with
    tempFile := ⟨_, inode, rfl, hserves', fun hfactory => hmapped'.trans (hmapped hfactory)⟩ }

/-- After a write that succeeded. -/
theorem SessionOk.record (h : SessionOk factory writes session) (hplaced : chunk.Placed)
    (hsame : session.sameGeometry chunk = true)
    (hnew : session.receivedChunks[chunk.chunkIndex.toNat]? = some false) :
    SessionOk factory (writes ++ [⟨chunk, true⟩]) (session.record chunk) := by
  have hlength : session.receivedChunks.length < 2 ^ 32 :=
    h.length ▸ session.totalChunks.toNat_lt
  refine ⟨?_, ?_, toNat_receivedChunkCount_record h.count hlength hnew, fun i => ?_,
    fun call hcall => ?_, fun hmapped call hcall => ?_⟩
  · simpa using h.tempFile
  · simpa using h.length
  · rw [receivedChunks_record_eq_true hnew, h.written i]
    simp [or_and_right, exists_or]
  · rw [sameGeometry_record]
    rcases List.mem_append.mp hcall with hold | hlast
    · exact h.placed call hold
    · obtain rfl := List.mem_singleton.mp hlast
      exact ⟨hplaced, hsame⟩
  · rcases List.mem_append.mp hcall with hold | hlast
    · exact h.mapped hmapped call hold
    · obtain rfl := List.mem_singleton.mp hlast
      rfl

/-- After a write that failed. -/
theorem SessionOk.failed (h : SessionOk factory writes session) (hplaced : chunk.Placed)
    (hsame : session.sameGeometry chunk = true) (hfactory : factory ≠ .memoryMapped) :
    SessionOk factory (writes ++ [⟨chunk, false⟩]) session := by
  refine ⟨h.tempFile, h.length, h.count, fun i => ?_, fun call hcall => ?_,
    fun hmapped => absurd hmapped hfactory⟩
  · rw [h.written i]
    simp [or_and_right, exists_or]
  · rcases List.mem_append.mp hcall with hold | hlast
    · exact h.placed call hold
    · obtain rfl := List.mem_singleton.mp hlast
      exact ⟨hplaced, hsame⟩

end SessionOk

/-! ## One call -/

section Calls

variable {N : Type} {transporter : ZFileTransporter N} {chunk : TransferChunk}
  {session : StreamReceiveSession} {writes : List WriteCall}

/-- The call with the session at hand leaves a session that is right about the writes. -/
theorem SessionOk.streamToSession
    (h : SessionOk transporter.fileWriteFactory writes session) (hplaced : chunk.Placed)
    (hsame : session.sameGeometry chunk = true)
    (hactive : transporter.activeStreams chunk.transferId = some session) (faults : Faults) :
    ∃ streamed session', transporter.streamToSession faults chunk session = some streamed ∧
      streamed.transporter.fileWriteFactory = transporter.fileWriteFactory ∧
      streamed.transporter.activeStreams =
        Function.update transporter.activeStreams chunk.transferId (some session') ∧
      SessionOk transporter.fileWriteFactory
        (writes ++ (session.writeCall faults chunk transporter.files).toList) session' := by
  have hsameStreams : transporter.activeStreams =
      Function.update transporter.activeStreams chunk.transferId (some session) := by
    rw [← hactive, Function.update_eq_self]
  obtain ⟨handle, inode, hhandle, hserves, hfactory⟩ := h.tempFile
  have hindex := h.index_lt hplaced hsame
  unfold ZFileTransporter.streamToSession StreamReceiveSession.writeCall
  rw [hhandle]
  cases hentry : session.receivedChunks[chunk.chunkIndex.toNat]? with
  -- a placed chunk has an entry in the table
  | none =>
      rw [List.getElem?_eq_none_iff] at hentry
      omega
  | some entry =>
      cases entry with
      -- a duplicate is not written again
      | true => exact ⟨_, session, rfl, rfl, hsameStreams, by simpa using h⟩
      | false =>
          have hafter := h.after_writeAt hhandle faults chunk.start chunk.data transporter.files
          cases hwritten : handle.writeAt faults chunk.start chunk.data transporter.files with
          | mk written rest =>
              obtain ⟨handle', files⟩ := rest
              rw [hwritten] at hafter
              cases written with
              | true =>
                  simp only [hwritten]
                  exact ⟨_, _, rfl, rfl, rfl, hafter.record hplaced hsame hentry⟩
              | false =>
                  simp only [hwritten]
                  refine ⟨_, _, rfl, rfl, rfl, hafter.failed hplaced hsame ?_⟩
                  -- a mapped file takes every write within its size
                  intro hmapped
                  have hend := hplaced.end_le
                  rw [← (sameGeometry_iff.mp hsame).1] at hend
                  have htrue := hserves.writeAt_mapped (hfactory hmapped) hend faults
                    transporter.files
                  rw [hwritten] at htrue
                  cases htrue

variable [DecidableEq N] (locate : Bytes → N)

/-- `EnsureStreamSession` finds or makes a session that fits the chunk, or changes none. -/
theorem ensureStreamSession_cases (faults : Faults) (tempDirectory : Bytes)
    (hsession : ∀ session, transporter.activeStreams chunk.transferId = some session →
      SessionOk transporter.fileWriteFactory writes session)
    (hnone : transporter.activeStreams chunk.transferId = none → writes = []) :
    ∃ found after, transporter.ensureStreamSession locate faults chunk tempDirectory =
        (found, after) ∧
      after.fileWriteFactory = transporter.fileWriteFactory ∧
      match found with
      | none => after.activeStreams = transporter.activeStreams
      | some session =>
          after.activeStreams =
              Function.update transporter.activeStreams chunk.transferId (some session) ∧
            session.sameGeometry chunk = true ∧
            SessionOk transporter.fileWriteFactory writes session := by
  unfold ZFileTransporter.ensureStreamSession
  cases hactive : transporter.activeStreams chunk.transferId with
  | some session =>
      -- an open session serves only chunks of its own geometry
      by_cases hsame : session.sameGeometry chunk = true
      · refine ⟨some session, transporter, if_pos hsame, rfl, ?_, hsame, hsession session hactive⟩
        rw [← hactive, Function.update_eq_self]
      · exact ⟨none, transporter, if_neg hsame, rfl, rfl⟩
  | none =>
      -- only a chunk with a name opens a session
      by_cases hname : chunk.hasFileName = false
      · exact ⟨none, transporter, if_pos hname, rfl, rfl⟩
      · simp only [hname]
        cases hopen : transporter.fileWriteFactory.openHandle faults
            (locate (tempPath tempDirectory chunk.transferId)) chunk.fileSize
            transporter.files with
        | mk tempFile files =>
            cases tempFile with
            | none => exact ⟨none, _, rfl, rfl, rfl⟩
            | some handle =>
                refine ⟨some _, _, rfl, rfl, rfl, by simp [sameGeometry_iff], ?_⟩
                obtain ⟨⟨inode, hserves⟩, hfactory⟩ :=
                  FileWriteHandle.serves_of_openHandle hopen
                rw [hnone hactive]
                refine ⟨⟨handle, inode, rfl, hserves, hfactory⟩, by simp,
                  by simp [List.count_replicate], fun i => ?_,
                  fun call hcall => ?_, fun _ call hcall => ?_⟩
                · simp [List.getElem?_replicate]
                · exact absurd hcall List.not_mem_nil
                · exact absurd hcall List.not_mem_nil

end Calls

/-! ## Every run -/

section Run

variable {N : Type}

/-- Every session is right about the writes made for it. -/
structure Receiver.Ok (factory : FileWriteFactory) (receiver : Receiver N) : Prop where
  factory_eq : receiver.transporter.fileWriteFactory = factory
  session : ∀ transferId session, receiver.transporter.activeStreams transferId = some session →
    SessionOk factory (receiver.writes transferId) session
  closed : ∀ transferId, receiver.transporter.activeStreams transferId = none →
    receiver.writes transferId = []

variable {factory : FileWriteFactory} {receiver : Receiver N}

theorem Receiver.fresh_ok (factory : FileWriteFactory) (files : FileSystem N) :
    (Receiver.fresh factory files).Ok factory :=
  ⟨rfl, fun _ _ hsession => (Option.some_ne_none _ hsession.symm).elim, fun _ _ => rfl⟩

/-- What a step that touches one transfer must show. -/
theorem Receiver.Ok.update (h : receiver.Ok factory) {after : ZFileTransporter N}
    {transferId : UInt64} {writes : List WriteCall} (session : Option StreamReceiveSession)
    (hfactory : after.fileWriteFactory = receiver.transporter.fileWriteFactory)
    (hactive : after.activeStreams =
      Function.update receiver.transporter.activeStreams transferId session)
    (hsome : ∀ kept, session = some kept → SessionOk factory writes kept)
    (hnone : session = none → writes = []) :
    (⟨after, Function.update receiver.writes transferId writes⟩ : Receiver N).Ok factory := by
  refine ⟨hfactory.trans h.factory_eq, fun other kept hkept => ?_, fun other hempty => ?_⟩
  · show SessionOk factory (Function.update receiver.writes transferId writes other) kept
    simp only [hactive] at hkept
    by_cases hother : other = transferId
    · subst hother
      rw [Function.update_self] at hkept ⊢
      exact hsome kept hkept
    · rw [Function.update_of_ne hother] at hkept ⊢
      exact h.session other kept hkept
  · show Function.update receiver.writes transferId writes other = []
    simp only [hactive] at hempty
    by_cases hother : other = transferId
    · subst hother
      rw [Function.update_self] at hempty ⊢
      exact hnone hempty
    · rw [Function.update_of_ne hother] at hempty ⊢
      exact h.closed other hempty

variable [DecidableEq N] (locate : Bytes → N)

/-- A call with a chunk stays inside `received_chunks`. -/
theorem Receiver.Ok.stream (h : receiver.Ok factory) (faults : Faults) (parsed : ParsedChunk)
    (tempDirectory : Bytes) :
    ∃ receiver', (Receiver.machine locate).step receiver (.stream faults parsed tempDirectory) =
      some receiver' ∧ receiver'.Ok factory := by
  obtain ⟨transporter, writes⟩ := receiver
  obtain rfl := h.factory_eq
  obtain ⟨found, after, hensure, hfactory, hfound⟩ :=
    ensureStreamSession_cases locate faults tempDirectory
      (h.session parsed.chunk.transferId) (h.closed parsed.chunk.transferId)
  simp only [Receiver.machine, ZFileTransporter.streamChunkToFile, ZFileTransporter.writeCall,
    hensure]
  cases found with
  | none =>
      refine ⟨_, rfl, h.update (transporter.activeStreams parsed.chunk.transferId) hfactory
        ?_ ?_ ?_⟩
      · rw [Function.update_eq_self]
        exact hfound
      · simpa using h.session parsed.chunk.transferId
      · simpa using h.closed parsed.chunk.transferId
  | some session =>
      obtain ⟨hactive, hsame, hok⟩ := hfound
      have hat : after.activeStreams parsed.chunk.transferId = some session := by
        rw [hactive, Function.update_self]
      obtain ⟨streamed, session', hstreamed, hfactory', hactive', hok'⟩ :=
        (hfactory ▸ hok).streamToSession parsed.placed hsame hat faults
      simp only [hstreamed]
      refine ⟨_, rfl, h.update (some session') (hfactory'.trans hfactory) ?_ ?_ ?_⟩
      · rw [hactive', hactive, Function.update_idem]
      · rintro kept ⟨⟩
        exact hfactory ▸ hok'
      · rintro ⟨⟩

theorem Receiver.Ok.abort (h : receiver.Ok factory) (faults : Faults) (transferId : UInt64) :
    ∃ receiver', (Receiver.machine locate).step receiver (.abort faults transferId) =
      some receiver' ∧ receiver'.Ok factory := by
  refine ⟨_, rfl, h.update none ?_ ?_ ?_ ?_⟩
  · unfold ZFileTransporter.abortStreamedFile
    split <;> rfl
  · unfold ZFileTransporter.abortStreamedFile
    split
    · rename_i hnone
      rw [← hnone, Function.update_eq_self]
    · rfl
  · rintro kept ⟨⟩
  · exact fun _ => rfl

/-- Every run of calls goes through, and its sessions are right about their writes. -/
theorem Receiver.Ok.exec (h : receiver.Ok factory) (calls : List Receiver.Call) :
    ∃ receiver', (Receiver.machine locate).exec receiver calls = some receiver' ∧
      receiver'.Ok factory := by
  induction calls generalizing receiver with
  | nil => exact ⟨receiver, rfl, h⟩
  | cons call calls ih =>
      obtain ⟨mid, hstep, hmid⟩ : ∃ mid, (Receiver.machine locate).step receiver call =
          some mid ∧ mid.Ok factory := by
        cases call with
        | stream faults parsed tempDirectory => exact h.stream locate faults parsed tempDirectory
        | abort faults transferId => exact h.abort locate faults transferId
      obtain ⟨last, hexec, hlast⟩ := ih hmid
      exact ⟨last, (Machine.exec_cons_eq_some _).mpr ⟨mid, hstep, hexec⟩, hlast⟩

end Run

/-! ## What a run promises -/

/-- Chunks of one geometry with different indices do not overlap. -/
theorem TransferChunk.Placed.disjoint {first second : TransferChunk} (hfirst : first.Placed)
    (hsize : first.chunkSize = second.chunkSize)
    (hindex : first.chunkIndex.toNat < second.chunkIndex.toNat) :
    first.start.toNat + first.data.length ≤ second.start.toNat := by
  have hlength : first.data.length ≤ first.chunkSize.toNat := by
    rw [hfirst.length_data, toNat_expectedBytes hfirst.start_le]
    omega
  calc first.start.toNat + first.data.length
      ≤ (first.chunkIndex.toNat + 1) * first.chunkSize.toNat := by
        rw [toNat_start, Nat.add_mul]
        omega
    _ ≤ second.chunkIndex.toNat * first.chunkSize.toNat := Nat.mul_le_mul_right _ hindex
    _ = second.start.toNat := by rw [toNat_start, hsize]

/-- Whatever chunks arrive, whatever fails and whatever is aborted, no access leaves
`received_chunks`, a session counts its set entries, each of which a successful write set, and
its writes lie in the file and apart from one another. -/
theorem receive_sessions_safe {N : Type} [DecidableEq N] (locate : Bytes → N)
    (factory : FileWriteFactory) (files : FileSystem N) (calls : List Receiver.Call) :
    ∃ receiver, (Receiver.machine locate).exec (Receiver.fresh factory files) calls =
        some receiver ∧
      ∀ transferId session, receiver.transporter.activeStreams transferId = some session →
        session.receivedChunks.length = session.totalChunks.toNat ∧
        session.receivedChunkCount.toNat = session.receivedChunks.count true ∧
        (∀ i, session.receivedChunks[i]? = some true ↔
          ∃ call ∈ receiver.writes transferId, call.ok = true ∧
            call.chunk.chunkIndex.toNat = i) ∧
        (∀ call ∈ receiver.writes transferId,
          call.chunk.start.toNat = call.chunk.chunkIndex.toNat * session.chunkSize.toNat ∧
          call.chunk.start.toNat + call.chunk.data.length ≤ session.fileSize.toNat ∧
          (factory = .memoryMapped → call.ok = true)) ∧
        ∀ first ∈ receiver.writes transferId, ∀ second ∈ receiver.writes transferId,
          first.chunk.chunkIndex ≠ second.chunk.chunkIndex →
            first.chunk.start.toNat + first.chunk.data.length ≤ second.chunk.start.toNat ∨
              second.chunk.start.toNat + second.chunk.data.length ≤ first.chunk.start.toNat := by
  obtain ⟨receiver, hexec, hok⟩ := (Receiver.fresh_ok factory files).exec locate calls
  refine ⟨receiver, hexec, fun transferId session hactive => ?_⟩
  have h := hok.session transferId session hactive
  refine ⟨h.length, h.count, h.written, fun call hcall => ?_, fun first hfirst second hsecond => ?_⟩
  · obtain ⟨hplaced, hsame⟩ := h.placed call hcall
    obtain ⟨hfile, hchunk, -⟩ := sameGeometry_iff.mp hsame
    refine ⟨?_, ?_, fun hmapped => h.mapped hmapped call hcall⟩
    · rw [TransferChunk.toNat_start, hchunk]
    · rw [hfile]
      exact hplaced.end_le
  · intro hne
    obtain ⟨hplaced₁, hsame₁⟩ := h.placed first hfirst
    obtain ⟨hplaced₂, hsame₂⟩ := h.placed second hsecond
    have hsize : first.chunk.chunkSize = second.chunk.chunkSize :=
      (sameGeometry_iff.mp hsame₁).2.1.symm.trans (sameGeometry_iff.mp hsame₂).2.1
    rcases Nat.lt_or_gt_of_ne fun heq => hne (UInt32.toNat_inj.mp heq) with hlt | hgt
    · exact Or.inl (hplaced₁.disjoint hsize hlt)
    · exact Or.inr (hplaced₂.disjoint hsize.symm hgt)

end ZetaNet
