import ZetaNet.File.Codec
import ZetaNet.File.Invariant
import ZetaNet.File.Transfer

/-!
# When a session with all chunks completes

Chunks of one transfer arrive, the first one first, and are all stored. Whether the call that
supplies the last missing one reports completion depends on one flag: the parser demands it of
the empty file alone.
-/

namespace ZetaNet

namespace TransferChunk

/-- The chunk at the end of the file. -/
def isFinal (chunk : TransferChunk) : Bool := chunk.chunkIndex = chunk.totalChunks - 1

/-- The id and geometry agree. -/
structure SameTransfer (chunk other : TransferChunk) : Prop where
  transferId : chunk.transferId = other.transferId
  fileSize : chunk.fileSize = other.fileSize
  chunkSize : chunk.chunkSize = other.chunkSize
  totalChunks : chunk.totalChunks = other.totalChunks

end TransferChunk

theorem ParsedChunk.buildable (parsed : ParsedChunk) : parsed.chunk.Buildable :=
  let ⟨_, h⟩ := parsed.parsed
  (parse_eq_some_iff.mp h).1

/-- The last flag stands on the final chunk only. -/
theorem ParsedChunk.isFinal (parsed : ParsedChunk) (h : parsed.chunk.isLastChunk = true) :
    parsed.chunk.isFinal = true :=
  decide_eq_true (parsed.buildable.lastIndex h)

/-! ## What a session has gathered -/

/-- A session of the transfer of `chunk` that received `done`. -/
structure Gathered (chunk : TransferChunk) (done : List ParsedChunk)
    (session : StreamReceiveSession) : Prop where
  geometry : session.sameGeometry chunk = true
  length : session.receivedChunks.length = chunk.totalChunks.toNat
  count : session.receivedChunkCount.toNat = session.receivedChunks.count true
  received : ∀ i, session.receivedChunks[i]? = some true ↔
    ∃ parsed ∈ done, parsed.chunk.chunkIndex.toNat = i
  flag : session.hasExpectedFileChecksum =
    (done.find? fun parsed => parsed.chunk.isFinal).any fun parsed => parsed.chunk.isLastChunk

section Gathered

variable {chunk : TransferChunk} {done : List ParsedChunk} {session : StreamReceiveSession}
  {parsed : ParsedChunk}

/-- The handle does not matter. -/
theorem Gathered.withHandle (h : Gathered chunk done session)
    (tempFile : Option FileWriteHandle) : Gathered chunk done { session with tempFile } :=
  { h with }

/-- A session is complete with all its chunks and the flag. -/
theorem Gathered.completed_iff (h : Gathered chunk done session) :
    session.completed = true ↔
      (∀ i < chunk.totalChunks.toNat, ∃ parsed ∈ done, parsed.chunk.chunkIndex.toNat = i) ∧
        ((done.find? fun parsed => parsed.chunk.isFinal).any
          fun parsed => parsed.chunk.isLastChunk) = true := by
  have hall : session.receivedChunkCount = session.totalChunks ↔
      ∀ i < chunk.totalChunks.toNat, ∃ parsed ∈ done, parsed.chunk.chunkIndex.toNat = i := by
    rw [← UInt32.toNat_inj, h.count, (sameGeometry_iff.mp h.geometry).2.2, ← h.length,
      List.count_eq_length]
    constructor
    · intro hset i hi
      refine (h.received i).mp ?_
      rw [List.getElem?_eq_getElem hi, ← hset _ (List.getElem_mem hi)]
    · intro hcover flag hflag
      obtain ⟨i, hi, rfl⟩ := List.mem_iff_getElem.mp hflag
      have hset := (h.received i).mpr (hcover i hi)
      rw [List.getElem?_eq_getElem hi] at hset
      exact (Option.some.inj hset).symm
  rw [StreamReceiveSession.completed, decide_eq_true_eq, hall, h.flag]

/-- A chunk that is there already. -/
theorem Gathered.push_old (h : Gathered chunk done session)
    (hfinal : parsed.chunk.SameTransfer chunk) (hall : ∀ old ∈ done, old.chunk.SameTransfer chunk)
    (hold : session.receivedChunks[parsed.chunk.chunkIndex.toNat]? = some true) :
    Gathered chunk (done ++ [parsed]) session := by
  obtain ⟨old, hmem, hindex⟩ := (h.received _).mp hold
  refine { h with received := fun i => ?_, flag := ?_ }
  · rw [h.received i]
    constructor
    · rintro ⟨other, hother, rfl⟩
      exact ⟨other, List.mem_append_left _ hother, rfl⟩
    · rintro ⟨other, hother, rfl⟩
      rcases List.mem_append.mp hother with hother | hother
      · exact ⟨other, hother, rfl⟩
      · obtain rfl := List.mem_singleton.mp hother
        exact ⟨old, hmem, hindex⟩
  · rw [h.flag, List.find?_append]
    cases hfound : done.find? fun parsed => parsed.chunk.isFinal with
    | some found => rfl
    | none =>
        -- the older chunk of this index is not final, so neither is this one
        have hnot := List.find?_eq_none.mp hfound old hmem
        have hsame : parsed.chunk.isFinal = old.chunk.isFinal := by
          simp only [TransferChunk.isFinal, hfinal.totalChunks, (hall old hmem).totalChunks,
            UInt32.toNat_inj.mp hindex]
        simp [hsame, hnot]

/-- A chunk that is new. -/
theorem Gathered.push_new (h : Gathered chunk done session)
    (hfinal : parsed.chunk.SameTransfer chunk) (hall : ∀ old ∈ done, old.chunk.SameTransfer chunk)
    (hnew : session.receivedChunks[parsed.chunk.chunkIndex.toNat]? = some false) :
    Gathered chunk (done ++ [parsed]) (session.record parsed.chunk) := by
  have hlength : session.receivedChunks.length < 2 ^ 32 := h.length ▸ chunk.totalChunks.toNat_lt
  refine
    { geometry := by rw [sameGeometry_record, h.geometry]
      length := by simpa using h.length
      count := toNat_receivedChunkCount_record h.count hlength hnew
      received := fun i => ?_
      flag := ?_ }
  · rw [receivedChunks_record_eq_true hnew, h.received i]
    simp [or_and_right, exists_or]
  · rw [StreamReceiveSession.hasExpectedFileChecksum_record, h.flag, List.find?_append]
    by_cases hlast : parsed.chunk.isFinal = true
    · -- no chunk before it was final
      have hnone : done.find? (fun parsed => parsed.chunk.isFinal) = none := by
        refine List.find?_eq_none.mpr fun old hmem hold => ?_
        have hsame : old.chunk.chunkIndex = parsed.chunk.chunkIndex := by
          rw [of_decide_eq_true hold, of_decide_eq_true hlast, hfinal.totalChunks,
            (hall old hmem).totalChunks]
        rw [(h.received _).mpr ⟨old, hmem, congrArg UInt32.toNat hsame⟩] at hnew
        cases hnew
      simp [hnone, hlast]
    · have hflag : parsed.chunk.isLastChunk = false :=
        Bool.eq_false_of_not_eq_true fun hflag => hlast (parsed.isFinal hflag)
      simp [hflag, hlast]

end Gathered

/-! ## The calls -/

/-- A call of `StreamChunkToFile`. -/
structure StreamCall where
  faults : Faults
  parsed : ParsedChunk
  tempDirectory : Bytes

section Calls

variable {N : Type} [DecidableEq N] (locate : Bytes → N)

/-- What the calls return and put into `out_completed`. -/
def streamResults : List StreamCall → ZFileTransporter N → Option (List (Bool × Bool))
  | [], _ => some []
  | call :: calls, transporter =>
      (transporter.streamChunkToFile locate call.faults call.parsed.chunk
          call.tempDirectory).bind fun streamed =>
        (streamResults calls streamed.transporter).map fun results =>
          (streamed.ok, streamed.completed) :: results

theorem streamResults_cons_ok {call : StreamCall} {calls : List StreamCall}
    {transporter : ZFileTransporter N} {flags : List Bool}
    (h : streamResults locate (call :: calls) transporter =
      some (flags.map fun flag => (true, flag))) :
    ∃ completed later transporter', flags = completed :: later ∧
      transporter.streamChunkToFile locate call.faults call.parsed.chunk call.tempDirectory =
        some ⟨true, completed, transporter'⟩ ∧
      streamResults locate calls transporter' = some (later.map fun flag => (true, flag)) := by
  simp only [streamResults, Option.bind_eq_some_iff, Option.map_eq_some_iff] at h
  obtain ⟨⟨ok, completed, transporter'⟩, hstreamed, results, hlater, hflags⟩ := h
  cases flags with
  | nil => cases hflags
  | cons flag later =>
      obtain ⟨hhead, rfl⟩ := List.cons.inj hflags
      obtain ⟨rfl, rfl⟩ := Prod.mk.inj hhead
      exact ⟨completed, later, transporter', rfl, hstreamed, hlater⟩

end Calls

section Gathering

variable {N : Type} {chunk : TransferChunk} {done : List ParsedChunk}
  {session : StreamReceiveSession} {transporter transporter' : ZFileTransporter N}
  {completed : Bool}

/-- The transfer of `chunk` has a session that received `done`. -/
def Gathering (chunk : TransferChunk) (done : List ParsedChunk)
    (transporter : ZFileTransporter N) : Prop :=
  (∀ old ∈ done, old.chunk.SameTransfer chunk) ∧
    ∃ session, transporter.activeStreams chunk.transferId = some session ∧
      Gathered chunk done session

/-- A successful call with the session at hand. -/
theorem Gathered.streamToSession {call : StreamCall} (h : Gathered chunk done session)
    (hall : ∀ old ∈ done, old.chunk.SameTransfer chunk)
    (hsame : call.parsed.chunk.SameTransfer chunk)
    (hactive : transporter.activeStreams chunk.transferId = some session)
    (hcall : transporter.streamToSession call.faults call.parsed.chunk session =
      some ⟨true, completed, transporter'⟩) :
    ∃ session', completed = session'.completed ∧
      transporter'.activeStreams chunk.transferId = some session' ∧
        Gathered chunk (done ++ [call.parsed]) session' := by
  unfold ZFileTransporter.streamToSession at hcall
  cases hhandle : session.tempFile with
  | none => simp [hhandle] at hcall
  | some handle =>
      simp only [hhandle] at hcall
      cases hentry : session.receivedChunks[call.parsed.chunk.chunkIndex.toNat]? with
      | none => simp [hentry] at hcall
      | some entry =>
          simp only [hentry] at hcall
          cases entry with
          | true =>
              obtain ⟨-, rfl, rfl⟩ := Streamed.mk.inj (Option.some.inj hcall)
              exact ⟨session, rfl, hactive, h.push_old hsame hall hentry⟩
          | false =>
              dsimp only at hcall
              split at hcall
              · cases hcall
              · obtain ⟨-, rfl, rfl⟩ := Streamed.mk.inj (Option.some.inj hcall)
                refine ⟨_, rfl, ?_, (h.withHandle _).push_new hsame hall hentry⟩
                rw [← hsame.transferId]
                exact Function.update_self ..

variable [DecidableEq N] {locate : Bytes → N}

/-- A successful call that finds the session. -/
theorem Gathering.streamChunkToFile {call : StreamCall} (h : Gathering chunk done transporter)
    (hsame : call.parsed.chunk.SameTransfer chunk)
    (hcall : transporter.streamChunkToFile locate call.faults call.parsed.chunk
      call.tempDirectory = some ⟨true, completed, transporter'⟩) :
    Gathering chunk (done ++ [call.parsed]) transporter' ∧
      ∃ session', completed = session'.completed ∧
        Gathered chunk (done ++ [call.parsed]) session' := by
  obtain ⟨hall, session, hactive, hgathered⟩ := h
  have hgeometry : session.sameGeometry call.parsed.chunk = true := by
    rw [sameGeometry_iff, hsame.fileSize, hsame.chunkSize, hsame.totalChunks]
    exact sameGeometry_iff.mp hgathered.geometry
  unfold ZFileTransporter.streamChunkToFile ZFileTransporter.ensureStreamSession at hcall
  simp only [hsame.transferId, hactive, hgeometry, if_true] at hcall
  obtain ⟨session', hcompleted, hactive', hgathered'⟩ :=
    hgathered.streamToSession hall hsame hactive hcall
  refine ⟨⟨fun old hold => ?_, session', hactive', hgathered'⟩, session', hcompleted, hgathered'⟩
  rcases List.mem_append.mp hold with hold | hold
  · exact hall old hold
  · obtain rfl := List.mem_singleton.mp hold
    exact hsame

/-- A session as `EnsureStreamSession` opens it. -/
theorem gathered_of_ensureStreamSession {parsed : ParsedChunk} {faults : Faults}
    {tempDirectory : Bytes} (hsame : parsed.chunk.SameTransfer chunk)
    (hclosed : transporter.activeStreams chunk.transferId = none)
    (hensure : transporter.ensureStreamSession locate faults parsed.chunk tempDirectory =
      (some session, transporter')) :
    transporter'.activeStreams chunk.transferId = some session ∧ Gathered chunk [] session := by
  unfold ZFileTransporter.ensureStreamSession at hensure
  simp only [hsame.transferId, hclosed] at hensure
  split at hensure
  · cases hensure
  split at hensure
  · cases hensure
  · obtain ⟨hsession, rfl⟩ := Prod.mk.inj hensure
    obtain rfl := Option.some.inj hsession
    refine ⟨Function.update_self .., ?_, ?_, ?_, fun i => ?_, rfl⟩
    · rw [sameGeometry_iff]
      exact ⟨hsame.fileSize, hsame.chunkSize, hsame.totalChunks⟩
    · rw [List.length_replicate, hsame.totalChunks]
    · simp [List.count_replicate]
    · simp [List.getElem?_replicate]

/-- A successful call that opens the session. -/
theorem Gathering.first {call : StreamCall} (hsame : call.parsed.chunk.SameTransfer chunk)
    (hclosed : transporter.activeStreams chunk.transferId = none)
    (hcall : transporter.streamChunkToFile locate call.faults call.parsed.chunk
      call.tempDirectory = some ⟨true, completed, transporter'⟩) :
    Gathering chunk [call.parsed] transporter' ∧
      ∃ session', completed = session'.completed ∧ Gathered chunk [call.parsed] session' := by
  unfold ZFileTransporter.streamChunkToFile at hcall
  cases hensure : transporter.ensureStreamSession locate call.faults call.parsed.chunk
      call.tempDirectory with
  | mk found opened =>
      rw [hensure] at hcall
      cases found with
      | none => cases hcall
      | some session =>
          obtain ⟨hactive, hgathered⟩ := gathered_of_ensureStreamSession hsame hclosed hensure
          obtain ⟨session', hcompleted, hactive', hgathered'⟩ :=
            hgathered.streamToSession (fun _ h => absurd h List.not_mem_nil) hsame hactive hcall
          refine ⟨⟨fun old hold => ?_, session', hactive', hgathered'⟩, session', hcompleted,
            hgathered'⟩
          obtain rfl := List.mem_singleton.mp hold
          exact hsame

/-- Successful calls to an open session, one by one. -/
theorem Gathering.streamResults {calls : List StreamCall} {flags : List Bool}
    (h : Gathering chunk done transporter)
    (hsame : ∀ call ∈ calls, call.parsed.chunk.SameTransfer chunk)
    (hrun : streamResults locate calls transporter =
      some (flags.map fun flag => (true, flag))) {k : Nat} (hk : k < calls.length) :
    ∃ session, flags[k]? = some session.completed ∧
      Gathered chunk (done ++ (calls.take (k + 1)).map StreamCall.parsed) session := by
  induction calls generalizing done transporter flags k with
  | nil => cases hk
  | cons call calls ih =>
      obtain ⟨completed, later, next, rfl, hcall, hlater⟩ := streamResults_cons_ok locate hrun
      obtain ⟨hnext, session, hcompleted, hgathered⟩ :=
        h.streamChunkToFile (hsame call List.mem_cons_self) hcall
      cases k with
      | zero => exact ⟨session, congrArg some hcompleted, by simpa using hgathered⟩
      | succ k =>
          obtain ⟨last, hflag, hlast⟩ := ih hnext
            (fun other hother => hsame other (List.mem_cons_of_mem _ hother)) hlater
            (Nat.lt_of_succ_lt_succ hk)
          exact ⟨last, hflag, by simpa [List.append_assoc] using hlast⟩

/-- The same from the call that opens the session on. -/
theorem gathered_of_streamResults {calls : List StreamCall} {flags : List Bool}
    (hclosed : transporter.activeStreams chunk.transferId = none)
    (hsame : ∀ call ∈ calls, call.parsed.chunk.SameTransfer chunk)
    (hrun : ZetaNet.streamResults locate calls transporter =
      some (flags.map fun flag => (true, flag))) {k : Nat} (hk : k < calls.length) :
    ∃ session, flags[k]? = some session.completed ∧
      Gathered chunk ((calls.take (k + 1)).map StreamCall.parsed) session := by
  cases calls with
  | nil => cases hk
  | cons call calls =>
      obtain ⟨completed, later, next, rfl, hcall, hlater⟩ := streamResults_cons_ok locate hrun
      obtain ⟨hnext, session, hcompleted, hgathered⟩ :=
        Gathering.first (hsame call List.mem_cons_self) hclosed hcall
      cases k with
      | zero => exact ⟨session, congrArg some hcompleted, by simpa using hgathered⟩
      | succ k =>
          obtain ⟨last, hflag, hlast⟩ := hnext.streamResults
            (fun other hother => hsame other (List.mem_cons_of_mem _ hother)) hlater
            (Nat.lt_of_succ_lt_succ hk)
          exact ⟨last, hflag, by simpa using hlast⟩

end Gathering

/-! ## The last missing chunk -/

/-- The first of the chunks that ends the file carries the last flag. -/
def FinalFlagged (calls : List StreamCall) : Prop :=
  ∃ call, calls.find? (fun call => call.parsed.chunk.isFinal) = some call ∧
    call.parsed.chunk.isLastChunk = true

theorem finalFlagged_iff {calls : List StreamCall} :
    FinalFlagged calls ↔
      (((calls.map StreamCall.parsed).find? fun parsed => parsed.chunk.isFinal).any
        fun parsed => parsed.chunk.isLastChunk) = true := by
  rw [List.find?_map, Option.any_map, Option.any_eq_true]
  rfl

/-- Calls behind the first final chunk do not matter. -/
theorem finalFlagged_append {calls back : List StreamCall}
    (h : ∃ call ∈ calls, call.parsed.chunk.isFinal = true) :
    FinalFlagged (calls ++ back) ↔ FinalFlagged calls := by
  obtain ⟨found, hfound⟩ := Option.isSome_iff_exists.mp (List.find?_isSome.mpr h)
  rw [FinalFlagged, FinalFlagged, List.find?_append, hfound, Option.some_or]

/-- All calls succeed, and `call` supplies the last index that was missing: it reports
completion exactly if the first chunk that came with the last index is flagged as the last. -/
theorem last_missing_completes_iff {N : Type} [DecidableEq N] (locate : Bytes → N)
    {transporter : ZFileTransporter N} {front back : List StreamCall} {call : StreamCall}
    {flags : List Bool}
    (hclosed : transporter.activeStreams call.parsed.chunk.transferId = none)
    (hsame : ∀ other ∈ front ++ call :: back,
      other.parsed.chunk.SameTransfer call.parsed.chunk)
    (hcover : ∀ i < call.parsed.chunk.totalChunks,
      ∃ other ∈ front ++ [call], other.parsed.chunk.chunkIndex = i)
    (hrun : streamResults locate (front ++ call :: back) transporter =
      some (flags.map fun flag => (true, flag))) :
    flags[front.length]? = some true ↔ FinalFlagged (front ++ call :: back) := by
  have hcalls : front ++ call :: back = front ++ [call] ++ back := by simp
  have htake : (front ++ call :: back).take (front.length + 1) = front ++ [call] := by
    rw [hcalls]
    exact List.take_left' (by simp)
  obtain ⟨session, hflag, hgathered⟩ :=
    gathered_of_streamResults hclosed hsame hrun (k := front.length) (by simp)
  rw [htake] at hgathered
  have hpos : 0 < call.parsed.chunk.totalChunks :=
    UInt32.lt_of_le_of_lt UInt32.zero_le call.parsed.placed.index_lt
  -- the last index has come with some call up to this one
  have hfinal : ∃ other ∈ front ++ [call], other.parsed.chunk.isFinal = true := by
    have hlast : call.parsed.chunk.totalChunks - 1 < call.parsed.chunk.totalChunks := by
      have hle : 0 < call.parsed.chunk.totalChunks.toNat := UInt32.lt_iff_toNat_lt.mp hpos
      have hone : (1 : UInt32) ≤ call.parsed.chunk.totalChunks :=
        UInt32.le_iff_toNat_le.mpr hle
      rw [UInt32.lt_iff_toNat_lt, UInt32.toNat_sub_of_le _ _ hone, UInt32.toNat_one]
      omega
    obtain ⟨other, hother, hindex⟩ := hcover _ hlast
    refine ⟨other, hother, decide_eq_true ?_⟩
    rw [hindex, (hsame other (hcalls ▸ List.mem_append_left _ hother)).totalChunks]
  -- all indices have, so only the flag decides
  have hall : ∀ i < call.parsed.chunk.totalChunks.toNat,
      ∃ parsed ∈ (front ++ [call]).map StreamCall.parsed,
        parsed.chunk.chunkIndex.toNat = i := by
    intro i hi
    have htoNat : (UInt32.ofNat i).toNat = i :=
      UInt32.toNat_ofNat_of_lt' (hi.trans (UInt32.toNat_lt _))
    obtain ⟨other, hother, hindex⟩ := hcover (UInt32.ofNat i) (by
      rwa [UInt32.lt_iff_toNat_lt, htoNat])
    exact ⟨other.parsed, List.mem_map_of_mem hother, by rw [hindex, htoNat]⟩
  rw [hflag, Option.some_inj, hgathered.completed_iff, hcalls, finalFlagged_append hfinal,
    finalFlagged_iff]
  exact and_iff_right hall

theorem parse_fiveByteChunk (i : Fin 3) :
    parseTransferChunkPayload (fiveByteChunk (UInt32.ofNat i)).wire =
      some (fiveByteChunk (UInt32.ofNat i)) := by
  revert i
  decide +kernel

/-- The arrival of a chunk. -/
def fiveByteCall (i : Fin 3) : StreamCall :=
  ⟨{}, ⟨fiveByteChunk (UInt32.ofNat i), _, parse_fiveByteChunk i⟩, []⟩

/-- The last chunk comes before the middle one, and two of them come twice. -/
theorem last_missing_completes_iff_fiveBytes :
    let calls := [fiveByteCall 0, fiveByteCall 2, fiveByteCall 0] ++
      fiveByteCall 1 :: [fiveByteCall 2]
    streamResults id calls (ZFileTransporter.fresh (.positional 8192)) =
        some [(true, false), (true, false), (true, false), (true, true), (true, true)] ∧
      FinalFlagged calls := by
  intro calls
  have hrun : streamResults id calls (ZFileTransporter.fresh (.positional 8192)) =
      some [(true, false), (true, false), (true, false), (true, true), (true, true)] := by
    decide +kernel
  refine ⟨hrun, (@last_missing_completes_iff _ _ id (ZFileTransporter.fresh (.positional 8192))
    [fiveByteCall 0, fiveByteCall 2, fiveByteCall 0] [fiveByteCall 2] (fiveByteCall 1)
    [false, false, false, true, true] rfl ?_ ?_ hrun).mp rfl⟩
  · intro other hother
    simp only [List.mem_append, List.mem_cons, List.not_mem_nil, or_false] at hother
    rcases hother with (rfl | rfl | rfl) | rfl | rfl
    all_goals exact ⟨rfl, rfl, rfl, rfl⟩
  · intro i hi
    have hlt : i.toNat < 3 := UInt32.lt_iff_toNat_lt.mp hi
    have hcases : i = 0 ∨ i = 2 ∨ i = 1 := by
      simp only [← UInt32.toNat_inj]
      show i.toNat = 0 ∨ i.toNat = 2 ∨ i.toNat = 1
      omega
    rcases hcases with rfl | rfl | rfl
    · exact ⟨fiveByteCall 0, List.mem_cons_self, rfl⟩
    · exact ⟨fiveByteCall 2, List.mem_cons_of_mem _ List.mem_cons_self, rfl⟩
    · exact ⟨fiveByteCall 1, List.mem_append_right _ List.mem_cons_self, rfl⟩

/-- The only chunk of a file of one byte, without the last flag. -/
def oneByteChunk : TransferChunk where
  transferId := 1
  fileSize := 1
  chunkSize := 1024
  chunkIndex := 0
  totalChunks := 1
  chunkChecksum := computeChecksum [0x7A]
  fileChecksum := 0
  hasFileName := true
  isLastChunk := false
  fileName := [0x61]
  data := [0x7A]

theorem parse_oneByteChunk : parseTransferChunkPayload oneByteChunk.wire = some oneByteChunk := by
  decide +kernel

/-- Its arrival. -/
def oneByteCall : StreamCall := ⟨{}, ⟨oneByteChunk, _, parse_oneByteChunk⟩, []⟩

/-- Without the flag the only chunk is accepted and stored, and the file never completes. -/
theorem full_session_not_completed :
    oneByteCall.parsed.chunk.chunkIndex = 0 ∧ oneByteCall.parsed.chunk.totalChunks = 1 ∧
      streamResults id [oneByteCall, oneByteCall] (ZFileTransporter.fresh (.positional 8192)) =
        some [(true, false), (true, false)] := by
  decide +kernel

end ZetaNet
