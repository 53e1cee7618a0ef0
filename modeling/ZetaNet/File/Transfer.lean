import ZetaNet.File.Session
import Mathlib.Data.List.FinRange

/-!
# A file from end to end

The payloads `SendFile` produces for a file, parsed and handed to `StreamChunkToFile` in any
order that begins with chunk 0, and `FinalizeStreamedFile` at the end.
-/

namespace ZetaNet

open Blocks

/-! ## The sender -/

section Prepared

variable {tuning : TransferTuning} {path content : Bytes} {counter : UInt64}
  {transfer : Transfer}

/-- A file whose length fits no `int64_t` is not sent. -/
theorem Transfer.Prepared.length_lt
    (h : transfer.Prepared tuning path (SourceFile.ofContent content) counter) :
    content.length < 2 ^ 63 := by
  by_contra hlarge
  have hnonneg := h.length_nonneg
  rw [show (SourceFile.ofContent content).length = -1 from if_neg hlarge] at hnonneg
  exact absurd hnonneg (by decide)

theorem Transfer.Prepared.toNat_fileSize
    (h : transfer.Prepared tuning path (SourceFile.ofContent content) counter) :
    transfer.fileSize.toNat = content.length := by
  have hlt := h.length_lt
  have hlength : (SourceFile.ofContent content).length = content.length := if_pos hlt
  rw [h.fileSize, hlength, Int.toNat_natCast, UInt64.toNat_ofNat', Nat.mod_eq_of_lt (by omega)]

/-- What `SendFile` set up for a file whose content stays. -/
theorem Transfer.Prepared.sendable
    (h : transfer.Prepared tuning path (SourceFile.ofContent content) counter)
    (hid : counter ≠ 0) (hsafe : containsPathTraversal (baseName path) = false) :
    transfer.Sendable content where
  transferId_ne := h.transferId ▸ hid
  toNat_fileSize := h.toNat_fileSize
  length_lt := h.length_lt
  chunkSize_ne := h.chunkSize_ne
  totalChunks := h.totalChunks
  fileName_ne := h.fileName_ne
  fileName_le := h.fileName_le
  fileName_safe := h.fileName ▸ hsafe

variable {encrypted : Bool} {destination : UInt32} {turns : Nat → SendTurn}
  {layer : ZAsyncTransportLayer} {run : SendRun}

/-- The calls of a `SendFile` that returned `true`. -/
theorem sent_calls
    (hrun : run = (sendFile encrypted destination tuning turns path
      (some (SourceFile.ofContent content)) counter layer).1)
    (hresult : run.result = some true) :
    ∃ transfer : Transfer,
      transfer.Prepared tuning path (SourceFile.ofContent content) counter ∧
        run.calls.map EnqueueCall.chunkIndex = List.range transfer.totalChunks.toNat ∧
          ∀ call ∈ run.calls, call.Reported encrypted destination transfer ∧
            call.payload = transfer.payload content call.chunkIndex := by
  subst hrun
  obtain ⟨source, transfer, hprepare, hloop⟩ := prepareTransfer_of_sendFile hresult
  obtain ⟨hsource, hprepared⟩ := prepared_of_prepareTransfer tuning hprepare
  obtain rfl := Option.some.inj hsource
  obtain ⟨hindices, hreported⟩ := sendLoop_calls hloop hresult
  refine ⟨transfer, hprepared, by rw [hindices, List.range_eq_range'],
    fun call hcall => ⟨hreported call hcall, ?_⟩⟩
  have hpayload := @sendLoop_payload encrypted destination tuning turns _ content transfer
    (SourceFile.reads_ofContent content) hprepared.toNat_fileSize transfer.totalChunks.toNat 0 layer
  rw [Nat.zero_mul, Nat.zero_min] at hpayload
  rw [hloop] at hcall
  refine (hpayload call ?_).1
  rwa [show transfer.checksumUpTo content 0 = kFnv1aOffset by simp [Transfer.checksumUpTo]]

/-- The payloads of a call of `SendFile` that returned `true`. -/
theorem sent_payloads
    (hrun : run = (sendFile encrypted destination tuning turns path
      (some (SourceFile.ofContent content)) counter layer).1)
    (hresult : run.result = some true) :
    ∃ transfer : Transfer,
      transfer.Prepared tuning path (SourceFile.ofContent content) counter ∧
        run.calls.map EnqueueCall.payload =
          (List.range transfer.totalChunks.toNat).map (transfer.payload content) := by
  obtain ⟨transfer, hprepared, hindices, hcalls⟩ := sent_calls hrun hresult
  refine ⟨transfer, hprepared, ?_⟩
  rw [← hindices, List.map_map]
  exact List.map_congr_left fun call hcall => (hcalls call hcall).2

end Prepared

/-! ## The receiver -/

section Receiver

variable {N : Type} [DecidableEq N] (locate : Bytes → N)

/-- Calls of `StreamChunkToFile` one after the other: the return values with what is put into
`out_completed`. -/
def streamAll : List (TransferChunk × Bytes) → ZFileTransporter N →
    Option (List (Bool × Bool) × ZFileTransporter N)
  | [], transporter => some ([], transporter)
  | (chunk, tempDirectory) :: calls, transporter =>
      (transporter.streamChunkToFile locate {} chunk tempDirectory).bind fun streamed =>
        (streamAll calls streamed.transporter).map fun (results, transporter) =>
          ((streamed.ok, streamed.completed) :: results, transporter)

theorem streamAll_append (first second : List (TransferChunk × Bytes))
    (transporter : ZFileTransporter N) :
    streamAll locate (first ++ second) transporter =
      (streamAll locate first transporter).bind fun (results, transporter) =>
        (streamAll locate second transporter).map fun (more, transporter) =>
          (results ++ more, transporter) := by
  induction first generalizing transporter with
  | nil =>
      cases h : streamAll locate second transporter <;> simp [streamAll, h]
  | cons call calls ih =>
      obtain ⟨chunk, tempDirectory⟩ := call
      simp only [List.cons_append, streamAll, Option.bind_assoc]
      refine Option.bind_congr fun streamed _ => ?_
      rw [ih, Option.bind_map, Option.map_bind]
      refine Option.bind_congr fun result _ => ?_
      simp [Function.comp_def]

variable {locate} {content : Bytes} {transfer : Transfer} {path : Bytes} {held : Finset ℕ}
  {transporter : ZFileTransporter N}

/-- The deliveries, given by their indices. -/
def deliver (transfer : Transfer) (content : Bytes) (deliveries : List (Nat × Bytes)) :
    List (TransferChunk × Bytes) :=
  deliveries.map fun delivery => (transfer.chunk content delivery.1, delivery.2)

/-- Deliveries to a session that is open. -/
theorem SessionReceiving.streamAll
    (h : SessionReceiving locate content transfer path held transporter)
    (hsend : transfer.Sendable content) (hsize : transfer.chunkSize.toNat < 2 ^ 31)
    {deliveries : List (Nat × Bytes)}
    (hdeliveries : ∀ delivery ∈ deliveries, delivery.1 < transfer.totalChunks.toNat) :
    ∃ results transporter',
      streamAll locate (deliver transfer content deliveries) transporter =
          some (results, transporter') ∧
        results.length = deliveries.length ∧
        (∀ k < deliveries.length, results[k]? = some (true,
          decide (held ∪ ((deliveries.take (k + 1)).map Prod.fst).toFinset =
            Finset.range transfer.totalChunks.toNat))) ∧
        SessionReceiving locate content transfer path (held ∪ (deliveries.map Prod.fst).toFinset)
          transporter' := by
  induction deliveries generalizing held transporter with
  | nil => exact ⟨[], transporter, rfl, rfl, by simp, by simpa using h⟩
  | cons delivery deliveries ih =>
      obtain ⟨i, tempDirectory⟩ := delivery
      have hi : i < transfer.totalChunks.toNat := hdeliveries _ List.mem_cons_self
      -- one delivery, then the rest to the session it leaves
      obtain ⟨mid, hcall, hmid⟩ := h.streamChunkToFile hsend hsize hi tempDirectory
      obtain ⟨results, transporter', hrun, hlength, hresults, hfinal⟩ :=
        ih hmid fun d hd => hdeliveries d (List.mem_cons_of_mem _ hd)
      have hunion (is : List ℕ) : insert i held ∪ is.toFinset = held ∪ (i :: is).toFinset := by
        rw [List.toFinset_cons, Finset.insert_union, Finset.union_insert]
      refine ⟨(true, insert i held = Finset.range transfer.totalChunks.toNat) :: results,
        transporter', ?_, by simp [hlength], ?_, ?_⟩
      · show ZetaNet.streamAll locate ((transfer.chunk content i, tempDirectory) ::
          deliver transfer content deliveries) transporter = _
        rw [ZetaNet.streamAll, hcall, Option.bind_some, hrun, Option.map_some]
      · intro k hk
        cases k with
        | zero =>
            have hone : held ∪ ({i} : Finset ℕ) = insert i held := by
              rw [Finset.union_comm, Finset.singleton_union]
            simp [hone]
        | succ k =>
            rw [List.getElem?_cons_succ, hresults k (by simpa using hk), hunion]
            rfl
      · rw [List.map_cons, ← hunion]
        exact hfinal

variable (locate) in
/-- Deliveries that begin with chunk 0, to a transporter without a session. -/
theorem streamAll_first (hsend : transfer.Sendable content)
    (hsize : transfer.chunkSize.toNat < 2 ^ 31)
    (hfresh : transporter.activeStreams transfer.transferId = none) (tempDirectory : Bytes)
    {deliveries : List (Nat × Bytes)}
    (hdeliveries : ∀ delivery ∈ deliveries, delivery.1 < transfer.totalChunks.toNat) :
    ∃ results transporter',
      streamAll locate (deliver transfer content ((0, tempDirectory) :: deliveries)) transporter =
          some (results, transporter') ∧
        results.length = deliveries.length + 1 ∧
        (∀ k < deliveries.length + 1, results[k]? = some (true,
          decide (((((0, tempDirectory) :: deliveries).take (k + 1)).map Prod.fst).toFinset =
            Finset.range transfer.totalChunks.toNat))) ∧
        SessionReceiving locate content transfer (tempPath tempDirectory transfer.transferId)
          (((0, tempDirectory) :: deliveries).map Prod.fst).toFinset transporter' := by
  obtain ⟨mid, hcall, hmid⟩ :=
    streamChunkToFile_first locate hsend hsize hfresh tempDirectory
  obtain ⟨results, transporter', hrun, hlength, hresults, hfinal⟩ :=
    hmid.streamAll hsend hsize hdeliveries
  have hunion (is : List ℕ) : ({0} : Finset ℕ) ∪ is.toFinset = (0 :: is).toFinset := by
    rw [List.toFinset_cons, Finset.singleton_union]
  refine ⟨(true, ({0} : Finset ℕ) = Finset.range transfer.totalChunks.toNat) :: results,
    transporter', ?_, by rw [List.length_cons, hlength], ?_, ?_⟩
  · show streamAll locate ((transfer.chunk content 0, tempDirectory) ::
      deliver transfer content deliveries) transporter = _
    rw [streamAll, hcall, Option.bind_some, hrun, Option.map_some]
  · intro k hk
    cases k with
    | zero => simp
    | succ k =>
        rw [List.getElem?_cons_succ, hresults k (by omega), hunion]
        rfl
  · rw [List.map_cons, ← hunion]
    exact hfinal

/-! ## The end of a transfer -/

/-- A complete session whose output has a name of its own leaves the content there. -/
theorem SessionReceiving.finalizeStreamedFile
    (h : SessionReceiving locate content transfer path (Finset.range transfer.totalChunks.toNat)
      transporter)
    (hsend : transfer.Sendable content) {outputPath : Bytes}
    (houtput : locate outputPath ≠ locate path) :
    ∃ transporter', transporter.finalizeStreamedFile locate {} transfer.transferId outputPath =
        (true, transporter') ∧
      transporter'.files.read (locate outputPath) = some content := by
  obtain ⟨session, handle, hactive, hpath, hhandle, hrecorded, inode, -, hgood, hentry, hholds⟩ :=
    h
  have hpos := hsend.totalChunks_pos
  obtain ⟨closed, hflush⟩ := FileWriteHandle.exists_flushAndClose hgood transporter.files
  set flushed := handle.flushed transporter.files with hflushed
  have hcontent : flushed.contents inode = content := by
    refine hholds.eq_of_all hsend.chunkSize_pos fun i hi => ?_
    exact Finset.mem_coe.mpr (Finset.mem_range.mpr (hsend.lt_totalChunks hi))
  have hread : flushed.read (locate path) = some content := by
    rw [FileSystem.read_of_entries (by rw [hflushed, handle.entries_flushed, hentry]), hcontent]
  have hcompleted : session.completed = true := by
    rw [hrecorded.completed hpos]
    exact decide_eq_true rfl
  have hchecksum : session.expectedFileChecksum = computeChecksum content :=
    hrecorded.checksum (Finset.mem_range.mpr (by omega))
  obtain ⟨files, hrename, houtputRead⟩ := FileSystem.exists_replace hread houtput
  refine ⟨{ transporter with files }.setSession transfer.transferId none, ?_, houtputRead⟩
  unfold ZFileTransporter.finalizeStreamedFile
  simp only [hactive, hcompleted, hhandle, hflush, hpath, ZFileTransporter.files_setSession,
    computeFileChecksum_eq hread, hchecksum, hrename, Bool.true_eq_false, if_false, ne_eq,
    not_true_eq_false]
  simp [ZFileTransporter.setSession]

/-- A session that lacks a chunk is not finalized. -/
theorem SessionReceiving.finalize_incomplete
    (h : SessionReceiving locate content transfer path held transporter)
    (hpos : 0 < transfer.totalChunks.toNat)
    (hne : held ≠ Finset.range transfer.totalChunks.toNat) (faults : Faults)
    (outputPath : Bytes) :
    transporter.finalizeStreamedFile locate faults transfer.transferId outputPath =
      (false, transporter) := by
  obtain ⟨session, handle, hactive, -, -, hrecorded, -⟩ := h
  have hcompleted : session.completed = false := by
    rw [hrecorded.completed hpos]
    exact decide_eq_false hne
  unfold ZFileTransporter.finalizeStreamedFile
  simp only [hactive, hcompleted, if_true]

variable (locate content) in
/-- Chunks without a file name are refused while there is no session. -/
theorem streamAll_refused
    (hfresh : transporter.activeStreams transfer.transferId = none)
    {deliveries : List (Nat × Bytes)}
    (hdeliveries : ∀ delivery ∈ deliveries,
      delivery.1 < transfer.totalChunks.toNat ∧ delivery.1 ≠ 0) :
    streamAll locate (deliver transfer content deliveries) transporter =
      some (List.replicate deliveries.length (false, false), transporter) := by
  induction deliveries with
  | nil => rfl
  | cons delivery deliveries ih =>
      obtain ⟨i, tempDirectory⟩ := delivery
      obtain ⟨hi, hne⟩ := hdeliveries _ List.mem_cons_self
      have hname : (transfer.chunk content i).hasFileName = false := by
        rw [show (transfer.chunk content i).hasFileName = decide (UInt32.ofNat i = 0) from
          wireFlags_hasFileName .., decide_eq_false_iff_not, ← UInt32.toNat_inj, toNat_index hi]
        exact hne
      have hcall : transporter.streamChunkToFile locate {} (transfer.chunk content i)
          tempDirectory = some ⟨false, false, transporter⟩ := by
        unfold ZFileTransporter.streamChunkToFile ZFileTransporter.ensureStreamSession
        rw [Transfer.transferId_chunk, hfresh]
        simp only [hname, if_true]
      show streamAll locate ((transfer.chunk content i, tempDirectory) ::
        deliver transfer content deliveries) transporter = _
      rw [streamAll, hcall, Option.bind_some,
        ih fun d hd => hdeliveries d (List.mem_cons_of_mem _ hd)]
      rfl

end Receiver

/-! ## From end to end -/

/-- The parsed payloads of a call of `SendFile` that returned `true` are the chunks of the file. -/
theorem exists_chunks {encrypted : Bool} {destination : UInt32} {tuning : TransferTuning}
    {turns : Nat → SendTurn} {path content : Bytes} {counter : UInt64}
    {layer : ZAsyncTransportLayer} (hsize : tuning.chunkSize.toNat < 2 ^ 31)
    (hid : counter ≠ 0) (hname : containsPathTraversal (baseName path) = false)
    (hsent : (sendFile encrypted destination tuning turns path
      (some (SourceFile.ofContent content)) counter layer).1.result = some true) :
    ∃ transfer : Transfer, transfer.Sendable content ∧ transfer.transferId = counter ∧
      transfer.chunkSize.toNat < 2 ^ 31 ∧
        ((sendFile encrypted destination tuning turns path (some (SourceFile.ofContent content))
          counter layer).1.calls.map fun call => parseTransferChunkPayload call.payload) =
          ((List.range transfer.totalChunks.toNat).map (transfer.chunk content)).map some := by
  obtain ⟨transfer, hprepared, hpayloads⟩ := sent_payloads rfl hsent
  have hsend := hprepared.sendable hid hname
  have hchunkSize : transfer.chunkSize.toNat < 2 ^ 31 := by
    rw [← UInt32.toNat_toUInt64, hprepared.chunkSize]
    exact hsize
  refine ⟨transfer, hsend, hprepared.transferId, hchunkSize, ?_⟩
  have hparsed := congrArg (List.map parseTransferChunkPayload) hpayloads
  rw [List.map_map, List.map_map] at hparsed
  rw [List.map_map]
  refine hparsed.trans (List.map_congr_left fun i hi => ?_)
  exact hsend.parse_payload (List.mem_range.mp hi)

/-- The indices that were delivered are all there are. -/
theorem toFinset_eq_range_iff {m n : Nat} (hm : m = n) (indices : List (Fin m)) :
    (indices.map Fin.val).toFinset = Finset.range n ↔ ∀ i, i ∈ indices := by
  subst hm
  constructor
  · intro heq i
    have hmem : i.val ∈ (indices.map Fin.val).toFinset := by
      rw [heq]
      exact Finset.mem_range.mpr i.isLt
    obtain ⟨j, hj, hval⟩ := List.mem_map.mp (List.mem_toFinset.mp hmem)
    rwa [← Fin.ext hval]
  · intro hall
    ext i
    rw [List.mem_toFinset, Finset.mem_range, List.mem_map]
    constructor
    · rintro ⟨j, -, rfl⟩
      exact j.isLt
    · exact fun hi => ⟨⟨i, hi⟩, hall _, rfl⟩

section EndToEnd

variable {transfer : Transfer} {content : Bytes} {chunks : List TransferChunk}
  (hchunks : chunks = (List.range transfer.totalChunks.toNat).map (transfer.chunk content))
include hchunks

theorem length_chunks : chunks.length = transfer.totalChunks.toNat := by
  rw [hchunks, List.length_map, List.length_range]

/-- Deliveries by position in the list of chunks are deliveries by index. -/
theorem map_get_eq_deliver (deliveries : List (Fin chunks.length × Bytes)) :
    (deliveries.map fun delivery => (chunks.get delivery.1, delivery.2)) =
      deliver transfer content (deliveries.map fun delivery => (delivery.1.val, delivery.2)) := by
  subst hchunks
  simp [deliver]

/-- The indices of the deliveries are all there are when every position was delivered. -/
theorem indices_eq_range_iff (deliveries : List (Fin chunks.length × Bytes)) :
    ((deliveries.map fun delivery => (delivery.1.val, delivery.2)).map Prod.fst).toFinset =
        Finset.range transfer.totalChunks.toNat ↔
      ∀ i, i ∈ deliveries.map Prod.fst := by
  rw [← toFinset_eq_range_iff (length_chunks hchunks), List.map_map, List.map_map]
  rfl

theorem index_lt (deliveries : List (Fin chunks.length × Bytes)) :
    ∀ delivery ∈ deliveries.map fun delivery => (delivery.1.val, delivery.2),
      delivery.1 < transfer.totalChunks.toNat := by
  intro delivery hdelivery
  obtain ⟨d, -, rfl⟩ := List.mem_map.mp hdelivery
  exact d.1.isLt.trans_eq (length_chunks hchunks)

/-- Deliveries by position that begin with the first one. -/
theorem streamAll_chunks_first {N : Type} [DecidableEq N] (locate : Bytes → N)
    (hsend : transfer.Sendable content) (hsize : transfer.chunkSize.toNat < 2 ^ 31)
    {transporter : ZFileTransporter N}
    (hfresh : transporter.activeStreams transfer.transferId = none) {first : Fin chunks.length}
    (hfirst : first.val = 0) (tempDirectory : Bytes)
    (later : List (Fin chunks.length × Bytes)) :
    let deliveries := (first, tempDirectory) :: later
    ∃ results transporter',
      streamAll locate (deliveries.map fun delivery =>
        (chunks.get delivery.1, delivery.2)) transporter = some (results, transporter') ∧
      results.length = deliveries.length ∧
      (∀ k < deliveries.length, results[k]? = some (true,
        decide (∀ i, i ∈ (deliveries.take (k + 1)).map Prod.fst))) ∧
      SessionReceiving locate content transfer (tempPath tempDirectory transfer.transferId)
        ((deliveries.map fun delivery => (delivery.1.val, delivery.2)).map Prod.fst).toFinset
        transporter' := by
  intro deliveries
  have hnames : (deliveries.map fun delivery => (delivery.1.val, delivery.2)) =
      (0, tempDirectory) :: later.map fun delivery => (delivery.1.val, delivery.2) := by
    rw [List.map_cons, hfirst]
  obtain ⟨results, transporter', hrun, hlength, hresults, hfinal⟩ :=
    streamAll_first locate hsend hsize hfresh tempDirectory (index_lt hchunks later)
  rw [← hnames] at hrun hresults hfinal
  refine ⟨results, transporter', ?_, ?_, ?_, hfinal⟩
  · rw [map_get_eq_deliver hchunks, hrun]
  · rw [hlength, List.length_map, List.length_cons]
  · intro k hk
    rw [hresults k (by simpa [deliveries] using hk), ← List.map_take]
    exact congrArg (fun flag => some (true, flag))
      (decide_eq_decide.mpr (indices_eq_range_iff hchunks _))

end EndToEnd

/-- The chunks that `SendFile` produces for a file, delivered in any sequence that begins with
chunk 0: every call returns `true`, the file is reported complete when every chunk has come, and
`FinalizeStreamedFile` then puts the content under an output name that is not the one of the
temporary file. -/
theorem sent_file_arrives {N : Type} [DecidableEq N] (locate : Bytes → N) (encrypted : Bool)
    (destination : UInt32) (tuning : TransferTuning) (turns : Nat → SendTurn)
    (path content : Bytes) (counter : UInt64) (layer : ZAsyncTransportLayer)
    (hsize : tuning.chunkSize.toNat < 2 ^ 31) (hid : counter ≠ 0)
    (hname : containsPathTraversal (baseName path) = false)
    (hsent : (sendFile encrypted destination tuning turns path
      (some (SourceFile.ofContent content)) counter layer).1.result = some true) :
    ∃ chunks : List TransferChunk,
      ((sendFile encrypted destination tuning turns path (some (SourceFile.ofContent content))
        counter layer).1.calls.map fun call => parseTransferChunkPayload call.payload) =
          chunks.map some ∧
      ∀ transporter : ZFileTransporter N, transporter.activeStreams counter = none →
        ∀ (first : Fin chunks.length) (tempDirectory : Bytes)
          (later : List (Fin chunks.length × Bytes)), first.val = 0 →
          let deliveries := (first, tempDirectory) :: later
          ∃ results transporter',
            streamAll locate (deliveries.map fun delivery =>
              (chunks.get delivery.1, delivery.2)) transporter = some (results, transporter') ∧
            results.length = deliveries.length ∧
            (∀ k < deliveries.length, results[k]? = some (true,
              decide (∀ i, i ∈ (deliveries.take (k + 1)).map Prod.fst))) ∧
            ((∀ i, i ∈ deliveries.map Prod.fst) → ∀ outputPath : Bytes,
              locate outputPath ≠ locate (tempPath tempDirectory counter) →
                let finished := transporter'.finalizeStreamedFile locate {} counter outputPath
                finished.1 = true ∧ finished.2.files.read (locate outputPath) = some content) := by
  obtain ⟨transfer, hsend, rfl, hchunkSize, hparsed⟩ := exists_chunks hsize hid hname hsent
  set chunks := (List.range transfer.totalChunks.toNat).map (transfer.chunk content) with hchunks
  refine ⟨chunks, hparsed, ?_⟩
  intro transporter hfresh first tempDirectory later hfirst deliveries
  obtain ⟨results, transporter', hrun, hlength, hresults, hfinal⟩ :=
    streamAll_chunks_first hchunks locate hsend hchunkSize hfresh hfirst tempDirectory later
  refine ⟨results, transporter', hrun, hlength, hresults, fun hall outputPath houtput => ?_⟩
  rw [(indices_eq_range_iff hchunks deliveries).mpr hall] at hfinal
  obtain ⟨finished, hfinalize, hread⟩ := hfinal.finalizeStreamedFile hsend houtput
  rw [hfinalize]
  exact ⟨rfl, hread⟩

/-- A transporter that has received nothing. -/
def ZFileTransporter.fresh (factory : FileWriteFactory) : ZFileTransporter Bytes :=
  ⟨factory, fun _ => none, ⟨fun _ => none, fun _ => [], 0⟩⟩

/-- The chunks that are parsed from the payloads of `sendFiveBytes`. -/
theorem exists_fiveByteChunks {chunks : List TransferChunk}
    (hparsed : (sendFiveBytes.calls.map fun call => parseTransferChunkPayload call.payload) =
      chunks.map some) :
    ∃ a b c, chunks = [a, b, c] := by
  refine List.length_eq_three.mp ?_
  have hlength := congrArg List.length hparsed
  rw [List.length_map, List.length_map] at hlength
  exact hlength.symm.trans (by decide +kernel)

/-- Out of order and with repetitions. -/
theorem sent_file_arrives_fiveBytes :
    ∃ a b c : TransferChunk,
      (sendFiveBytes.calls.map fun call => parseTransferChunkPayload call.payload) =
        [some a, some b, some c] ∧
      ∃ transporter',
        streamAll id [(a, []), (c, [0x74]), (a, []), (b, []), (c, [])]
            (ZFileTransporter.fresh (.positional 8192)) =
          some ([(true, false), (true, false), (true, false), (true, true), (true, true)],
            transporter') ∧
        (transporter'.finalizeStreamedFile id {} 1 [0x62]).1 = true ∧
          (transporter'.finalizeStreamedFile id {} 1 [0x62]).2.files.read [0x62] =
            some [1, 2, 3, 4, 5] := by
  obtain ⟨chunks, hparsed, harrive⟩ := sent_file_arrives id false ZPeerId.toAll { chunkSize := 2 }
    (fun _ => ⟨[⟨id, 0⟩], id, 0⟩) [0x61] [1, 2, 3, 4, 5] 1 ⟨.connected, ZPacketQueue.init 0⟩
    (by decide) (by decide) (by decide) (by decide +kernel)
  obtain ⟨a, b, c, rfl⟩ := exists_fiveByteChunks hparsed
  obtain ⟨results, transporter', hrun, hcount, hresults, hfinal⟩ :=
    harrive (ZFileTransporter.fresh (.positional 8192)) rfl (0 : Fin 3) []
      [((2 : Fin 3), [0x74]), ((0 : Fin 3), []), ((1 : Fin 3), []), ((2 : Fin 3), [])] rfl
  have hall : results =
      [(true, false), (true, false), (true, false), (true, true), (true, true)] := by
    refine List.ext_getElem? fun k => ?_
    match k with
    | 0 => exact hresults 0 (show 0 < 5 by decide)
    | 1 => exact hresults 1 (show 1 < 5 by decide)
    | 2 => exact hresults 2 (show 2 < 5 by decide)
    | 3 => exact hresults 3 (show 3 < 5 by decide)
    | 4 => exact hresults 4 (show 4 < 5 by decide)
    | k + 5 => rw [List.getElem?_eq_none (by rw [hcount]; simp), List.getElem?_eq_none (by simp)]
  have hcovers : ∀ i : Fin 3, i ∈ ([0, 2, 0, 1, 2] : List (Fin 3)) := by decide
  refine ⟨a, b, c, hparsed, transporter', ?_, hfinal hcovers [0x62] (by decide)⟩
  rw [← hall]
  exact hrun

/-- With the name of the temporary file for the output, the file is removed before it is
renamed. -/
theorem output_over_temp_file_lost :
    let chunks := (sendOneByte (RateLimiter.init 0)).calls.filterMap fun call =>
      parseTransferChunkPayload call.payload
    (streamAll id (chunks.map fun chunk => (chunk, []))
        (ZFileTransporter.fresh (.positional 8192))).map (fun (results, transporter) =>
      (results, (transporter.finalizeStreamedFile id {} 1 (tempPath [] 1)).1,
        (transporter.finalizeStreamedFile id {} 1 (tempPath [] 1)).2.files.read
          (tempPath [] 1))) =
      some ([(true, true)], false, none) := by
  decide +kernel

/-! ## Each chunk once -/

/-- An order of all positions that does not begin with the first has others in front of it. -/
theorem exists_front_of_perm {α : Type} {m : Nat} {order : List (Fin m × α)}
    (hperm : (order.map Prod.fst).Perm (List.finRange m)) (hpos : 0 < m)
    (hhead : (order.head?.map fun delivery => delivery.1.val) ≠ some 0) :
    ∃ front zero back, order = front ++ zero :: back ∧ zero.1.val = 0 ∧
      (∀ delivery ∈ front, delivery.1.val ≠ 0) ∧
      ∃ missed : Fin m, missed ∉ (zero :: back).map Prod.fst := by
  have hmem : (⟨0, hpos⟩ : Fin m) ∈ order.map Prod.fst :=
    hperm.mem_iff.mpr (List.mem_finRange _)
  obtain ⟨zero, hzero, hval⟩ := List.mem_map.mp hmem
  have hzeroVal : zero.1.val = 0 := congrArg Fin.val hval
  obtain ⟨front, back, rfl⟩ := List.append_of_mem hzero
  have hnodup : ((front ++ zero :: back).map Prod.fst).Nodup :=
    hperm.nodup_iff.mpr (List.nodup_finRange m)
  rw [List.map_append] at hnodup
  have hdisjoint := (List.nodup_append.mp hnodup).2.2
  refine ⟨front, zero, back, rfl, hzeroVal, ?_, ?_⟩
  · intro delivery hdelivery h
    refine hdisjoint delivery.1 (List.mem_map_of_mem hdelivery) zero.1
      (List.mem_map_of_mem List.mem_cons_self) (Fin.ext ?_)
    rw [h, hzeroVal]
  · cases front with
    | nil => exact absurd (congrArg some hzeroVal) hhead
    | cons missed front =>
        refine ⟨missed.1, fun hlater => ?_⟩
        exact hdisjoint missed.1 List.mem_cons_self missed.1 hlater rfl

section EachOnce

variable {transfer : Transfer} {content : Bytes} {chunks : List TransferChunk}
  (hchunks : chunks = (List.range transfer.totalChunks.toNat).map (transfer.chunk content))
  {N : Type} [DecidableEq N] (locate : Bytes → N) (hsend : transfer.Sendable content)
  (hsize : transfer.chunkSize.toNat < 2 ^ 31) {transporter : ZFileTransporter N}
  (hfresh : transporter.activeStreams transfer.transferId = none) {zero : Fin chunks.length}
  (hzero : zero.val = 0) (tempDirectory : Bytes)

include hchunks hsend hsize hfresh hzero

/-- With chunk 0 first every chunk is received. -/
theorem completes_of_first {later : List (Fin chunks.length × Bytes)}
    (hall : ∀ i, i ∈ ((zero, tempDirectory) :: later).map Prod.fst) :
    ∃ results transporter',
      streamAll locate (((zero, tempDirectory) :: later).map fun delivery =>
        (chunks.get delivery.1, delivery.2)) transporter = some (results, transporter') ∧
      results.getLast? = some (true, true) ∧
      ∀ outputPath : Bytes,
        locate outputPath ≠ locate (tempPath tempDirectory transfer.transferId) →
          let finished := transporter'.finalizeStreamedFile locate {} transfer.transferId outputPath
          finished.1 = true ∧ finished.2.files.read (locate outputPath) = some content := by
  obtain ⟨results, transporter', hrun, hlength, hresults, hfinal⟩ :=
    streamAll_chunks_first hchunks locate hsend hsize hfresh hzero tempDirectory later
  refine ⟨results, transporter', hrun, ?_, fun outputPath houtput => ?_⟩
  · have hlast := hresults later.length (Nat.lt_succ_self _)
    rw [List.take_of_length_le (by simp)] at hlast
    rw [List.getLast?_eq_getElem?, show results.length - 1 = later.length by simp [hlength], hlast]
    exact congrArg (fun flag => some (true, flag)) (decide_eq_true hall)
  · rw [(indices_eq_range_iff hchunks _).mpr hall] at hfinal
    obtain ⟨finished, hfinalize, hread⟩ := hfinal.finalizeStreamedFile hsend houtput
    rw [hfinalize]
    exact ⟨rfl, hread⟩

/-- What comes in front of chunk 0 is refused, and the file lacks it unless it comes again. -/
theorem fails_of_front {front back : List (Fin chunks.length × Bytes)}
    (hfront : ∀ delivery ∈ front, delivery.1.val ≠ 0)
    (hmissed : ¬ ∀ i, i ∈ ((zero, tempDirectory) :: back).map Prod.fst) :
    ∃ results transporter',
      streamAll locate ((front ++ (zero, tempDirectory) :: back).map fun delivery =>
        (chunks.get delivery.1, delivery.2)) transporter = some (results, transporter') ∧
      results.getLast? ≠ some (true, true) ∧
      (∀ k < front.length, results[k]? = some (false, false)) ∧
      ∀ outputPath : Bytes, (transporter'.finalizeStreamedFile locate {} transfer.transferId
        outputPath).1 = false := by
  have hnamed : ∀ delivery ∈ front.map fun delivery => (delivery.1.val, delivery.2),
      delivery.1 < transfer.totalChunks.toNat ∧ delivery.1 ≠ 0 := by
    intro delivery hdelivery
    obtain ⟨d, hd, rfl⟩ := List.mem_map.mp hdelivery
    exact ⟨d.1.isLt.trans_eq (length_chunks hchunks), hfront d hd⟩
  have hrefused : streamAll locate (front.map fun delivery =>
      (chunks.get delivery.1, delivery.2)) transporter =
      some (List.replicate front.length (false, false), transporter) := by
    rw [map_get_eq_deliver hchunks, streamAll_refused locate content hfresh hnamed,
      List.length_map]
  obtain ⟨results, transporter', hrun, hlength, hresults, hfinal⟩ :=
    streamAll_chunks_first hchunks locate hsend hsize hfresh hzero tempDirectory back
  refine ⟨List.replicate front.length (false, false) ++ results, transporter', ?_, ?_,
    fun k hk => ?_, fun outputPath => ?_⟩
  · rw [List.map_append, streamAll_append, hrefused, Option.bind_some]
    dsimp only
    rw [hrun, Option.map_some]
  · have hlast := hresults back.length (Nat.lt_succ_self _)
    rw [List.take_of_length_le (by simp), decide_eq_false hmissed] at hlast
    rw [List.getLast?_append, List.getLast?_eq_getElem?,
      show results.length - 1 = back.length by simp [hlength], hlast]
    simp
  · rw [List.getElem?_append_left (by simpa using hk), List.getElem?_replicate, if_pos hk]
  · have hne := mt (indices_eq_range_iff hchunks _).mp hmissed
    rw [hfinal.finalize_incomplete hsend.totalChunks_pos hne {} outputPath]

end EachOnce

/-- The chunks that `SendFile` produces for a file, each delivered once: the last call reports
the file complete exactly if chunk 0 came first, and then `FinalizeStreamedFile` restores the
content; in every other order it fails, because what comes in front of chunk 0 is refused. -/
theorem order_completes_iff {N : Type} [DecidableEq N] (locate : Bytes → N) (encrypted : Bool)
    (destination : UInt32) (tuning : TransferTuning) (turns : Nat → SendTurn)
    (path content : Bytes) (counter : UInt64) (layer : ZAsyncTransportLayer)
    (hsize : tuning.chunkSize.toNat < 2 ^ 31) (hid : counter ≠ 0)
    (hname : containsPathTraversal (baseName path) = false)
    (hsent : (sendFile encrypted destination tuning turns path
      (some (SourceFile.ofContent content)) counter layer).1.result = some true) :
    ∃ chunks : List TransferChunk,
      ((sendFile encrypted destination tuning turns path (some (SourceFile.ofContent content))
        counter layer).1.calls.map fun call => parseTransferChunkPayload call.payload) =
          chunks.map some ∧
      ∀ transporter : ZFileTransporter N, transporter.activeStreams counter = none →
        ∀ order : List (Fin chunks.length × Bytes),
          (order.map Prod.fst).Perm (List.finRange chunks.length) →
          ∃ results transporter',
            streamAll locate (order.map fun delivery =>
              (chunks.get delivery.1, delivery.2)) transporter = some (results, transporter') ∧
            (results.getLast? = some (true, true) ↔
              (order.head?.map fun delivery => delivery.1.val) = some 0) ∧
            (∀ k < order.length, (∀ delivery ∈ order.take (k + 1), delivery.1.val ≠ 0) →
              results[k]? = some (false, false)) ∧
            (∀ first tempDirectory later, order = (first, tempDirectory) :: later →
              first.val = 0 → ∀ outputPath : Bytes,
                locate outputPath ≠ locate (tempPath tempDirectory counter) →
                  let finished := transporter'.finalizeStreamedFile locate {} counter outputPath
                  finished.1 = true ∧
                    finished.2.files.read (locate outputPath) = some content) ∧
            ((order.head?.map fun delivery => delivery.1.val) ≠ some 0 →
              ∀ outputPath : Bytes,
                (transporter'.finalizeStreamedFile locate {} counter outputPath).1 = false) := by
  obtain ⟨transfer, hsend, rfl, hchunkSize, hparsed⟩ := exists_chunks hsize hid hname hsent
  set chunks := (List.range transfer.totalChunks.toNat).map (transfer.chunk content) with hchunks
  refine ⟨chunks, hparsed, ?_⟩
  intro transporter hfresh order hperm
  by_cases hhead : (order.head?.map fun delivery => delivery.1.val) = some 0
  · -- chunk 0 first
    obtain ⟨⟨first, tempDirectory⟩, later, rfl⟩ : ∃ delivery later, order = delivery :: later := by
      cases order with
      | nil => cases hhead
      | cons delivery later => exact ⟨delivery, later, rfl⟩
    have hall : ∀ i, i ∈ ((first, tempDirectory) :: later).map Prod.fst :=
      fun i => hperm.mem_iff.mpr (List.mem_finRange i)
    obtain ⟨results, transporter', hrun, hlast, hfinal⟩ := completes_of_first hchunks locate hsend
      hchunkSize hfresh (Option.some.inj hhead) tempDirectory hall
    refine ⟨results, transporter', hrun, iff_of_true hlast hhead, fun k _ hfront => ?_, ?_,
      absurd hhead⟩
    · exact absurd (Option.some.inj hhead) (hfront _ List.mem_cons_self)
    · rintro first' tempDirectory' later' horder - outputPath houtput
      obtain ⟨rfl, rfl⟩ := Prod.mk.inj (List.cons.inj horder).1
      exact hfinal outputPath houtput
  · -- one of the chunks in front of chunk 0 is missing at the end
    obtain ⟨front, ⟨zero, tempDirectory⟩, back, rfl, hzero, hfront, missed, hmissed⟩ :=
      exists_front_of_perm hperm (length_chunks hchunks ▸ hsend.totalChunks_pos) hhead
    obtain ⟨results, transporter', hrun, hlast, hrefused, hfails⟩ := fails_of_front hchunks locate
      hsend hchunkSize hfresh hzero tempDirectory hfront fun hall => hmissed (hall missed)
    refine ⟨results, transporter', hrun, iff_of_false hlast hhead, fun k _ hbefore => ?_, ?_,
      fun _ => hfails⟩
    · refine hrefused k (Nat.lt_of_not_le fun hge => hbefore (zero, tempDirectory) ?_ hzero)
      refine List.mem_take_iff_getElem.mpr ⟨front.length, ?_, ?_⟩
      · rw [List.length_append, List.length_cons]
        omega
      · simp
    · rintro first tempDirectory' later horder hfirst
      exact absurd (by rw [horder]; exact congrArg some hfirst) hhead

/-- Chunk 0 first, and chunk 0 in the middle. -/
theorem order_completes_iff_fiveBytes :
    ∃ a b c : TransferChunk,
      (sendFiveBytes.calls.map fun call => parseTransferChunkPayload call.payload) =
        [some a, some b, some c] ∧
      (∃ results transporter',
        streamAll id [(a, []), (c, []), (b, [])] (ZFileTransporter.fresh .memoryMapped) =
            some (results, transporter') ∧
          results.getLast? = some (true, true) ∧
          (transporter'.finalizeStreamedFile id {} 1 [0x62]).1 = true ∧
          (transporter'.finalizeStreamedFile id {} 1 [0x62]).2.files.read [0x62] =
            some [1, 2, 3, 4, 5]) ∧
      ∃ results transporter',
        streamAll id [(c, []), (a, []), (b, [])] (ZFileTransporter.fresh .memoryMapped) =
            some (results, transporter') ∧
          results[0]? = some (false, false) ∧ results.getLast? ≠ some (true, true) ∧
          (transporter'.finalizeStreamedFile id {} 1 [0x62]).1 = false := by
  obtain ⟨chunks, hparsed, hall⟩ := order_completes_iff id false ZPeerId.toAll { chunkSize := 2 }
    (fun _ => ⟨[⟨id, 0⟩], id, 0⟩) [0x61] [1, 2, 3, 4, 5] 1 ⟨.connected, ZPacketQueue.init 0⟩
    (by decide) (by decide) (by decide) (by decide +kernel)
  obtain ⟨a, b, c, rfl⟩ := exists_fiveByteChunks hparsed
  refine ⟨a, b, c, hparsed, ?_, ?_⟩
  · obtain ⟨results, transporter', hrun, hlast, -, hrestored, -⟩ :=
      hall (ZFileTransporter.fresh .memoryMapped) rfl
        [((0 : Fin 3), []), ((2 : Fin 3), []), ((1 : Fin 3), [])]
        (show List.Perm ([0, 2, 1] : List (Fin 3)) (List.finRange 3) by decide)
    exact ⟨results, transporter', hrun, hlast.mpr rfl, hrestored _ _ _ rfl rfl [0x62] (by decide)⟩
  · obtain ⟨results, transporter', hrun, hlast, hrefused, -, hfails⟩ :=
      hall (ZFileTransporter.fresh .memoryMapped) rfl
        [((2 : Fin 3), []), ((0 : Fin 3), []), ((1 : Fin 3), [])]
        (show List.Perm ([2, 0, 1] : List (Fin 3)) (List.finRange 3) by decide)
    have hhead : some 2 ≠ some 0 := by decide
    refine ⟨results, transporter', hrun, hrefused 0 (Nat.succ_pos 2) ?_,
      fun h => hhead (hlast.mp h), hfails hhead [0x62]⟩
    intro delivery hdelivery
    rw [List.mem_singleton.mp hdelivery]
    exact Nat.succ_ne_zero 1

/-- A file of two bytes in chunks of one byte. -/
def sendTwoBytes : SendRun :=
  (sendFile false ZPeerId.toAll { chunkSize := 1 } (fun _ => ⟨[⟨id, 0⟩], id, 0⟩) [0x61]
    (some (SourceFile.ofContent [0x7A, 0x6E])) 1 ⟨.connected, ZPacketQueue.init 0⟩).1

/-- The second chunk arrives first and is refused; nothing brings it back. -/
theorem chunk_before_first_lost :
    let chunks := sendTwoBytes.calls.filterMap fun call => parseTransferChunkPayload call.payload
    chunks.length = 2 ∧
      (streamAll id (chunks.reverse.map fun chunk => (chunk, []))
          (ZFileTransporter.fresh (.positional 8192))).map (fun (results, transporter) =>
        (results, (transporter.finalizeStreamedFile id {} 1 [0x61]).1)) =
        some ([(false, false), (true, false)], false) := by
  decide +kernel

end ZetaNet
