import ZetaNet.File.Acceptance
import ZetaNet.File.Enqueue
import ZetaNet.File.Invariant
import ZetaNet.File.Completion

/-!
# Chunks of several senders

Processes that number their transfers each from 1 send files to one receiver, whose sessions go
by the number alone. A session that has recorded chunks of two senders exists in some run exactly
if a chunk that begins a transfer of one sender agrees in number and geometry with a later chunk
of another.
-/

namespace ZetaNet

/-! ## The senders -/

/-- A call of `SendFile` in a process, with the transport it finds. There is no content where the
file does not open. -/
structure SendCall where
  encrypted : Bool
  destination : UInt32
  tuning : TransferTuning
  turns : Nat → SendTurn
  path : Bytes
  content : Option Bytes
  layer : ZAsyncTransportLayer

def SendCall.run (call : SendCall) (counter : UInt64) : SendRun × UInt64 :=
  sendFile call.encrypted call.destination call.tuning call.turns call.path
    (call.content.map SourceFile.ofContent) counter call.layer

/-- The calls of `SendFile` of a process one after the other, from a counter on. -/
def sendAll : List SendCall → UInt64 → List SendRun
  | [], _ => []
  | call :: calls, counter =>
      let (run, counter) := call.run counter
      run :: sendAll calls counter

/-- The chunk of a packet that was put on the queue, as a receiver parses it. -/
def EnqueueCall.sentChunk (call : EnqueueCall) : Option TransferChunk :=
  if call.put.isEmpty then none else parseTransferChunkPayload call.payload

/-- The chunks that a process sends with these calls. -/
def sentChunks (calls : List SendCall) : List TransferChunk :=
  ((sendAll calls 1).flatMap SendRun.calls).filterMap EnqueueCall.sentChunk

/-- A chunk that begins a transfer and one of another sender that continues it. -/
structure Collision {ι : Type} (senders : ι → List SendCall) (a b : ι)
    (first later : TransferChunk) : Prop where
  ne : a ≠ b
  sends_first : first ∈ sentChunks (senders a)
  sends_later : later ∈ sentChunks (senders b)
  first_index : first.chunkIndex = 0
  later_index : later.chunkIndex ≠ 0
  same : later.SameTransfer first

section Sender

variable {calls : List SendCall} {counter : UInt64} {chunk : TransferChunk}

theorem exists_call_of_mem_sendAll {run : SendRun} (h : run ∈ sendAll calls counter) :
    ∃ call ∈ calls, ∃ counter', run = (call.run counter').1 := by
  induction calls generalizing counter with
  | nil => exact absurd h List.not_mem_nil
  | cons call calls ih =>
      rcases List.mem_cons.mp h with rfl | h
      · exact ⟨call, List.mem_cons_self, counter, rfl⟩
      · obtain ⟨other, hother, hrun⟩ := ih h
        exact ⟨other, List.mem_cons_of_mem _ hother, hrun⟩

/-- Every call of `EnqueuePacket` carries a payload of the transfer that was set up. -/
theorem SendCall.payload_of_mem {send : SendCall} {call : EnqueueCall}
    (h : call ∈ (send.run counter).1.calls) :
    ∃ content transfer, Transfer.Prepared send.tuning send.path (SourceFile.ofContent content)
        counter transfer ∧ call.payload = transfer.payload content call.chunkIndex := by
  unfold SendCall.run sendFile at h
  split at h
  · exact absurd h List.not_mem_nil
  · rename_i source transfer counter' heq
    have hprepare : (prepareTransfer send.tuning send.path
        (send.content.map SourceFile.ofContent) counter).1 = some (source, transfer) := by
      rw [heq]
    obtain ⟨hsource, hprepared⟩ := prepared_of_prepareTransfer send.tuning hprepare
    obtain ⟨content, -, rfl⟩ := Option.map_eq_some_iff.mp hsource
    refine ⟨content, transfer, hprepared, ?_⟩
    have hpayload := @sendLoop_payload send.encrypted send.destination send.tuning send.turns _
      content transfer (SourceFile.reads_ofContent content) hprepared.toNat_fileSize
      transfer.totalChunks.toNat 0 send.layer
    rw [Nat.zero_mul, Nat.zero_min] at hpayload
    refine (hpayload call ?_).1
    rwa [show transfer.checksumUpTo content 0 = kFnv1aOffset by simp [Transfer.checksumUpTo]]

theorem exists_call_of_mem_sentChunks (h : chunk ∈ sentChunks calls) :
    ∃ run ∈ sendAll calls 1, ∃ call ∈ run.calls,
      parseTransferChunkPayload call.payload = some chunk := by
  obtain ⟨call, hcall, hchunk⟩ := List.mem_filterMap.mp h
  obtain ⟨run, hrun, hcall⟩ := List.mem_flatMap.mp hcall
  refine ⟨run, hrun, call, hcall, ?_⟩
  unfold EnqueueCall.sentChunk at hchunk
  split at hchunk
  · cases hchunk
  · exact hchunk

/-- A file whose chunks are sent fits an `int64_t`. -/
theorem fileSize_lt_of_mem_sentChunks (h : chunk ∈ sentChunks calls) :
    chunk.fileSize.toNat < 2 ^ 63 := by
  obtain ⟨run, hrun, call, hcall, hparse⟩ := exists_call_of_mem_sentChunks h
  obtain ⟨send, -, counter, rfl⟩ := exists_call_of_mem_sendAll hrun
  obtain ⟨content, transfer, hprepared, hpayload⟩ := send.payload_of_mem hcall
  rw [hpayload] at hparse
  have hsize : chunk.fileSize = transfer.fileSize := fileSize_of_parse_payload hparse
  rw [hsize, hprepared.toNat_fileSize]
  exact hprepared.length_lt

end Sender

/-! ## The receiver -/

/-- A delivery of a chunk of `sender`, with what fails meanwhile. -/
structure Delivery (ι : Type) where
  sender : ι
  faults : Faults
  parsed : ParsedChunk
  tempDirectory : Bytes

/-- A transporter with the chunks its open sessions have recorded, and their senders. -/
structure MixedReceiver (N ι : Type) where
  transporter : ZFileTransporter N
  recorded : UInt64 → List (ι × TransferChunk)

namespace MixedReceiver

variable {N ι : Type}

def fresh (ι : Type) (factory : FileWriteFactory) (files : FileSystem N) : MixedReceiver N ι :=
  ⟨⟨factory, fun _ => none, files⟩, fun _ => []⟩

/-- No session has recorded chunks of two senders. -/
def Unmixed (s : MixedReceiver N ι) : Prop :=
  ∀ transferId, ∀ x ∈ s.recorded transferId, ∀ y ∈ s.recorded transferId, x.1 = y.1

variable [DecidableEq N] (locate : Bytes → N)

/-- A chunk is recorded when its write succeeds. -/
def machine : Machine (MixedReceiver N ι) (Delivery ι) where
  step s delivery :=
    let chunk := delivery.parsed.chunk
    (s.transporter.streamChunkToFile locate delivery.faults chunk delivery.tempDirectory).map
      fun streamed =>
        { transporter := streamed.transporter
          recorded :=
            if s.transporter.writeCall locate delivery.faults chunk delivery.tempDirectory =
                some ⟨chunk, true⟩ then
              Function.update s.recorded chunk.transferId
                (s.recorded chunk.transferId ++ [(delivery.sender, chunk)])
            else s.recorded }

end MixedReceiver

/-! ## One call -/

section Calls

variable {N : Type} {faults : Faults} {chunk : TransferChunk} {transporter : ZFileTransporter N}
  {session : StreamReceiveSession} {streamed : Streamed N}

/-- `StreamChunkToFile` with its session records the chunk, or leaves the sessions alone but for
the handle. -/
theorem streamToSession_cases
    (hactive : transporter.activeStreams chunk.transferId = some session)
    (h : transporter.streamToSession faults chunk session = some streamed) :
    ∃ tempFile,
      streamed.transporter.activeStreams = Function.update transporter.activeStreams
          chunk.transferId (some { session with tempFile }) ∧
        session.writeCall faults chunk transporter.files ≠ some ⟨chunk, true⟩ ∨
      session.receivedChunks[chunk.chunkIndex.toNat]? = some false ∧
        streamed.transporter.activeStreams = Function.update transporter.activeStreams
          chunk.transferId (some ({ session with tempFile }.record chunk)) ∧
        session.writeCall faults chunk transporter.files = some ⟨chunk, true⟩ := by
  have hsame : transporter.activeStreams =
      Function.update transporter.activeStreams chunk.transferId (some session) := by
    rw [← hactive, Function.update_eq_self]
  unfold ZFileTransporter.streamToSession at h
  unfold StreamReceiveSession.writeCall
  cases htemp : session.tempFile with
  | none =>
      rw [htemp] at h
      obtain rfl := Option.some.inj h
      exact ⟨session.tempFile, Or.inl ⟨hsame, fun hcall => (nomatch hcall)⟩⟩
  | some handle =>
      rw [htemp] at h
      cases hentry : session.receivedChunks[chunk.chunkIndex.toNat]? with
      | none =>
          simp only [hentry] at h
          cases h
      | some entry =>
          cases entry with
          -- received before, and not written again
          | true =>
              simp only [hentry] at h
              obtain rfl := Option.some.inj h
              exact ⟨session.tempFile, Or.inl ⟨hsame, fun hcall => (nomatch hcall)⟩⟩
          | false =>
              cases hwrite : handle.writeAt faults chunk.start chunk.data transporter.files with
              | mk written rest =>
                  obtain ⟨handle', files⟩ := rest
                  simp only [hentry, hwrite] at h
                  cases written with
                  | false =>
                      obtain rfl := Option.some.inj h
                      refine ⟨some handle', Or.inl ⟨rfl, fun hcall => ?_⟩⟩
                      simp only [hwrite] at hcall
                      cases hcall
                  -- the write went through: the chunk is recorded
                  | true =>
                      obtain rfl := Option.some.inj h
                      refine ⟨some handle', Or.inr ⟨rfl, rfl, ?_⟩⟩
                      simp only [hwrite]

variable [DecidableEq N] (locate : Bytes → N) {tempDirectory : Bytes}

/-- The session that a chunk gets: the open one of its number and geometry, or a new one for a
chunk with a name. -/
structure Found (transporter : ZFileTransporter N) (chunk : TransferChunk)
    (session : StreamReceiveSession) : Prop where
  same : session.sameGeometry chunk = true
  origin : transporter.activeStreams chunk.transferId = some session ∨
    transporter.activeStreams chunk.transferId = none ∧ chunk.hasFileName = true ∧
      session.receivedChunks = List.replicate chunk.totalChunks.toNat false

theorem ensureStreamSession_found {found : Option StreamReceiveSession}
    {after : ZFileTransporter N}
    (h : transporter.ensureStreamSession locate faults chunk tempDirectory = (found, after)) :
    match found with
    | none => after.activeStreams = transporter.activeStreams
    | some session =>
        after.activeStreams =
            Function.update transporter.activeStreams chunk.transferId (some session) ∧
          Found transporter chunk session := by
  unfold ZFileTransporter.ensureStreamSession at h
  cases hactive : transporter.activeStreams chunk.transferId with
  | some session =>
      simp only [hactive] at h
      split at h
      · rename_i hsame
        obtain ⟨rfl, rfl⟩ := Prod.mk.inj h
        refine ⟨?_, hsame, Or.inl hactive⟩
        rw [← hactive, Function.update_eq_self]
      · obtain ⟨rfl, rfl⟩ := Prod.mk.inj h
        rfl
  | none =>
      simp only [hactive] at h
      split at h
      · obtain ⟨rfl, rfl⟩ := Prod.mk.inj h
        rfl
      · rename_i hname
        split at h
        · obtain ⟨rfl, rfl⟩ := Prod.mk.inj h
          rfl
        · obtain ⟨rfl, rfl⟩ := Prod.mk.inj h
          refine ⟨rfl, by simp [sameGeometry_iff], Or.inr ⟨hactive, ?_, rfl⟩⟩
          exact Bool.eq_true_of_not_eq_false hname

/-- `StreamChunkToFile` opens and records, opens only, records only or leaves the sessions
alone. -/
theorem streamChunkToFile_cases
    (h : transporter.streamChunkToFile locate faults chunk tempDirectory = some streamed) :
    streamed.transporter.activeStreams = transporter.activeStreams ∧
        transporter.writeCall locate faults chunk tempDirectory ≠ some ⟨chunk, true⟩ ∨
      ∃ session tempFile, Found transporter chunk session ∧
        (streamed.transporter.activeStreams =
              Function.update transporter.activeStreams chunk.transferId
                (some { session with tempFile }) ∧
            transporter.writeCall locate faults chunk tempDirectory ≠ some ⟨chunk, true⟩ ∨
          session.receivedChunks[chunk.chunkIndex.toNat]? = some false ∧
            streamed.transporter.activeStreams =
              Function.update transporter.activeStreams chunk.transferId
                (some ({ session with tempFile }.record chunk)) ∧
            transporter.writeCall locate faults chunk tempDirectory = some ⟨chunk, true⟩) := by
  unfold ZFileTransporter.streamChunkToFile at h
  unfold ZFileTransporter.writeCall
  cases hensure : transporter.ensureStreamSession locate faults chunk tempDirectory with
  | mk found after =>
      have hfound := ensureStreamSession_found locate hensure
      rw [hensure] at h
      cases found with
      | none =>
          obtain rfl := Option.some.inj h
          exact Or.inl ⟨hfound, fun hcall => (nomatch hcall)⟩
      | some session =>
          obtain ⟨hactive, hfound⟩ := hfound
          have hat : after.activeStreams chunk.transferId = some session := by
            rw [hactive, Function.update_self]
          obtain ⟨tempFile, hcases⟩ := streamToSession_cases hat h
          rw [hactive, Function.update_idem, Function.update_idem] at hcases
          exact Or.inr ⟨session, tempFile, hfound, hcases⟩

end Calls

/-! ## What a session has recorded -/

/-- A session of the number `transferId` that some sender's first chunk opened and that recorded
`recorded`, chunks that were sent, each index once. -/
structure SessionFrom {ι : Type} (senders : ι → List SendCall) (transferId : UInt64)
    (recorded : List (ι × TransferChunk)) (session : StreamReceiveSession) : Prop where
  opened : ∃ sender first, first ∈ sentChunks (senders sender) ∧ first.chunkIndex = 0 ∧
    first.transferId = transferId ∧ session.sameGeometry first = true
  fits : ∀ x ∈ recorded, x.2 ∈ sentChunks (senders x.1) ∧ x.2.Placed ∧ x.2.transferId = transferId ∧
    session.sameGeometry x.2 = true
  received : ∀ i, session.receivedChunks[i]? = some true ↔
    ∃ x ∈ recorded, x.2.chunkIndex.toNat = i
  apart : (recorded.map fun x => x.2.chunkIndex).Nodup

section SessionFrom

variable {ι : Type} {senders : ι → List SendCall} {transferId : UInt64}
  {recorded : List (ι × TransferChunk)} {session : StreamReceiveSession}

theorem sameTransfer_of_sameGeometry {first later : TransferChunk}
    (hid : later.transferId = first.transferId) (hfirst : session.sameGeometry first = true)
    (hlater : session.sameGeometry later = true) : later.SameTransfer first := by
  obtain ⟨hfile, hchunk, htotal⟩ := sameGeometry_iff.mp hfirst
  obtain ⟨hfile', hchunk', htotal'⟩ := sameGeometry_iff.mp hlater
  exact ⟨hid, hfile'.symm.trans hfile, hchunk'.symm.trans hchunk, htotal'.symm.trans htotal⟩

/-- The handle does not matter. -/
theorem SessionFrom.withHandle (h : SessionFrom senders transferId recorded session)
    (tempFile : Option FileWriteHandle) :
    SessionFrom senders transferId recorded { session with tempFile } :=
  { h with }

/-- One more chunk, with an index that is not yet set. -/
theorem SessionFrom.record {delivery : Delivery ι}
    (h : SessionFrom senders transferId recorded session)
    (hsends : delivery.parsed.chunk ∈ sentChunks (senders delivery.sender))
    (hid : delivery.parsed.chunk.transferId = transferId)
    (hsame : session.sameGeometry delivery.parsed.chunk = true)
    (hnew : session.receivedChunks[delivery.parsed.chunk.chunkIndex.toNat]? = some false) :
    SessionFrom senders transferId (recorded ++ [(delivery.sender, delivery.parsed.chunk)])
      (session.record delivery.parsed.chunk) where
  opened := by
    obtain ⟨sender, first, hsent, hindex, hfirst, hgeometry⟩ := h.opened
    exact ⟨sender, first, hsent, hindex, hfirst, (sameGeometry_record first).trans hgeometry⟩
  fits x hx := by
    rw [sameGeometry_record]
    rcases List.mem_append.mp hx with hx | hx
    · exact h.fits x hx
    · rw [List.mem_singleton.mp hx]
      exact ⟨hsends, delivery.parsed.placed, hid, hsame⟩
  received i := by
    rw [receivedChunks_record_eq_true hnew, h.received i]
    simp [or_and_right, exists_or]
  apart := by
    rw [List.map_append, List.map_singleton]
    refine h.apart.append (List.nodup_singleton _) fun index hold hlast => ?_
    obtain ⟨x, hx, rfl⟩ := List.mem_map.mp hold
    -- the index of an old chunk is set
    have hset := (h.received x.2.chunkIndex.toNat).mpr ⟨x, hx, rfl⟩
    rw [List.mem_singleton.mp hlast, hnew] at hset
    cases hset

/-- A session that mixes was opened, and continued, by chunks that collide. -/
theorem SessionFrom.sender_eq (h : SessionFrom senders transferId recorded session)
    (hfree : ∀ a b first later, ¬ Collision senders a b first later) {x y : ι × TransferChunk}
    (hx : x ∈ recorded) (hy : y ∈ recorded) : x.1 = y.1 := by
  obtain ⟨sender, opener, hsent, hindex, hid, hopener⟩ := h.opened
  -- who continues the transfer of a first chunk sent that chunk
  have hcontinues {a : ι} {first : TransferChunk} (hfirst : first ∈ sentChunks (senders a))
      (hzero : first.chunkIndex = 0) (hnumber : first.transferId = transferId)
      (hgeometry : session.sameGeometry first = true) {z : ι × TransferChunk}
      (hz : z ∈ recorded) (hlater : z.2.chunkIndex ≠ 0) : a = z.1 := by
    obtain ⟨hsends, -, hzid, hzsame⟩ := h.fits z hz
    by_contra hne
    exact hfree a z.1 first z.2 ⟨hne, hfirst, hsends, hzero, hlater,
      sameTransfer_of_sameGeometry (hzid.trans hnumber.symm) hgeometry hzsame⟩
  by_cases hxzero : x.2.chunkIndex = 0
  · by_cases hyzero : y.2.chunkIndex = 0
    · exact congrArg Prod.fst
        (List.inj_on_of_nodup_map h.apart hx hy (hxzero.trans hyzero.symm))
    · obtain ⟨hsends, -, hxid, hxsame⟩ := h.fits x hx
      exact hcontinues hsends hxzero hxid hxsame hy hyzero
  · by_cases hyzero : y.2.chunkIndex = 0
    · obtain ⟨hsends, -, hyid, hysame⟩ := h.fits y hy
      exact (hcontinues hsends hyzero hyid hysame hx hxzero).symm
    · exact (hcontinues hsent hindex hid hopener hx hxzero).symm.trans
        (hcontinues hsent hindex hid hopener hy hyzero)

end SessionFrom

/-! ## Every run -/

section Run

variable {N ι : Type} {senders : ι → List SendCall} {s s' : MixedReceiver N ι}

/-- Every open session is right about its chunks. -/
structure MixedReceiver.Ok (senders : ι → List SendCall) (s : MixedReceiver N ι) : Prop where
  session : ∀ transferId session, s.transporter.activeStreams transferId = some session →
    SessionFrom senders transferId (s.recorded transferId) session
  closed : ∀ transferId, s.transporter.activeStreams transferId = none →
    s.recorded transferId = []

theorem MixedReceiver.fresh_ok (senders : ι → List SendCall) (factory : FileWriteFactory)
    (files : FileSystem N) : (fresh ι factory files).Ok senders :=
  ⟨fun _ _ hactive => (nomatch hactive), fun _ _ => rfl⟩

/-- What a step shows that changes one session. -/
theorem MixedReceiver.Ok.update (h : s.Ok senders) {after : ZFileTransporter N}
    {transferId : UInt64} {session : StreamReceiveSession} {recorded : List (ι × TransferChunk)}
    (hactive : after.activeStreams =
      Function.update s.transporter.activeStreams transferId (some session))
    (hsession : SessionFrom senders transferId recorded session) :
    (⟨after, Function.update s.recorded transferId recorded⟩ : MixedReceiver N ι).Ok senders := by
  refine ⟨fun other kept hkept => ?_, fun other hnone => ?_⟩
  · show SessionFrom senders other (Function.update s.recorded transferId recorded other) kept
    replace hkept : after.activeStreams other = some kept := hkept
    rw [hactive] at hkept
    by_cases hother : other = transferId
    · subst hother
      rw [Function.update_self] at hkept ⊢
      obtain rfl := Option.some.inj hkept
      exact hsession
    · rw [Function.update_of_ne hother] at hkept ⊢
      exact h.session other kept hkept
  · show Function.update s.recorded transferId recorded other = []
    replace hnone : after.activeStreams other = none := hnone
    rw [hactive] at hnone
    by_cases hother : other = transferId
    · subst hother
      rw [Function.update_self] at hnone
      cases hnone
    · rw [Function.update_of_ne hother] at hnone ⊢
      exact h.closed other hnone

/-- The session that a sent chunk gets is right about its chunks. -/
theorem MixedReceiver.Ok.found (h : s.Ok senders) {delivery : Delivery ι}
    {session : StreamReceiveSession}
    (hsends : delivery.parsed.chunk ∈ sentChunks (senders delivery.sender))
    (hfound : Found s.transporter delivery.parsed.chunk session) :
    SessionFrom senders delivery.parsed.chunk.transferId
      (s.recorded delivery.parsed.chunk.transferId) session := by
  rcases hfound.origin with hactive | ⟨hnone, hname, hfresh⟩
  · exact h.session _ session hactive
  · rw [h.closed _ hnone]
    have hindex : delivery.parsed.chunk.chunkIndex = 0 :=
      of_decide_eq_true (delivery.parsed.placed.hasFileName ▸ hname)
    exact {
      opened := ⟨delivery.sender, delivery.parsed.chunk, hsends, hindex, rfl, hfound.same⟩
      fits := fun x hx => absurd hx List.not_mem_nil
      received := fun i => by
        rw [hfresh]
        simp [List.getElem?_replicate]
      apart := List.nodup_nil }

theorem MixedReceiver.Ok.unmixed (h : s.Ok senders)
    (hfree : ∀ a b first later, ¬ Collision senders a b first later) : s.Unmixed := by
  intro transferId x hx y hy
  cases hactive : s.transporter.activeStreams transferId with
  | none =>
      rw [h.closed transferId hactive] at hx
      exact absurd hx List.not_mem_nil
  | some session => exact (h.session transferId session hactive).sender_eq hfree hx hy

variable [DecidableEq N] (locate : Bytes → N)

theorem MixedReceiver.Ok.step (h : s.Ok senders) {delivery : Delivery ι}
    (hsends : delivery.parsed.chunk ∈ sentChunks (senders delivery.sender))
    (hstep : (machine locate).step s delivery = some s') : s'.Ok senders := by
  obtain ⟨streamed, hstreamed, rfl⟩ := Option.map_eq_some_iff.mp hstep
  rcases streamChunkToFile_cases locate hstreamed with
    ⟨hactive, hcall⟩ | ⟨session, tempFile, hfound, ⟨hactive, hcall⟩ | ⟨hnew, hactive, hcall⟩⟩
  · rw [if_neg hcall]
    exact ⟨fun transferId kept hkept =>
        h.session transferId kept (by rw [← hactive]; exact hkept),
      fun transferId hnone => h.closed transferId (by rw [← hactive]; exact hnone)⟩
  · rw [if_neg hcall]
    have hok := h.update hactive ((h.found hsends hfound).withHandle tempFile)
    rw [Function.update_eq_self] at hok
    exact hok
  · rw [if_pos hcall]
    exact h.update hactive
      (((h.found hsends hfound).withHandle tempFile).record hsends rfl hfound.same hnew)

end Run

/-! ## A run that mixes -/

section Collision

variable {N ι : Type} [DecidableEq N] (locate : Bytes → N) {chunk : TransferChunk}
  {transporter after : ZFileTransporter N} {session : StreamReceiveSession}
  {handle : FileWriteHandle} {inode : Nat} {tempDirectory : Bytes}

/-- A mapping takes a chunk whose index is not set. -/
theorem exists_record (hplaced : chunk.Placed)
    (hensure : transporter.ensureStreamSession locate {} chunk tempDirectory =
      (some session, after))
    (hsame : session.sameGeometry chunk = true) (hhandle : session.tempFile = some handle)
    (hserves : handle.Serves inode session.fileSize) (hmapped : handle.mapped = true)
    (hnew : session.receivedChunks[chunk.chunkIndex.toNat]? = some false) :
    ∃ streamed handle',
      transporter.streamChunkToFile locate {} chunk tempDirectory = some streamed ∧
      handle'.Serves inode session.fileSize ∧ handle'.mapped = true ∧
      streamed.transporter.activeStreams = Function.update after.activeStreams chunk.transferId
        (some ({ session with tempFile := some handle' }.record chunk)) ∧
      transporter.writeCall locate {} chunk tempDirectory = some ⟨chunk, true⟩ := by
  have hend := hplaced.end_le
  rw [← (sameGeometry_iff.mp hsame).1] at hend
  have hwritten := hserves.writeAt_mapped hmapped hend {} after.files
  obtain ⟨hserves', hmapped'⟩ := hserves.after_writeAt {} chunk.start chunk.data after.files
  unfold ZFileTransporter.streamChunkToFile ZFileTransporter.writeCall
  rw [hensure]
  unfold ZFileTransporter.streamToSession StreamReceiveSession.writeCall
  simp only [hhandle, hnew]
  cases hwrite : handle.writeAt {} chunk.start chunk.data after.files with
  | mk written rest =>
      obtain ⟨handle', files⟩ := rest
      rw [hwrite] at hwritten hserves' hmapped'
      obtain rfl : written = true := hwritten
      exact ⟨_, handle', rfl, hserves', hmapped'.trans hmapped, rfl, rfl⟩

/-- A chunk with a name opens a session over a mapping. -/
theorem exists_open (hactive : transporter.activeStreams chunk.transferId = none)
    (hname : chunk.hasFileName = true) (hsize : chunk.fileSize.toNat < 2 ^ 63)
    (hmapped : transporter.fileWriteFactory = .memoryMapped) :
    ∃ session after handle inode,
      transporter.ensureStreamSession locate {} chunk tempDirectory = (some session, after) ∧
        session.tempFile = some handle ∧ handle.Serves inode session.fileSize ∧
        handle.mapped = true ∧
        session.receivedChunks = List.replicate chunk.totalChunks.toNat false := by
  obtain ⟨handle, inode, files, hopen, hserves, -, -, -⟩ :=
    exists_openHandle .memoryMapped (locate (tempPath tempDirectory chunk.transferId)) hsize
      transporter.files
  obtain ⟨-, hfactory⟩ := FileWriteHandle.serves_of_openHandle hopen
  unfold ZFileTransporter.ensureStreamSession
  simp only [hactive, hname, hmapped, hopen, Bool.true_eq_false, if_false]
  exact ⟨_, _, handle, inode, rfl, rfl, hserves, hfactory rfl, rfl⟩

/-- Chunks that collide are recorded in one session. -/
theorem Collision.mixes {ι : Type} {senders : ι → List SendCall} {a b : ι}
    {first later : TransferChunk} (h : Collision senders a b first later)
    (files : FileSystem N) :
    ∃ deliveries s, (∀ delivery ∈ deliveries,
        delivery.parsed.chunk ∈ sentChunks (senders delivery.sender)) ∧
      (MixedReceiver.machine locate).exec (.fresh ι .memoryMapped files) deliveries = some s ∧
      s.recorded first.transferId = [(a, first), (b, later)] := by
  have hparsed {calls : List SendCall} {chunk : TransferChunk}
      (hsends : chunk ∈ sentChunks calls) :
      ∃ payload, parseTransferChunkPayload payload = some chunk := by
    obtain ⟨-, -, call, -, hparse⟩ := exists_call_of_mem_sentChunks hsends
    exact ⟨call.payload, hparse⟩
  set one : ParsedChunk := ⟨first, hparsed h.sends_first⟩ with hone
  set two : ParsedChunk := ⟨later, hparsed h.sends_later⟩ with htwo
  have hplaced : first.Placed := one.placed
  have hplaced' : later.Placed := two.placed
  -- the first chunk opens the session and is recorded
  set start : MixedReceiver N ι := .fresh ι .memoryMapped files with hstart
  have hname : first.hasFileName = true := by
    rw [hplaced.hasFileName, h.first_index]
    rfl
  obtain ⟨session, opened, handle, inode, hensure, hhandle, hserves, hmapped, hreceived⟩ :=
    exists_open locate (rfl : start.transporter.activeStreams first.transferId = none) hname
      (fileSize_lt_of_mem_sentChunks h.sends_first) rfl
  obtain ⟨-, hfound⟩ := ensureStreamSession_found locate hensure
  have hnew : session.receivedChunks[first.chunkIndex.toNat]? = some false := by
    rw [hreceived, List.getElem?_replicate,
      if_pos (UInt32.lt_iff_toNat_lt.mp hplaced.index_lt)]
  obtain ⟨streamed, handle', hstreamed, hserves', hmapped', hactive, hcall⟩ :=
    exists_record locate hplaced hensure hfound.same hhandle hserves hmapped hnew
  set written := { session with tempFile := some handle' } with hsession
  -- the other one finds it open
  have hopen : streamed.transporter.activeStreams later.transferId =
      some (written.record first) := by
    rw [hactive, h.same.transferId, Function.update_self]
  have hsame : (written.record first).sameGeometry later = true := by
    obtain ⟨hfile, hchunk, htotal⟩ := sameGeometry_iff.mp hfound.same
    rw [sameGeometry_record, sameGeometry_iff]
    exact ⟨hfile.trans h.same.fileSize.symm, hchunk.trans h.same.chunkSize.symm,
      htotal.trans h.same.totalChunks.symm⟩
  have hensure' : streamed.transporter.ensureStreamSession locate {} later [] =
      (some (written.record first), streamed.transporter) := by
    unfold ZFileTransporter.ensureStreamSession
    rw [hopen]
    exact if_pos hsame
  have hnew' : (written.record first).receivedChunks[later.chunkIndex.toNat]? = some false := by
    have hne : first.chunkIndex.toNat ≠ later.chunkIndex.toNat := fun heq =>
      h.later_index ((UInt32.toNat_inj.mp heq).symm.trans h.first_index)
    have hlt : later.chunkIndex.toNat < first.totalChunks.toNat := by
      rw [← h.same.totalChunks]
      exact UInt32.lt_iff_toNat_lt.mp hplaced'.index_lt
    rw [StreamReceiveSession.receivedChunks_record, List.getElem?_set_ne hne, hreceived,
      List.getElem?_replicate, if_pos hlt]
  obtain ⟨streamed', -, hstreamed', -, -, -, hcall'⟩ :=
    exists_record locate hplaced' hensure' hsame (by simp [hsession])
      (by simpa using hserves') hmapped' hnew'
  refine ⟨[⟨a, {}, one, []⟩, ⟨b, {}, two, []⟩],
    ⟨streamed'.transporter, Function.update (Function.update start.recorded first.transferId
      [(a, first)]) later.transferId [(a, first), (b, later)]⟩, ?_, ?_, ?_⟩
  · intro delivery hdelivery
    rcases List.mem_cons.mp hdelivery with rfl | hdelivery
    · exact h.sends_first
    · rw [List.mem_singleton.mp hdelivery]
      exact h.sends_later
  · refine (Machine.exec_cons_eq_some _).mpr
      ⟨⟨streamed.transporter, Function.update start.recorded first.transferId [(a, first)]⟩,
        ?_, ?_⟩
    · show (start.transporter.streamChunkToFile locate {} first []).map _ = _
      rw [hstreamed, Option.map_some, if_pos hcall]
      rfl
    · refine (Machine.exec_cons_eq_some _).mpr ⟨_, ?_, rfl⟩
      show (streamed.transporter.streamChunkToFile locate {} later []).map _ = _
      rw [hstreamed', Option.map_some, if_pos hcall']
      have hopened : Function.update start.recorded first.transferId [(a, first)]
          later.transferId = [(a, first)] := by
        rw [h.same.transferId, Function.update_self]
      exact congrArg (fun recorded => some (⟨streamed'.transporter,
        Function.update (Function.update start.recorded first.transferId [(a, first)])
          later.transferId (recorded ++ [(b, later)])⟩ : MixedReceiver N ι)) hopened
  · show Function.update _ later.transferId _ first.transferId = _
    rw [h.same.transferId, Function.update_self]

end Collision

/-- For any processes, each numbering its transfers from 1, no session records chunks of two of
them in any run of deliveries, exactly if no chunk that begins a transfer of one of them agrees
in number, file size and chunk size with a later chunk of another. -/
theorem unmixed_iff {N ι : Type} [DecidableEq N] (locate : Bytes → N) (files : FileSystem N)
    (senders : ι → List SendCall) :
    (∀ factory deliveries s, (∀ delivery ∈ deliveries,
        delivery.parsed.chunk ∈ sentChunks (senders delivery.sender)) →
      (MixedReceiver.machine locate).exec (.fresh ι factory files) deliveries = some s →
        s.Unmixed) ↔
      ∀ a b first later, ¬ Collision senders a b first later := by
  constructor
  · intro hunmixed a b first later h
    obtain ⟨deliveries, s, hsends, hexec, hrecorded⟩ := h.mixes locate files
    refine h.ne (hunmixed .memoryMapped deliveries s hsends hexec first.transferId
      (a, first) ?_ (b, later) ?_)
    · rw [hrecorded]
      exact List.mem_cons_self
    · rw [hrecorded]
      exact List.mem_cons_of_mem _ List.mem_cons_self
  · intro hfree factory deliveries s hsends hexec
    have hok : s.Ok senders := by
      refine Machine.invariant_of_along (fun s delivery s' h hdelivery hstep => ?_)
        (MixedReceiver.fresh_ok senders factory files)
        (Machine.along_of_forall hsends _) hexec
      exact MixedReceiver.Ok.step locate h hdelivery hstep
    exact hok.unmixed hfree

/-- Two processes that each send a file of two bytes in chunks of one byte. -/
def twoByteSenders (first : Bool) : List SendCall :=
  [{ encrypted := false
     destination := ZPeerId.toAll
     tuning := { chunkSize := 1 }
     turns := fun _ => ⟨[⟨id, 0⟩], id, 0⟩
     path := [0x61]
     content := some (if first then [1, 2] else [3, 4])
     layer := ⟨.connected, ZPacketQueue.init 0⟩ }]

/-- Both number their file 1: the second chunk of the one goes into the file of the other. -/
theorem equal_files_mixed :
    ∃ deliveries s, (∀ delivery ∈ deliveries,
        delivery.parsed.chunk ∈ sentChunks (twoByteSenders delivery.sender)) ∧
      (MixedReceiver.machine id).exec (.fresh Bool .memoryMapped ⟨fun _ => none, fun _ => [], 0⟩)
        deliveries = some s ∧
      (s.recorded 1).map (fun x => (x.1, x.2.data)) = [(true, [1]), (false, [4])] ∧
      ¬ s.Unmixed := by
  obtain ⟨first, hfirst, later, hlater, hzero, hone, hdata, hdata', hid, hid', hfile, hchunk,
      htotal⟩ :
      ∃ first ∈ sentChunks (twoByteSenders true), ∃ later ∈ sentChunks (twoByteSenders false),
        first.chunkIndex = 0 ∧ later.chunkIndex ≠ 0 ∧ first.data = [1] ∧ later.data = [4] ∧
          first.transferId = 1 ∧ later.transferId = 1 ∧ later.fileSize = first.fileSize ∧
          later.chunkSize = first.chunkSize ∧ later.totalChunks = first.totalChunks := by
    decide +kernel
  have hcollision : Collision twoByteSenders true false first later :=
    ⟨Bool.true_eq_false.mp, hfirst, hlater, hzero, hone,
      hid'.trans hid.symm, hfile, hchunk, htotal⟩
  obtain ⟨deliveries, s, hsent, hexec, hrecorded⟩ :=
    hcollision.mixes id ⟨fun _ => none, fun _ => [], 0⟩
  rw [hid] at hrecorded
  refine ⟨deliveries, s, hsent, hexec, by rw [hrecorded, ← hdata, ← hdata']; rfl, fun h => ?_⟩
  have hmixed := h 1 (true, first) (by rw [hrecorded]; exact List.mem_cons_self)
    (false, later) (by rw [hrecorded]; exact List.mem_cons_of_mem _ List.mem_cons_self)
  cases hmixed

end ZetaNet
