import ZetaNet.File.Acceptance
import ZetaNet.Transport.Polled

/-!
# A file over the network

`SendFile` pushes the chunks, the network loses, repeats and reorders datagrams, and the
application at the other end streams the chunks in the order in which it polls them. Reliable
delivery brings each chunk at most once, and what is then decided by the order is whether the
file arrives.
-/

namespace ZetaNet

/-! ## The receiver -/

section Receiver

variable {N : Type} [DecidableEq N] (locate : Bytes → N) {content : Bytes} {transfer : Transfer}
  {transporter : ZFileTransporter N}

theorem toFinset_eq_range_iff_length {n : Nat} {indices : List Nat} (hnodup : indices.Nodup)
    (hlt : ∀ i ∈ indices, i < n) :
    indices.toFinset = Finset.range n ↔ indices.length = n := by
  rw [← List.toFinset_card_of_nodup hnodup]
  constructor
  · intro hall
    rw [hall, Finset.card_range]
  · intro hcard
    refine Finset.eq_of_subset_of_card_le (fun i hi => ?_) (by rw [Finset.card_range, hcard])
    exact Finset.mem_range.mpr (hlt i (List.mem_toFinset.mp hi))

/-- A session is finalized exactly if it holds every chunk. -/
theorem SessionReceiving.finalize_iff {path : Bytes} {held : Finset ℕ}
    (h : SessionReceiving locate content transfer path held transporter)
    (hsend : transfer.Sendable content) {outputPath : Bytes}
    (houtput : locate outputPath ≠ locate path) :
    let finished := transporter.finalizeStreamedFile locate {} transfer.transferId outputPath
    (finished.1 = true ↔ held = Finset.range transfer.totalChunks.toNat) ∧
      (finished.1 = true → finished.2.files.read (locate outputPath) = some content) := by
  by_cases hall : held = Finset.range transfer.totalChunks.toNat
  · rw [hall] at h
    obtain ⟨transporter', hfinalize, hread⟩ := h.finalizeStreamedFile hsend houtput
    rw [hfinalize]
    exact ⟨iff_of_true rfl hall, fun _ => hread⟩
  · rw [h.finalize_incomplete hsend.totalChunks_pos hall]
    exact ⟨iff_of_false Bool.false_ne_true hall, fun h => absurd h Bool.false_ne_true⟩

/-- Nothing is finalized without a session. -/
theorem finalize_no_session (hfresh : transporter.activeStreams transfer.transferId = none)
    (faults : Faults) (outputPath : Bytes) :
    (transporter.finalizeStreamedFile locate faults transfer.transferId outputPath).1 = false := by
  unfold ZFileTransporter.finalizeStreamedFile
  rw [hfresh]

/-- Chunks that come once each: the file is there in the end exactly if they all came and
chunk 0 was the first. -/
theorem streamAll_distinct (hsend : transfer.Sendable content)
    (hsize : transfer.chunkSize.toNat < 2 ^ 31)
    (hfresh : transporter.activeStreams transfer.transferId = none)
    {tempDirectory outputPath : Bytes}
    (houtput : locate outputPath ≠ locate (tempPath tempDirectory transfer.transferId))
    {indices : List Nat} (hnodup : indices.Nodup)
    (hlt : ∀ i ∈ indices, i < transfer.totalChunks.toNat) :
    ∃ results transporter',
      streamAll locate (deliver transfer content (indices.map (·, tempDirectory))) transporter =
          some (results, transporter') ∧
        let finished :=
          transporter'.finalizeStreamedFile locate {} transfer.transferId outputPath
        (finished.1 = true ↔
          indices.length = transfer.totalChunks.toNat ∧ indices.head? = some 0) ∧
        (finished.1 = true → finished.2.files.read (locate outputPath) = some content) := by
  have hpos := hsend.totalChunks_pos
  by_cases hzero : 0 ∈ indices
  · obtain ⟨front, back, rfl⟩ := List.append_of_mem hzero
    obtain ⟨hfrontNodup, hbackNodup, hdisjoint⟩ := List.nodup_append.mp hnodup
    -- the chunks in front of chunk 0 are refused
    have hfront : ∀ delivery ∈ front.map (·, tempDirectory),
        delivery.1 < transfer.totalChunks.toNat ∧ delivery.1 ≠ 0 := by
      intro delivery hdelivery
      obtain ⟨i, hi, rfl⟩ := List.mem_map.mp hdelivery
      exact ⟨hlt i (List.mem_append_left _ hi), hdisjoint i hi 0 List.mem_cons_self⟩
    have hback : ∀ delivery ∈ back.map (·, tempDirectory),
        delivery.1 < transfer.totalChunks.toNat := by
      intro delivery hdelivery
      obtain ⟨i, hi, rfl⟩ := List.mem_map.mp hdelivery
      exact hlt i (List.mem_append_right _ (List.mem_cons_of_mem _ hi))
    have hrefused := streamAll_refused locate content hfresh hfront
    obtain ⟨results, transporter', hrun, -, -, hfinal⟩ :=
      streamAll_first locate hsend hsize hfresh tempDirectory hback
    have hheld : ((((0 : Nat), tempDirectory) :: back.map (·, tempDirectory)).map
        Prod.fst).toFinset = (0 :: back).toFinset := by
      rw [List.map_cons, List.map_map]
      simp [Function.comp_def]
    rw [hheld] at hfinal
    have hall : streamAll locate (deliver transfer content
        ((front ++ 0 :: back).map (·, tempDirectory))) transporter =
          some (List.replicate (front.map (·, tempDirectory)).length (false, false) ++ results,
            transporter') := by
      rw [deliver] at hrefused hrun
      rw [List.map_append, deliver, List.map_append, streamAll_append, hrefused,
        Option.bind_some]
      dsimp only
      rw [List.map_cons, hrun, Option.map_some]
    obtain ⟨hiff, hread⟩ := hfinal.finalize_iff locate hsend houtput
    refine ⟨_, transporter', hall, hiff.trans ?_, hread⟩
    cases front with
    | nil =>
        rw [List.nil_append] at hlt hnodup ⊢
        rw [toFinset_eq_range_iff_length hnodup hlt]
        exact (and_iff_left rfl).symm
    | cons i front =>
        have hne : i ≠ 0 := hdisjoint i List.mem_cons_self 0 List.mem_cons_self
        refine iff_of_false (fun hall => ?_) fun h => hne (Option.some.inj h.2)
        have hi : i ∈ (0 :: back).toFinset := by
          rw [hall]
          exact Finset.mem_range.mpr (hlt i List.mem_cons_self)
        exact hdisjoint i List.mem_cons_self i (List.mem_toFinset.mp hi) rfl
  · -- no chunk 0, no session
    have hnamed : ∀ delivery ∈ indices.map (·, tempDirectory),
        delivery.1 < transfer.totalChunks.toNat ∧ delivery.1 ≠ 0 := by
      intro delivery hdelivery
      obtain ⟨i, hi, rfl⟩ := List.mem_map.mp hdelivery
      exact ⟨hlt i hi, fun h => hzero (h ▸ hi)⟩
    have hrefused := streamAll_refused locate content hfresh hnamed
    have hnone := finalize_no_session locate hfresh {} outputPath
    refine ⟨_, transporter, hrefused, iff_of_false ?_ ?_, fun h => ?_⟩
    · rw [hnone]
      exact Bool.false_ne_true
    · exact fun h => hzero (List.mem_of_mem_head? h.2)
    · rw [hnone] at h
      exact absurd h Bool.false_ne_true

end Receiver

/-! ## What arrives -/

section Arrivals

variable {K H : Type} [DecidableEq H] {lz4 : Lz4} {gcm : AesGcm K} {serverOf : H → H}
  {s : Network K H} {a : DeliveryState H} {source target : H} {encrypted : Bool}
  {destination : UInt32} {transfer : Transfer} {content : Bytes}

/-- The file transfer packets of a log. -/
def fileTransfers (log : List OutgoingPacket) : List OutgoingPacket :=
  log.filter (·.type = PacketType.fileTransfer)

/-- The chunks of one file are all the file transfer packets that were pushed. -/
structure OnlyTransfer (s : Network K H) (source : H) (encrypted : Bool) (destination : UInt32)
    (transfer : Transfer) (content : Bytes) : Prop where
  chunks : fileTransfers (s.pushed source) = (List.range transfer.totalChunks.toNat).map fun i =>
    chunkPacket encrypted destination (transfer.payload content i)
  others : ∀ h, h ≠ source → fileTransfers (s.pushed h) = []

theorem heapData_chunkPacket (hsend : transfer.Sendable content)
    (hsize : transfer.chunkSize.toNat < 2 ^ 31) {i : Nat} (hi : i < transfer.totalChunks.toNat) :
    (chunkPacket encrypted destination (transfer.payload content i)).heapData =
      transfer.payload content i := by
  refine OutgoingPacket.heapData_ofData (show (transfer.payload content i).length < 2 ^ 32 from ?_)
  have hblock := Blocks.length_block transfer.chunkSize.toNat content i
  have hname := hsend.fileName_le
  rw [length_payload content hi, hblock, kFixedHeaderSize]
  split_ifs <;> omega

/-- A file transfer packet that arrived is a chunk that was pushed. -/
theorem Network.Matches.chunk_of_enqueued (hm : Network.Matches lz4 gcm serverOf s a)
    (honly : OnlyTransfer s source encrypted destination transfer content)
    (hsend : transfer.Sendable content) (hsize : transfer.chunkSize.toNat < 2 ^ 31)
    {e : Enqueued H} (he : e ∈ s.enqueued target)
    (hkind : e.pack.type = PacketType.fileTransfer) :
    ∃ i n, i < transfer.totalChunks.toNat ∧
      parseTransferChunkPayload e.pack.data = some (transfer.chunk content i) ∧
      (s.pushed source)[n]? =
        some (chunkPacket encrypted destination (transfer.payload content i)) ∧
      e.delivered = some (source, n) := by
  obtain ⟨n, pushed, hserial, hpushed, htype, hdata, hflag⟩ := hm.enqueued target e he
  have hmem : pushed ∈ fileTransfers (s.pushed e.source) :=
    List.mem_filter.mpr ⟨List.mem_of_getElem? hpushed, by simpa using htype.symm.trans hkind⟩
  have hsource : e.source = source := by
    by_contra hne
    rw [honly.others e.source hne] at hmem
    cases hmem
  rw [hsource, honly.chunks] at hmem
  obtain ⟨i, hi, rfl⟩ := List.mem_map.mp hmem
  have hi := List.mem_range.mp hi
  have hreliable : e.pack.flags.reliable = true := hflag
  refine ⟨i, n, hi, ?_, hsource ▸ hpushed, ?_⟩
  · rw [hdata, heapData_chunkPacket hsend hsize hi, hsend.parse_payload hi]
  · rw [Enqueued.delivered, if_pos hreliable, hserial, hsource]
    rfl

theorem parseTransferChunkPacket_eq_some {packet : IncomingPacket} {chunk : TransferChunk}
    (h : parseTransferChunkPacket packet = some chunk) :
    packet.type = PacketType.fileTransfer ∧
      parseTransferChunkPayload packet.data = some chunk := by
  unfold parseTransferChunkPacket at h
  split at h
  · cases h
  · rename_i hkind
    exact ⟨not_not.mp (not_or.mp hkind).1, h⟩

theorem eq_of_chunk_eq {i j : Nat} (hi : i < transfer.totalChunks.toNat)
    (hj : j < transfer.totalChunks.toNat)
    (h : transfer.chunk content i = transfer.chunk content j) : i = j := by
  rw [← toNat_index hi, ← toNat_index hj]
  exact congrArg (fun chunk => chunk.chunkIndex.toNat) h

omit [DecidableEq H] in
/-- The same chunk packet is pushed once only. -/
theorem OnlyTransfer.push_unique (honly : OnlyTransfer s source encrypted destination transfer
      content) (hsend : transfer.Sendable content) (hsize : transfer.chunkSize.toNat < 2 ^ 31)
    {i m n : Nat} (hm : (s.pushed source)[m]? =
      some (chunkPacket encrypted destination (transfer.payload content i)))
    (hn : (s.pushed source)[n]? =
      some (chunkPacket encrypted destination (transfer.payload content i))) : m = n := by
  have hnodup : (fileTransfers (s.pushed source)).Nodup := by
    rw [honly.chunks]
    refine (List.nodup_map_iff_inj_on List.nodup_range).mpr fun i hi j hj heq => ?_
    have hi := List.mem_range.mp hi
    have hj := List.mem_range.mp hj
    have hpayload := congrArg OutgoingPacket.heapData heq
    rw [heapData_chunkPacket hsend hsize hi, heapData_chunkPacket hsend hsize hj] at hpayload
    have hchunk := congrArg parseTransferChunkPayload hpayload
    rw [hsend.parse_payload hi, hsend.parse_payload hj] at hchunk
    exact eq_of_chunk_eq hi hj (Option.some.inj hchunk)
  rw [fileTransfers, List.Nodup, List.pairwise_filter] at hnodup
  have hapart {m n : Nat} (hlt : m < n)
      (hm : (s.pushed source)[m]? =
        some (chunkPacket encrypted destination (transfer.payload content i)))
      (hn : (s.pushed source)[n]? =
        some (chunkPacket encrypted destination (transfer.payload content i))) : False := by
    obtain ⟨hmlt, hm⟩ := List.getElem?_eq_some_iff.mp hm
    obtain ⟨hnlt, hn⟩ := List.getElem?_eq_some_iff.mp hn
    refine List.pairwise_iff_getElem.mp hnodup m n hmlt hnlt hlt ?_ ?_ (hm.trans hn.symm)
    · rw [hm]
      exact decide_eq_true (rfl : PacketType.fileTransfer = _)
    · rw [hn]
      exact decide_eq_true (rfl : PacketType.fileTransfer = _)
  rcases Nat.lt_trichotomy m n with hlt | heq | hlt
  · exact (hapart hlt hm hn).elim
  · exact heq
  · exact (hapart hlt hn hm).elim

/-- Each chunk arrives at most once. -/
theorem Network.Matches.chunks_nodup (hm : Network.Matches lz4 gcm serverOf s a)
    (honly : OnlyTransfer s source encrypted destination transfer content)
    (hsend : transfer.Sendable content) (hsize : transfer.chunkSize.toNat < 2 ^ 31)
    (target : H) :
    (((s.enqueued target).map Enqueued.pack).filterMap parseTransferChunkPacket).Nodup := by
  have hdelivered := hm.safe.delivered_nodup target
  rw [hm.delivered target, List.Nodup, List.pairwise_filterMap] at hdelivered
  rw [List.filterMap_map, List.Nodup, List.pairwise_filterMap]
  refine hdelivered.imp_of_mem fun he he' hapart chunk hparse chunk' hparse' heq => ?_
  obtain ⟨hkind, hpayload⟩ := parseTransferChunkPacket_eq_some hparse
  obtain ⟨hkind', hpayload'⟩ := parseTransferChunkPacket_eq_some hparse'
  obtain ⟨i, n, hi, hchunk, hpushed, hn⟩ :=
    hm.chunk_of_enqueued honly hsend hsize he hkind
  obtain ⟨j, m, hj, hchunk', hpushed', hm'⟩ :=
    hm.chunk_of_enqueued honly hsend hsize he' hkind'
  obtain rfl := Option.some.inj (hchunk.symm.trans hpayload)
  obtain rfl := Option.some.inj (hchunk'.symm.trans hpayload')
  obtain rfl := eq_of_chunk_eq hi hj heq
  obtain rfl := honly.push_unique hsend hsize hpushed hpushed'
  exact hapart _ hn _ hm' rfl

/-- The chunks that the application polls are those of the file, each at most once. -/
theorem Network.Matches.polled_chunks (hm : Network.Matches lz4 gcm serverOf s a)
    (honly : OnlyTransfer s source encrypted destination transfer content)
    (hsend : transfer.Sendable content) (hsize : transfer.chunkSize.toNat < 2 ^ 31)
    {now : H → Nat} {events : List (NetworkEvent K H)}
    (hexec : (Network.machine lz4 gcm serverOf).exec (Network.start now) events = some s)
    (target : H) :
    let polled := Network.polled lz4 gcm serverOf target (Network.start now) events
    (∀ pack ∈ polled, pack.type = PacketType.fileTransfer →
      (parseTransferChunkPacket pack).isSome) ∧
      ∃ indices : List Nat, indices.Nodup ∧ (∀ i ∈ indices, i < transfer.totalChunks.toNat) ∧
        polled.filterMap parseTransferChunkPacket = indices.map (transfer.chunk content) := by
  intro polled
  obtain ⟨hperm, hchannel⟩ := Network.polled_perm hexec target
  have hpolled (pack : IncomingPacket) (hpack : pack ∈ polled) :
      ∃ e ∈ s.enqueued target, e.pack = pack :=
    List.mem_map.mp (hperm.subset (List.mem_append_left _ hpack))
  have hchunks : (polled.filterMap parseTransferChunkPacket).Nodup := by
    have hall := (hperm.filterMap parseTransferChunkPacket).nodup_iff.mpr
      (hm.chunks_nodup honly hsend hsize target)
    rw [List.filterMap_append] at hall
    exact (List.nodup_append.mp hall).1
  have hindex (chunk : TransferChunk) (hchunk : chunk ∈ polled.filterMap parseTransferChunkPacket) :
      ∃ i < transfer.totalChunks.toNat, chunk = transfer.chunk content i := by
    obtain ⟨pack, hpack, hparse⟩ := List.mem_filterMap.mp hchunk
    obtain ⟨e, he, rfl⟩ := hpolled pack hpack
    obtain ⟨hkind, hpayload⟩ := parseTransferChunkPacket_eq_some hparse
    obtain ⟨i, -, hi, hparsed, -⟩ := hm.chunk_of_enqueued honly hsend hsize he hkind
    exact ⟨i, hi, Option.some.inj (hpayload.symm.trans hparsed)⟩
  refine ⟨fun pack hpack hkind => ?_,
    (polled.filterMap parseTransferChunkPacket).map fun chunk => chunk.chunkIndex.toNat, ?_,
    ?_, ?_⟩
  · obtain ⟨e, he, rfl⟩ := hpolled pack hpack
    obtain ⟨i, -, -, hparsed, -⟩ := hm.chunk_of_enqueued honly hsend hsize he hkind
    have hcontrol : e.pack.channel = .control := by
      rw [hchannel e he, hkind]
      rfl
    rw [parseTransferChunkPacket, if_neg (by rw [hkind, hcontrol]; decide), hparsed]
    rfl
  · refine (List.nodup_map_iff_inj_on hchunks).mpr fun chunk hchunk chunk' hchunk' heq => ?_
    obtain ⟨i, hi, rfl⟩ := hindex chunk hchunk
    obtain ⟨j, hj, rfl⟩ := hindex chunk' hchunk'
    have hsame : i = j := (toNat_index hi).symm.trans (heq.trans (toNat_index hj))
    rw [hsame]
  · intro index hmem
    obtain ⟨chunk, hchunk, rfl⟩ := List.mem_map.mp hmem
    obtain ⟨i, hi, rfl⟩ := hindex chunk hchunk
    exact (toNat_index hi).trans_lt hi
  · rw [List.map_map]
    refine (List.map_id _).symm.trans (List.map_congr_left fun chunk hchunk => ?_)
    obtain ⟨i, hi, rfl⟩ := hindex chunk hchunk
    exact congrArg (transfer.chunk content) (toNat_index hi).symm

end Arrivals

/-! ## From `SendFile` to the file -/

/-- A call of `SendFile` that returned `true`, any run of the network in which its packets are
the only file transfer that is pushed and no reliable packet is a broadcast, and the application
of any host, which streams the chunks in the order in which it polls them: no polled chunk fails
to parse, and `FinalizeStreamedFile` succeeds exactly if every chunk was polled and chunk 0
before all others; the output is then the content of the file. -/
theorem file_over_network {N K H : Type} [DecidableEq N] [DecidableEq H] {lz4 : Lz4}
    {gcm : AesGcm K} {serverOf : H → H} (hlz4 : lz4.RoundTrip) (sized : gcm.Sized)
    (authentic : gcm.Authentic) {now : H → Nat} {events : List (NetworkEvent K H)}
    {s : Network K H} (hpush : ∀ e ∈ events, e.pushesUnicast)
    (hexec : (Network.machine lz4 gcm serverOf).exec (Network.start now) events = some s)
    (hfew : s.wire.length < 2 ^ 32) {encrypted : Bool} {destination : UInt32}
    {tuning : TransferTuning} {turns : Nat → SendTurn} {path content : Bytes} {counter : UInt64}
    {layer : ZAsyncTransportLayer} {run : SendRun} (hsize : tuning.chunkSize.toNat < 2 ^ 31)
    (hid : counter ≠ 0) (hname : containsPathTraversal (baseName path) = false)
    (hrun : run = (sendFile encrypted destination tuning turns path
      (some (SourceFile.ofContent content)) counter layer).1)
    (hsent : run.result = some true) {source : H}
    (hchunks : fileTransfers (s.pushed source) = run.calls.map (·.queued.packet))
    (hothers : ∀ h, h ≠ source → fileTransfers (s.pushed h) = []) (target : H)
    (locate : Bytes → N) {transporter : ZFileTransporter N}
    (hfresh : transporter.activeStreams counter = none) {tempDirectory outputPath : Bytes}
    (houtput : locate outputPath ≠ locate (tempPath tempDirectory counter)) :
    let polled := Network.polled lz4 gcm serverOf target (Network.start now) events
    let chunks := polled.filterMap parseTransferChunkPacket
    (∀ pack ∈ polled, pack.type = PacketType.fileTransfer →
      (parseTransferChunkPacket pack).isSome) ∧
      ∃ results transporter',
        streamAll locate (chunks.map (·, tempDirectory)) transporter =
            some (results, transporter') ∧
          let finished := transporter'.finalizeStreamedFile locate {} counter outputPath
          (finished.1 = true ↔ chunks.length = run.calls.length ∧
            chunks.head?.map TransferChunk.chunkIndex = some 0) ∧
          (finished.1 = true → finished.2.files.read (locate outputPath) = some content) := by
  intro polled chunks
  obtain ⟨-, a, hm⟩ := Network.exists_matches_of_pushesUnicast hlz4 sized authentic hpush hexec
    hfew
  obtain ⟨transfer, hprepared, hindices, hcalls⟩ := sent_calls hrun hsent
  have hsend := hprepared.sendable hid hname
  obtain rfl : transfer.transferId = counter := hprepared.transferId
  have hchunkSize : transfer.chunkSize.toNat < 2 ^ 31 := by
    rw [← UInt32.toNat_toUInt64, hprepared.chunkSize]
    exact hsize
  have honly : OnlyTransfer s source encrypted destination transfer content := by
    refine ⟨?_, hothers⟩
    rw [hchunks, ← hindices, List.map_map]
    refine List.map_congr_left fun call hcall => ?_
    obtain ⟨hreported, hpayload⟩ := hcalls call hcall
    rw [hreported.queued, hpayload]
    rfl
  have hcount : run.calls.length = transfer.totalChunks.toNat := by
    rw [← List.length_map EnqueueCall.chunkIndex, hindices, List.length_range]
  obtain ⟨hparse, indices, hnodup, hlt, hpolled⟩ :=
    hm.polled_chunks honly hsend hchunkSize hexec target
  obtain ⟨results, transporter', hstream, hiff, hread⟩ :=
    streamAll_distinct locate hsend hchunkSize hfresh houtput hnodup hlt
  have hdeliver : chunks.map (·, tempDirectory) =
      deliver transfer content (indices.map (·, tempDirectory)) := by
    rw [show chunks = indices.map (transfer.chunk content) from hpolled, deliver, List.map_map,
      List.map_map]
    rfl
  rw [← hdeliver] at hstream
  refine ⟨hparse, results, transporter', hstream, hiff.trans ?_, hread⟩
  rw [show chunks = indices.map (transfer.chunk content) from hpolled, List.length_map, hcount]
  refine and_congr_right fun _ => ?_
  cases indices with
  | nil => exact iff_of_false (by simp) (by simp)
  | cons i indices =>
      have hi := hlt i List.mem_cons_self
      show some i = some 0 ↔ some (UInt32.ofNat i) = some 0
      rw [Option.some_inj, Option.some_inj, index_eq_zero hi]

/-- The call for a file of one byte. -/
def sendToServer : SendRun :=
  (sendFile false ZPeerId.toServer {} (fun _ => ⟨[⟨id, 0⟩], id, 0⟩) [0x61]
    (some (SourceFile.ofContent [0x7A])) 1 ⟨.connected, ZPacketQueue.init 0⟩).1

/-- Its packet goes to the server `true`, whose application polls it. -/
def sendToServerEvents : List (NetworkEvent UInt8 Bool) :=
  (sendToServer.calls.map fun call => .push false 0 call.queued.packet) ++
    [.processChannel false .control, .runTask false 0 (Network.steadyEnv 10), .deliver 0,
      .deliver 0, .pop true .control]

/-- The file arrives, though the datagram came twice. -/
theorem file_over_network_one_byte : ∃ results transporter',
    let chunks := (Network.polled literalLz4 maskGcm (fun _ => true) true
      (Network.start fun _ => 0) sendToServerEvents).filterMap parseTransferChunkPacket
    streamAll id (chunks.map (·, [])) (ZFileTransporter.fresh .memoryMapped) =
        some (results, transporter') ∧
      (transporter'.finalizeStreamedFile id {} 1 [0x62]).2.files.read [0x62] = some [0x7A] := by
  have hsent : sendToServer.result = some true := by decide +kernel
  have heval : ((Network.machine literalLz4 maskGcm fun _ : Bool => true).exec
      (Network.start fun _ => 0) sendToServerEvents).map (fun s =>
        decide (fileTransfers (s.pushed false) = sendToServer.calls.map (·.queued.packet) ∧
          fileTransfers (s.pushed true) = [] ∧ s.wire.length < 2 ^ 32)) = some true := by
    decide +kernel
  have hpolled : ((Network.polled literalLz4 maskGcm (fun _ => true) true
      (Network.start fun _ => 0) sendToServerEvents).filterMap parseTransferChunkPacket).map
        TransferChunk.chunkIndex = [0] ∧ sendToServer.calls.length = 1 := by
    decide +kernel
  have hpush : ∀ e ∈ sendToServerEvents, e.pushesUnicast := by
    intro e he
    rcases List.mem_append.mp he with he | he
    · obtain ⟨call, hcall, rfl⟩ := List.mem_map.mp he
      obtain ⟨transfer, -, -, hcalls⟩ := sent_calls (rfl : sendToServer = _) hsent
      rw [NetworkEvent.pushesUnicast, (hcalls call hcall).1.queued]
      exact ⟨show PacketType.fileTransfer ≠ PacketType.acknowledgement by decide,
        fun _ => show ZPeerId.toServer ≠ ZPeerId.toAll by decide⟩
    · simp only [List.mem_cons, List.not_mem_nil, or_false] at he
      rcases he with rfl | rfl | rfl | rfl | rfl <;> trivial
  obtain ⟨s, hexec, hfacts⟩ := Option.map_eq_some_iff.mp heval
  obtain ⟨hchunks, hother, hfew⟩ := of_decide_eq_true hfacts
  have hothers : ∀ h, h ≠ false → fileTransfers (s.pushed h) = [] := by
    intro h hne
    rwa [Bool.eq_true_of_not_eq_false hne]
  have hfresh : (ZFileTransporter.fresh .memoryMapped).activeStreams 1 = none := rfl
  have houtput : (id [0x62] : Bytes) ≠ id (tempPath [] 1) := by decide
  obtain ⟨-, results, transporter', hstream, hiff, hread⟩ := file_over_network
    literalLz4_roundTrip maskGcm_sized maskGcm_authentic hpush hexec hfew (by decide) (by decide)
    (by decide) (rfl : sendToServer = _) hsent hchunks hothers true id hfresh houtput
  refine ⟨results, transporter', hstream, hread (hiff.mpr ⟨?_, ?_⟩)⟩
  · rw [hpolled.2, ← List.length_map TransferChunk.chunkIndex, hpolled.1]
    rfl
  · rw [← List.head?_map, hpolled.1]
    rfl

end ZetaNet
