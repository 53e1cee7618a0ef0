import ZetaNet.File.Send

/-!
# What a reported enqueue is worth

`EnqueuePacket` returns `true` whenever the transport is connected, but `Push` drops a packet for
which the rate limiter has no room. The packets that a call really put on a queue are those the
limiter admitted, and the same goes for the chunks of a file.
-/

namespace ZetaNet

/-- What is left when a front part is taken away. -/
theorem diff_front {α : Type*} [DecidableEq α] (front back : List α) :
    (front ++ back).diff front = back := by
  induction front with
  | nil => rfl
  | cons item front ih => rw [List.cons_append, List.diff_cons, List.erase_cons_head, ih]

namespace ZAsyncTransportLayer

/-- What a step put on the outgoing queue of a channel. -/
def putOn (channel : PacketChannelType) (before after : ZAsyncTransportLayer) : List Queued :=
  (after.packetQueue.channelOutgoingQueues channel).toList.diff
    (before.packetQueue.channelOutgoingQueues channel).toList

/-- The rate limiter has room for the packet at `now`. -/
def HasRoom (now : Nat) (queued : Queued) (layer : ZAsyncTransportLayer) : Prop :=
  (layer.packetQueue.rateLimiter.refresh now).HasRoom queued.packet.heapDataSize.toUInt64

/-- The outgoing queue of the packet's channel after a call that returned `true`. -/
theorem channelOutgoingQueues_enqueuePacket {layer layer' : ZAsyncTransportLayer} {now : Nat}
    {queued : Queued} (h : layer.enqueuePacket now queued = (true, layer')) :
    let queue := layer.packetQueue.channelOutgoingQueues queued.packet.channel
    (layer.HasRoom now queued →
      layer'.packetQueue.channelOutgoingQueues queued.packet.channel =
        queue.enqueue queued queued.packet.flags.priority) ∧
      (¬ layer.HasRoom now queued →
        layer'.packetQueue.channelOutgoingQueues queued.packet.channel = queue) := by
  intro queue
  rw [enqueuePacket_of_connected (connected_of_enqueuePacket h)] at h
  obtain rfl := (Prod.mk.inj h).2
  have hcheck : (layer.packetQueue.rateLimiter.checkRateLimit now
      queued.packet.heapDataSize.toUInt64).1 = true ↔ layer.HasRoom now queued :=
    RateLimiter.checkRateLimit_fst
  constructor
  · intro hroom
    simp [ZPacketQueue.push, ZPacketQueue.enqueueOutgoing, hcheck.mpr hroom, queue]
  · intro hfull
    simp [ZPacketQueue.push, Bool.eq_false_iff.mpr (mt hcheck.mp hfull), queue]

/-- A call that returned `true` put its packet on the queue exactly if the limiter had room. -/
theorem putOn_enqueuePacket {layer layer' : ZAsyncTransportLayer} {now : Nat} {queued : Queued}
    (h : layer.enqueuePacket now queued = (true, layer')) :
    (layer.HasRoom now queued → putOn queued.packet.channel layer layer' = [queued]) ∧
      (¬ layer.HasRoom now queued → putOn queued.packet.channel layer layer' = []) := by
  obtain ⟨hroom, hfull⟩ := channelOutgoingQueues_enqueuePacket h
  constructor
  · intro hadmitted
    set queue := layer.packetQueue.channelOutgoingQueues queued.packet.channel with hqueue
    have hperm : (queue.enqueue queued queued.packet.flags.priority).toList.Perm
        (queue.toList ++ [queued]) :=
      (queue.toList_enqueue_perm queued _).trans (List.perm_append_singleton ..).symm
    rw [putOn, hroom hadmitted, ← hqueue]
    exact List.perm_singleton.mp (by simpa [diff_front] using hperm.diff_right queue.toList)
  · intro hdropped
    rw [putOn, hfull hdropped]
    simpa using diff_front
      (layer.packetQueue.channelOutgoingQueues queued.packet.channel).toList []

end ZAsyncTransportLayer

namespace EnqueueCall

/-- What the call put on the Control queue. -/
def put (call : EnqueueCall) : List Queued :=
  ZAsyncTransportLayer.putOn .control call.layer (call.layer.enqueuePacket call.now call.queued).2

def HasRoom (call : EnqueueCall) : Prop := call.layer.HasRoom call.now call.queued

/-- A call that returned `true` for the packet of a chunk. -/
structure Reported (encrypted : Bool) (destination : UInt32) (transfer : Transfer)
    (call : EnqueueCall) : Prop where
  connected : call.layer.state = .connected
  queued : call.queued = ⟨chunkPacket encrypted destination call.payload, none⟩
  payload : ∃ bytes checksum, bytes.length < 2 ^ 31 ∧
    call.payload = transfer.chunkPayload (UInt32.ofNat call.chunkIndex) bytes checksum

variable {encrypted : Bool} {destination : UInt32} {transfer : Transfer} {call : EnqueueCall}

theorem Reported.put_eq (h : call.Reported encrypted destination transfer) :
    (call.HasRoom → call.put = [call.queued]) ∧ (¬ call.HasRoom → call.put = []) := by
  have hcontrol : call.queued.packet.channel = .control := by
    rw [h.queued]
    rfl
  have hcall := ZAsyncTransportLayer.enqueuePacket_of_connected h.connected call.now call.queued
  have hput := ZAsyncTransportLayer.putOn_enqueuePacket hcall
  rw [hcontrol] at hput
  rw [put, hcall]
  exact hput

theorem Reported.heapData_eq (h : call.Reported encrypted destination transfer)
    (hname : transfer.fileName.length ≤ 0xFFFF) : call.queued.packet.heapData = call.payload := by
  obtain ⟨bytes, checksum, hbytes, hpayload⟩ := h.payload
  have hlength := transfer.length_chunkPayload_le (UInt32.ofNat call.chunkIndex) bytes checksum
  rw [h.queued]
  refine OutgoingPacket.heapData_ofData ?_
  rw [hpayload]
  unfold kFixedHeaderSize at hlength
  omega

end EnqueueCall

/-- The calls of a loop that returned `true`: one for each chunk, in order. -/
theorem sendLoop_calls {encrypted : Bool} {destination : UInt32} {tuning : TransferTuning}
    {turns : Nat → SendTurn} {file : SourceFile} {transfer : Transfer} {todo : Nat} :
    ∀ {chunkIndex fileOffset : Nat} {fileChecksum : UInt32} {layer : ZAsyncTransportLayer}
      {run : SendRun}, run = sendLoop encrypted destination tuning turns file transfer todo
        chunkIndex fileOffset fileChecksum layer → run.result = some true →
      run.calls.map EnqueueCall.chunkIndex = List.range' chunkIndex todo ∧
        ∀ call ∈ run.calls, call.Reported encrypted destination transfer := by
  induction todo with
  | zero =>
      rintro chunkIndex fileOffset fileChecksum layer run rfl -
      exact ⟨rfl, fun call hcall => absurd hcall List.not_mem_nil⟩
  | succ todo ih =>
      intro chunkIndex fileOffset fileChecksum layer run hrun hresult
      rcases sendLoop_succ encrypted destination tuning turns file transfer todo chunkIndex
        fileOffset fileChecksum layer rfl with
        ⟨result, layer', hfailed, hstop⟩ | ⟨-, call, hindex, hpayload, hqueued, hcase⟩
      · rw [hrun, hstop] at hresult
        exact absurd hresult hfailed
      rcases hcase with ⟨layer', hstop⟩ | ⟨hconnected, layer', hgo⟩
      · rw [hrun, hstop] at hresult
        cases hresult
      · set rest := sendLoop encrypted destination tuning turns file transfer todo
          (chunkIndex + 1) _ _ layer' with hrest
        rw [hgo] at hrun
        subst hrun
        obtain ⟨hindices, hreported⟩ := ih hrest hresult
        refine ⟨?_, fun c hc => ?_⟩
        · simp only [SendRun.cons, List.map_cons, hindex, hindices, List.range'_succ]
        · rcases List.mem_cons.mp hc with rfl | hc
          · refine ⟨hconnected, ?_, ?_⟩
            · rw [hqueued, hpayload]
            · exact ⟨_, _, file.length_safeReadChunk_lt _ _, by rw [hpayload, hindex]⟩
          · exact hreported c hc

/-- The calls put all their payloads on the Control queue exactly if the limiter had room each
time. -/
theorem put_all_iff {encrypted : Bool} {destination : UInt32} {transfer : Transfer}
    (hname : transfer.fileName.length ≤ 0xFFFF) {calls : List EnqueueCall}
    (hreported : ∀ call ∈ calls, call.Reported encrypted destination transfer) :
    (calls.flatMap EnqueueCall.put).map (·.packet.heapData) = calls.map EnqueueCall.payload ↔
      ∀ call ∈ calls, call.HasRoom := by
  have hle {calls : List EnqueueCall}
      (h : ∀ call ∈ calls, call.Reported encrypted destination transfer) :
      (calls.flatMap EnqueueCall.put).length ≤ calls.length := by
    induction calls with
    | nil => exact Nat.le_refl 0
    | cons call calls ih =>
        obtain ⟨hroom, hfull⟩ := (h call List.mem_cons_self).put_eq
        have hrest := ih fun c hc => h c (List.mem_cons_of_mem _ hc)
        rw [List.flatMap_cons, List.length_append, List.length_cons]
        by_cases hcase : call.HasRoom
        · rw [hroom hcase, List.length_singleton]
          omega
        · rw [hfull hcase, List.length_nil]
          omega
  induction calls with
  | nil => simp
  | cons call calls ih =>
      have hrest : ∀ c ∈ calls, c.Reported encrypted destination transfer :=
        fun c hc => hreported c (List.mem_cons_of_mem _ hc)
      have hcall := hreported call List.mem_cons_self
      obtain ⟨hroom, hfull⟩ := hcall.put_eq
      rw [List.flatMap_cons, List.forall_mem_cons]
      by_cases hcase : call.HasRoom
      · rw [hroom hcase, and_iff_right hcase]
        refine Iff.trans ?_ (ih hrest)
        simp [hcall.heapData_eq hname]
      · -- a dropped packet leaves too few payloads
        rw [hfull hcase]
        refine iff_of_false (fun heq => ?_) fun h => hcase h.1
        have hlength := congrArg List.length heq
        have := hle hrest
        simp only [List.nil_append, List.length_map, List.length_cons] at hlength
        omega

/-- What `SendFile` set up before a loop that returned `true`. -/
theorem prepareTransfer_of_sendFile {encrypted : Bool} {destination : UInt32}
    {tuning : TransferTuning} {turns : Nat → SendTurn} {path : Bytes} {file : Option SourceFile}
    {counter : UInt64} {layer : ZAsyncTransportLayer}
    (h : (sendFile encrypted destination tuning turns path file counter layer).1.result =
      some true) :
    ∃ source transfer, (prepareTransfer tuning path file counter).1 = some (source, transfer) ∧
      (sendFile encrypted destination tuning turns path file counter layer).1 =
        sendLoop encrypted destination tuning turns source transfer transfer.totalChunks.toNat 0 0
          kFnv1aOffset layer := by
  unfold sendFile at h ⊢
  split at h
  · cases h
  · rename_i source transfer counter' heq
    rw [heq]
    exact ⟨source, transfer, rfl, rfl⟩

/-- A packet whose enqueue is reported is on its channel's queue exactly if the rate limiter had
room for it, and the chunks of a file that `SendFile` reports as sent have all been put on the
Control queue, each once and in order, exactly if it had room each time. -/
theorem reported_enqueue_iff (layer : ZAsyncTransportLayer) (encrypted : Bool)
    (destination : UInt32) (tuning : TransferTuning) (turns : Nat → SendTurn) (path : Bytes)
    (file : Option SourceFile) (counter : UInt64) :
    (∀ (now : Nat) (queued : Queued) (layer' : ZAsyncTransportLayer),
      layer.enqueuePacket now queued = (true, layer') →
        (layer.putOn queued.packet.channel layer' = [queued] ↔ layer.HasRoom now queued)) ∧
    let run := (sendFile encrypted destination tuning turns path file counter layer).1
    run.result = some true →
      ∃ source transfer,
        (prepareTransfer tuning path file counter).1 = some (source, transfer) ∧
          run.calls.map EnqueueCall.chunkIndex = List.range transfer.totalChunks.toNat ∧
          (∀ call ∈ run.calls, ∃ bytes checksum, call.payload =
            transfer.chunkPayload (UInt32.ofNat call.chunkIndex) bytes checksum) ∧
          ((run.calls.flatMap EnqueueCall.put).map (·.packet.heapData) =
              run.calls.map EnqueueCall.payload ↔
            ∀ call ∈ run.calls, call.HasRoom) := by
  constructor
  · intro now queued layer' h
    obtain ⟨hroom, hfull⟩ := ZAsyncTransportLayer.putOn_enqueuePacket h
    constructor
    · intro hput
      by_contra hno
      rw [hfull hno] at hput
      cases hput
    · exact hroom
  · intro run hresult
    obtain ⟨source, transfer, hprepare, hrun⟩ := prepareTransfer_of_sendFile hresult
    obtain ⟨-, hprepared⟩ := prepared_of_prepareTransfer tuning hprepare
    obtain ⟨hindices, hreported⟩ := sendLoop_calls hrun hresult
    refine ⟨source, transfer, hprepare, ?_, ?_, put_all_iff hprepared.fileName_le hreported⟩
    · rw [hindices, List.range_eq_range']
    · intro call hcall
      obtain ⟨bytes, checksum, -, hpayload⟩ := (hreported call hcall).payload
      exact ⟨bytes, checksum, hpayload⟩

/-- The rate limiter after 3000 packets of one byte in one second. -/
def exhaustedLimiter : RateLimiter :=
  { RateLimiter.init 0 with
    packetsSentThisSecond := 3000
    bytesSentThisSecond := 3000
    burstTokens := 0 }

/-- A file of one byte, sent over a connected transport. -/
def sendOneByte (limiter : RateLimiter) : SendRun :=
  (sendFile false ZPeerId.toAll {} (fun _ => ⟨[⟨id, 0⟩], id, 0⟩) [0x61]
    (some (SourceFile.ofContent [0x7A])) 1
    ⟨.connected, { ZPacketQueue.init 0 with rateLimiter := limiter }⟩).1

/-- A file of five bytes in chunks of two, the last of them short. -/
def sendFiveBytes : SendRun :=
  (sendFile false ZPeerId.toAll { chunkSize := 2 } (fun _ => ⟨[⟨id, 0⟩], id, 0⟩) [0x61]
    (some (SourceFile.ofContent [1, 2, 3, 4, 5])) 1 ⟨.connected, ZPacketQueue.init 0⟩).1

theorem reported_enqueue_iff_fiveBytes :
    sendFiveBytes.result = some true ∧
      sendFiveBytes.calls.map EnqueueCall.chunkIndex = [0, 1, 2] ∧
      (sendFiveBytes.calls.flatMap EnqueueCall.put).map (·.packet.heapData) =
        sendFiveBytes.calls.map EnqueueCall.payload ∧
      ∀ call ∈ sendFiveBytes.calls,
        call.layer.putOn .control (call.layer.enqueuePacket call.now call.queued).2 =
          [call.queued] := by
  have hresult : sendFiveBytes.result = some true := by decide +kernel
  have hroom : ∀ call ∈ sendFiveBytes.calls,
      (call.layer.packetQueue.rateLimiter.refresh call.now).HasRoom
        call.queued.packet.heapDataSize.toUInt64 := by
    decide +kernel
  have hcalls : ∀ call ∈ sendFiveBytes.calls, call.queued.packet.channel = .control ∧
      (call.layer.enqueuePacket call.now call.queued).1 = true := by
    decide +kernel
  obtain ⟨-, -, -, -, -, hput⟩ := (reported_enqueue_iff ⟨.connected, ZPacketQueue.init 0⟩ false
    ZPeerId.toAll { chunkSize := 2 } (fun _ => ⟨[⟨id, 0⟩], id, 0⟩) [0x61]
    (some (SourceFile.ofContent [1, 2, 3, 4, 5])) 1).2 hresult
  refine ⟨hresult, by decide +kernel, hput.mpr hroom, fun call hcall => ?_⟩
  obtain ⟨hchannel, hok⟩ := hcalls call hcall
  have hone := (reported_enqueue_iff call.layer false 0 {} (fun _ => ⟨[], id, 0⟩) [] none 0).1
    call.now call.queued _ (Prod.ext hok rfl)
  rw [hchannel] at hone
  exact hone.mpr (hroom call hcall)

/-- `SendFile` returns `true` and its only chunk is on no queue. -/
theorem sent_chunk_dropped :
    (sendOneByte exhaustedLimiter).result = some true ∧
      (sendOneByte exhaustedLimiter).calls.length = 1 ∧
      (sendOneByte exhaustedLimiter).calls.flatMap EnqueueCall.put = [] := by
  decide +kernel

end ZetaNet
