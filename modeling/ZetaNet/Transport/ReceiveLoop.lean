import ZetaNet.Peer.Identity
import ZetaNet.Transport.Queue

/-!
# The receive loop

`ProcessReceiving` as a whole: it runs until `stop_threads_` is set. Of all datagrams the empty
one sets it, and no other.
-/

namespace ZetaNet

variable {K : Type} {lz4 : Lz4} {gcm : AesGcm K}

/-- What the loop works on. -/
structure ReceiveLoop where
  queue : ZPacketQueue
  receiver : PacketReceiver

namespace ReceiveLoop

/-- What may happen next: a datagram is received, none is there, or another thread works on the
queue or the peer table and leaves `stop_threads_` alone. -/
inductive Event (K : Type)
  | datagram (arrival : Arrival K)
  | idle (pack : IncomingPacket)
  | proceed (queue : ZPacketQueue) (peerList : ZPeerMapping Address)

variable (lz4 gcm)

/-- One turn of the loop for what `recvfrom` came back with. -/
def turn (crypto : Option K) (pack : IncomingPacket) (recv : RecvFrom) (loop : ReceiveLoop) :
    ReceiveResult × ReceiveLoop :=
  let (result, receiver) := loop.receiver.receivePackets lz4 gcm crypto pack recv
  (result, ⟨(loop.queue.processReceived crypto.isSome result).queue, receiver⟩)

/-- `ProcessReceiving`, with the results of `ReceivePackets`. -/
def processReceiving : List (Event K) → ReceiveLoop → List ReceiveResult × ReceiveLoop
  | [], loop => ([], loop)
  | event :: events, loop =>
      if loop.queue.stopThreads then ([], loop)
      else
        match event with
        | .datagram arrival =>
            let (result, loop) := loop.turn lz4 gcm arrival.crypto arrival.pack
              (.datagram arrival.source arrival.bytes)
            let (results, loop) := processReceiving events loop
            (result :: results, loop)
        | .idle pack =>
            -- EAGAIN, for which `GetLastError` has `Success`
            let (result, loop) := loop.turn lz4 gcm none pack (.failed .success)
            let (results, loop) := processReceiving events loop
            (result :: results, loop)
        | .proceed queue peerList =>
            processReceiving events
              { queue := { queue with stopThreads := loop.queue.stopThreads }
                receiver := { loop.receiver with peerList } }

end ReceiveLoop

/-! ## What stops the loop -/

theorem receiveDatagram_ne_goodbye {A : Type} [DecidableEq A] (crypto : Option K)
    (incoming : IncomingPacket) (address : A) (received : Bytes) (peerList : ZPeerMapping A) :
    (receiveDatagram lz4 gcm crypto incoming address received peerList).1 ≠ .goodbye := by
  rcases receiveDatagram_cases lz4 gcm crypto incoming received address peerList with
    heq | ⟨buffer, packet, -, -, heq⟩
  · rw [heq]
    simp
  · rw [heq]
    show receivedFrom packet _ ≠ _
    unfold receivedFrom
    split
    · simp
    · split <;> simp

/-- `ReceivePackets` takes an empty datagram for the end of the connection. -/
theorem receivePackets_goodbye_iff (crypto : Option K) (incoming : IncomingPacket)
    (source : Endpoint) (bytes : Bytes) (receiver : PacketReceiver) :
    (receiver.receivePackets lz4 gcm crypto incoming (.datagram source bytes)).1 = .goodbye ↔
      bytes = [] := by
  have htake : bytes.take kMaxBufferSize = [] ↔ bytes = [] := by
    rw [List.take_eq_nil_iff]
    exact or_iff_right (by decide)
  unfold PacketReceiver.receivePackets
  dsimp only
  split
  · rename_i hempty
    exact iff_of_true rfl (htake.mp hempty)
  · rename_i hne
    exact iff_of_false (receiveDatagram_ne_goodbye crypto incoming _ _ _) (mt htake.mpr hne)

theorem stopThreads_settleReceipt (queue : ZPacketQueue) (source seqNum : UInt32) :
    (queue.settleReceipt source seqNum).1.stopThreads = queue.stopThreads := by
  unfold ZPacketQueue.settleReceipt
  dsimp only
  split
  · rfl
  · split <;> rfl

/-- The loop stops itself at a goodbye only. -/
theorem stopThreads_processReceived (queue : ZPacketQueue) (encrypted : Bool)
    (result : ReceiveResult) :
    (queue.processReceived encrypted result).queue.stopThreads =
      (queue.stopThreads || decide (result = .goodbye)) := by
  have hack (returnAddress sequenceNumber ackNumber : UInt32) :
      (queue.addAwaitingAckPacket encrypted returnAddress sequenceNumber
        ackNumber).1.stopThreads = queue.stopThreads := by
    unfold ZPacketQueue.addAwaitingAckPacket
    dsimp only
    split
    · rfl
    · exact stopThreads_settleReceipt ..
  cases result with
  | success pack =>
      rw [decide_eq_false (by simp), Bool.or_false]
      show (queue.receivePacket encrypted pack).queue.stopThreads = _
      unfold ZPacketQueue.receivePacket
      dsimp only
      split
      · split
        · exact hack ..
        · exact hack ..
      · rfl
  | acknowledgement pack =>
      rw [decide_eq_false (by simp), Bool.or_false]
      show (queue.receiveAcknowledgement pack).queue.stopThreads = _
      unfold ZPacketQueue.receiveAcknowledgement
      split
      · rfl
      · exact stopThreads_settleReceipt ..
  | goodbye => simp [ZPacketQueue.processReceived]
  | error => simp [ZPacketQueue.processReceived]
  | timeout => simp [ZPacketQueue.processReceived]

namespace ReceiveLoop

/-- A turn stops the loop exactly if its result is a goodbye. -/
theorem stopThreads_turn (crypto : Option K) (pack : IncomingPacket) (recv : RecvFrom)
    {loop : ReceiveLoop} (hrunning : loop.queue.stopThreads = false) :
    (loop.turn lz4 gcm crypto pack recv).2.queue.stopThreads =
      decide ((loop.turn lz4 gcm crypto pack recv).1 = .goodbye) := by
  show (loop.queue.processReceived crypto.isSome _).queue.stopThreads = _
  rw [stopThreads_processReceived, hrunning, Bool.false_or]
  rfl

/-- The loop runs on, and has seen no goodbye, exactly if no datagram was empty. -/
theorem never_stops_iff (lz4 : Lz4) (gcm : AesGcm K) (events : List (Event K))
    {loop : ReceiveLoop} (hrunning : loop.queue.stopThreads = false) :
    ((loop.processReceiving lz4 gcm events).2.queue.stopThreads = false ∧
        ReceiveResult.goodbye ∉ (loop.processReceiving lz4 gcm events).1) ↔
      ∀ arrival, Event.datagram arrival ∈ events → arrival.bytes ≠ [] := by
  induction events generalizing loop with
  | nil => simp [processReceiving, hrunning]
  | cons event events ih =>
      have hgoes : ¬ loop.queue.stopThreads = true := by simp [hrunning]
      cases event with
      | datagram arrival =>
          rw [processReceiving, if_neg hgoes]
          -- a turn ends in a goodbye exactly if its datagram is empty
          have hgoodbye : (loop.turn lz4 gcm arrival.crypto arrival.pack
              (.datagram arrival.source arrival.bytes)).1 = .goodbye ↔ arrival.bytes = [] :=
            receivePackets_goodbye_iff ..
          have hstop := @stopThreads_turn _ lz4 gcm arrival.crypto arrival.pack
            (.datagram arrival.source arrival.bytes) loop hrunning
          rcases hturn : loop.turn lz4 gcm arrival.crypto arrival.pack
            (.datagram arrival.source arrival.bytes) with ⟨result, next⟩
          rw [hturn] at hgoodbye hstop
          dsimp only at hgoodbye hstop ⊢
          by_cases hempty : arrival.bytes = []
          · refine iff_of_false (fun h => ?_) fun h => h arrival List.mem_cons_self hempty
            exact h.2 (List.mem_cons.mpr (.inl (hgoodbye.mpr hempty).symm))
          · have hresult : result ≠ .goodbye := mt hgoodbye.mp hempty
            rw [decide_eq_false hresult] at hstop
            have hrest := ih hstop
            simp only [List.mem_cons, hresult.symm, false_or, hrest, Event.datagram.injEq]
            constructor
            · rintro h arrival' (rfl | hmem)
              · exact hempty
              · exact h arrival' hmem
            · exact fun h arrival' hmem => h arrival' (.inr hmem)
      | idle pack =>
          rw [processReceiving, if_neg hgoes]
          have hstop := @stopThreads_turn _ lz4 gcm none pack (.failed .success) loop hrunning
          -- a timeout
          have hrest := @ih (loop.turn lz4 gcm none pack (.failed .success)).2 hstop
          have hresult : (loop.turn lz4 gcm none pack (.failed .success)).1 = .timeout := rfl
          dsimp only
          rw [hresult]
          simpa using hrest
      | proceed queue peerList =>
          rw [processReceiving, if_neg hgoes]
          -- the other threads leave the flag alone
          have hrest := @ih ⟨{ queue with stopThreads := loop.queue.stopThreads },
            { loop.receiver with peerList }⟩ hrunning
          simpa using hrest

/-- A loop that has just been started. -/
def fresh : ReceiveLoop := ⟨ZPacketQueue.init 0, PacketReceiver.init⟩

/-- Rubbish from one peer, nothing, a packet from another, a reset of the peer table by another
thread, and rubbish as long as a header. -/
def rubbish : List (Event UInt8) :=
  [.datagram { plainArrival shortEndpoint with bytes := [1, 2, 3] }, .idle sampleIncoming,
    .datagram (plainArrival longEndpoint), .proceed (ZPacketQueue.init 0) .empty,
    .datagram { plainArrival longEndpoint with bytes := List.replicate 24 255 }]

theorem never_stops_iff_rubbish :
    (fresh.processReceiving literalLz4 maskGcm rubbish).2.queue.stopThreads = false ∧
      ReceiveResult.goodbye ∉ (fresh.processReceiving literalLz4 maskGcm rubbish).1 := by
  refine (never_stops_iff literalLz4 maskGcm rubbish rfl).mpr fun arrival hmem => ?_
  simp only [rubbish, List.mem_cons, Event.datagram.injEq, reduceCtorEq, List.not_mem_nil,
    false_or, or_false] at hmem
  rcases hmem with rfl | rfl | rfl <;> decide +kernel

/-- One empty datagram from anyone stops it. -/
theorem empty_datagram_stops :
    (fresh.processReceiving literalLz4 maskGcm
      [.datagram { plainArrival shortEndpoint with bytes := [] }]).2.queue.stopThreads = true := by
  decide +kernel

end ReceiveLoop

end ZetaNet
