import ZetaNet.Lib.Totals
import ZetaNet.Transport.Reliability

/-!
# The counters of the packet queue

`awaiting_ack_packet_count_` and `awaiting_ack_bytes_` against the receipts, and
`channel_outgoing_bytes_` against the queued packets, over any sequence of handlers. The first
two are right in every state. The third misses the acknowledgements the queue makes itself.
-/

namespace ZetaNet

open PacketDispatcher

/-- `heap_data_size` as a number. -/
def Queued.size (queued : Queued) : Nat := queued.packet.heapData.length

namespace ZPacketQueue

/-- A handler and what it takes from its surroundings. A retry scan is a run of `retry`. -/
inductive Handler (K A : Type)
  | push (now : Nat) (queued : Queued)
  | processChannel (channel : PacketChannelType)
  | dispatch (crypto : Option K) (peerList : ZPeerMapping A) (env : UInt32 → SendEnv)
      (queued : Queued)
  | receive (encrypted : Bool) (result : ReceiveResult)
  | retry (crypto : Option K) (peerList : ZPeerMapping A) (now seqNum : UInt32)
      (env : UInt32 → SendEnv)
  | collectGarbage

section

variable {K A : Type} [DecidableEq A] (lz4 : Lz4) (gcm : AesGcm K)

/-- The handlers one after the other; `collect_garbage` frees memory and keeps the map. -/
def handlers : Machine ZPacketQueue (Handler K A) where
  step queue
    | .push now queued => some (queue.push now queued)
    | .processChannel channel => queue.processChannel channel
    | .dispatch crypto peerList env queued =>
        let dispatched := queue.dispatcher.dispatchPacket lz4 gcm crypto peerList env queued
        some { queue with dispatcher := dispatched.1 }
    | .receive encrypted result => some (queue.processReceived encrypted result).queue
    | .retry crypto peerList now seqNum env =>
        some (queue.retryEntry lz4 gcm crypto peerList now seqNum env).1
    | .collectGarbage => some queue

omit [DecidableEq A] in
theorem exec_retryScan_handlers (crypto : Option K) (peerList : ZPeerMapping A) (now : UInt32)
    (env : UInt32 → UInt32 → SendEnv) (seqNums : List UInt32) (queue : ZPacketQueue) :
    (handlers lz4 gcm).exec queue
        (seqNums.map fun seqNum => .retry crypto peerList now seqNum (env seqNum)) =
      some (queue.retryScan lz4 gcm crypto peerList now env seqNums).1 := by
  induction seqNums generalizing queue with
  | nil => rfl
  | cons seqNum seqNums ih =>
      rw [List.map_cons]
      exact ih _

end

end ZPacketQueue

/-! ## Packets awaiting an acknowledgement -/

/-- The two counters against the receipts. -/
structure PacketDispatcher.InFlight (dispatcher : PacketDispatcher) : Prop where
  count : dispatcher.awaitingAckPacketCount = dispatcher.awaitingAckPackets.total fun _ _ => 1
  bytes : dispatcher.awaitingAckBytes = dispatcher.awaitingAckPackets.total fun _ => Queued.size

namespace PacketDispatcher.InFlight

variable {K A : Type} {lz4 : Lz4} {gcm : AesGcm K} {dispatcher : PacketDispatcher}

/-- An entry that leaves takes one packet and its bytes with it. -/
theorem erase (h : dispatcher.InFlight) {seqNum : UInt32} {queued : Queued}
    (hlookup : dispatcher.awaitingAckPackets.lookup seqNum = some queued) :
    InFlight
      { dispatcher with
        awaitingAckPackets := dispatcher.awaitingAckPackets.erase seqNum
        awaitingAckPacketCount := dispatcher.awaitingAckPacketCount - 1
        awaitingAckBytes := dispatcher.awaitingAckBytes - queued.packet.heapData.length } := by
  constructor
  · show dispatcher.awaitingAckPacketCount - 1 = _
    rw [h.count, AList.total_erase _ hlookup]
    exact Nat.add_sub_cancel_left ..
  · show dispatcher.awaitingAckBytes - queued.size = _
    rw [h.bytes, AList.total_erase _ hlookup]
    exact Nat.add_sub_cancel_left ..

/-- An entry may change in all but the size of its packet. -/
theorem insert (h : dispatcher.InFlight) {seqNum : UInt32} {queued queued' : Queued}
    (hlookup : dispatcher.awaitingAckPackets.lookup seqNum = some queued)
    (hsize : queued'.size = queued.size) :
    InFlight
      { dispatcher with
        awaitingAckPackets := dispatcher.awaitingAckPackets.insert seqNum queued' } := by
  constructor
  · show dispatcher.awaitingAckPacketCount =
      (dispatcher.awaitingAckPackets.insert seqNum queued').total fun _ _ => 1
    have hcount := @AList.total_insert _ _ (fun _ _ => 1) _ _ _ _ queued' hlookup
    rw [h.count]
    omega
  · show dispatcher.awaitingAckBytes =
      (dispatcher.awaitingAckPackets.insert seqNum queued').total fun _ => Queued.size
    have hbytes := @AList.total_insert _ _ (fun _ => Queued.size) _ _ _ _ queued' hlookup
    rw [h.bytes]
    omega

theorem addReceiptIfNeeded (h : dispatcher.InFlight) (env : SendEnv) (queued : Queued) :
    (dispatcher.addReceiptIfNeeded env queued).InFlight := by
  unfold PacketDispatcher.addReceiptIfNeeded
  dsimp only
  split
  · split
    · exact h
    · rename_i hkey
      constructor
      · show dispatcher.awaitingAckPacketCount + 1 = _
        rw [AList.total_insert_of_notMem _ hkey, h.count, Nat.add_comm]
      · show dispatcher.awaitingAckBytes + queued.size = _
        rw [AList.total_insert_of_notMem _ hkey, h.bytes, Nat.add_comm]
        rfl
  · exact h

variable (lz4 gcm) in
theorem dispatchTo (h : dispatcher.InFlight) (crypto : Option K) (target : Target A)
    (env : SendEnv) (queued : Queued) :
    (PacketDispatcher.dispatchTo lz4 gcm crypto target env queued dispatcher).1.InFlight := by
  rcases dispatchTo_cases lz4 gcm crypto target env queued dispatcher with
    heq | ⟨packet, bytes, -, -, heq⟩
  · rw [heq]
    exact h
  · rw [heq]
    have hadd := h.addReceiptIfNeeded env { queued with packet }
    exact ⟨hadd.count, hadd.bytes⟩

variable (lz4 gcm) in
theorem dispatchToEach (h : dispatcher.InFlight) (crypto : Option K) (env : UInt32 → SendEnv)
    (queued : Queued) (peers : List (ZPeer A)) :
    (PacketDispatcher.dispatchToEach lz4 gcm crypto env queued peers dispatcher).1.InFlight := by
  induction peers generalizing dispatcher with
  | nil => exact h
  | cons peer peers ih => exact ih (h.dispatchTo lz4 gcm crypto _ _ queued)

variable (lz4 gcm) in
theorem dispatchPacket [DecidableEq A] (h : dispatcher.InFlight) (crypto : Option K)
    (peerList : ZPeerMapping A) (env : UInt32 → SendEnv) (queued : Queued) :
    (PacketDispatcher.dispatchPacket lz4 gcm crypto peerList env queued dispatcher).1.InFlight := by
  unfold PacketDispatcher.dispatchPacket
  dsimp only
  split
  · exact h.dispatchTo lz4 gcm crypto _ _ queued
  · split
    · exact h.dispatchToEach lz4 gcm crypto env queued _
    · split
      · exact h.dispatchTo lz4 gcm crypto _ _ queued
      · exact h

end PacketDispatcher.InFlight

namespace ZPacketQueue

variable {K A : Type} {lz4 : Lz4} {gcm : AesGcm K} {queue : ZPacketQueue}

theorem inFlight_settleReceipt (h : queue.dispatcher.InFlight) (source seqNum : UInt32) :
    (queue.settleReceipt source seqNum).1.dispatcher.InFlight := by
  rcases settleReceipt_cases queue source seqNum with heq | ⟨queued, hlookup, heq⟩
  · rw [heq]
    exact h
  · rw [heq]
    exact h.erase hlookup

theorem inFlight_addAwaitingAckPacket (h : queue.dispatcher.InFlight) (encrypted : Bool)
    (returnAddress sequenceNumber ackNumber : UInt32) :
    (queue.addAwaitingAckPacket encrypted returnAddress sequenceNumber
      ackNumber).1.dispatcher.InFlight := by
  unfold addAwaitingAckPacket
  dsimp only
  split
  · exact h
  · exact inFlight_settleReceipt (by exact h) returnAddress ackNumber

theorem inFlight_processReceived (h : queue.dispatcher.InFlight) (encrypted : Bool)
    (result : ReceiveResult) :
    (queue.processReceived encrypted result).queue.dispatcher.InFlight := by
  cases result with
  | success pack =>
      show (queue.receivePacket encrypted pack).queue.dispatcher.InFlight
      have hack := inFlight_addAwaitingAckPacket h encrypted pack.sourcePeerId
        pack.sequenceNumber pack.acknowledgementNumber
      unfold receivePacket
      dsimp only
      split
      · split
        · exact hack
        · exact hack
      · exact h
  | acknowledgement pack =>
      show (queue.receiveAcknowledgement pack).queue.dispatcher.InFlight
      unfold receiveAcknowledgement
      split
      · exact h
      · exact inFlight_settleReceipt h pack.sourcePeerId _
  | goodbye => exact h
  | error => exact h
  | timeout => exact h

variable (lz4 gcm) in
theorem inFlight_retryEntry [DecidableEq A] (h : queue.dispatcher.InFlight) (crypto : Option K)
    (peerList : ZPeerMapping A) (now seqNum : UInt32) (env : UInt32 → SendEnv) :
    (queue.retryEntry lz4 gcm crypto peerList now seqNum env).1.dispatcher.InFlight := by
  rcases retryEntry_cases lz4 gcm crypto peerList now seqNum env queue with
    heq | ⟨queued, hlookup, -, heq⟩ | ⟨queued, hlookup, -, heq⟩
  · rw [heq]
    exact h
  · rw [heq]
    exact h.erase hlookup
  · -- a retransmission leaves the payload as it is
    have hsame := samePush_retransmitPacket lz4 gcm crypto peerList env seqNum queued
    have hcopy := hsame.copy queued.packet ⟨rfl, rfl, rfl, rfl⟩
    rcases hsent : retransmitPacket lz4 gcm crypto peerList env seqNum queued with ⟨queued', sent⟩
    rw [hsent] at hcopy
    rw [heq queued' sent hsent]
    exact h.insert hlookup (congrArg List.length hcopy.data)

theorem inFlight_push (h : queue.dispatcher.InFlight) (now : Nat) (queued : Queued) :
    (queue.push now queued).dispatcher.InFlight := by
  rw [(Network.push_cases now queued queue).1]
  exact h

theorem inFlight_step [DecidableEq A] {queue' : ZPacketQueue} {handler : Handler K A}
    (h : queue.dispatcher.InFlight)
    (hstep : (handlers lz4 gcm).step queue handler = some queue') :
    queue'.dispatcher.InFlight := by
  cases handler with
  | push now queued =>
      obtain rfl := Option.some.inj hstep
      exact inFlight_push h now queued
  | processChannel channel =>
      obtain ⟨_, -, rfl⟩ := Option.map_eq_some_iff.mp hstep
      exact h
  | dispatch crypto peerList env queued =>
      obtain rfl := Option.some.inj hstep
      exact h.dispatchPacket lz4 gcm crypto peerList env queued
  | receive encrypted result =>
      obtain rfl := Option.some.inj hstep
      exact inFlight_processReceived h encrypted result
  | retry crypto peerList now seqNum env =>
      obtain rfl := Option.some.inj hstep
      exact inFlight_retryEntry lz4 gcm h crypto peerList now seqNum env
  | collectGarbage =>
      obtain rfl := Option.some.inj hstep
      exact h

theorem inFlight_init (now : Nat) : (init now).dispatcher.InFlight := ⟨rfl, rfl⟩

/-- In every state the counters are the number of the receipts and the bytes of their packets,
so that taking an entry's share off them never stops at zero. -/
theorem in_flight_accounted [DecidableEq A] (lz4 : Lz4) (gcm : AesGcm K) (now : Nat)
    (events : List (Handler K A)) {queue : ZPacketQueue}
    (hexec : (handlers lz4 gcm).exec (init now) events = some queue) :
    queue.dispatcher.awaitingAckPacketCount =
        queue.dispatcher.awaitingAckPackets.entries.length ∧
      queue.dispatcher.awaitingAckBytes =
        (queue.dispatcher.awaitingAckPackets.entries.map fun entry =>
          entry.2.packet.heapData.length).sum ∧
      ∀ seqNum queued, queue.dispatcher.awaitingAckPackets.lookup seqNum = some queued →
        1 ≤ queue.dispatcher.awaitingAckPacketCount ∧
          queued.packet.heapData.length ≤ queue.dispatcher.awaitingAckBytes := by
  have h : queue.dispatcher.InFlight :=
    Machine.invariant_of_exec (fun _ _ _ hs hstep => inFlight_step hs hstep) (inFlight_init now)
      hexec
  refine ⟨h.count.trans (AList.total_one _), h.bytes, ?_⟩
  intro seqNum queued hlookup
  rw [h.count, h.bytes]
  exact ⟨AList.weight_le_total (fun _ _ => 1) hlookup,
    AList.weight_le_total (fun _ => Queued.size) hlookup⟩

/-- A reliable packet of three bytes to the server. -/
def countedPacket : Queued where
  packet := OutgoingPacket.ofData ZPeerId.toServer 101 .data
    { reliable := true, encrypted := false, compressed := false, priority := .high } [7, 8, 9]
  serial := none

/-- The packet is pushed and dispatched. -/
def countedSend : List (Handler UInt8 Bool) :=
  [.push 0 countedPacket, .processChannel .data,
    .dispatch none ZPeerMapping.empty (fun _ => ⟨⟨10, none⟩, 10, true⟩) countedPacket]

theorem in_flight_accounted_countedSend :
    ∃ queue, (handlers literalLz4 maskGcm).exec (init 0) countedSend = some queue ∧
      queue.dispatcher.awaitingAckPacketCount =
        queue.dispatcher.awaitingAckPackets.entries.length ∧
      queue.dispatcher.awaitingAckBytes =
        (queue.dispatcher.awaitingAckPackets.entries.map fun entry =>
          entry.2.packet.heapData.length).sum := by
  have hsome : ((handlers literalLz4 maskGcm).exec (init 0) countedSend).isSome = true := by
    decide +kernel
  obtain ⟨queue, hexec⟩ := Option.isSome_iff_exists.mp hsome
  obtain ⟨hcount, hbytes, -⟩ := in_flight_accounted literalLz4 maskGcm 0 countedSend hexec
  exact ⟨queue, hexec, hcount, hbytes⟩

/-! ## Queued bytes -/

/-- The bytes of the packets on a channel's outgoing queue. -/
def queuedBytes (channel : PacketChannelType) (queue : ZPacketQueue) : Nat :=
  ((queue.channelOutgoingQueues channel).toList.map Queued.size).sum

/-- `channel_outgoing_bytes_` tells what is queued. -/
def OutgoingAccounted (queue : ZPacketQueue) : Prop :=
  ∀ channel, queue.channelOutgoingBytes channel = queue.queuedBytes channel

/-- The handler answers a reliable packet, and so queues an acknowledgement. -/
def Handler.QueuesAck : Handler K A → Prop
  | .receive _ (.success pack) => pack.flags.reliable = true
  | _ => False

theorem queuedBytes_enqueueOutgoing (channel channel' : PacketChannelType) (queued : Queued)
    (priority : PacketPriority) :
    (queue.enqueueOutgoing channel queued priority).queuedBytes channel' =
      (if channel' = channel then queued.size else 0) + queue.queuedBytes channel' := by
  unfold queuedBytes enqueueOutgoing
  dsimp only
  by_cases hchannel : channel' = channel
  · subst hchannel
    rw [Function.update_self, if_pos rfl,
      ((PriorityMPSCQueue.toList_enqueue_perm queued priority _).map Queued.size).sum_eq]
    rfl
  · rw [Function.update_of_ne hchannel, if_neg hchannel, Nat.zero_add]

/-- Only what is queued and what is counted matters. -/
theorem outgoingAccounted_congr {queue' : ZPacketQueue}
    (hqueues : queue'.channelOutgoingQueues = queue.channelOutgoingQueues)
    (hbytes : queue'.channelOutgoingBytes = queue.channelOutgoingBytes) :
    queue'.OutgoingAccounted ↔ queue.OutgoingAccounted := by
  unfold OutgoingAccounted queuedBytes
  rw [hqueues, hbytes]

theorem OutgoingAccounted.push (h : queue.OutgoingAccounted) (now : Nat) (queued : Queued) :
    (queue.push now queued).OutgoingAccounted := by
  unfold ZPacketQueue.push
  dsimp only
  split
  · exact h
  · intro channel
    show Function.update queue.channelOutgoingBytes queued.packet.channel
        (queue.channelOutgoingBytes queued.packet.channel + queued.size) channel =
      queuedBytes channel (queue.enqueueOutgoing queued.packet.channel queued _)
    rw [queuedBytes_enqueueOutgoing]
    by_cases hchannel : channel = queued.packet.channel
    · subst hchannel
      rw [Function.update_self, if_pos rfl, h, Nat.add_comm]
    · rw [Function.update_of_ne hchannel, if_neg hchannel, h, Nat.zero_add]

theorem OutgoingAccounted.processChannel (h : queue.OutgoingAccounted)
    {channel : PacketChannelType} {queue' : ZPacketQueue}
    (hstep : queue.processChannel channel = some queue') : queue'.OutgoingAccounted := by
  obtain ⟨⟨queued, rest⟩, hdequeue, rfl⟩ := Option.map_eq_some_iff.mp hstep
  have hlist := PriorityMPSCQueue.dequeue_eq_some hdequeue
  intro channel'
  show Function.update queue.channelOutgoingBytes channel _ channel' =
    ((Function.update queue.channelOutgoingQueues channel rest channel').toList.map
      Queued.size).sum
  by_cases hchannel : channel' = channel
  · subst hchannel
    rw [Function.update_self, Function.update_self, h, queuedBytes, hlist]
    exact Nat.add_sub_cancel_left ..
  · rw [Function.update_of_ne hchannel, Function.update_of_ne hchannel, h]
    rfl

variable (queue) in
theorem outgoing_settleReceipt (source seqNum : UInt32) :
    (queue.settleReceipt source seqNum).1.channelOutgoingQueues = queue.channelOutgoingQueues ∧
      (queue.settleReceipt source seqNum).1.channelOutgoingBytes =
        queue.channelOutgoingBytes := by
  rcases settleReceipt_cases queue source seqNum with heq | ⟨_, -, heq⟩
  · rw [heq]
    exact ⟨rfl, rfl⟩
  · rw [heq]
    exact ⟨rfl, rfl⟩

/-- The acknowledgement has four bytes; the counter stays as it is. -/
theorem not_outgoingAccounted_addAwaitingAckPacket (h : queue.OutgoingAccounted)
    (encrypted : Bool) (returnAddress sequenceNumber ackNumber : UInt32) :
    ¬ (queue.addAwaitingAckPacket encrypted returnAddress sequenceNumber
      ackNumber).1.OutgoingAccounted := by
  have hqueued : ¬ (queue.enqueueOutgoing .control
      ⟨ackPacket encrypted returnAddress sequenceNumber, none⟩ .high).OutgoingAccounted := by
    intro hgood
    have hcontrol := hgood .control
    rw [queuedBytes_enqueueOutgoing, if_pos rfl] at hcontrol
    have hbefore : queue.channelOutgoingBytes .control = _ := h .control
    have hsize : Queued.size ⟨ackPacket encrypted returnAddress sequenceNumber, none⟩ = 4 :=
      (congrArg List.length (isAck_ackPacket ..).data).trans (Wire.length_leU32 _)
    change queue.channelOutgoingBytes .control = _ at hcontrol
    omega
  unfold addAwaitingAckPacket
  dsimp only
  split
  · exact hqueued
  · obtain ⟨hqueues, hbytes⟩ := outgoing_settleReceipt (queue.enqueueOutgoing .control
      ⟨ackPacket encrypted returnAddress sequenceNumber, none⟩ .high) returnAddress ackNumber
    rwa [outgoingAccounted_congr hqueues hbytes]

/-- What is received is queued for the application, not for sending, but for the
acknowledgement. -/
theorem outgoingAccounted_processReceived (h : queue.OutgoingAccounted) (encrypted : Bool)
    (result : ReceiveResult) :
    (queue.processReceived encrypted result).queue.OutgoingAccounted ↔
      ¬ (Handler.receive encrypted result : Handler K A).QueuesAck := by
  cases result with
  | success pack =>
      show (queue.receivePacket encrypted pack).queue.OutgoingAccounted ↔
        ¬ pack.flags.reliable = true
      unfold receivePacket
      dsimp only
      split
      · rename_i hreliable
        have hack := not_outgoingAccounted_addAwaitingAckPacket h encrypted pack.sourcePeerId
          pack.sequenceNumber pack.acknowledgementNumber
        split
        · exact iff_of_false hack (not_not.mpr hreliable)
        · exact iff_of_false hack (not_not.mpr hreliable)
      · rename_i hplain
        exact iff_of_true h hplain
  | acknowledgement pack =>
      show (queue.receiveAcknowledgement pack).queue.OutgoingAccounted ↔ ¬ False
      refine iff_of_true ?_ not_false
      unfold receiveAcknowledgement
      split
      · exact h
      · obtain ⟨hqueues, hbytes⟩ := outgoing_settleReceipt queue pack.sourcePeerId _
        exact (outgoingAccounted_congr hqueues hbytes).mpr h
  | goodbye => exact iff_of_true h not_false
  | error => exact iff_of_true h not_false
  | timeout => exact iff_of_true h not_false

theorem outgoingAccounted_step [DecidableEq A] {queue' : ZPacketQueue} {handler : Handler K A}
    (h : queue.OutgoingAccounted)
    (hstep : (handlers lz4 gcm).step queue handler = some queue') :
    queue'.OutgoingAccounted ↔ ¬ handler.QueuesAck := by
  cases handler with
  | push now queued =>
      obtain rfl := Option.some.inj hstep
      exact iff_of_true (h.push now queued) not_false
  | processChannel channel => exact iff_of_true (h.processChannel hstep) not_false
  | dispatch crypto peerList env queued =>
      obtain rfl := Option.some.inj hstep
      exact iff_of_true h not_false
  | receive encrypted result =>
      obtain rfl := Option.some.inj hstep
      exact outgoingAccounted_processReceived h encrypted result
  | retry crypto peerList now seqNum env =>
      obtain rfl := Option.some.inj hstep
      refine iff_of_true ?_ not_false
      rcases retryEntry_cases lz4 gcm crypto peerList now seqNum env queue with
        heq | ⟨queued, -, -, heq⟩ | ⟨queued, -, -, heq⟩
      · rw [heq]
        exact h
      · rw [heq]
        exact h
      · rcases hsent : retransmitPacket lz4 gcm crypto peerList env seqNum queued with
          ⟨queued', sent⟩
        rw [heq queued' sent hsent]
        exact h
  | collectGarbage =>
      obtain rfl := Option.some.inj hstep
      exact iff_of_true h not_false

/-- The byte counters are right in every state of a run exactly if it queues no
acknowledgement. -/
theorem outgoing_bytes_iff [DecidableEq A] (lz4 : Lz4) (gcm : AesGcm K) (now : Nat)
    {events : List (Handler K A)} {queue : ZPacketQueue}
    (hexec : (handlers lz4 gcm).exec (init now) events = some queue) :
    (handlers lz4 gcm).Always OutgoingAccounted (init now) events ↔
      (handlers lz4 gcm).Along (fun _ handler => ¬ handler.QueuesAck) (init now) events := by
  have hstart : (init now).OutgoingAccounted := by
    intro channel
    cases channel <;> rfl
  exact Machine.always_iff_along
    (fun _ _ _ _ hgood hstep => ⟨trivial, outgoingAccounted_step hgood hstep⟩) trivial hstart hexec

/-- A reliable packet of a peer. -/
def reliablePack : IncomingPacket :=
  { initialPack with
    flags := { initialPack.flags with reliable := true }
    type := 101
    sequenceNumber := 5 }

/-- The acknowledgement of one packet is queued, and the counter says that nothing is. -/
theorem queued_ack_not_counted :
    ∃ queue, (handlers literalLz4 maskGcm : Machine ZPacketQueue (Handler UInt8 Bool)).exec
        (init 0) [.receive false (.success reliablePack)] = some queue ∧
      queue.channelOutgoingBytes .control = 0 ∧ queue.queuedBytes .control = 4 := by
  have heval : ((handlers literalLz4 maskGcm : Machine ZPacketQueue (Handler UInt8 Bool)).exec
      (init 0) [.receive false (.success reliablePack)]).map (fun queue =>
        (queue.channelOutgoingBytes .control, queue.queuedBytes .control)) = some (0, 4) := by
    decide +kernel
  obtain ⟨queue, hexec, hfacts⟩ := Option.map_eq_some_iff.mp heval
  exact ⟨queue, hexec, Prod.mk.inj hfacts⟩

theorem outgoing_bytes_iff_countedSend :
    (handlers literalLz4 maskGcm).Always OutgoingAccounted (init 0) countedSend := by
  have hsome : ((handlers literalLz4 maskGcm).exec (init 0) countedSend).isSome = true := by
    decide +kernel
  obtain ⟨queue, hexec⟩ := Option.isSome_iff_exists.mp hsome
  exact (outgoing_bytes_iff literalLz4 maskGcm 0 hexec).mpr
    ⟨not_false, fun _ _ => ⟨not_false, fun _ _ => ⟨not_false, fun _ _ => trivial⟩⟩⟩

end ZPacketQueue

end ZetaNet
