import ZetaNet.Transport.Unicast

/-!
# What the applications poll

`Pop` hands out what the receiving thread put on the incoming queues, each packet once, and the
receiving thread puts a packet on the queue that its type travels on.
-/

namespace ZetaNet

/-! ## The incoming queues -/

namespace ZPacketQueue

/-- The packets that wait for `Pop`. -/
def incoming (queue : ZPacketQueue) : List IncomingPacket :=
  (queue.channelIncomingQueues .control).toList ++ (queue.channelIncomingQueues .data).toList

theorem incoming_congr {queue queue' : ZPacketQueue}
    (h : queue'.channelIncomingQueues = queue.channelIncomingQueues) :
    queue'.incoming = queue.incoming := by
  unfold incoming
  rw [h]

theorem incoming_enqueueIncoming (pack : IncomingPacket) (queue : ZPacketQueue) :
    (queue.enqueueIncoming pack).incoming.Perm (pack :: queue.incoming) := by
  have hcons := PriorityMPSCQueue.toList_enqueue_perm pack pack.flags.priority
    (queue.channelIncomingQueues pack.channel)
  unfold incoming enqueueIncoming
  cases hchannel : pack.channel with
  | control =>
      rw [hchannel] at hcons
      dsimp only
      rw [Function.update_self, Function.update_of_ne (by decide)]
      exact hcons.append_right _
  | data =>
      rw [hchannel] at hcons
      dsimp only
      rw [Function.update_self, Function.update_of_ne (by decide)]
      exact (hcons.append_left _).trans List.perm_middle

theorem incoming_pop {channel : PacketChannelType} {pack : IncomingPacket}
    {queue queue' : ZPacketQueue} (h : queue.pop channel = some (pack, queue')) :
    queue.incoming.Perm (pack :: queue'.incoming) := by
  obtain ⟨⟨taken, rest⟩, hdequeue, hresult⟩ := Option.map_eq_some_iff.mp h
  obtain ⟨rfl, rfl⟩ := Prod.mk.inj hresult
  have hlist := PriorityMPSCQueue.dequeue_eq_some hdequeue
  unfold incoming
  cases channel with
  | control =>
      dsimp only
      rw [Function.update_self, Function.update_of_ne (by decide), hlist]
      exact .refl _
  | data =>
      dsimp only
      rw [Function.update_self, Function.update_of_ne (by decide), hlist]
      exact List.perm_middle

theorem incoming_settleReceipt (source seqNum : UInt32) (queue : ZPacketQueue) :
    (queue.settleReceipt source seqNum).1.incoming = queue.incoming := by
  rcases settleReceipt_cases queue source seqNum with heq | ⟨queued, -, heq⟩
  · rw [heq]
  · rw [heq]
    rfl

theorem incoming_addAwaitingAckPacket (encrypted : Bool)
    (returnAddress sequenceNumber ackNumber : UInt32) (queue : ZPacketQueue) :
    (queue.addAwaitingAckPacket encrypted returnAddress sequenceNumber ackNumber).1.incoming =
      queue.incoming := by
  unfold addAwaitingAckPacket
  dsimp only
  split
  · rfl
  · rw [incoming_settleReceipt]
    rfl

/-- A turn of `ProcessReceiving` adds the packet it reports to what waits, and nothing else. -/
theorem incoming_processReceived (encrypted : Bool) (result : ReceiveResult)
    (queue : ZPacketQueue) :
    let received := queue.processReceived encrypted result
    received.queue.incoming.Perm (received.enqueued.toList ++ queue.incoming) := by
  cases result with
  | success pack =>
      show (queue.receivePacket encrypted pack).queue.incoming.Perm
        ((queue.receivePacket encrypted pack).enqueued.toList ++ queue.incoming)
      have hacked := incoming_addAwaitingAckPacket encrypted pack.sourcePeerId pack.sequenceNumber
        pack.acknowledgementNumber queue
      unfold receivePacket
      split
      · dsimp only
        split
        · exact .of_eq hacked
        · refine (incoming_enqueueIncoming pack _).trans (.of_eq ?_)
          exact congrArg (pack :: ·) hacked
      · exact incoming_enqueueIncoming pack queue
  | acknowledgement pack =>
      show (queue.receiveAcknowledgement pack).queue.incoming.Perm
        ((queue.receiveAcknowledgement pack).enqueued.toList ++ queue.incoming)
      rw [enqueued_receiveAcknowledgement]
      unfold receiveAcknowledgement
      split
      · exact .refl _
      · exact .of_eq (incoming_settleReceipt ..)
  | goodbye | error | timeout => exact .refl _

/-- The reported packet is the one that was received. -/
theorem success_of_processReceived {encrypted : Bool} {result : ReceiveResult}
    {queue : ZPacketQueue} {pack : IncomingPacket}
    (h : (queue.processReceived encrypted result).enqueued = some pack) :
    result = .success pack := by
  cases result with
  | success taken =>
      rw [show (queue.processReceived encrypted (.success taken)).enqueued =
        (queue.receivePacket encrypted taken).enqueued from rfl, enqueued_receivePacket] at h
      split at h
      · cases h
      · rw [Option.some.inj h]
  | acknowledgement taken =>
      rw [show (queue.processReceived encrypted (.acknowledgement taken)).enqueued =
        (queue.receiveAcknowledgement taken).enqueued from rfl,
        enqueued_receiveAcknowledgement] at h
      cases h
  | goodbye | error | timeout => cases h

end ZPacketQueue

/-! ## Runs -/

namespace Network

variable {K H : Type} [DecidableEq H] (lz4 : Lz4) (gcm : AesGcm K) (serverOf : H → H)

/-- The packet that an event hands to the application of `h`. -/
def polledBy (h : H) (s : Network K H) : NetworkEvent K H → Option IncomingPacket
  | .pop h' channel => if h' = h then ((s.host h).queue.pop channel).map Prod.fst else none
  | _ => none

/-- The packets that a run hands to the application of `h`. -/
def polled (h : H) : Network K H → List (NetworkEvent K H) → List IncomingPacket
  | _, [] => []
  | s, e :: events =>
      match (machine lz4 gcm serverOf).step s e with
      | none => []
      | some s' => (s.polledBy h e).toList ++ polled h s' events

variable {lz4 gcm serverOf} {s s' : Network K H} {h : H}

theorem incoming_afterSend (h' : H) (result : ZPacketQueue × List (Sent H))
    (hsame : result.1.channelIncomingQueues = (s.host h').queue.channelIncomingQueues) :
    ((s.afterSend serverOf h' result).host h).queue.incoming = (s.host h).queue.incoming := by
  by_cases hh : h = h'
  · subst hh
    rw [host_afterSend_self]
    exact ZPacketQueue.incoming_congr hsame
  · rw [host_afterSend_of_ne hh]

theorem incoming_setQueue (h' : H) (queue : ZPacketQueue)
    (hsame : queue.channelIncomingQueues = (s.host h').queue.channelIncomingQueues) :
    ((s.setQueue h' queue).host h).queue.incoming = (s.host h).queue.incoming := by
  by_cases hh : h = h'
  · subst hh
    rw [setQueue, host_setHost_self]
    exact ZPacketQueue.incoming_congr hsame
  · rw [setQueue, host_setHost_of_ne hh]

theorem channelIncomingQueues_push (now : Nat) (queued : Queued) (queue : ZPacketQueue) :
    (queue.push now queued).channelIncomingQueues = queue.channelIncomingQueues := by
  unfold ZPacketQueue.push
  dsimp only
  split <;> rfl

omit [DecidableEq H] in
theorem channelIncomingQueues_retryEntry (crypto : Option K) (peerList : ZPeerMapping H)
    (now seqNum : UInt32) (env : UInt32 → SendEnv) (queue : ZPacketQueue) :
    (queue.retryEntry lz4 gcm crypto peerList now seqNum env).1.channelIncomingQueues =
      queue.channelIncomingQueues := by
  unfold ZPacketQueue.retryEntry
  dsimp only
  split
  · rfl
  · split_ifs <;> rfl

/-- A packet the receiver hands on has the channel that its type travels on. -/
theorem channel_of_receivePackets {host : Host K H} {source : H} {bytes : Bytes}
    {pack : IncomingPacket}
    (h : (receivePackets lz4 gcm host source bytes).1 = .success pack) :
    pack.channel = PacketChannelType.ofType pack.type := by
  unfold receivePackets at h
  dsimp only at h
  split at h
  · cases h
  · rcases @receiveDatagram_cases K H _ lz4 gcm host.crypto initialPack
      (bytes.take kMaxBufferSize) source host.peerList with
      herror | ⟨buffer, packet, -, hunpack, hresult⟩
    · rw [herror] at h
      cases h
    · rw [hresult] at h
      obtain ⟨d, haccepts, rfl⟩ := unpackPacket_eq_ok_iff.mp hunpack
      unfold receivedFrom at h
      split at h
      · cases h
      · split at h
        · cases h
        · rw [← ReceiveResult.success.inj h]
          exact haccepts.channel

/-- What an event puts on the incoming queues of `h` and what it hands out. -/
theorem incoming_step {e : NetworkEvent K H}
    (hstep : (machine lz4 gcm serverOf).step s e = some s') :
    ∃ arrivals, s'.enqueued h = s.enqueued h ++ arrivals ∧
      ((s.polledBy h e).toList ++ (s'.host h).queue.incoming).Perm
        ((s.host h).queue.incoming ++ arrivals.map Enqueued.pack) ∧
      ∀ e ∈ arrivals, e.pack.channel = PacketChannelType.ofType e.pack.type := by
  have hquiet (s' : Network K H) (hpolled : s.polledBy h e = none)
      (henqueued : s'.enqueued h = s.enqueued h)
      (hincoming : (s'.host h).queue.incoming = (s.host h).queue.incoming) :
      ∃ arrivals, s'.enqueued h = s.enqueued h ++ arrivals ∧
        ((s.polledBy h e).toList ++ (s'.host h).queue.incoming).Perm
          ((s.host h).queue.incoming ++ arrivals.map Enqueued.pack) ∧
        ∀ e ∈ arrivals, e.pack.channel = PacketChannelType.ofType e.pack.type :=
    ⟨[], by rw [henqueued, List.append_nil], by
      rw [hpolled, hincoming, List.map_nil, List.append_nil]
      exact .refl _, fun e he => absurd he List.not_mem_nil⟩
  cases e with
  | setCryptoProvider h' crypto =>
      obtain rfl := Option.some.inj hstep
      refine hquiet _ rfl rfl ?_
      by_cases hh : h = h'
      · rw [hh, host_setHost_self]
      · rw [host_setHost_of_ne hh]
  | setRateLimitConfig h' config =>
      obtain rfl := Option.some.inj hstep
      exact hquiet _ rfl rfl (incoming_setQueue h' _ rfl)
  | addPeer h' address =>
      obtain rfl := Option.some.inj hstep
      refine hquiet _ rfl rfl ?_
      by_cases hh : h = h'
      · rw [hh, host_setHost_self]
      · rw [host_setHost_of_ne hh]
  | push h' now packet =>
      obtain rfl := Option.some.inj hstep
      exact hquiet _ rfl rfl (incoming_setQueue h' _ (channelIncomingQueues_push ..))
  | processChannel h' channel =>
      obtain ⟨queue, hqueue, rfl⟩ := Option.map_eq_some_iff.mp hstep
      obtain ⟨_, -, rfl⟩ := Option.map_eq_some_iff.mp hqueue
      exact hquiet _ rfl rfl (incoming_setQueue h' _ rfl)
  | runTask h' index env =>
      obtain ⟨result, hresult, rfl⟩ := Option.map_eq_some_iff.mp hstep
      obtain ⟨_, -, rfl⟩ := Option.map_eq_some_iff.mp hresult
      exact hquiet _ rfl rfl (incoming_afterSend h' _ rfl)
  | retry h' now seqNum env =>
      obtain rfl := Option.some.inj hstep
      exact hquiet _ rfl rfl (incoming_afterSend h' _ (channelIncomingQueues_retryEntry ..))
  | deliver index =>
      obtain ⟨d, -, rfl⟩ := Option.map_eq_some_iff.mp hstep
      by_cases hh : h = d.target
      · subst hh
        unfold receive afterReceive
        dsimp only
        rw [host_setHost_self, Function.update_self]
        refine ⟨_, rfl, ?_, fun e he => ?_⟩
        · refine (ZPacketQueue.incoming_processReceived ..).trans ?_
          rw [List.map_map]
          exact List.perm_append_comm.trans (.of_eq (by simp [Function.comp_def]))
        · obtain ⟨pack, hpack, rfl⟩ := List.mem_map.mp he
          exact channel_of_receivePackets
            (ZPacketQueue.success_of_processReceived (Option.mem_toList.mp hpack))
      · refine hquiet _ rfl ?_ ?_
        · exact Function.update_of_ne hh ..
        · unfold receive afterReceive
          dsimp only
          rw [host_setHost_of_ne hh]
  | pop h' channel =>
      obtain ⟨⟨pack, queue⟩, hpop, rfl⟩ := Option.map_eq_some_iff.mp hstep
      by_cases hh : h = h'
      · subst hh
        refine ⟨[], (List.append_nil _).symm, ?_, fun e he => absurd he List.not_mem_nil⟩
        rw [polledBy, if_pos rfl, hpop, setQueue, host_setHost_self, List.map_nil,
          List.append_nil]
        exact (ZPacketQueue.incoming_pop hpop).symm
      · refine hquiet _ (if_neg (Ne.symm hh)) rfl ?_
        rw [setQueue, host_setHost_of_ne hh]

/-- In every run, what was polled and what waits is what arrived. -/
theorem polled_perm {now : H → Nat} {events : List (NetworkEvent K H)}
    (hexec : (machine lz4 gcm serverOf).exec (start now) events = some s) (h : H) :
    (polled lz4 gcm serverOf h (start now) events ++ (s.host h).queue.incoming).Perm
        ((s.enqueued h).map Enqueued.pack) ∧
      ∀ e ∈ s.enqueued h, e.pack.channel = PacketChannelType.ofType e.pack.type := by
  suffices hrun : ∀ (events : List (NetworkEvent K H)) (before : Network K H),
      (machine lz4 gcm serverOf).exec before events = some s →
      ∃ arrivals, s.enqueued h = before.enqueued h ++ arrivals ∧
        (polled lz4 gcm serverOf h before events ++ (s.host h).queue.incoming).Perm
          ((before.host h).queue.incoming ++ arrivals.map Enqueued.pack) ∧
        ∀ e ∈ arrivals, e.pack.channel = PacketChannelType.ofType e.pack.type by
    obtain ⟨arrivals, henqueued, hperm, hchannel⟩ := hrun events (start now) hexec
    rw [show (start now : Network K H).enqueued h = [] from rfl, List.nil_append] at henqueued
    rw [henqueued]
    exact ⟨hperm, hchannel⟩
  intro events
  induction events with
  | nil =>
      intro before hexec
      obtain rfl := Option.some.inj hexec
      refine ⟨[], (List.append_nil _).symm, ?_, fun e he => absurd he List.not_mem_nil⟩
      rw [List.map_nil, List.append_nil]
      exact .refl _
  | cons e events ih =>
      intro before hexec
      obtain ⟨mid, hstep, hrest⟩ := (Machine.exec_cons_eq_some _).mp hexec
      obtain ⟨first, hfirst, hfirstPerm, hfirstChannel⟩ := incoming_step (h := h) hstep
      obtain ⟨later, hlater, hlaterPerm, hlaterChannel⟩ := ih mid hrest
      refine ⟨first ++ later, by rw [hlater, hfirst, List.append_assoc], ?_, fun e he => ?_⟩
      · unfold polled
        rw [hstep]
        dsimp only
        rw [List.append_assoc, List.map_append, ← List.append_assoc _ (first.map _)]
        refine (hlaterPerm.append_left _).trans ?_
        rw [← List.append_assoc]
        exact hfirstPerm.append_right _
      · rcases List.mem_append.mp he with he | he
        · exact hfirstChannel e he
        · exact hlaterChannel e he

end Network

end ZetaNet
