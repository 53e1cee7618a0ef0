import ZetaNet.Transport.Arrivals
import ZetaNet.Transport.Retransmit

/-!
# Runs of the network

Every event keeps the relation to the abstract delivery state, as long as applications push no
acknowledgements, no broadcast copy is retried to another peer, and the sequence numbers last.
What the relation says of a state: a reliable push is handed on at most once at every host,
and an entry is removed as acknowledged only after the target of its copy has handed it on.
-/

namespace ZetaNet

variable {K H : Type} [DecidableEq H]

/-- The application does not push acknowledgements. -/
def NetworkEvent.pushesNoAck : NetworkEvent K H → Prop
  | .push _ _ packet => packet.type ≠ PacketType.acknowledgement
  | _ => True

/-- The application pushes no acknowledgements and no reliable broadcast. -/
def NetworkEvent.pushesUnicast : NetworkEvent K H → Prop
  | .push _ _ packet => packet.type ≠ PacketType.acknowledgement ∧
      (packet.flags.reliable = true → packet.destinationPeerId ≠ ZPeerId.toAll)
  | _ => True

namespace Network

variable {lz4 : Lz4} {gcm : AesGcm K} {serverOf : H → H} {s s' : Network K H}
  {a : DeliveryState H} {h : H}

/-! ## The start and the remaining events -/

omit [DecidableEq H] in
theorem matches_start (now : H → Nat) :
    Matches lz4 gcm serverOf (start now : Network K H) Delivery.State.init where
  safe := Delivery.safe_init
  host _ :=
    { grown := ZPeerMapping.grown_empty
      noAck := fun _ hp => absurd hp List.not_mem_nil
      counter_le := Nat.zero_le _
      copy_lt := fun h => by cases h
      copy_serial := fun h => by cases h
      queued := fun _ hq => absurd hq List.not_mem_nil
      serials := List.nodup_nil
      receipts := fun h => by cases h
      settled := fun _ hmem => absurd hmem List.not_mem_nil
      seen := fun _ hp => absurd hp List.not_mem_nil
      unseen := fun _ _ => rfl
      unused := fun _ _ => rfl }
  wire _ hd := absurd hd List.not_mem_nil
  copy_wire h := by cases h
  delivered _ := rfl
  enqueued _ _ he := absurd he List.not_mem_nil

/-- The packet taken off a channel becomes the last task. -/
theorem outgoing_processChannel {channel : PacketChannelType} {queue queue' : ZPacketQueue}
    (h : queue.processChannel channel = some queue') :
    queue.outgoing.Perm queue'.outgoing := by
  obtain ⟨⟨queued, rest⟩, hdequeue, rfl⟩ := Option.map_eq_some_iff.mp h
  have hlist := PriorityMPSCQueue.dequeue_eq_some hdequeue
  cases channel with
  | control =>
      show ((queue.channelOutgoingQueues .control).toList ++
          (queue.channelOutgoingQueues .data).toList ++ queue.pendingTasks).Perm
        (rest.toList ++ (queue.channelOutgoingQueues .data).toList ++
          (queue.pendingTasks ++ [queued]))
      rw [hlist, ← List.append_assoc]
      exact (List.perm_append_singleton _ _).symm
  | data =>
      show ((queue.channelOutgoingQueues .control).toList ++
          (queue.channelOutgoingQueues .data).toList ++ queue.pendingTasks).Perm
        ((queue.channelOutgoingQueues .control).toList ++ rest.toList ++
          (queue.pendingTasks ++ [queued]))
      rw [hlist, List.append_assoc, List.cons_append, ← List.append_assoc _ _ [queued],
        List.append_assoc _ rest.toList]
      exact List.perm_middle.trans (List.perm_append_singleton _ _).symm

/-- A push that the rate limiter lets through is one more packet to send; nothing else of the
relation's concern changes. -/
theorem push_cases (now : Nat) (queued : Queued) (queue : ZPacketQueue) :
    (queue.push now queued).dispatcher = queue.dispatcher ∧
    (queue.push now queued).receivedReliableSeqs = queue.receivedReliableSeqs ∧
    ((queue.push now queued).outgoing = queue.outgoing ∨
      (queue.push now queued).outgoing.Perm (queued :: queue.outgoing)) := by
  unfold ZPacketQueue.push
  simp only
  split
  · exact ⟨rfl, rfl, .inl rfl⟩
  · exact ⟨rfl, rfl, .inr (outgoing_enqueueOutgoing queue _ _ _)⟩

theorem Matches.push (hm : Matches lz4 gcm serverOf s a) {packet : OutgoingPacket} {now : Nat}
    (htype : packet.type ≠ PacketType.acknowledgement) :
    Matches lz4 gcm serverOf
      { s.setQueue h ((s.host h).queue.push now ⟨packet, some (s.pushed h).length⟩) with
        pushed := Function.update s.pushed h (s.pushed h ++ [packet]) } a := by
  have hlog (h' : H) : s.pushed h' <+: Function.update s.pushed h (s.pushed h ++ [packet]) h' := by
    by_cases hh : h' = h
    · subst hh
      rw [Function.update_self]
      exact List.prefix_append _ _
    · rw [Function.update_of_ne hh]
  refine
    { hm with
      host := ?_
      wire := fun d hd => (hm.wire d hd).mono (hlog d.source) (.refl a)
      enqueued := fun h' e he => ?_ }
  · intro h'
    unfold HostMatches
    by_cases hh : h' = h
    · subst hh
      obtain ⟨hdispatcher, hseqs, houtgoing⟩ := push_cases now
        ⟨packet, some (s.pushed h').length⟩ (s.host h').queue
      have hpush := (hm.host h').push htype
      simp only [setQueue, host_setHost_self, Function.update_self, hdispatcher, hseqs]
      rcases houtgoing with heq | hperm
      · rw [heq]
        exact hpush.tail
      · exact hpush.perm hperm.symm
    · simp only [setQueue, host_setHost_of_ne hh, Function.update_of_ne hh]
      exact hm.host h'
  · obtain ⟨n, pushed, hserial, hpushed, hfields⟩ := hm.enqueued h' e he
    obtain ⟨later, hlater⟩ := hlog e.source
    refine ⟨n, pushed, hserial, ?_, hfields⟩
    show (Function.update s.pushed h (s.pushed h ++ [packet]) e.source)[n]? = some pushed
    rw [← hlater, List.getElem?_append_left (List.getElem?_eq_some_iff.mp hpushed).1, hpushed]

/-! ## Steps and runs -/

/-- The wire forgets nothing. -/
theorem wire_length_le_of_step {e : NetworkEvent K H}
    (hstep : (machine lz4 gcm serverOf).step s e = some s') :
    s.wire.length ≤ s'.wire.length := by
  cases e with
  | setCryptoProvider | setRateLimitConfig | addPeer | push =>
      obtain rfl := Option.some.inj hstep
      exact le_rfl
  | processChannel | pop =>
      obtain ⟨queue, -, rfl⟩ := Option.map_eq_some_iff.mp hstep
      exact le_rfl
  | runTask h index env =>
      obtain ⟨result, -, rfl⟩ := Option.map_eq_some_iff.mp hstep
      show s.wire.length ≤ (s.wire ++ _).length
      rw [List.length_append]
      exact Nat.le_add_right _ _
  | retry h now seqNum env =>
      obtain rfl := Option.some.inj hstep
      show s.wire.length ≤ (s.wire ++ _).length
      rw [List.length_append]
      exact Nat.le_add_right _ _
  | deliver index =>
      obtain ⟨d, -, rfl⟩ := Option.map_eq_some_iff.mp hstep
      exact le_rfl

/-- Every event keeps the relation. -/
theorem Matches.step (hlz4 : lz4.RoundTrip) (sized : gcm.Sized) (authentic : gcm.Authentic)
    (hm : Matches lz4 gcm serverOf s a) {e : NetworkEvent K H} (hpush : e.pushesNoAck)
    (hretry : s.RetryToAddressee e) (hstep : (machine lz4 gcm serverOf).step s e = some s')
    (hfew : s'.wire.length < 2 ^ 32) : ∃ a', Matches lz4 gcm serverOf s' a' := by
  cases e with
  | setCryptoProvider h crypto =>
      obtain rfl := Option.some.inj hstep
      exact ⟨a, hm.setHost (hm.host h)⟩
  | setRateLimitConfig h config =>
      obtain rfl := Option.some.inj hstep
      exact ⟨a, hm.setHost (hm.host h)⟩
  | addPeer h address =>
      obtain rfl := Option.some.inj hstep
      exact ⟨a, hm.setHost ((hm.host h).getOrCreatePeer address)⟩
  | push h now packet =>
      obtain rfl := Option.some.inj hstep
      exact ⟨a, hm.push hpush⟩
  | processChannel h channel =>
      obtain ⟨queue, hqueue, rfl⟩ := Option.map_eq_some_iff.mp hstep
      have hhost := (hm.host h).perm (outgoing_processChannel hqueue)
      obtain ⟨_, -, rfl⟩ := Option.map_eq_some_iff.mp hqueue
      exact ⟨a, hm.setHost hhost⟩
  | runTask h index env =>
      obtain ⟨result, hresult, rfl⟩ := Option.map_eq_some_iff.mp hstep
      exact hm.runTask _ hresult hfew
  | retry h now seqNum env =>
      obtain rfl := Option.some.inj hstep
      exact ⟨a, hm.retryEntry hretry⟩
  | deliver index =>
      obtain ⟨d, hd, rfl⟩ := Option.map_eq_some_iff.mp hstep
      exact hm.receive hlz4 sized authentic (List.mem_of_getElem? hd)
  | pop h channel =>
      obtain ⟨result, hresult, rfl⟩ := Option.map_eq_some_iff.mp hstep
      obtain ⟨_, -, rfl⟩ := Option.map_eq_some_iff.mp hresult
      exact ⟨a, hm.setHost (hm.host h)⟩

/-- Every run does, up to the last sequence number. -/
theorem exists_matches_of_along (hlz4 : lz4.RoundTrip) (sized : gcm.Sized)
    (authentic : gcm.Authentic) {now : H → Nat} {events : List (NetworkEvent K H)}
    (halong : (machine lz4 gcm serverOf).Along
      (fun s e => e.pushesNoAck ∧ s.RetryToAddressee e) (start now) events)
    (hexec : (machine lz4 gcm serverOf).exec (start now) events = some s)
    (hfew : s.wire.length < 2 ^ 32) : ∃ a, Matches lz4 gcm serverOf s a := by
  have preserved (s : Network K H) (e : NetworkEvent K H) (s' : Network K H)
      (hs : s.wire.length < 2 ^ 32 → ∃ a, Matches lz4 gcm serverOf s a)
      (hcondition : e.pushesNoAck ∧ s.RetryToAddressee e)
      (hstep : (machine lz4 gcm serverOf).step s e = some s')
      (hfew : s'.wire.length < 2 ^ 32) : ∃ a, Matches lz4 gcm serverOf s' a := by
    obtain ⟨a, hm⟩ := hs (lt_of_le_of_lt (wire_length_le_of_step hstep) hfew)
    exact hm.step hlz4 sized authentic hcondition.1 hcondition.2 hstep hfew
  exact Machine.invariant_of_along preserved (fun _ => ⟨_, matches_start now⟩) halong hexec hfew

/-! ## What the relation says -/

/-- Every host has handed on a reliable push at most once, and as it was pushed. -/
theorem Matches.enqueued_once (hm : Matches lz4 gcm serverOf s a) {source : H} {n : Nat}
    {packet : OutgoingPacket} (hpushed : (s.pushed source)[n]? = some packet)
    (hreliable : packet.flags.reliable = true) (target : H) :
    (s.enqueued target).countP (Enqueued.isCopyOf source n) ≤ 1 ∧
    ∀ e ∈ s.enqueued target, e.isCopyOf source n = true →
      e.pack.type = packet.type ∧ e.pack.data = packet.heapData := by
  have hcopy {e : Enqueued H} (he : e ∈ s.enqueued target)
      (his : e.isCopyOf source n = true) :
      e.pack.type = packet.type ∧ e.pack.data = packet.heapData ∧
        e.delivered = some (source, n) := by
    obtain ⟨hsource, hserial⟩ : e.source = source ∧ e.serial = some n := by
      simpa [Enqueued.isCopyOf] using his
    obtain ⟨m, pushed, hm', hpushed', htype, hdata, hflag⟩ := hm.enqueued target e he
    rw [hserial] at hm'
    obtain rfl := Option.some.inj hm'
    rw [hsource, hpushed] at hpushed'
    obtain rfl := Option.some.inj hpushed'
    refine ⟨htype, hdata, ?_⟩
    rw [Enqueued.delivered, if_pos (hflag.trans hreliable), hserial, hsource]
    rfl
  refine ⟨?_, fun e he his => ⟨(hcopy he his).1, (hcopy he his).2.1⟩⟩
  have hnodup := hm.safe.delivered_nodup target
  rw [hm.delivered target] at hnodup
  calc (s.enqueued target).countP (Enqueued.isCopyOf source n)
      ≤ (s.enqueued target).countP (fun e => e.delivered == some (source, n)) :=
        List.countP_mono_left fun e he his => by rw [(hcopy he his).2.2]; exact beq_self_eq_true _
    _ = ((s.enqueued target).filterMap Enqueued.delivered).count (source, n) :=
        (List.count_filterMap).symm
    _ ≤ 1 := List.nodup_iff_count_le_one.mp hnodup _

/-- Some entry of `target`'s log is the `n`-th push of `source`. -/
def HasEnqueued (s : Network K H) (target source : H) (n : Nat) : Prop :=
  ∃ e ∈ s.enqueued target, e.isCopyOf source n = true

/-- A number seen is a packet handed on. -/
theorem Matches.hasEnqueued (hm : Matches lz4 gcm serverOf s a) {source target : H}
    {k : UInt32} {n : Nat} (hcopy : a.copy source k = some (target, n))
    (hseen : k ∈ a.seen target source) : s.HasEnqueued target source n := by
  obtain ⟨-, hdelivered⟩ := hm.safe.confirmed hseen hcopy
  rw [hm.delivered target] at hdelivered
  obtain ⟨e, he, hmessage⟩ := List.mem_filterMap.mp hdelivered
  refine ⟨e, he, ?_⟩
  unfold Enqueued.delivered at hmessage
  split at hmessage
  · obtain ⟨m, hserial, heq⟩ := Option.map_eq_some_iff.mp hmessage
    obtain ⟨hsource, rfl⟩ := Prod.mk.inj heq
    simp [Enqueued.isCopyOf, hsource, hserial]
  · cases hmessage

/-! ## Entries that leave the receipt map -/

/-- The entry `queued` of the number `k` is in the receipt map of `h` before the step and not
after it. -/
def Removed (s s' : Network K H) (h : H) (k : UInt32) (queued : Queued) : Prop :=
  (s.host h).queue.dispatcher.awaitingAckPackets.lookup k = some queued ∧
    (s'.host h).queue.dispatcher.awaitingAckPackets.lookup k = none

/-- A turn of `ProcessReceiving` keeps an entry, or reports it as settled. -/
theorem lookup_processReceived {queue : ZPacketQueue} {k : UInt32} {queued : Queued}
    (encrypted : Bool) (result : ReceiveResult)
    (hlookup : queue.dispatcher.awaitingAckPackets.lookup k = some queued) :
    (queue.processReceived encrypted result).queue.dispatcher.awaitingAckPackets.lookup k =
        some queued ∨
      (queue.processReceived encrypted result).settled = some (k, queued) := by
  have hsettle {q : ZPacketQueue} (hq : q.dispatcher = queue.dispatcher) (source j : UInt32) :
      (q.settleReceipt source j).1.dispatcher.awaitingAckPackets.lookup k = some queued ∨
        (q.settleReceipt source j).2 = some (k, queued) := by
    rcases settleReceipt_cases q source j with heq | ⟨found, hfound, heq⟩
    · rw [heq, hq]
      exact .inl hlookup
    · rw [hq] at hfound
      by_cases hkj : k = j
      · subst hkj
        rw [hlookup] at hfound
        obtain rfl := Option.some.inj hfound
        rw [heq]
        exact .inr rfl
      · refine .inl ?_
        rw [heq, hq]
        exact (AList.lookup_erase_ne hkj).trans hlookup
  cases result with
  | success pack =>
      show (queue.receivePacket encrypted pack).queue.dispatcher.awaitingAckPackets.lookup k =
          some queued ∨ (queue.receivePacket encrypted pack).settled = some (k, queued)
      unfold ZPacketQueue.receivePacket
      split
      · -- `AddAwaitingAckPacket` settles the number the packet acknowledges
        have hadd : (queue.addAwaitingAckPacket encrypted pack.sourcePeerId pack.sequenceNumber
              pack.acknowledgementNumber).1.dispatcher.awaitingAckPackets.lookup k = some queued ∨
            (queue.addAwaitingAckPacket encrypted pack.sourcePeerId pack.sequenceNumber
              pack.acknowledgementNumber).2 = some (k, queued) := by
          unfold ZPacketQueue.addAwaitingAckPacket
          simp only
          split
          · exact .inl hlookup
          · exact hsettle (q := queue.enqueueOutgoing .control _ .high) rfl _ _
        rcases hacked : queue.addAwaitingAckPacket encrypted pack.sourcePeerId
          pack.sequenceNumber pack.acknowledgementNumber with ⟨acked, settled⟩
        rw [hacked] at hadd
        simp only
        split <;> exact hadd
      · exact .inl hlookup
  | acknowledgement pack =>
      show (queue.receiveAcknowledgement pack).queue.dispatcher.awaitingAckPackets.lookup k =
          some queued ∨ (queue.receiveAcknowledgement pack).settled = some (k, queued)
      unfold ZPacketQueue.receiveAcknowledgement
      split
      · exact .inl hlookup
      · exact hsettle (q := queue) rfl _ _
  | goodbye => exact .inl hlookup
  | error => exact .inl hlookup
  | timeout => exact .inl hlookup

/-- What a delivery removes is in the log of settled entries. -/
theorem settled_of_removed {index : Nat} {k : UInt32} {queued : Queued}
    (hstep : (machine lz4 gcm serverOf).step s (.deliver index) = some s')
    (hremoved : s.Removed s' h k queued) : (k, queued) ∈ s'.settled h := by
  obtain ⟨d, -, rfl⟩ := Option.map_eq_some_iff.mp hstep
  obtain ⟨hbefore, hafter⟩ := hremoved
  unfold receive afterReceive at hafter ⊢
  simp only at hafter ⊢
  by_cases hh : h = d.target
  · subst hh
    rw [host_setHost_self] at hafter
    rw [Function.update_self]
    refine List.mem_append_right _ (Option.mem_toList.mpr ?_)
    rcases lookup_processReceived (s.host d.target).crypto.isSome
      (receivePackets lz4 gcm (s.host d.target) d.source d.bytes).1 hbefore with hkept | hsettled
    · rw [hafter] at hkept
      cases hkept
    · exact hsettled
  · rw [host_setHost_of_ne hh, hbefore] at hafter
    cases hafter

theorem Matches.removed (hlz4 : lz4.RoundTrip) (sized : gcm.Sized) (authentic : gcm.Authentic)
    (hm : Matches lz4 gcm serverOf s a) {index : Nat} {k : UInt32} {queued : Queued}
    (hstep : (machine lz4 gcm serverOf).step s (.deliver index) = some s')
    (hremoved : s.Removed s' h k queued) :
    ∃ a', Matches lz4 gcm serverOf s' a' ∧ (k, queued) ∈ s'.settled h := by
  have hsettled := settled_of_removed hstep hremoved
  obtain ⟨d, hd, rfl⟩ := Option.map_eq_some_iff.mp hstep
  obtain ⟨a', hm'⟩ := hm.receive hlz4 sized authentic (List.mem_of_getElem? hd)
  exact ⟨a', hm', hsettled⟩

/-- The surroundings of a send at a time in seconds, with a socket that takes everything. -/
def steadyEnv (unixTime : UInt64) : UInt32 → SendEnv :=
  fun _ => ⟨⟨unixTime, none⟩, unixTime, true⟩

variable (lz4 gcm serverOf h) in
/-- A run and a delivery after it that removes an entry, found by evaluation. -/
theorem exists_removed_of_eval (now : H → Nat) (events : List (NetworkEvent K H)) (index : Nat)
    (k : UInt32) (packet : OutgoingPacket)
    (heval : ((machine lz4 gcm serverOf).exec (start now) events).bind (fun s =>
      ((machine lz4 gcm serverOf).step s (.deliver index)).map fun s' =>
        decide (((s.host h).queue.dispatcher.awaitingAckPackets.lookup k).isSome = true ∧
          (s'.host h).queue.dispatcher.awaitingAckPackets.lookup k = none ∧
          (s.pushed h)[0]? = some packet ∧ s.wire.length < 2 ^ 32)) = some true) :
    ∃ s s' queued, (machine lz4 gcm serverOf).exec (start now) events = some s ∧
      (machine lz4 gcm serverOf).step s (.deliver index) = some s' ∧
      s.Removed s' h k queued ∧ (s.pushed h)[0]? = some packet ∧ s.wire.length < 2 ^ 32 := by
  obtain ⟨s, hexec, hrest⟩ := Option.bind_eq_some_iff.mp heval
  obtain ⟨s', hstep, hfacts⟩ := Option.map_eq_some_iff.mp hrest
  obtain ⟨hbefore, hafter, hpushed, hfew⟩ := of_decide_eq_true hfacts
  obtain ⟨queued, hqueued⟩ := Option.isSome_iff_exists.mp hbefore
  exact ⟨s, s', queued, hexec, hstep, ⟨hqueued, hafter⟩, hpushed, hfew⟩

end Network

end ZetaNet
