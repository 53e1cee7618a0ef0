import ZetaNet.Transport.Reception
import ZetaNet.Transport.Sends

/-!
# Receiving

The arrival of a datagram keeps the relation to the abstract delivery state: the first
arrival of a reliable copy is an acceptance there, every other arrival is nothing. Each
reliable arrival queues an acknowledgement of a number that is seen by then; the arrival of
an acknowledgement removes a receipt whose copy its sender has seen.
-/

namespace ZetaNet

open Wire

variable {K H : Type} [DecidableEq H]

/-! ## The queues -/

section Outgoing

variable (queue : ZPacketQueue)

theorem outgoing_enqueueOutgoing (channel : PacketChannelType) (queued : Queued)
    (priority : PacketPriority) :
    (queue.enqueueOutgoing channel queued priority).outgoing.Perm (queued :: queue.outgoing) := by
  have hcons := PriorityMPSCQueue.toList_enqueue_perm queued priority
    (queue.channelOutgoingQueues channel)
  cases channel with
  | control =>
      exact ((hcons.append_right _).append_right _)
  | data =>
      exact ((hcons.append_left _).trans List.perm_middle).append_right _

/-- The acknowledgement branch removes nothing, or the entry of the number, if its destination
matches. -/
theorem settleReceipt_cases (source k : UInt32) :
    queue.settleReceipt source k = (queue, none) ∨
    ∃ queued, queue.dispatcher.awaitingAckPackets.lookup k = some queued ∧
      queue.settleReceipt source k =
        ({ queue with
            dispatcher :=
              { queue.dispatcher with
                awaitingAckPackets := queue.dispatcher.awaitingAckPackets.erase k
                awaitingAckPacketCount := queue.dispatcher.awaitingAckPacketCount - 1
                awaitingAckBytes :=
                  queue.dispatcher.awaitingAckBytes - queued.packet.heapData.length } },
          some (k, queued)) := by
  unfold ZPacketQueue.settleReceipt
  cases hlookup : queue.dispatcher.awaitingAckPackets.lookup k with
  | none => exact .inl (by simp only [hlookup])
  | some queued =>
      simp only [hlookup]
      split
      · exact .inr ⟨queued, rfl, rfl⟩
      · exact .inl rfl

/-- A reliable packet that acknowledges nothing itself: an acknowledgement is queued, and the
packet dropped if its number is known, handed on otherwise. -/
theorem receivePacket_reliable (encrypted : Bool) {pack : IncomingPacket}
    (hreliable : pack.flags.reliable = true) (hack : pack.acknowledgementNumber = 0) :
    let acked := queue.enqueueOutgoing .control
      ⟨ZPacketQueue.ackPacket encrypted pack.sourcePeerId pack.sequenceNumber, none⟩ .high
    let seqs := queue.receivedReliableSeqs pack.sourcePeerId
    (pack.sequenceNumber ∈ seqs ∧
      queue.receivePacket encrypted pack = ⟨acked, none, none⟩) ∨
    (pack.sequenceNumber ∉ seqs ∧
      queue.receivePacket encrypted pack =
        ⟨{ acked with
            receivedReliableSeqs := Function.update queue.receivedReliableSeqs pack.sourcePeerId
              (insert pack.sequenceNumber seqs) }.enqueueIncoming pack, some pack, none⟩) := by
  have hqueue : queue.addAwaitingAckPacket encrypted pack.sourcePeerId pack.sequenceNumber
      pack.acknowledgementNumber =
        (queue.enqueueOutgoing .control
          ⟨ZPacketQueue.ackPacket encrypted pack.sourcePeerId pack.sequenceNumber, none⟩ .high,
          none) := by
    rw [ZPacketQueue.addAwaitingAckPacket, if_pos hack]
  unfold ZPacketQueue.receivePacket
  rw [if_pos hreliable, hqueue]
  by_cases hold : pack.sequenceNumber ∈ queue.receivedReliableSeqs pack.sourcePeerId
  · exact .inl ⟨hold, if_pos hold⟩
  · exact .inr ⟨hold, if_neg hold⟩

theorem receivedReliableSeqs_addAwaitingAckPacket (encrypted : Bool)
    (returnAddress sequenceNumber ackNumber : UInt32) :
    (queue.addAwaitingAckPacket encrypted returnAddress sequenceNumber
      ackNumber).1.receivedReliableSeqs = queue.receivedReliableSeqs := by
  unfold ZPacketQueue.addAwaitingAckPacket
  dsimp only
  split
  · rfl
  · rcases settleReceipt_cases (queue.enqueueOutgoing .control
      ⟨ZPacketQueue.ackPacket encrypted returnAddress sequenceNumber, none⟩ .high) returnAddress
      ackNumber with hsame | ⟨_, -, hsettled⟩
    · rw [hsame]
      rfl
    · rw [hsettled]
      rfl

/-- A packet that is no acknowledgement goes on its queue unless it is a duplicate. -/
theorem enqueued_receivePacket (encrypted : Bool) (pack : IncomingPacket) :
    (queue.receivePacket encrypted pack).enqueued =
      if pack.flags.reliable = true ∧
          pack.sequenceNumber ∈ queue.receivedReliableSeqs pack.sourcePeerId then none
      else some pack := by
  unfold ZPacketQueue.receivePacket
  by_cases hreliable : pack.flags.reliable = true
  · have hseqs := receivedReliableSeqs_addAwaitingAckPacket queue encrypted pack.sourcePeerId
      pack.sequenceNumber pack.acknowledgementNumber
    rw [if_pos hreliable]
    simp only [hseqs, hreliable, true_and]
    split <;> rfl
  · rw [if_neg hreliable, if_neg (fun h => hreliable h.1)]

theorem enqueued_receiveAcknowledgement (pack : IncomingPacket) :
    (queue.receiveAcknowledgement pack).enqueued = none := by
  unfold ZPacketQueue.receiveAcknowledgement
  split <;> rfl

omit [DecidableEq H] in
/-- The incoming queues take the packet of a result, unless it acknowledges or repeats one. -/
theorem enqueued_receivedFrom (encrypted : Bool) (packet : IncomingPacket) (peer : ZPeer H) :
    (queue.processReceived encrypted (receivedFrom packet (some peer))).enqueued =
      if packet.type = PacketType.acknowledgement ∨ packet.flags.reliable = true ∧
          packet.sequenceNumber ∈ queue.receivedReliableSeqs peer.identifier then none
      else some { packet with sourcePeerId := peer.identifier } := by
  unfold receivedFrom
  by_cases hack : packet.type = PacketType.acknowledgement
  · rw [if_pos (.inl hack)]
    simp only [if_pos hack]
    exact enqueued_receiveAcknowledgement ..
  · simp only [if_neg hack, or_iff_right hack]
    exact enqueued_receivePacket ..

end Outgoing

theorem ackedSeq_leU32 (k : UInt32) : ZPacketQueue.ackedSeq (leU32 k) = some k := by
  have hload := loadU32_front [] k
  rw [List.append_nil] at hload
  rw [ZPacketQueue.ackedSeq, if_pos (by rw [length_leU32]), hload]

/-! ## The host -/

section Host

variable {h server : H} {peerList : ZPeerMapping H} {dispatcher : PacketDispatcher}
  {outgoing : List Queued} {seqs : UInt32 → Finset UInt32} {log : List OutgoingPacket}
  {settled : List (UInt32 × Queued)} {sent : Nat} {a : DeliveryState H}

omit [DecidableEq H] in
/-- The removal of an acknowledged entry. -/
theorem HostOk.settle {k : UInt32} {queued : Queued} {count bytes : Nat}
    (hok : HostOk h server peerList dispatcher outgoing seqs log settled sent a)
    (hlookup : dispatcher.awaitingAckPackets.lookup k = some queued)
    (hseen : ∀ b n, a.copy h k = some (b, n) → k ∈ a.seen b h) :
    HostOk h server peerList
      ⟨dispatcher.nextOutgoingSequenceNumber, dispatcher.awaitingAckPackets.erase k, count, bytes⟩
      outgoing seqs log (settled ++ [(k, queued)]) sent a := by
  refine { hok with receipts := ?_, settled := ?_ }
  · intro j receipt hj
    by_cases hjk : j = k
    · subst hjk
      rw [AList.lookup_erase] at hj
      cases hj
    · rw [AList.lookup_erase_ne hjk] at hj
      exact hok.receipts hj
  · intro entry hentry
    rcases List.mem_append.mp hentry with hentry | hentry
    · exact hok.settled entry hentry
    · rw [List.mem_singleton.mp hentry]
      exact ⟨hok.receipts hlookup, hseen⟩

/-- The acceptance of a new number from a peer. -/
theorem HostOk.accept {peer : ZPeer H} {k : UInt32} {n : Nat}
    (hok : HostOk h server peerList dispatcher outgoing seqs log settled sent a)
    (hpeer : peer ∈ peerList.peerList) :
    HostOk h server peerList dispatcher outgoing
      (Function.update seqs peer.identifier (insert k (seqs peer.identifier))) log settled sent
      (a.accept peer.address k h n) := by
  have hle := Delivery.State.le_accept a peer.address k h n
  refine
    { hok with
      queued := fun q hq => (hok.queued q hq).mono (List.Subset.refl _) List.prefix_rfl hle
        fun _ _ _ _ hk => hk
      receipts := fun hk => (hok.receipts hk).mono (List.Subset.refl _) List.prefix_rfl hle
      settled := fun entry hmem =>
        (hok.settled entry hmem).mono (List.Subset.refl _) List.prefix_rfl hle
      seen := ?_
      unseen := ?_
      unused := ?_ }
  · intro p hp j
    rw [Delivery.State.mem_seen_accept, Function.update_apply]
    -- one peer, one id, one address: the set grows where the abstract one does
    by_cases hid : p.identifier = peer.identifier
    · obtain rfl := ZPeerMapping.eq_of_identifier_eq hp hpeer hid
      rw [if_pos rfl, Finset.mem_insert, hok.seen p hp j]
      simp
    · have haddr : p.address ≠ peer.address := fun heq =>
        hid (congrArg ZPeer.identifier (hok.grown.distinct.eq hp hpeer heq))
      rw [if_neg hid, hok.seen p hp j]
      simp [haddr]
  · intro b hb
    have hne : b ≠ peer.address := fun heq => hb peer hpeer heq.symm
    rw [← hok.unseen b hb]
    ext j
    rw [Delivery.State.mem_seen_accept]
    simp [hne]
  · intro id hid
    have hne : id ≠ peer.identifier := by
      rintro rfl
      exact absurd (peerList.ids_lt peer hpeer) (UInt32.not_lt.mpr hid)
    rw [Function.update_of_ne hne]
    exact hok.unused id hid

omit [DecidableEq H] in
/-- One more acknowledgement in the queue, for a number seen from the peer. -/
theorem HostOk.ack {queue queue' : ZPacketQueue} {peer : ZPeer H} {k : UInt32}
    {encrypted : Bool}
    (hok : HostOk h server peerList dispatcher queue.outgoing seqs log settled sent a)
    (hpeer : peer ∈ peerList.peerList) (hseen : k ∈ a.seen h peer.address)
    (houtgoing : queue'.outgoing = (queue.enqueueOutgoing .control
      ⟨ZPacketQueue.ackPacket encrypted peer.identifier k, none⟩ .high).outgoing) :
    HostOk h server peerList dispatcher queue'.outgoing seqs log settled sent a := by
  rw [houtgoing]
  refine (hok.cons_ack rfl ?_).perm (outgoing_enqueueOutgoing _ _ _ _).symm
  exact ⟨k, isAck_ackPacket encrypted peer.identifier k, peer, hpeer, rfl, hseen⟩

end Host

/-! ## The network -/

namespace Network

variable {lz4 : Lz4} {gcm : AesGcm K} {serverOf : H → H} {s : Network K H}
  {a a' : DeliveryState H} {h : H}

/-- A turn of `ProcessReceiving` at `h`, from what it does to `h` and to the logs. -/
theorem Matches.afterReceive (hm : Matches lz4 gcm serverOf s a) {host : Host K H}
    {enqueued : List (Enqueued H)} {settled : List (UInt32 × Queued)}
    (hsafe : Delivery.Safe a') (hle : a.Le a') (hcopy : a'.copy = a.copy)
    (hseen : ∀ h', h' ≠ h → a'.seen h' = a.seen h')
    (hdelivered : ∀ h', a'.delivered h' =
      if h' = h then a.delivered h ++ enqueued.filterMap Enqueued.delivered else a.delivered h')
    (henqueued : ∀ e ∈ enqueued, EnqueuedOk (s.pushed e.source) e)
    (hhost : HostOk h (serverOf h) host.peerList host.queue.dispatcher host.queue.outgoing
      host.queue.receivedReliableSeqs (s.pushed h) (s.settled h ++ settled) s.wire.length a') :
    Matches lz4 gcm serverOf (s.afterReceive h host enqueued settled) a' where
  safe := hsafe
  host h' := by
    unfold HostMatches Network.afterReceive
    by_cases hh : h' = h
    · subst hh
      simp only [host_setHost_self, Function.update_self]
      exact hhost
    · simp only [host_setHost_of_ne hh, Function.update_of_ne hh]
      exact (hm.host h').frame hle (by rw [hcopy]) (hseen h' hh) le_rfl
  wire d hd := (hm.wire d hd).mono List.prefix_rfl hle
  copy_wire hk := hm.copy_wire (by rwa [hcopy] at hk)
  delivered h' := by
    rw [hdelivered h']
    unfold Network.afterReceive
    by_cases hh : h' = h
    · subst hh
      simp only [if_pos, Function.update_self, List.filterMap_append, hm.delivered h']
    · simp only [if_neg hh, Function.update_of_ne hh, hm.delivered h']
  enqueued h' e he := by
    unfold Network.afterReceive at he
    by_cases hh : h' = h
    · subst hh
      simp only [Function.update_self] at he
      rcases List.mem_append.mp he with he | he
      · exact hm.enqueued h' e he
      · exact henqueued e he
    · simp only [Function.update_of_ne hh] at he
      exact hm.enqueued h' e he

/-- A turn that adds no acceptance to the abstract state. -/
theorem Matches.afterReceive_same (hm : Matches lz4 gcm serverOf s a) {host : Host K H}
    {enqueued : List (Enqueued H)} {settled : List (UInt32 × Queued)}
    (hnone : enqueued.filterMap Enqueued.delivered = [])
    (henqueued : ∀ e ∈ enqueued, EnqueuedOk (s.pushed e.source) e)
    (hhost : HostOk h (serverOf h) host.peerList host.queue.dispatcher host.queue.outgoing
      host.queue.receivedReliableSeqs (s.pushed h) (s.settled h ++ settled) s.wire.length a) :
    Matches lz4 gcm serverOf (s.afterReceive h host enqueued settled) a := by
  refine hm.afterReceive hm.safe (.refl a) rfl (fun _ _ => rfl) ?_ henqueued hhost
  intro h'
  rw [hnone, List.append_nil]
  split
  · rename_i hh
    rw [hh]
  · rfl

section Receive

variable {d : Datagram H} {peerList : ZPeerMapping H} {peer : ZPeer H} {pack : IncomingPacket}
  {n : Nat}

/-- A copy of a push arrives: put on the incoming queue when it is unreliable or new, and
acknowledged when it is reliable. -/
theorem Matches.receivePacket (hm : Matches lz4 gcm serverOf s a) (encrypted : Bool)
    (hhost : HostOk d.target (serverOf d.target) peerList (s.host d.target).queue.dispatcher
      (s.host d.target).queue.outgoing (s.host d.target).queue.receivedReliableSeqs
      (s.pushed d.target) (s.settled d.target) s.wire.length a)
    (hpeer : peer ∈ peerList.peerList) (haddr : peer.address = d.source)
    (hserial : d.origin.serial = some n)
    (htraced : Traced (s.pushed d.source) d.origin.packet n)
    (hcopy : d.origin.packet.flags.reliable = true →
      a.copy d.source d.sequenceNumber = some (d.target, n))
    (hcarries : Conveys d.origin.packet d.sequenceNumber pack)
    (hsource : pack.sourcePeerId = peer.identifier) :
    let received := (s.host d.target).queue.receivePacket encrypted pack
    ∃ a', Matches lz4 gcm serverOf
      (s.afterReceive d.target { s.host d.target with queue := received.queue, peerList }
        (received.enqueued.toList.map (⟨d.source, d.origin.serial, ·⟩))
        received.settled.toList) a' := by
  obtain ⟨pushed, hpushed, hpacket⟩ := htraced
  have hentry : EnqueuedOk (s.pushed d.source) ⟨d.source, d.origin.serial, pack⟩ :=
    ⟨n, pushed, hserial, hpushed, hcarries.type.trans hpacket.type,
      hcarries.data.trans hpacket.data, hcarries.reliable.trans hpacket.reliable⟩
  have hreliable := hcarries.reliable
  simp only
  by_cases hflag : pack.flags.reliable = true
  · rw [hflag] at hreliable
    have hnumber : pack.sequenceNumber = d.sequenceNumber := by
      rw [hcarries.sequenceNumber, carriedSequence, if_pos hreliable.symm]
    -- a push is no acknowledgement, so it carries no acknowledgement number
    have hack : pack.acknowledgementNumber = 0 := by
      have htype : d.origin.packet.type ≠ PacketType.acknowledgement := by
        rw [hpacket.type]
        exact (hm.host d.source).noAck pushed (List.mem_of_getElem? hpushed)
      rw [hcarries.acknowledgementNumber, carriedAcknowledgement, if_pos hreliable.symm,
        acknowledgementField, if_neg htype]
    have hcopied := hcopy hreliable.symm
    have hseqs := hhost.seen peer hpeer pack.sequenceNumber
    rw [← hsource, haddr] at hseqs
    rw [← hnumber] at hcopied
    rcases receivePacket_reliable (s.host d.target).queue encrypted hflag hack with
      ⟨hold, heq⟩ | ⟨hold, heq⟩
    · -- a repetition: acknowledged again and dropped
      rw [heq]
      refine ⟨a, hm.afterReceive_same rfl (fun e he => absurd he List.not_mem_nil) ?_⟩
      rw [Option.toList_none, List.append_nil]
      refine hhost.ack hpeer (k := pack.sequenceNumber) ?_ (by rw [hsource])
      rw [haddr]
      exact hseqs.mp hold
    · have hnew : pack.sequenceNumber ∉ a.seen d.target d.source := fun h => hold (hseqs.mpr h)
      have hdelivered : Enqueued.delivered ⟨d.source, d.origin.serial, pack⟩ =
          some (d.source, n) := by
        rw [Enqueued.delivered, if_pos hflag, hserial]
        rfl
      rw [heq]
      refine ⟨a.accept d.source pack.sequenceNumber d.target n,
        hm.afterReceive (hm.safe.accept hcopied hnew) (Delivery.State.le_accept ..) rfl
          (fun h' hh => Function.update_of_ne hh _ _) (fun h' => ?_) ?_ ?_⟩
      · rw [Delivery.State.delivered_accept, Option.toList_some, List.map_singleton,
          List.filterMap_cons_some hdelivered, List.filterMap_nil]
      · intro e he
        obtain rfl := List.mem_singleton.mp he
        exact hentry
      · rw [Option.toList_none, List.append_nil, hsource]
        have haccept := hhost.accept (k := pack.sequenceNumber) (n := n) hpeer
        rw [haddr] at haccept
        refine haccept.ack hpeer (k := pack.sequenceNumber) ?_ (by rw [← hsource]; rfl)
        rw [haddr]
        exact (Delivery.State.mem_seen_accept ..).mpr (.inl ⟨rfl, rfl, rfl⟩)
  · have heq : (s.host d.target).queue.receivePacket encrypted pack =
        ⟨(s.host d.target).queue.enqueueIncoming pack, some pack, none⟩ := if_neg hflag
    rw [heq]
    refine ⟨a, hm.afterReceive_same ?_ ?_ ?_⟩
    · simp [Enqueued.delivered, hflag]
    · intro e he
      obtain rfl := List.mem_singleton.mp he
      exact hentry
    · rw [Option.toList_none, List.append_nil]
      exact hhost

/-- An acknowledgement arrives: the entry it removes was for its sender, who has seen it. -/
theorem Matches.receiveAcknowledgement (hm : Matches lz4 gcm serverOf s a)
    (hhost : HostOk d.target (serverOf d.target) peerList (s.host d.target).queue.dispatcher
      (s.host d.target).queue.outgoing (s.host d.target).queue.receivedReliableSeqs
      (s.pushed d.target) (s.settled d.target) s.wire.length a) {k : UInt32}
    (hack : IsAck d.origin.packet k) (hseen : k ∈ a.seen d.source d.target)
    (hcarries : Conveys d.origin.packet d.sequenceNumber pack) :
    let received := (s.host d.target).queue.receiveAcknowledgement pack
    Matches lz4 gcm serverOf
      (s.afterReceive d.target { s.host d.target with queue := received.queue, peerList }
        (received.enqueued.toList.map (⟨d.source, d.origin.serial, ·⟩))
        received.settled.toList) a := by
  have hseq : ZPacketQueue.ackedSeq pack.data = some k := by
    rw [hcarries.data, hack.data, ackedSeq_leU32]
  simp only [ZPacketQueue.receiveAcknowledgement, hseq]
  rcases settleReceipt_cases (s.host d.target).queue pack.sourcePeerId k with
    heq | ⟨queued, hlookup, heq⟩
  · rw [heq]
    refine hm.afterReceive_same rfl (fun e he => absurd he List.not_mem_nil) ?_
    rw [Option.toList_none, List.append_nil]
    exact hhost
  · rw [heq]
    refine hm.afterReceive_same rfl (fun e he => absurd he List.not_mem_nil) ?_
    refine hhost.settle hlookup fun b m hcopy => ?_
    obtain ⟨rfl, -⟩ := hm.safe.confirmed hseen hcopy
    exact hseen

/-- The arrival of any datagram on the wire. -/
theorem Matches.receive (hlz4 : lz4.RoundTrip) (sized : gcm.Sized) (authentic : gcm.Authentic)
    (hm : Matches lz4 gcm serverOf s a) (hd : d ∈ s.wire) :
    ∃ a', Matches lz4 gcm serverOf (s.receive lz4 gcm d) a' := by
  obtain ⟨⟨crypto, env, packetInfo, hbuilt⟩, hne, horigin⟩ := hm.wire d hd
  -- what was sent is not empty, so it is no goodbye
  have htake : d.bytes.take kMaxBufferSize ≠ [] := by
    intro h
    rcases List.take_eq_nil_iff.mp h with h | h
    · exact absurd h (by decide)
    · exact hne h
  have hhost := (hm.host d.target).getOrCreatePeer d.source
  unfold Network.receive receivePackets
  simp only [if_neg htake]
  rcases receiveDatagram_buildPacket hlz4 sized authentic hbuilt hne (s.host d.target).crypto
    initialPack d.source (s.host d.target).peerList with heq | ⟨pack, hcarries, heq⟩
  · rw [heq]
    -- it is rejected, and changes nothing
    refine ⟨a, hm.afterReceive_same rfl (fun e he => absurd he List.not_mem_nil) ?_⟩
    exact (List.append_nil (s.settled d.target)).symm ▸ hm.host d.target
  · rw [heq]
    rcases hpeers : (s.host d.target).peerList.getOrCreatePeer d.source with ⟨found, peerList⟩
    rw [hpeers] at hhost
    cases found with
    -- the peer table is full
    | none =>
        refine ⟨a, hm.afterReceive_same rfl (fun e he => absurd he List.not_mem_nil) ?_⟩
        exact (List.append_nil (s.settled d.target)).symm ▸ hhost
    | some peer =>
        obtain ⟨hpeer, haddr⟩ := ZPeerMapping.getOrCreatePeer_mem hpeers
        have hcarries' : Conveys d.origin.packet d.sequenceNumber
            { pack with sourcePeerId := peer.identifier } :=
          ⟨hcarries.type, hcarries.channel, hcarries.reliable, hcarries.sequenceNumber,
            hcarries.acknowledgementNumber, hcarries.data⟩
        cases hserial : d.origin.serial with
        -- a packet the application pushed
        | some n =>
            rw [hserial] at horigin
            have htype : pack.type ≠ PacketType.acknowledgement := by
              obtain ⟨pushed, hpushed, hpacket⟩ := horigin.1
              rw [hcarries.type, hpacket.type]
              exact (hm.host d.source).noAck pushed (List.mem_of_getElem? hpushed)
            have hstep := hm.receivePacket (s.host d.target).crypto.isSome hhost hpeer
              haddr hserial horigin.1 horigin.2 hcarries' rfl
            rw [hserial] at hstep
            simpa only [receivedFrom, if_neg htype, ZPacketQueue.processReceived] using hstep
        -- an acknowledgement, for a number its sender has seen
        | none =>
            rw [hserial] at horigin
            obtain ⟨k, hack, hseen⟩ := horigin
            have htype : pack.type = PacketType.acknowledgement := hcarries.type.trans hack.type
            have hstep := hm.receiveAcknowledgement hhost hack hseen hcarries'
            rw [hserial] at hstep
            refine ⟨a, ?_⟩
            simpa only [receivedFrom, if_pos htype, ZPacketQueue.processReceived] using hstep

end Receive

end Network

end ZetaNet
