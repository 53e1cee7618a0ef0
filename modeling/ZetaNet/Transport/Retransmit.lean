import ZetaNet.Transport.Sends

/-!
# The retry scan

A retransmission repeats a receipt's packet under its number. To the target of the receipt's
copy this adds nothing to the abstract delivery state; a broadcast receipt, though, is
repeated to every peer, and `RetryToAddressee` says when none of them gets a copy that was
another's.
-/

namespace ZetaNet

open PacketDispatcher

variable {K H : Type} [DecidableEq H]

/-! ## Retransmissions -/

section Retransmit

variable {lz4 : Lz4} {gcm : AesGcm K} {crypto : Option K}

/-- The packet of a receipt after a retransmission, or on its way to one. -/
structure SamePush (queued queued' : Queued) : Prop where
  serial : queued'.serial = queued.serial
  copy : ∀ pushed, IsCopyOf queued.packet pushed → IsCopyOf queued'.packet pushed

theorem SamePush.refl (queued : Queued) : SamePush queued queued := ⟨rfl, fun _ => id⟩

theorem SamePush.trans {first second third : Queued} (h : SamePush first second)
    (h' : SamePush second third) : SamePush first third :=
  ⟨h'.serial.trans h.serial, fun pushed hcopy => h'.copy pushed (h.copy pushed hcopy)⟩

variable (lz4 gcm) in
/-- A datagram of a retransmission of `queued` under the number `k`. -/
structure Resent (k : UInt32) (queued : Queued) (sent : Sent H) : Prop where
  push : SamePush queued sent.origin
  sequenceNumber : sent.sequenceNumber = k
  built : ∃ crypto env packetInfo,
    buildPacket lz4 gcm crypto env sent.origin.packet k = (packetInfo, sent.bytes)
  ne_nil : sent.bytes ≠ []

variable (lz4 gcm crypto)

omit [DecidableEq H] in
theorem retransmitTo_spec (target : Target H) (env : SendEnv) (k : UInt32) (queued : Queued) :
    SamePush queued (retransmitTo lz4 gcm crypto target env k queued).1 ∧
    ∀ sent ∈ (retransmitTo lz4 gcm crypto target env k queued).2,
      Resent lz4 gcm k queued sent ∧ sent.target = target ∧ env.sendOk = true := by
  obtain ⟨b, hb⟩ := buildPacket_packet lz4 gcm crypto env.build queued.packet k
  rcases hbuilt : buildPacket lz4 gcm crypto env.build queued.packet k with ⟨packet, bytes⟩
  rw [hbuilt] at hb
  obtain rfl : packet = queued.packet.withCompressed b := hb
  have hsame : SamePush queued { queued with packet := queued.packet.withCompressed b } :=
    ⟨rfl, fun _ hcopy => hcopy.withCompressed b⟩
  unfold retransmitTo
  simp only [hbuilt]
  split
  · exact ⟨hsame, fun sent hsent => absurd hsent List.not_mem_nil⟩
  · rename_i hok
    refine ⟨hsame, fun sent hsent => ?_⟩
    obtain rfl := List.mem_singleton.mp hsent
    obtain ⟨hne, hsendOk⟩ := not_or.mp hok
    exact ⟨⟨.refl queued, rfl, ⟨crypto, env.build, _, hbuilt⟩, hne⟩, rfl, by simpa using hsendOk⟩

omit [DecidableEq H] in
theorem retransmitToEach_spec (env : UInt32 → SendEnv) (k : UInt32) (peers : List (ZPeer H))
    (queued : Queued) :
    SamePush queued (retransmitToEach lz4 gcm crypto env k peers queued).1 ∧
    ∀ sent ∈ (retransmitToEach lz4 gcm crypto env k peers queued).2,
      Resent lz4 gcm k queued sent ∧
        ∃ peer ∈ peers, sent.target = .peer peer.address ∧ (env peer.identifier).sendOk = true := by
  induction peers generalizing queued with
  | nil => exact ⟨.refl queued, fun sent hsent => absurd hsent List.not_mem_nil⟩
  | cons peer peers ih =>
      obtain ⟨hsame, hhead⟩ := retransmitTo_spec lz4 gcm crypto
        (.peer peer.address) (env peer.identifier) k queued
      obtain ⟨hsame', htail⟩ := ih (retransmitTo lz4 gcm crypto (.peer peer.address)
        (env peer.identifier) k queued).1
      refine ⟨hsame.trans hsame', ?_⟩
      intro sent hsent
      rcases List.mem_append.mp hsent with hsent | hsent
      · obtain ⟨hresent, htarget, hok⟩ := hhead sent hsent
        exact ⟨hresent, peer, List.mem_cons_self, htarget, hok⟩
      · obtain ⟨hresent, p, hp, htarget, hok⟩ := htail sent hsent
        exact ⟨⟨hsame.trans hresent.push, hresent.sequenceNumber, hresent.built, hresent.ne_nil⟩,
          p, List.mem_cons_of_mem _ hp, htarget, hok⟩

omit [DecidableEq H] in
theorem samePush_retransmitPacket (peerList : ZPeerMapping H) (env : UInt32 → SendEnv)
    (k : UInt32) (queued : Queued) :
    SamePush queued (retransmitPacket lz4 gcm crypto peerList env k queued).1 := by
  unfold retransmitPacket
  dsimp only
  split
  · exact (retransmitTo_spec lz4 gcm crypto _ _ k queued).1
  · split
    · exact (retransmitToEach_spec lz4 gcm crypto env k _ queued).1
    · split
      · exact (retransmitTo_spec lz4 gcm crypto _ _ k queued).1
      · exact .refl queued

omit [DecidableEq H] in
/-- What a retransmission puts on the wire: copies of the receipt's packet under its number,
to the addressee or, for a broadcast, to every peer the socket accepts. -/
theorem retransmitPacket_spec (peerList : ZPeerMapping H) (env : UInt32 → SendEnv) (k : UInt32)
    (queued : Queued) (server : H) :
    SamePush queued (retransmitPacket lz4 gcm crypto peerList env k queued).1 ∧
    ∀ sent ∈ (retransmitPacket lz4 gcm crypto peerList env k queued).2,
      Resent lz4 gcm k queued sent ∧
        (Addressee server peerList.peerList queued.packet (sent.target.resolve server) ∨
          (queued.packet.destinationPeerId = ZPeerId.toAll ∧
            ∃ peer ∈ peerList.peerList, sent.target.resolve server = peer.address ∧
              (env peer.identifier).sendOk = true)) := by
  unfold retransmitPacket
  by_cases hserver : queued.packet.destinationPeerId = ZPeerId.toServer
  · simp only [if_pos hserver]
    obtain ⟨hsame, hsent⟩ := retransmitTo_spec lz4 gcm crypto
      (Target.server : Target H) (env queued.packet.destinationPeerId) k queued
    refine ⟨hsame, fun sent hmem => ?_⟩
    obtain ⟨hresent, htarget, -⟩ := hsent sent hmem
    exact ⟨hresent, .inl (.inl ⟨hserver, by rw [htarget]; rfl⟩)⟩
  · by_cases hall : queued.packet.destinationPeerId = ZPeerId.toAll
    · simp only [if_neg hserver, if_pos hall]
      obtain ⟨hsame, hsent⟩ := retransmitToEach_spec lz4 gcm crypto env k peerList.peerList queued
      refine ⟨hsame, fun sent hmem => ?_⟩
      obtain ⟨hresent, peer, hpeer, htarget, hok⟩ := hsent sent hmem
      exact ⟨hresent, .inr ⟨hall, peer, hpeer, by rw [htarget]; rfl, hok⟩⟩
    · simp only [if_neg hserver, if_neg hall]
      cases hpeer : peerList.getPeer queued.packet.destinationPeerId with
      | none => exact ⟨.refl queued, fun sent hsent => absurd hsent List.not_mem_nil⟩
      | some peer =>
          obtain ⟨hmem, hid⟩ := ZPeerMapping.getPeer_eq_some.mp hpeer
          obtain ⟨hsame, hsent⟩ := retransmitTo_spec lz4 gcm crypto (Target.peer peer.address)
            (env queued.packet.destinationPeerId) k queued
          refine ⟨hsame, fun sent hsent' => ?_⟩
          obtain ⟨hresent, htarget, -⟩ := hsent sent hsent'
          exact ⟨hresent, .inl (.inr ⟨hserver, hall, peer, hmem, hid, by rw [htarget]; rfl⟩)⟩

/-- The retry scan repeats the entry: its age is past the resend interval and within the
budget. -/
def Due (now : UInt32) (queued : Queued) : Prop :=
  ¬ now - queued.packet.lastSendTime > kDropAfterSeconds ∧
    now - queued.packet.lastSendTime > kResendIntervalSeconds

omit [DecidableEq H] in
/-- The three things the scan does with an entry: nothing, dropping it, repeating it. -/
theorem retryEntry_cases (peerList : ZPeerMapping H) (now k : UInt32) (env : UInt32 → SendEnv)
    (queue : ZPacketQueue) :
    queue.retryEntry lz4 gcm crypto peerList now k env = (queue, []) ∨
    (∃ queued, queue.dispatcher.awaitingAckPackets.lookup k = some queued ∧
      now - queued.packet.lastSendTime > kDropAfterSeconds ∧
      queue.retryEntry lz4 gcm crypto peerList now k env =
        ({ queue with
            dispatcher :=
              { queue.dispatcher with
                awaitingAckPackets := queue.dispatcher.awaitingAckPackets.erase k
                awaitingAckPacketCount := queue.dispatcher.awaitingAckPacketCount - 1
                awaitingAckBytes :=
                  queue.dispatcher.awaitingAckBytes - queued.packet.heapData.length } }, [])) ∨
    (∃ queued, queue.dispatcher.awaitingAckPackets.lookup k = some queued ∧ Due now queued ∧
      ∀ queued' sent, retransmitPacket lz4 gcm crypto peerList env k queued = (queued', sent) →
        queue.retryEntry lz4 gcm crypto peerList now k env =
          ({ queue with
              dispatcher :=
                { queue.dispatcher with
                  awaitingAckPackets := queue.dispatcher.awaitingAckPackets.insert k
                    { queued' with packet := { queued'.packet with lastSendTime := now } } } },
            sent)) := by
  unfold ZPacketQueue.retryEntry
  cases hlookup : queue.dispatcher.awaitingAckPackets.lookup k with
  | none => exact .inl (by simp only [hlookup])
  | some queued =>
      simp only [hlookup]
      split
      · rename_i hdrop
        exact .inr (.inl ⟨queued, rfl, hdrop, rfl⟩)
      · rename_i hbudget
        split
        · rename_i hinterval
          refine .inr (.inr ⟨queued, rfl, ⟨hbudget, hinterval⟩, fun queued' sent hsent => ?_⟩)
          rw [hsent]
        · exact .inl rfl

end Retransmit

/-! ## Retries on the network -/

namespace Network

variable {lz4 : Lz4} {gcm : AesGcm K} {serverOf : H → H} {s : Network K H}
  {a : DeliveryState H} {h : H}

/-- No retry sends the copy of a broadcast to a peer other than the one the copy was made for:
wherever a due broadcast receipt goes out again, its number was dispatched to that peer. -/
def RetryToAddressee (s : Network K H) : NetworkEvent K H → Prop
  | .retry h now seqNum env =>
      ∀ queued, (s.host h).queue.dispatcher.awaitingAckPackets.lookup seqNum = some queued →
        Due now queued → queued.packet.destinationPeerId = ZPeerId.toAll →
        ∀ peer ∈ (s.host h).peerList.peerList, (env peer.identifier).sendOk = true →
          ∀ n, ∀ d ∈ s.wire, d.Dispatched h seqNum n → d.target = peer.address
  | _ => True

/-- A host whose receipts are still copies of its pushes, after it sent copies that exist. -/
theorem Matches.afterRetry (hm : Matches lz4 gcm serverOf s a) {receipts : Receipts}
    {count bytes : Nat} {sent : List (Sent H)}
    (hreceipts : ∀ {k queued}, receipts.lookup k = some queued →
      ReceiptOk h (serverOf h) (s.host h).peerList.peerList (s.pushed h) a k queued)
    (hsent : ∀ x ∈ sent, DatagramOk lz4 gcm (s.pushed h) a (datagramOf serverOf h x)) :
    Matches lz4 gcm serverOf
      (s.afterSend serverOf h
        ({ (s.host h).queue with
            dispatcher :=
              ⟨(s.host h).queue.dispatcher.nextOutgoingSequenceNumber, receipts, count, bytes⟩ },
          sent)) a := by
  refine { hm with host := ?_, wire := ?_, copy_wire := ?_ }
  · intro h'
    by_cases hh : h' = h
    · subst hh
      unfold HostMatches
      rw [host_afterSend_self]
      have hhost := (hm.host h').frame (.refl a) rfl rfl
        (show s.wire.length ≤ (s.wire ++ sent.map (datagramOf serverOf h')).length by
          rw [List.length_append]
          exact Nat.le_add_right _ _)
      exact { hhost with receipts := hreceipts }
    · exact hm.host_of_ne (.refl a) hh rfl rfl _
  · intro d hd
    rcases List.mem_append.mp hd with hd | hd
    · exact hm.wire d hd
    · obtain ⟨x, hx, rfl⟩ := List.mem_map.mp hd
      exact hsent x hx
  · intro h' k b n hcopy
    obtain ⟨d, hd, hfields⟩ := hm.copy_wire hcopy
    exact ⟨d, List.mem_append_left _ hd, hfields⟩

/-- One entry of the retry scan: dropped, repeated to the target of its copy, or left. -/
theorem Matches.retryEntry (hm : Matches lz4 gcm serverOf s a) {now k : UInt32}
    {env : UInt32 → SendEnv} (hretry : s.RetryToAddressee (.retry h now k env)) :
    Matches lz4 gcm serverOf
      (s.afterSend serverOf h
        ((s.host h).queue.retryEntry lz4 gcm (s.host h).crypto (s.host h).peerList now k env))
      a := by
  have hhost := hm.host h
  rcases retryEntry_cases lz4 gcm (s.host h).crypto (s.host h).peerList now k env
      (s.host h).queue with heq | ⟨queued, hlookup, -, heq⟩ | ⟨queued, hlookup, hdue, heq⟩
  · rw [heq]
    exact hm.afterRetry hhost.receipts fun x hx => absurd hx List.not_mem_nil
  · rw [heq]
    refine hm.afterRetry ?_ fun x hx => absurd hx List.not_mem_nil
    intro j receipt hj
    by_cases hjk : j = k
    · subst hjk
      rw [AList.lookup_erase] at hj
      cases hj
    · rw [AList.lookup_erase_ne hjk] at hj
      exact hhost.receipts hj
  · obtain ⟨hsame, hsent⟩ := retransmitPacket_spec lz4 gcm (s.host h).crypto
      (s.host h).peerList env k queued (serverOf h)
    obtain ⟨n, b, hn, ⟨pushed, hpushed, hpacket⟩, hreliable, hcopy, haddressee⟩ :=
      hhost.receipts hlookup
    rw [heq _ _ rfl]
    refine hm.afterRetry ?_ ?_
    · -- the entry keeps its push, its number and its target
      intro j receipt hj
      by_cases hjk : j = k
      · subst hjk
        rw [AList.lookup_insert] at hj
        obtain rfl := Option.some.inj hj
        have hcopy' := hsame.copy pushed hpacket
        have hdest := hcopy'.destination.trans hpacket.destination.symm
        refine ⟨n, b, hsame.serial.trans hn, ⟨pushed, hpushed, hcopy'.type, hcopy'.data,
          hcopy'.reliable, hcopy'.destination⟩, ?_, hcopy, fun hall => ?_⟩
        · exact hcopy'.reliable.trans (hpacket.reliable.symm.trans hreliable)
        · exact (haddressee (by rw [← hdest]; exact hall)).congr hdest
      · rw [AList.lookup_insert_ne hjk] at hj
        exact hhost.receipts hj
    · intro x hx
      obtain ⟨hresent, htarget⟩ := hsent x hx
      have hb : x.target.resolve (serverOf h) = b := by
        rcases htarget with hunicast | ⟨hall, peer, hpeer, htarget, hok⟩
        · exact Addressee.unique hunicast (haddressee hunicast.ne_toAll)
        · -- a broadcast: the peer is the one the copy was made for
          obtain ⟨d, hd, hfirst, hdtarget⟩ := hm.copy_wire hcopy
          rw [htarget, ← hdtarget]
          exact (hretry queued hlookup hdue hall peer hpeer hok n d hd hfirst).symm
      obtain ⟨crypto, build, packetInfo, hbuilt⟩ := hresent.built
      rw [← hresent.sequenceNumber] at hbuilt
      refine .of_push ⟨crypto, build, packetInfo, hbuilt⟩ hresent.ne_nil
        (hresent.push.serial.trans hn) ⟨pushed, hpushed, hresent.push.copy pushed hpacket⟩
        fun _ => ?_
      show a.copy h x.sequenceNumber = some (x.target.resolve (serverOf h), n)
      rw [hresent.sequenceNumber, hb]
      exact hcopy

end Network

end ZetaNet
