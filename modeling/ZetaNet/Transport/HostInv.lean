import ZetaNet.Lib.Delivery
import ZetaNet.Transport.Queue

/-!
# What holds of a host

The relation between a host and the abstract delivery state: its counter is above the
numbers of its copies, everything it still has to send is unsent, its receipts are copies of
what was pushed, its acknowledgements answer copies it has seen, and the dedup sets are the
seen numbers, one set for each peer. Pushed packets are known by their place in the log.
-/

namespace ZetaNet

open Wire

variable {H : Type}

/-- The abstract state: packets are numbered by their push. -/
abbrev DeliveryState (H : Type) := Delivery.State H Nat UInt32

/-! ## Packets -/

/-- Everything about the pushed packet but what sending it may change. -/
structure IsCopyOf (packet pushed : OutgoingPacket) : Prop where
  type : packet.type = pushed.type
  data : packet.heapData = pushed.heapData
  reliable : packet.flags.reliable = pushed.flags.reliable
  destination : packet.destinationPeerId = pushed.destinationPeerId

/-- A copy of the `n`-th packet of the log. -/
def Traced (log : List OutgoingPacket) (packet : OutgoingPacket) (n : Nat) : Prop :=
  ∃ pushed, log[n]? = some pushed ∧ IsCopyOf packet pushed

theorem Traced.mono {log log' : List OutgoingPacket} {packet : OutgoingPacket} {n : Nat}
    (h : Traced log packet n) (hlog : log <+: log') : Traced log' packet n := by
  obtain ⟨pushed, hn, hcopy⟩ := h
  obtain ⟨later, rfl⟩ := hlog
  refine ⟨pushed, ?_, hcopy⟩
  rw [List.getElem?_append_left (List.getElem?_eq_some_iff.mp hn).1, hn]

theorem Traced.lt {log : List OutgoingPacket} {packet : OutgoingPacket} {n : Nat}
    (h : Traced log packet n) : n < log.length := by
  obtain ⟨pushed, hn, -⟩ := h
  exact (List.getElem?_eq_some_iff.mp hn).1

/-- The acknowledgement of the number `k`. -/
structure IsAck (packet : OutgoingPacket) (k : UInt32) : Prop where
  type : packet.type = PacketType.acknowledgement
  reliable : packet.flags.reliable = false
  data : packet.heapData = leU32 k

theorem isAck_ackPacket (encrypted : Bool) (returnAddress k : UInt32) :
    IsAck (ZPacketQueue.ackPacket encrypted returnAddress k) k where
  type := rfl
  reliable := rfl
  data := OutgoingPacket.heapData_ofData (by rw [length_leU32]; decide)

/-- The host a packet is addressed to, by the sender's server address and peer table. -/
def Addressee (server : H) (peers : List (ZPeer H)) (packet : OutgoingPacket) (b : H) : Prop :=
  (packet.destinationPeerId = ZPeerId.toServer ∧ b = server) ∨
  (packet.destinationPeerId ≠ ZPeerId.toServer ∧ packet.destinationPeerId ≠ ZPeerId.toAll ∧
    ∃ peer ∈ peers, peer.identifier = packet.destinationPeerId ∧ peer.address = b)

theorem Addressee.mono {server : H} {peers peers' : List (ZPeer H)} {packet : OutgoingPacket}
    {b : H} (h : Addressee server peers packet b) (hpeers : peers ⊆ peers') :
    Addressee server peers' packet b := by
  rcases h with h | ⟨hserver, hall, peer, hpeer, hdest, haddr⟩
  · exact .inl h
  · exact .inr ⟨hserver, hall, peer, hpeers hpeer, hdest, haddr⟩

theorem Addressee.congr {server : H} {peers : List (ZPeer H)} {packet packet' : OutgoingPacket}
    {b : H} (h : Addressee server peers packet b)
    (hdest : packet'.destinationPeerId = packet.destinationPeerId) :
    Addressee server peers packet' b := by
  unfold Addressee at h ⊢
  rwa [hdest]

theorem Addressee.ne_toAll {server : H} {peers : List (ZPeer H)} {packet : OutgoingPacket}
    {b : H} (h : Addressee server peers packet b) :
    packet.destinationPeerId ≠ ZPeerId.toAll := by
  rcases h with ⟨hserver, -⟩ | ⟨-, hall, -⟩
  · rw [hserver]
    decide
  · exact hall

theorem Addressee.unique {server : H} {mapping : ZPeerMapping H} {packet : OutgoingPacket}
    {b b' : H} (h : Addressee server mapping.peerList packet b)
    (h' : Addressee server mapping.peerList packet b') : b = b' := by
  rcases h with ⟨hd, rfl⟩ | ⟨hd, -, p, hp, hid, rfl⟩ <;>
    rcases h' with ⟨hd', rfl⟩ | ⟨hd', -, q, hq, hid', rfl⟩
  · rfl
  · exact absurd hd hd'
  · exact absurd hd' hd
  · rw [ZPeerMapping.eq_of_identifier_eq hp hq (hid.trans hid'.symm)]

/-! ## The parts of a host -/

/-- A packet the host still has to send: a push without any copy, or the acknowledgement of a
number it has seen from the peer it goes to. -/
def QueuedOk (h : H) (peers : List (ZPeer H)) (log : List OutgoingPacket)
    (a : DeliveryState H) (queued : Queued) : Prop :=
  match queued.serial with
  | some n => Traced log queued.packet n ∧ ∀ k b, a.copy h k ≠ some (b, n)
  | none => ∃ k, IsAck queued.packet k ∧ ∃ peer ∈ peers,
      peer.identifier = queued.packet.destinationPeerId ∧ k ∈ a.seen h peer.address

/-- An entry of the receipt map: the copy numbered `k` of a reliable push. A unicast goes to
its addressee. -/
def ReceiptOk (h server : H) (peers : List (ZPeer H)) (log : List OutgoingPacket)
    (a : DeliveryState H) (k : UInt32) (queued : Queued) : Prop :=
  ∃ n b, queued.serial = some n ∧ Traced log queued.packet n ∧
    queued.packet.flags.reliable = true ∧ a.copy h k = some (b, n) ∧
    (queued.packet.destinationPeerId ≠ ZPeerId.toAll → Addressee server peers queued.packet b)

/-- An entry removed as acknowledged: its target has seen the copy. -/
def SettledOk (h server : H) (peers : List (ZPeer H)) (log : List OutgoingPacket)
    (a : DeliveryState H) (entry : UInt32 × Queued) : Prop :=
  ReceiptOk h server peers log a entry.1 entry.2 ∧
    ∀ b n, a.copy h entry.1 = some (b, n) → entry.1 ∈ a.seen b h

/-- The packets a queue still has to send. -/
def ZPacketQueue.outgoing (queue : ZPacketQueue) : List Queued :=
  (queue.channelOutgoingQueues .control).toList ++ (queue.channelOutgoingQueues .data).toList ++
    queue.pendingTasks

/-- What holds of the host `h`, with `log` its pushes, `settled` the entries it has removed as
acknowledged and `sent` a bound on the datagrams it has sent. -/
structure HostOk (h server : H) (peerList : ZPeerMapping H) (dispatcher : PacketDispatcher)
    (outgoing : List Queued) (seqs : UInt32 → Finset UInt32) (log : List OutgoingPacket)
    (settled : List (UInt32 × Queued)) (sent : Nat) (a : DeliveryState H) : Prop where
  grown : peerList.Grown
  noAck : ∀ packet ∈ log, packet.type ≠ PacketType.acknowledgement
  counter_le : dispatcher.nextOutgoingSequenceNumber.toNat ≤ sent
  copy_lt : ∀ {k x}, a.copy h k = some x → k < dispatcher.nextOutgoingSequenceNumber
  copy_serial : ∀ {k b n}, a.copy h k = some (b, n) → n < log.length
  queued : ∀ queued ∈ outgoing, QueuedOk h peerList.peerList log a queued
  serials : (outgoing.filterMap Queued.serial).Nodup
  receipts : ∀ {k queued}, dispatcher.awaitingAckPackets.lookup k = some queued →
    ReceiptOk h server peerList.peerList log a k queued
  settled : ∀ entry ∈ settled, SettledOk h server peerList.peerList log a entry
  seen : ∀ peer ∈ peerList.peerList, ∀ k, k ∈ seqs peer.identifier ↔ k ∈ a.seen h peer.address
  unseen : ∀ b, (∀ peer ∈ peerList.peerList, peer.address ≠ b) → a.seen h b = ∅
  unused : ∀ id, peerList.nextId ≤ id → seqs id = ∅

/-! ## What is kept when the rest of the network moves -/

section Frame

variable {h server : H} {peerList : ZPeerMapping H} {peers peers' : List (ZPeer H)}
  {dispatcher : PacketDispatcher} {outgoing outgoing' : List Queued}
  {seqs : UInt32 → Finset UInt32} {log log' : List OutgoingPacket}
  {settled : List (UInt32 × Queued)} {sent sent' : Nat} {a a' : DeliveryState H}

theorem QueuedOk.mono {queued : Queued} (hok : QueuedOk h peers log a queued)
    (hpeers : peers ⊆ peers') (hlog : log <+: log') (hle : a.Le a')
    (hcopy : ∀ n k b, queued.serial = some n → a'.copy h k = some (b, n) →
      a.copy h k = some (b, n)) :
    QueuedOk h peers' log' a' queued := by
  unfold QueuedOk at hok ⊢
  cases hserial : queued.serial with
  | some n =>
      rw [hserial] at hok
      exact ⟨hok.1.mono hlog, fun k b hk => hok.2 k b (hcopy n k b hserial hk)⟩
  | none =>
      rw [hserial] at hok
      obtain ⟨k, hack, peer, hpeer, hid, hseen⟩ := hok
      exact ⟨k, hack, peer, hpeers hpeer, hid, hle.seen hseen⟩

theorem ReceiptOk.mono {k : UInt32} {queued : Queued}
    (hok : ReceiptOk h server peers log a k queued) (hpeers : peers ⊆ peers')
    (hlog : log <+: log') (hle : a.Le a') : ReceiptOk h server peers' log' a' k queued := by
  obtain ⟨n, b, hserial, htraced, hreliable, hcopy, haddressee⟩ := hok
  exact ⟨n, b, hserial, htraced.mono hlog, hreliable, hle.copy hcopy,
    fun hall => (haddressee hall).mono hpeers⟩

theorem SettledOk.mono {entry : UInt32 × Queued}
    (hok : SettledOk h server peers log a entry) (hpeers : peers ⊆ peers') (hlog : log <+: log')
    (hle : a.Le a') : SettledOk h server peers' log' a' entry := by
  refine ⟨hok.1.mono hpeers hlog hle, ?_⟩
  intro b n hcopy
  obtain ⟨n', b', -, -, -, hcopy', -⟩ := hok.1
  obtain ⟨rfl, rfl⟩ := Prod.mk.inj (Option.some.inj ((hle.copy hcopy').symm.trans hcopy))
  exact hle.seen (hok.2 _ _ hcopy')

/-- Another host's step: nothing this host sent or saw changes. -/
theorem HostOk.frame
    (hok : HostOk h server peerList dispatcher outgoing seqs log settled sent a)
    (hle : a.Le a') (hcopy : a'.copy h = a.copy h) (hseen : a'.seen h = a.seen h)
    (hsent : sent ≤ sent') :
    HostOk h server peerList dispatcher outgoing seqs log settled sent' a' where
  grown := hok.grown
  noAck := hok.noAck
  counter_le := le_trans hok.counter_le hsent
  copy_lt hk := hok.copy_lt (by rwa [hcopy] at hk)
  copy_serial hk := hok.copy_serial (by rwa [hcopy] at hk)
  queued queued hmem :=
    (hok.queued queued hmem).mono (List.Subset.refl _) List.prefix_rfl hle
      fun n k b _ hk => by rwa [hcopy] at hk
  serials := hok.serials
  receipts hk := (hok.receipts hk).mono (List.Subset.refl _) List.prefix_rfl hle
  settled entry hmem := (hok.settled entry hmem).mono (List.Subset.refl _) List.prefix_rfl hle
  seen := by
    rw [hseen]
    exact hok.seen
  unseen := by
    rw [hseen]
    exact hok.unseen
  unused := hok.unused

/-- The packets to send in another order. -/
theorem HostOk.perm
    (hok : HostOk h server peerList dispatcher outgoing seqs log settled sent a)
    (hperm : outgoing.Perm outgoing') :
    HostOk h server peerList dispatcher outgoing' seqs log settled sent a :=
  { hok with
    queued := fun queued hmem => hok.queued queued (hperm.mem_iff.mpr hmem)
    serials := ((hperm.filterMap _).nodup_iff).mp hok.serials }

/-- One packet less to send. -/
theorem HostOk.tail {queued : Queued}
    (hok : HostOk h server peerList dispatcher (queued :: outgoing) seqs log settled sent a) :
    HostOk h server peerList dispatcher outgoing seqs log settled sent a :=
  { hok with
    queued := fun q hmem => hok.queued q (List.mem_cons_of_mem _ hmem)
    serials := hok.serials.sublist ((List.sublist_cons_self _ _).filterMap _) }

/-- One more acknowledgement to send. -/
theorem HostOk.cons_ack {queued : Queued}
    (hok : HostOk h server peerList dispatcher outgoing seqs log settled sent a)
    (hnone : queued.serial = none) (hqueued : QueuedOk h peerList.peerList log a queued) :
    HostOk h server peerList dispatcher (queued :: outgoing) seqs log settled sent a :=
  { hok with
    queued := fun q hmem => by
      rcases List.mem_cons.mp hmem with rfl | hmem
      · exact hqueued
      · exact hok.queued q hmem
    serials := by
      rw [List.filterMap_cons_none hnone]
      exact hok.serials }

/-- A push: the log grows by the packet, and the packet waits to be sent. -/
theorem HostOk.push {packet : OutgoingPacket}
    (hok : HostOk h server peerList dispatcher outgoing seqs log settled sent a)
    (htype : packet.type ≠ PacketType.acknowledgement) :
    HostOk h server peerList dispatcher (⟨packet, some log.length⟩ :: outgoing) seqs
      (log ++ [packet]) settled sent a := by
  have hlog : log <+: log ++ [packet] := List.prefix_append _ _
  have hfresh {k : UInt32} {b : H} : a.copy h k ≠ some (b, log.length) :=
    fun hk => absurd (hok.copy_serial hk) (lt_irrefl _)
  refine
    { hok with
      noAck := ?_
      copy_serial := fun hk => lt_of_lt_of_le (hok.copy_serial hk) hlog.length_le
      queued := ?_
      serials := ?_
      receipts := fun hk => (hok.receipts hk).mono (List.Subset.refl _) hlog (.refl a)
      settled := fun entry hmem =>
        (hok.settled entry hmem).mono (List.Subset.refl _) hlog (.refl a) }
  · intro p hp
    rcases List.mem_append.mp hp with hp | hp
    · exact hok.noAck p hp
    · rw [List.mem_singleton.mp hp]
      exact htype
  · intro q hq
    rcases List.mem_cons.mp hq with rfl | hq
    · refine ⟨⟨packet, ?_, ⟨rfl, rfl, rfl, rfl⟩⟩, fun k b => hfresh⟩
      rw [List.getElem?_concat_length]
    · exact (hok.queued q hq).mono (List.Subset.refl _) hlog (.refl a) fun _ _ _ _ hk => hk
  · show (log.length :: outgoing.filterMap Queued.serial).Nodup
    refine List.nodup_cons.mpr ⟨?_, hok.serials⟩
    intro hmem
    obtain ⟨q, hq, hserial⟩ := List.mem_filterMap.mp hmem
    have hqueued := hok.queued q hq
    rw [QueuedOk, hserial] at hqueued
    exact absurd hqueued.1.lt (lt_irrefl _)

/-- A lookup in the peer table, which may add a peer. -/
theorem HostOk.getOrCreatePeer [DecidableEq H]
    (hok : HostOk h server peerList dispatcher outgoing seqs log settled sent a) (address : H) :
    HostOk h server (peerList.getOrCreatePeer address).2 dispatcher outgoing seqs log settled
      sent a := by
  have hpeers : peerList.peerList ⊆ (peerList.getOrCreatePeer address).2.peerList :=
    (ZPeerMapping.prefix_getOrCreatePeer address peerList).subset
  have hgrown := hok.grown.getOrCreatePeer address
  refine
    { hok with
      grown := hgrown
      queued := fun q hq =>
        (hok.queued q hq).mono hpeers List.prefix_rfl (.refl a) fun _ _ _ _ hk => hk
      receipts := fun hk => (hok.receipts hk).mono hpeers List.prefix_rfl (.refl a)
      settled := fun entry hmem =>
        (hok.settled entry hmem).mono hpeers List.prefix_rfl (.refl a)
      seen := ?_
      unseen := fun b hb => hok.unseen b fun peer hpeer => hb peer (hpeers hpeer)
      unused := fun id hid =>
        hok.unused id (UInt32.le_trans (hok.grown.nextId_le address) hid) }
  rcases ZPeerMapping.getOrCreatePeer_cases address peerList with
    ⟨found, heq, -⟩ | ⟨grown, heq, hlist, -, -, -, hnew⟩ | ⟨heq, -⟩
  · rw [heq]
    exact hok.seen
  · -- the new id has an empty set, the new address no seen numbers
    rw [heq, hlist]
    intro peer hpeer k
    rcases List.mem_append.mp hpeer with hpeer | hpeer
    · exact hok.seen peer hpeer k
    · rw [List.mem_singleton.mp hpeer, hok.unused _ (UInt32.le_refl _), hok.unseen address hnew]
      simp
  · rw [heq]
    exact hok.seen

end Frame

end ZetaNet
