import ZetaNet.Packet.RoundTrip
import ZetaNet.Transport.HostInv
import ZetaNet.Transport.Network

/-!
# Sending

The relation between a network and the abstract delivery state (`Matches`), and that a
dispatch keeps it: every datagram of it is a fresh copy in the abstract state.
-/

namespace ZetaNet

open Wire PacketDispatcher

variable {K H : Type} [DecidableEq H]

/-! ## The relation -/

/-- A datagram on the wire: built by its source from a push of its, as the copy for its
target, or the acknowledgement of a number its source has seen from its target. -/
def DatagramOk (lz4 : Lz4) (gcm : AesGcm K) (log : List OutgoingPacket) (a : DeliveryState H)
    (d : Datagram H) : Prop :=
  (∃ crypto env packetInfo,
    buildPacket lz4 gcm crypto env d.origin.packet d.sequenceNumber = (packetInfo, d.bytes)) ∧
  d.bytes ≠ [] ∧
  match d.origin.serial with
  | some n => Traced log d.origin.packet n ∧
      (d.origin.packet.flags.reliable = true →
        a.copy d.source d.sequenceNumber = some (d.target, n))
  | none => ∃ k, IsAck d.origin.packet k ∧ k ∈ a.seen d.source d.target

/-- A logged packet has the type, the payload and the reliable flag of its push. -/
def EnqueuedOk (log : List OutgoingPacket) (e : Enqueued H) : Prop :=
  ∃ n pushed, e.serial = some n ∧ log[n]? = some pushed ∧ e.pack.type = pushed.type ∧
    e.pack.data = pushed.heapData ∧ e.pack.flags.reliable = pushed.flags.reliable

/-- The message a reliable entry hands on. -/
def Enqueued.delivered (e : Enqueued H) : Option (H × Nat) :=
  if e.pack.flags.reliable then e.serial.map (e.source, ·) else none

namespace Network

/-- The host's part of the relation. -/
def HostMatches (serverOf : H → H) (s : Network K H) (a : DeliveryState H) (h : H) : Prop :=
  HostOk h (serverOf h) (s.host h).peerList (s.host h).queue.dispatcher
    (s.host h).queue.outgoing (s.host h).queue.receivedReliableSeqs (s.pushed h) (s.settled h)
    s.wire.length a

/-- The network `s` is in the abstract state `a`. -/
structure Matches (lz4 : Lz4) (gcm : AesGcm K) (serverOf : H → H) (s : Network K H)
    (a : DeliveryState H) : Prop where
  safe : Delivery.Safe a
  host : ∀ h, s.HostMatches serverOf a h
  wire : ∀ d ∈ s.wire, DatagramOk lz4 gcm (s.pushed d.source) a d
  copy_wire : ∀ {h k b n}, a.copy h k = some (b, n) →
    ∃ d ∈ s.wire, d.Dispatched h k n ∧ d.target = b
  delivered : ∀ h, a.delivered h = (s.enqueued h).filterMap Enqueued.delivered
  enqueued : ∀ h, ∀ e ∈ s.enqueued h, EnqueuedOk (s.pushed e.source) e

end Network

omit [DecidableEq H] in
theorem DatagramOk.mono {lz4 : Lz4} {gcm : AesGcm K} {log log' : List OutgoingPacket}
    {a a' : DeliveryState H} {d : Datagram H} (hok : DatagramOk lz4 gcm log a d)
    (hlog : log <+: log') (hle : a.Le a') : DatagramOk lz4 gcm log' a' d := by
  obtain ⟨hbuilt, hne, horigin⟩ := hok
  refine ⟨hbuilt, hne, ?_⟩
  cases hserial : d.origin.serial with
  | some n =>
      rw [hserial] at horigin
      exact ⟨horigin.1.mono hlog, fun hreliable => hle.copy (horigin.2 hreliable)⟩
  | none =>
      rw [hserial] at horigin
      obtain ⟨k, hack, hseen⟩ := horigin
      exact ⟨k, hack, hle.seen hseen⟩

omit [DecidableEq H] in
/-- A datagram that was built from a push. -/
theorem DatagramOk.of_push {lz4 : Lz4} {gcm : AesGcm K} {log : List OutgoingPacket}
    {a : DeliveryState H} {d : Datagram H} {n : Nat}
    (hbuilt : ∃ crypto env packetInfo,
      buildPacket lz4 gcm crypto env d.origin.packet d.sequenceNumber = (packetInfo, d.bytes))
    (hne : d.bytes ≠ []) (hserial : d.origin.serial = some n)
    (htraced : Traced log d.origin.packet n)
    (hcopy : d.origin.packet.flags.reliable = true →
      a.copy d.source d.sequenceNumber = some (d.target, n)) : DatagramOk lz4 gcm log a d := by
  refine ⟨hbuilt, hne, ?_⟩
  rw [hserial]
  exact ⟨htraced, hcopy⟩

/-! ## What a build does to the packet -/

/-- `BuildPacket` changes nothing of the packet but its compressed flag. -/
theorem buildPacket_packet (lz4 : Lz4) (gcm : AesGcm K) (crypto : Option K) (env : BuildEnv)
    (packet : OutgoingPacket) (sequenceNumber : UInt32) :
    ∃ b, (buildPacket lz4 gcm crypto env packet sequenceNumber).1 = packet.withCompressed b := by
  unfold buildPacket
  split
  · exact ⟨packet.flags.compressed, rfl⟩
  · rcases hcompress : compressPayload lz4 packet with ⟨packetInfo, compressed⟩
    obtain ⟨b, rfl⟩ := compressPayload_packet hcompress
    refine ⟨b, ?_⟩
    simp only
    split
    · rfl
    · split
      · rfl
      · split <;> rfl

theorem IsCopyOf.withCompressed {packet pushed : OutgoingPacket} (h : IsCopyOf packet pushed)
    (b : Bool) : IsCopyOf (packet.withCompressed b) pushed :=
  ⟨h.type, h.data, h.reliable, h.destination⟩

/-! ## One dispatch -/

section Dispatch

variable {lz4 : Lz4} {gcm : AesGcm K} {crypto : Option K}

omit [DecidableEq H] in
variable (lz4 gcm crypto) in
/-- A send comes to nothing, or it puts one datagram on the wire and uses up a number. -/
theorem dispatchTo_cases (target : Target H) (env : SendEnv) (queued : Queued)
    (dispatcher : PacketDispatcher) :
    dispatchTo lz4 gcm crypto target env queued dispatcher = (dispatcher, []) ∨
    ∃ packet bytes,
      buildPacket lz4 gcm crypto env.build queued.packet dispatcher.nextOutgoingSequenceNumber =
        (packet, bytes) ∧ bytes ≠ [] ∧
      dispatchTo lz4 gcm crypto target env queued dispatcher =
        ({ dispatcher.addReceiptIfNeeded env { queued with packet } with
            nextOutgoingSequenceNumber := dispatcher.nextOutgoingSequenceNumber + 1 },
          [⟨target, bytes, queued, dispatcher.nextOutgoingSequenceNumber, false⟩]) := by
  unfold dispatchTo
  rcases hbuilt : buildPacket lz4 gcm crypto env.build queued.packet
    dispatcher.nextOutgoingSequenceNumber with ⟨packet, bytes⟩
  simp only [hbuilt]
  split
  · exact .inl rfl
  · rename_i hne
    split
    · exact .inl rfl
    · refine .inr ⟨packet, bytes, rfl, hne, ?_⟩
      rw [nextOutgoingSequenceNumber_addReceiptIfNeeded]

/-- The receipts after a send: the old ones, and one for a reliable packet under the number
used. -/
theorem lookup_addReceiptIfNeeded {env : SendEnv} {queued receipt : Queued}
    {dispatcher : PacketDispatcher} {k : UInt32}
    (h : (dispatcher.addReceiptIfNeeded env queued).awaitingAckPackets.lookup k = some receipt) :
    dispatcher.awaitingAckPackets.lookup k = some receipt ∨
    (k = dispatcher.nextOutgoingSequenceNumber ∧ queued.packet.flags.reliable = true ∧
      receipt.serial = queued.serial ∧ ∀ pushed, IsCopyOf queued.packet pushed →
        IsCopyOf receipt.packet pushed) := by
  unfold addReceiptIfNeeded at h
  simp only at h
  split at h
  · rename_i hreliable
    split at h
    · exact .inl h
    · by_cases hk : k = dispatcher.nextOutgoingSequenceNumber
      · subst hk
        rw [AList.lookup_insert] at h
        obtain rfl := Option.some.inj h
        exact .inr ⟨rfl, hreliable.1, rfl, fun _ hcopy =>
          ⟨hcopy.type, hcopy.data, hcopy.reliable, hcopy.destination⟩⟩
      · rw [AList.lookup_insert_ne hk] at h
        exact .inl h
  · exact .inl h

end Dispatch

/-- The abstract state after `h` sent a packet to `b` under the number `k`. -/
def sentState (a : DeliveryState H) (h : H) (k : UInt32) (b : H) (queued : Queued) :
    DeliveryState H :=
  match queued.serial with
  | some n => if queued.packet.flags.reliable then a.send h k b n else a
  | none => a

/-- What allows `h` to send a packet to `b`: a push that has no copy for `b` yet, to its
addressee, or an acknowledgement for `b`. -/
def Sendable (h server : H) (peers : List (ZPeer H)) (log : List OutgoingPacket)
    (a : DeliveryState H) (b : H) (queued : Queued) : Prop :=
  match queued.serial with
  | some n => Traced log queued.packet n ∧ (∀ k, a.copy h k ≠ some (b, n)) ∧
      (queued.packet.destinationPeerId ≠ ZPeerId.toAll → Addressee server peers queued.packet b)
  | none => ∃ k, IsAck queued.packet k ∧ k ∈ a.seen h b

section SentState

variable {h server : H} {peers : List (ZPeer H)} {log : List OutgoingPacket}
  {a : DeliveryState H} {k : UInt32} {b : H} {queued : Queued}

theorem sentState_le (hfresh : a.copy h k = none) : a.Le (sentState a h k b queued) := by
  unfold sentState
  split
  · split
    · exact Delivery.State.le_send hfresh
    · exact .refl a
  · exact .refl a

theorem sentState_safe (hsafe : Delivery.Safe a) (hfresh : a.copy h k = none)
    (hsend : Sendable h server peers log a b queued) :
    Delivery.Safe (sentState a h k b queued) := by
  unfold sentState
  unfold Sendable at hsend
  cases hserial : queued.serial with
  | none => exact hsafe
  | some n =>
      rw [hserial] at hsend
      simp only
      split
      · exact hsafe.send hfresh hsend.2.1
      · exact hsafe

@[simp] theorem sentState_seen : (sentState a h k b queued).seen = a.seen := by
  unfold sentState
  split
  · split <;> rfl
  · rfl

@[simp] theorem sentState_delivered : (sentState a h k b queued).delivered = a.delivered := by
  unfold sentState
  split
  · split <;> rfl
  · rfl

theorem sentState_copy_of_ne {h' : H} (hne : h' ≠ h) :
    (sentState a h k b queued).copy h' = a.copy h' := by
  unfold sentState
  split
  · split
    · simp [Delivery.State.send, Function.update_of_ne hne]
    · rfl
  · rfl

/-- The copies of the sender: the old ones and the one just sent. -/
theorem sentState_copy {k' : UInt32} {x : H × Nat}
    (hcopy : (sentState a h k b queued).copy h k' = some x) :
    a.copy h k' = some x ∨
      (k' = k ∧ x.1 = b ∧ queued.serial = some x.2 ∧ queued.packet.flags.reliable = true) := by
  unfold sentState at hcopy
  split at hcopy
  · rename_i n hserial
    split at hcopy
    · rename_i hreliable
      rw [Delivery.State.copy_send] at hcopy
      split at hcopy
      · rename_i heq
        obtain rfl := Option.some.inj hcopy
        exact .inr ⟨heq.2, rfl, hserial, hreliable⟩
      · exact .inl hcopy
    · exact .inl hcopy
  · exact .inl hcopy

theorem sentState_copy_self {n : Nat} (hserial : queued.serial = some n)
    (hreliable : queued.packet.flags.reliable = true) :
    (sentState a h k b queued).copy h k = some (b, n) := by
  unfold sentState
  rw [hserial]
  simp [hreliable]

end SentState

/-- The host's side of a send. -/
theorem HostOk.send {lz4 : Lz4} {gcm : AesGcm K} {crypto : Option K} {h server b : H}
    {peerList : ZPeerMapping H}
    {dispatcher : PacketDispatcher} {outgoing : List Queued} {seqs : UInt32 → Finset UInt32}
    {log : List OutgoingPacket} {settled : List (UInt32 × Queued)} {sent : Nat}
    {a : DeliveryState H} {env : SendEnv} {queued : Queued} {packet : OutgoingPacket}
    {bytes : Bytes}
    (hok : HostOk h server peerList dispatcher outgoing seqs log settled sent a)
    (hsend : Sendable h server peerList.peerList log a b queued)
    (hserial : ∀ n, queued.serial = some n → n ∉ outgoing.filterMap Queued.serial)
    (hbuilt : buildPacket lz4 gcm crypto env.build queued.packet
      dispatcher.nextOutgoingSequenceNumber = (packet, bytes))
    (hsent : sent + 1 < 2 ^ 32) :
    HostOk h server peerList
      { dispatcher.addReceiptIfNeeded env { queued with packet } with
        nextOutgoingSequenceNumber := dispatcher.nextOutgoingSequenceNumber + 1 }
      outgoing seqs log settled (sent + 1)
      (sentState a h dispatcher.nextOutgoingSequenceNumber b queued) := by
  have hcounter := hok.counter_le
  have hnext : (dispatcher.nextOutgoingSequenceNumber + 1).toNat =
      dispatcher.nextOutgoingSequenceNumber.toNat + 1 := by
    rw [UInt32.toNat_add, UInt32.toNat_one]
    omega
  have hlt : dispatcher.nextOutgoingSequenceNumber < dispatcher.nextOutgoingSequenceNumber + 1 := by
    rw [UInt32.lt_iff_toNat_lt, hnext]
    omega
  -- the counter's number is fresh, so the new copy forgets no other
  have hfresh : a.copy h dispatcher.nextOutgoingSequenceNumber = none := by
    cases hcopy : a.copy h dispatcher.nextOutgoingSequenceNumber with
    | none => rfl
    | some x => exact absurd (hok.copy_lt hcopy) (UInt32.lt_irrefl _)
  have hle : a.Le (sentState a h dispatcher.nextOutgoingSequenceNumber b queued) :=
    sentState_le hfresh
  have htraced {n : Nat} (hn : queued.serial = some n) : Traced log queued.packet n ∧
      (queued.packet.destinationPeerId ≠ ZPeerId.toAll →
        Addressee server peerList.peerList queued.packet b) := by
    rw [Sendable, hn] at hsend
    exact ⟨hsend.1, hsend.2.2⟩
  refine
    { hok with
      counter_le := by simp only [hnext]; omega
      copy_lt := ?_
      copy_serial := ?_
      queued := ?_
      receipts := ?_
      settled := fun entry hmem =>
        (hok.settled entry hmem).mono (List.Subset.refl _) List.prefix_rfl hle
      seen := by simpa only [sentState_seen] using hok.seen
      unseen := by simpa only [sentState_seen] using hok.unseen }
  · intro k x hk
    rcases sentState_copy hk with hold | ⟨rfl, -⟩
    · exact UInt32.lt_trans (hok.copy_lt hold) hlt
    · exact hlt
  · intro k b' n hk
    rcases sentState_copy hk with hold | ⟨-, -, hn, -⟩
    · exact hok.copy_serial hold
    · exact (htraced hn).1.lt
  · intro q hq
    refine (hok.queued q hq).mono (List.Subset.refl _) List.prefix_rfl hle ?_
    intro n k b' hn hk
    rcases sentState_copy hk with hold | ⟨-, -, hn', -⟩
    · exact hold
    -- a serial number is queued once
    · exact absurd (List.mem_filterMap.mpr ⟨q, hq, hn⟩) (hserial n hn')
  · intro k receipt hk
    rcases lookup_addReceiptIfNeeded hk with hold | ⟨rfl, hreliable, hn, hcopy⟩
    · exact (hok.receipts hold).mono (List.Subset.refl _) List.prefix_rfl hle
    · obtain ⟨c, hc⟩ := buildPacket_packet lz4 gcm crypto env.build queued.packet
        dispatcher.nextOutgoingSequenceNumber
      rw [hbuilt] at hc
      obtain rfl : packet = queued.packet.withCompressed c := hc
      cases hqueued : queued.serial with
      | none =>
          rw [Sendable, hqueued] at hsend
          -- an acknowledgement is not reliable and has no receipt
          obtain ⟨j, hack, -⟩ := hsend
          exact absurd hreliable (by simp [OutgoingPacket.withCompressed, hack.reliable])
      | some n =>
          obtain ⟨⟨pushed, hpushed, hpacket⟩, haddressee⟩ := htraced hqueued
          have hreceipt := hcopy pushed (hpacket.withCompressed c)
          refine ⟨n, b, hn.trans hqueued, ⟨pushed, hpushed, hreceipt⟩, ?_,
            sentState_copy_self hqueued hreliable, ?_⟩
          · rw [hreceipt.reliable, ← hpacket.reliable]
            exact hreliable
          · have hdest : receipt.packet.destinationPeerId = queued.packet.destinationPeerId :=
              hreceipt.destination.trans hpacket.destination.symm
            intro hall
            exact (haddressee (by rwa [hdest] at hall)).congr hdest

/-! ## Dispatches on the network -/

namespace Network

section Dispatch

variable {lz4 : Lz4} {gcm : AesGcm K} {serverOf : H → H} {s : Network K H}
  {a : DeliveryState H} {h : H} (crypto : Option K)

/-- Nobody else notices what a host sends. -/
theorem Matches.host_of_ne (hm : Matches lz4 gcm serverOf s a) {a' : DeliveryState H}
    (hle : a.Le a') {h' : H} (hne : h' ≠ h) (hcopy : a'.copy h' = a.copy h')
    (hseen : a'.seen h' = a.seen h') (result : ZPacketQueue × List (Sent H)) :
    HostMatches serverOf (s.afterSend serverOf h result) a' h' := by
  unfold HostMatches
  rw [host_afterSend_of_ne hne]
  refine (hm.host h').frame hle hcopy hseen ?_
  show s.wire.length ≤ (s.wire ++ result.2.map (datagramOf serverOf h)).length
  rw [List.length_append]
  exact Nat.le_add_right _ _

/-- One dispatch of a sendable packet is a fresh copy in the abstract state, or nothing. -/
theorem Matches.dispatchTo (hm : Matches lz4 gcm serverOf s a) (target : Target H)
    (env : SendEnv) (queued : Queued)
    (hsend : Sendable h (serverOf h) (s.host h).peerList.peerList (s.pushed h) a
      (target.resolve (serverOf h)) queued)
    (hserial : ∀ n, queued.serial = some n →
      n ∉ (s.host h).queue.outgoing.filterMap Queued.serial)
    (hfew : (s.afterDispatch serverOf h
      (PacketDispatcher.dispatchTo lz4 gcm crypto target env queued
        (s.host h).queue.dispatcher)).wire.length < 2 ^ 32) :
    ∃ a', Matches lz4 gcm serverOf
        (s.afterDispatch serverOf h (PacketDispatcher.dispatchTo lz4 gcm crypto target env queued
          (s.host h).queue.dispatcher)) a' ∧
      ∀ {k x}, a'.copy h k = some x →
        a.copy h k = some x ∨ (x.1 = target.resolve (serverOf h) ∧ queued.serial = some x.2) := by
  rcases dispatchTo_cases lz4 gcm crypto target env queued (s.host h).queue.dispatcher with
    heq | ⟨packet, bytes, hbuilt, hne, heq⟩
  -- the socket refused, or nothing was built
  · rw [heq, afterDispatch_nil]
    exact ⟨a, hm, .inl⟩
  · rw [heq] at hfew ⊢
    set b := target.resolve (serverOf h)
    set k := (s.host h).queue.dispatcher.nextOutgoingSequenceNumber
    have hlength : (s.wire ++ [datagramOf serverOf h ⟨target, bytes, queued, k, false⟩]).length =
        s.wire.length + 1 := by simp
    have hfresh : a.copy h k = none := by
      cases hcopy : a.copy h k with
      | none => rfl
      | some x => exact absurd ((hm.host h).copy_lt hcopy) (UInt32.lt_irrefl _)
    have hle : a.Le (sentState a h k b queued) := sentState_le hfresh
    -- the abstract state gains the copy
    refine ⟨sentState a h k b queued, ?_, ?_⟩
    · refine
        { safe := sentState_safe hm.safe hfresh hsend
          host := ?_
          wire := ?_
          copy_wire := ?_
          delivered := fun h' => by
            rw [sentState_delivered]
            exact hm.delivered h'
          enqueued := hm.enqueued }
      -- the hosts: the sender by its own lemma, the others by the frame
      · intro h'
        by_cases hh : h' = h
        · subst hh
          unfold HostMatches
          rw [afterDispatch, host_afterSend_self]
          have hhost := (hm.host h').send hsend hserial hbuilt (by
            rw [← hlength]
            exact hfew)
          rw [← hlength] at hhost
          exact hhost
        · exact hm.host_of_ne hle hh (sentState_copy_of_ne hh) (by rw [sentState_seen]) _
      -- the wire: one more datagram
      · intro d hd
        rcases List.mem_append.mp hd with hd | hd
        · exact (hm.wire d hd).mono List.prefix_rfl hle
        · rw [List.map_singleton, List.mem_singleton] at hd
          subst hd
          refine ⟨⟨crypto, env.build, packet, hbuilt⟩, hne, ?_⟩
          show match queued.serial with
            | some n => Traced (s.pushed h) queued.packet n ∧
                (queued.packet.flags.reliable = true →
                  (sentState a h k b queued).copy h k = some (b, n))
            | none => ∃ j, IsAck queued.packet j ∧ j ∈ (sentState a h k b queued).seen h b
          unfold Sendable at hsend
          cases hqueued : queued.serial with
          | some n =>
              rw [hqueued] at hsend
              exact ⟨hsend.1, sentState_copy_self hqueued⟩
          | none =>
              rw [hqueued] at hsend
              rw [sentState_seen]
              exact hsend
      -- every copy has its datagram
      · intro h' k' b' n hcopy
        have hold (hcopy : a.copy h' k' = some (b', n)) :
            ∃ d ∈ s.wire ++ [datagramOf serverOf h ⟨target, bytes, queued, k, false⟩],
              d.Dispatched h' k' n ∧ d.target = b' := by
          obtain ⟨d, hd, hfields⟩ := hm.copy_wire hcopy
          exact ⟨d, List.mem_append_left _ hd, hfields⟩
        by_cases hh : h' = h
        · subst hh
          rcases sentState_copy hcopy with hcopy | ⟨rfl, hb, hn, -⟩
          · exact hold hcopy
          · exact ⟨_, List.mem_append_right _ (List.mem_singleton.mpr rfl), ⟨rfl, rfl, rfl, hn⟩,
              hb.symm⟩
        · rw [sentState_copy_of_ne hh] at hcopy
          exact hold hcopy
    · intro k' x hcopy
      rcases sentState_copy hcopy with hcopy | ⟨-, hb, hn, -⟩
      · exact .inl hcopy
      · exact .inr ⟨hb, hn⟩

theorem wire_afterDispatch_le (first : PacketDispatcher × List (Sent H))
    (second : PacketDispatcher × List (Sent H)) :
    (s.afterDispatch serverOf h first).wire.length ≤
      ((s.afterDispatch serverOf h first).afterDispatch serverOf h second).wire.length := by
  show (s.afterDispatch serverOf h first).wire.length ≤
    ((s.afterDispatch serverOf h first).wire ++ second.2.map (datagramOf serverOf h)).length
  rw [List.length_append]
  exact Nat.le_add_right _ _

/-- A broadcast: one copy after the other, each for an address that has none yet. -/
theorem Matches.dispatchToEach (hm : Matches lz4 gcm serverOf s a) {env : UInt32 → SendEnv}
    {queued : Queued} {n : Nat} (hn : queued.serial = some n)
    (htraced : Traced (s.pushed h) queued.packet n)
    (hall : queued.packet.destinationPeerId = ZPeerId.toAll)
    (hserial : n ∉ (s.host h).queue.outgoing.filterMap Queued.serial)
    (peers : List (ZPeer H)) (hnodup : (peers.map ZPeer.address).Nodup)
    (hnew : ∀ peer ∈ peers, ∀ k, a.copy h k ≠ some (peer.address, n))
    (hfew : (s.afterDispatch serverOf h
      (PacketDispatcher.dispatchToEach lz4 gcm crypto env queued peers
        (s.host h).queue.dispatcher)).wire.length < 2 ^ 32) :
    ∃ a', Matches lz4 gcm serverOf
      (s.afterDispatch serverOf h (PacketDispatcher.dispatchToEach lz4 gcm crypto env queued peers
        (s.host h).queue.dispatcher)) a' := by
  induction peers generalizing s a with
  | nil =>
      rw [PacketDispatcher.dispatchToEach, afterDispatch_nil]
      exact ⟨a, hm⟩
  | cons peer peers ih =>
      set first := PacketDispatcher.dispatchToOne lz4 gcm crypto peer (env peer.identifier) queued
        (s.host h).queue.dispatcher with hfirst
      -- the first peer, then the rest from the state it leaves
      have hsplit : s.afterDispatch serverOf h
          (PacketDispatcher.dispatchToEach lz4 gcm crypto env queued (peer :: peers)
            (s.host h).queue.dispatcher) =
          (s.afterDispatch serverOf h first).afterDispatch serverOf h
            (PacketDispatcher.dispatchToEach lz4 gcm crypto env queued peers
              ((s.afterDispatch serverOf h first).host h).queue.dispatcher) := by
        rw [afterDispatch_afterDispatch]
        simp only [afterDispatch, host_afterSend_self]
        rfl
      rw [hsplit] at hfew ⊢
      obtain ⟨hhead, hnodup⟩ := List.nodup_cons.mp hnodup
      obtain ⟨a₁, hm₁, hcopies⟩ := hm.dispatchTo crypto (.peer peer.address)
        (env peer.identifier) queued
        (by
          unfold Sendable
          rw [hn]
          exact ⟨htraced, hnew peer List.mem_cons_self, fun h => absurd hall h⟩)
        (by
          intro m hm'
          rw [hn] at hm'
          obtain rfl := Option.some.inj hm'
          exact hserial)
        (lt_of_le_of_lt (wire_afterDispatch_le _ _) hfew)
      refine ih hm₁ htraced ?_ hnodup ?_ hfew
      · rw [afterDispatch, host_afterSend_self]
        exact hserial
      -- the copy just made went to another address
      · intro p hp k hcopy
        rcases hcopies hcopy with hold | ⟨haddr, -⟩
        · exact hnew p (List.mem_cons_of_mem _ hp) k hold
        · exact hhead (List.mem_map.mpr ⟨p, hp, haddr⟩)

/-- The dispatch of a packet the host has taken out of its queues. -/
theorem Matches.dispatchPacket (hm : Matches lz4 gcm serverOf s a) (env : UInt32 → SendEnv)
    (queued : Queued)
    (hqueued : QueuedOk h (s.host h).peerList.peerList (s.pushed h) a queued)
    (hserial : ∀ n, queued.serial = some n →
      n ∉ (s.host h).queue.outgoing.filterMap Queued.serial)
    (hfew : (s.afterDispatch serverOf h
      (PacketDispatcher.dispatchPacket lz4 gcm crypto (s.host h).peerList env queued
        (s.host h).queue.dispatcher)).wire.length < 2 ^ 32) :
    ∃ a', Matches lz4 gcm serverOf
      (s.afterDispatch serverOf h
        (PacketDispatcher.dispatchPacket lz4 gcm crypto (s.host h).peerList env queued
          (s.host h).queue.dispatcher)) a' := by
  have hgrown := (hm.host h).grown
  unfold QueuedOk at hqueued
  unfold PacketDispatcher.dispatchPacket at hfew ⊢
  by_cases hserver : queued.packet.destinationPeerId = ZPeerId.toServer
  · simp only [if_pos hserver] at hfew ⊢
    refine (hm.dispatchTo crypto _ _ _ ?_ hserial hfew).imp fun a' h' => h'.1
    unfold Sendable
    cases hn : queued.serial with
    | some n =>
        rw [hn] at hqueued
        exact ⟨hqueued.1, fun k => hqueued.2 k _, fun _ => .inl ⟨hserver, rfl⟩⟩
    | none =>
        rw [hn] at hqueued
        obtain ⟨k, -, peer, hpeer, hid, -⟩ := hqueued
        -- an acknowledgement goes to a peer, and no peer has a reserved id
        exact absurd (hid.trans hserver) (hgrown.not_reserved hpeer).1
  · by_cases hall : queued.packet.destinationPeerId = ZPeerId.toAll
    · simp only [if_neg hserver, if_pos hall] at hfew ⊢
      cases hn : queued.serial with
      | some n =>
          rw [hn] at hqueued
          exact hm.dispatchToEach crypto hn hqueued.1 hall (hserial n hn) _ hgrown.distinct
            (fun peer _ k => hqueued.2 k _) hfew
      | none =>
          rw [hn] at hqueued
          obtain ⟨k, -, peer, hpeer, hid, -⟩ := hqueued
          exact absurd (hid.trans hall) (hgrown.not_reserved hpeer).2
    · simp only [if_neg hserver, if_neg hall] at hfew ⊢
      cases hpeer : (s.host h).peerList.getPeer queued.packet.destinationPeerId with
      | none =>
          simp only [afterDispatch_nil]
          exact ⟨a, hm⟩
      | some peer =>
          simp only [hpeer] at hfew
          obtain ⟨hmem, hid⟩ := ZPeerMapping.getPeer_eq_some.mp hpeer
          refine (hm.dispatchTo crypto _ _ _ ?_ hserial hfew).imp fun a' h' => h'.1
          unfold Sendable
          cases hn : queued.serial with
          | some n =>
              rw [hn] at hqueued
              exact ⟨hqueued.1, fun k => hqueued.2 k _,
                fun _ => .inr ⟨hserver, hall, peer, hmem, hid, rfl⟩⟩
          | none =>
              rw [hn] at hqueued
              obtain ⟨k, hack, peer', hmem', hid', hseen⟩ := hqueued
              obtain rfl := ZPeerMapping.eq_of_identifier_eq hmem hmem' (hid.trans hid'.symm)
              exact ⟨k, hack, hseen⟩

omit crypto in
/-- A change of one host that keeps its part of the relation. -/
theorem Matches.setHost (hm : Matches lz4 gcm serverOf s a) {host : Host K H}
    (hhost : HostOk h (serverOf h) host.peerList host.queue.dispatcher host.queue.outgoing
      host.queue.receivedReliableSeqs (s.pushed h) (s.settled h) s.wire.length a) :
    Matches lz4 gcm serverOf (s.setHost h host) a := by
  refine { hm with host := ?_ }
  intro h'
  unfold HostMatches
  by_cases hh : h' = h
  · subst hh
    rw [host_setHost_self]
    exact hhost
  · rw [host_setHost_of_ne hh]
    exact hm.host h'

/-- A task of the executor. -/
theorem Matches.runTask (hm : Matches lz4 gcm serverOf s a) {index : Nat}
    {env : UInt32 → SendEnv} {result : ZPacketQueue × List (Sent H)}
    (hrun : (s.host h).queue.runTask lz4 gcm crypto (s.host h).peerList index env =
      some result)
    (hfew : (s.afterSend serverOf h result).wire.length < 2 ^ 32) :
    ∃ a', Matches lz4 gcm serverOf (s.afterSend serverOf h result) a' := by
  obtain ⟨queued, hqueued, rfl⟩ := Option.map_eq_some_iff.mp hrun
  obtain ⟨hlt, rfl⟩ := List.getElem?_eq_some_iff.mp hqueued
  set queue := (s.host h).queue with hqueue
  set rest : ZPacketQueue := { queue with pendingTasks := queue.pendingTasks.eraseIdx index }
    with hrest
  -- the task taken out is the head of the outgoing packets up to order
  have hperm : queue.outgoing.Perm (queue.pendingTasks[index] :: rest.outgoing) := by
    have htasks : queue.pendingTasks.Perm
        (queue.pendingTasks[index] :: queue.pendingTasks.eraseIdx index) :=
      (List.getElem_cons_eraseIdx_perm hlt).symm
    exact (htasks.append_left _).trans List.perm_middle
  have hhost := (hm.host h).perm hperm
  have hm' : Matches lz4 gcm serverOf (s.setQueue h rest) a := hm.setHost hhost.tail
  have hself : (s.setQueue h rest).host h = { s.host h with queue := rest } :=
    host_setHost_self _
  -- the queue without the task, then the dispatch
  have hsame : s.afterSend serverOf h
      ({ rest with
          dispatcher := (queue.dispatcher.dispatchPacket lz4 gcm crypto (s.host h).peerList env
            queue.pendingTasks[index]).1 },
        (queue.dispatcher.dispatchPacket lz4 gcm crypto (s.host h).peerList env
            queue.pendingTasks[index]).2) =
      (s.setQueue h rest).afterDispatch serverOf h
        (((s.setQueue h rest).host h).queue.dispatcher.dispatchPacket lz4 gcm crypto
          ((s.setQueue h rest).host h).peerList env queue.pendingTasks[index]) := by
    rw [afterDispatch, hself]
    simp only [afterSend, Network.setQueue, Network.setHost, Function.update_self,
      Function.update_idem]
    rfl
  have hgoal := hm'.dispatchPacket crypto env queue.pendingTasks[index]
    (by
      rw [hself]
      exact hhost.queued _ List.mem_cons_self)
    (by
      intro n hn
      rw [hself]
      have hnodup := hhost.serials
      rw [List.filterMap_cons_some hn] at hnodup
      exact (List.nodup_cons.mp hnodup).1)
  rw [← hsame] at hgoal
  exact hgoal hfew

end Dispatch

end Network

end ZetaNet
