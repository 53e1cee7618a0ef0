import ZetaNet.Transport.Reliability

/-!
# Duplicates across process restarts

A receiver drops a reliable packet when it knows the packet's number from that address. It
knows numbers for as long as its own process runs, while a sender's numbers begin again with
every new process and wrap after 2^32 of them. As long as no other packet was enqueued under its
address and number, a packet that is dropped has been enqueued before.
-/

namespace ZetaNet

open PacketDispatcher

variable {K H : Type}

/-! ## What a receiver knows -/

/-- The dedup sets hold numbers `known` from the peer they belong to. -/
structure SeqsOk (known : H → UInt32 → Prop) (peerList : ZPeerMapping H)
    (seqs : UInt32 → Finset UInt32) : Prop where
  grown : peerList.Grown
  seen : ∀ peer ∈ peerList.peerList, ∀ k ∈ seqs peer.identifier, known peer.address k
  unused : ∀ id, peerList.nextId ≤ id → seqs id = ∅

section Seqs

variable {known known' : H → UInt32 → Prop} {peerList : ZPeerMapping H}
  {seqs : UInt32 → Finset UInt32}

theorem SeqsOk.mono (hok : SeqsOk known peerList seqs) (hknown : ∀ h k, known h k → known' h k) :
    SeqsOk known' peerList seqs :=
  { hok with seen := fun peer hpeer k hk => hknown _ _ (hok.seen peer hpeer k hk) }

/-- One more number of a peer. -/
theorem SeqsOk.insert (hok : SeqsOk known peerList seqs) {peer : ZPeer H} {k : UInt32}
    (hpeer : peer ∈ peerList.peerList) (hknown : known peer.address k) :
    SeqsOk known peerList
      (Function.update seqs peer.identifier (insert k (seqs peer.identifier))) where
  grown := hok.grown
  seen p hp j hj := by
    by_cases hid : p.identifier = peer.identifier
    · obtain rfl := ZPeerMapping.eq_of_identifier_eq hp hpeer hid
      rw [Function.update_self] at hj
      rcases Finset.mem_insert.mp hj with rfl | hj
      · exact hknown
      · exact hok.seen p hp j hj
    · rw [Function.update_of_ne hid] at hj
      exact hok.seen p hp j hj
  unused id hid := by
    have hne : id ≠ peer.identifier := by
      rintro rfl
      exact absurd (peerList.ids_lt peer hpeer) (UInt32.not_lt.mpr hid)
    rw [Function.update_of_ne hne]
    exact hok.unused id hid

/-- A new peer has an empty set. -/
theorem SeqsOk.getOrCreatePeer [DecidableEq H] (hok : SeqsOk known peerList seqs) (address : H) :
    SeqsOk known (peerList.getOrCreatePeer address).2 seqs := by
  refine ⟨hok.grown.getOrCreatePeer address, ?_, fun id hid =>
    hok.unused id (UInt32.le_trans (hok.grown.nextId_le address) hid)⟩
  rcases ZPeerMapping.getOrCreatePeer_cases address peerList with
    ⟨found, heq, -⟩ | ⟨grown, heq, hlist, -⟩ | ⟨heq, -⟩ <;>
    rw [heq]
  · exact hok.seen
  · rw [hlist]
    intro peer hpeer k hk
    rcases List.mem_append.mp hpeer with hpeer | hpeer
    · exact hok.seen peer hpeer k hk
    · rw [List.mem_singleton.mp hpeer, hok.unused _ (UInt32.le_refl _)] at hk
      cases hk
  · exact hok.seen

end Seqs

/-! ## What is on the wire -/

/-- The bytes are a build of the origin under the number. -/
def Datagram.Built (lz4 : Lz4) (gcm : AesGcm K) (d : Datagram H) : Prop :=
  (∃ crypto env packetInfo,
    buildPacket lz4 gcm crypto env d.origin.packet d.sequenceNumber = (packetInfo, d.bytes)) ∧
  d.bytes ≠ []

/-- The same for a datagram the socket took. -/
def Sent.Built (lz4 : Lz4) (gcm : AesGcm K) (sent : Sent H) : Prop :=
  (∃ crypto env packetInfo,
    buildPacket lz4 gcm crypto env sent.origin.packet sent.sequenceNumber =
      (packetInfo, sent.bytes)) ∧
  sent.bytes ≠ []

section Sends

variable (lz4 : Lz4) (gcm : AesGcm K) (crypto : Option K)

theorem built_dispatchTo (target : Target H) (env : SendEnv) (queued : Queued)
    (dispatcher : PacketDispatcher) :
    ∀ sent ∈ (dispatchTo lz4 gcm crypto target env queued dispatcher).2,
      sent.Built lz4 gcm := by
  rcases dispatchTo_cases lz4 gcm crypto target env queued dispatcher with
    hnone | ⟨packet, bytes, hbuilt, hne, hsent⟩
  · rw [hnone]
    exact fun sent hmem => absurd hmem List.not_mem_nil
  · rw [hsent]
    intro sent hmem
    obtain rfl := List.mem_singleton.mp hmem
    exact ⟨⟨crypto, env.build, packet, hbuilt⟩, hne⟩

theorem built_dispatchToEach (env : UInt32 → SendEnv) (queued : Queued) (peers : List (ZPeer H))
    (dispatcher : PacketDispatcher) :
    ∀ sent ∈ (dispatchToEach lz4 gcm crypto env queued peers dispatcher).2,
      sent.Built lz4 gcm := by
  induction peers generalizing dispatcher with
  | nil => exact fun sent hmem => absurd hmem List.not_mem_nil
  | cons peer peers ih =>
      intro sent hmem
      rcases List.mem_append.mp hmem with hmem | hmem
      · exact built_dispatchTo lz4 gcm crypto _ _ _ _ sent hmem
      · exact ih _ sent hmem

theorem built_dispatchPacket (peerList : ZPeerMapping H) (env : UInt32 → SendEnv)
    (queued : Queued) (dispatcher : PacketDispatcher) :
    ∀ sent ∈ (dispatchPacket lz4 gcm crypto peerList env queued dispatcher).2,
      sent.Built lz4 gcm := by
  unfold dispatchPacket
  dsimp only
  split
  · exact built_dispatchTo lz4 gcm crypto _ _ _ _
  · split
    · exact built_dispatchToEach lz4 gcm crypto _ _ _ _
    · split
      · exact built_dispatchTo lz4 gcm crypto _ _ _ _
      · exact fun sent hmem => absurd hmem List.not_mem_nil

theorem built_retryEntry (peerList : ZPeerMapping H) (now k : UInt32) (env : UInt32 → SendEnv)
    (queue : ZPacketQueue) (server : H) :
    ∀ sent ∈ (queue.retryEntry lz4 gcm crypto peerList now k env).2, sent.Built lz4 gcm := by
  rcases retryEntry_cases lz4 gcm crypto peerList now k env queue with
    hsame | ⟨_, -, -, hdropped⟩ | ⟨queued, -, -, hresent⟩
  · rw [hsame]
    exact fun sent hmem => absurd hmem List.not_mem_nil
  · rw [hdropped]
    exact fun sent hmem => absurd hmem List.not_mem_nil
  · rw [hresent _ _ rfl]
    intro sent hmem
    obtain ⟨-, hspec⟩ := retransmitPacket_spec lz4 gcm crypto peerList env k queued server
    obtain ⟨hsent, -⟩ := hspec sent hmem
    rw [← hsent.sequenceNumber] at hsent
    exact ⟨hsent.built, hsent.ne_nil⟩

theorem receivedReliableSeqs_retryEntry (peerList : ZPeerMapping H) (now k : UInt32)
    (env : UInt32 → SendEnv) (queue : ZPacketQueue) :
    (queue.retryEntry lz4 gcm crypto peerList now k env).1.receivedReliableSeqs =
      queue.receivedReliableSeqs := by
  rcases retryEntry_cases lz4 gcm crypto peerList now k env queue with
    hsame | ⟨_, -, -, hdropped⟩ | ⟨queued, -, -, hresent⟩
  · rw [hsame]
  · rw [hdropped]
  · rw [hresent _ _ rfl]

end Sends

/-! ## What a turn of the receive loop adds -/

section Turn

variable (queue : ZPacketQueue)

theorem receivedReliableSeqs_receiveAcknowledgement (pack : IncomingPacket) :
    (queue.receiveAcknowledgement pack).queue.receivedReliableSeqs =
      queue.receivedReliableSeqs := by
  unfold ZPacketQueue.receiveAcknowledgement
  split
  · rfl
  · rename_i k _
    rcases settleReceipt_cases queue pack.sourcePeerId k with hsame | ⟨_, -, hsettled⟩
    · rw [hsame]
    · rw [hsettled]

/-- A packet that is put on an incoming queue and reliable adds its number; nothing else does. -/
theorem receivedReliableSeqs_receivePacket (encrypted : Bool) (pack : IncomingPacket) :
    (queue.receivePacket encrypted pack).queue.receivedReliableSeqs = queue.receivedReliableSeqs ∨
    (pack.flags.reliable = true ∧
      (queue.receivePacket encrypted pack).enqueued = some pack ∧
      (queue.receivePacket encrypted pack).queue.receivedReliableSeqs =
        Function.update queue.receivedReliableSeqs pack.sourcePeerId
          (insert pack.sequenceNumber (queue.receivedReliableSeqs pack.sourcePeerId))) := by
  unfold ZPacketQueue.receivePacket
  by_cases hreliable : pack.flags.reliable = true
  · have hseqs := receivedReliableSeqs_addAwaitingAckPacket queue encrypted pack.sourcePeerId
      pack.sequenceNumber pack.acknowledgementNumber
    rw [if_pos hreliable]
    simp only [hseqs]
    split
    · exact .inl hseqs
    · exact .inr ⟨hreliable, rfl, rfl⟩
  · rw [if_neg hreliable]
    exact .inl rfl

end Turn

/-! ## The network with restarts -/

/-- The network's events, and a process that ends and starts again. -/
inductive ProcessEvent (K H : Type)
  | network (e : NetworkEvent K H)
  | restart (h : H) (now : Nat)

namespace Network

variable [DecidableEq H]

/-- A new process at the address of `h`: nothing of the old one is left but its datagrams. -/
def restart (h : H) (now : Nat) (s : Network K H) : Network K H :=
  { s.setHost h ⟨ZPacketQueue.init now, ZPeerMapping.empty, none⟩ with
    enqueued := Function.update s.enqueued h []
    settled := Function.update s.settled h [] }

def processes (lz4 : Lz4) (gcm : AesGcm K) (serverOf : H → H) :
    Machine (Network K H) (ProcessEvent K H) where
  step s
    | .network e => (machine lz4 gcm serverOf).step s e
    | .restart h now => some (s.restart h now)

/-- The target has enqueued the datagram's packet. -/
def HasEnqueuedOrigin (s : Network K H) (d : Datagram H) : Prop :=
  ∃ e ∈ s.enqueued d.target, e.source = d.source ∧ e.serial = d.origin.serial

/-- The delivery of the datagram acknowledges a reliable packet and drops it. -/
def Drops (lz4 : Lz4) (gcm : AesGcm K) (s : Network K H) (d : Datagram H) : Prop :=
  let host := s.host d.target
  ∃ pack, (receivePackets lz4 gcm host d.source d.bytes).1 = .success pack ∧
    pack.flags.reliable = true ∧
    (host.queue.receivePacket host.crypto.isSome pack).enqueued = none

/-- The target has enqueued no other packet under the datagram's address and number. -/
def NumberUnused (s : Network K H) (d : Datagram H) : Prop :=
  ∀ e ∈ s.enqueued d.target, e.source = d.source → e.pack.flags.reliable = true →
    e.pack.sequenceNumber = d.sequenceNumber → e.serial = d.origin.serial

/-- The number of a reliable packet of `source` that `h` has enqueued. -/
def Known (s : Network K H) (h source : H) (k : UInt32) : Prop :=
  ∃ e ∈ s.enqueued h, e.source = source ∧ e.pack.flags.reliable = true ∧
    e.pack.sequenceNumber = k

/-- What holds in every state: every known number is the number of a packet enqueued. -/
structure Remembers (lz4 : Lz4) (gcm : AesGcm K) (s : Network K H) : Prop where
  built : ∀ d ∈ s.wire, d.Built lz4 gcm
  seqs : ∀ h, SeqsOk (s.Known h) (s.host h).peerList (s.host h).queue.receivedReliableSeqs

variable {lz4 : Lz4} {gcm : AesGcm K} {serverOf : H → H} {s s' : Network K H}

omit [DecidableEq H] in
theorem remembers_start (now : H → Nat) : Remembers lz4 gcm (start now : Network K H) where
  built _ hd := absurd hd List.not_mem_nil
  seqs _ :=
    { grown := ZPeerMapping.grown_empty
      seen := fun _ hpeer => absurd hpeer List.not_mem_nil
      unused := fun _ _ => rfl }

omit [DecidableEq H] in
theorem Known.mono {h source : H} {k : UInt32} (hknown : s.Known h source k)
    (henqueued : s.enqueued h ⊆ s'.enqueued h) : s'.Known h source k := by
  obtain ⟨e, he, hentry⟩ := hknown
  exact ⟨e, henqueued he, hentry⟩

/-- A step at `h` that leaves all logs alone. -/
theorem Remembers.setHost (hs : s.Remembers lz4 gcm) {h : H} {host : Host K H}
    (hseqs : SeqsOk (s.Known h) host.peerList host.queue.receivedReliableSeqs) :
    (Network.setHost h host s).Remembers lz4 gcm where
  built := hs.built
  seqs h' := by
    by_cases hh : h' = h
    · subst hh
      rw [host_setHost_self]
      exact hseqs
    · rw [host_setHost_of_ne hh]
      exact hs.seqs h'

/-- A send at `h`. -/
theorem Remembers.afterSend (hs : s.Remembers lz4 gcm) {h : H}
    {result : ZPacketQueue × List (Sent H)}
    (hseqs : result.1.receivedReliableSeqs = (s.host h).queue.receivedReliableSeqs)
    (hbuilt : ∀ sent ∈ result.2, sent.Built lz4 gcm) :
    (s.afterSend serverOf h result).Remembers lz4 gcm where
  built d hd := by
    rcases List.mem_append.mp hd with hd | hd
    · exact hs.built d hd
    · obtain ⟨sent, hsent, rfl⟩ := List.mem_map.mp hd
      exact hbuilt sent hsent
  seqs h' := by
    by_cases hh : h' = h
    · subst hh
      rw [host_afterSend_self]
      have hok := hs.seqs h'
      rw [← hseqs] at hok
      exact hok
    · rw [host_afterSend_of_ne hh]
      exact hs.seqs h'

/-- A turn of the receive loop at `h`. -/
theorem Remembers.afterReceive (hs : s.Remembers lz4 gcm) {h : H} {host : Host K H}
    {enqueued : List (Enqueued H)} {settled : List (UInt32 × Queued)}
    (hseqs : SeqsOk ((s.afterReceive h host enqueued settled).Known h) host.peerList
      host.queue.receivedReliableSeqs) :
    (s.afterReceive h host enqueued settled).Remembers lz4 gcm where
  built := hs.built
  seqs h' := by
    by_cases hh : h' = h
    · subst hh
      show SeqsOk _ ((Network.setHost h' host s).host h').peerList
        ((Network.setHost h' host s).host h').queue.receivedReliableSeqs
      rw [host_setHost_self]
      exact hseqs
    · show SeqsOk _ ((Network.setHost h host s).host h').peerList
        ((Network.setHost h host s).host h').queue.receivedReliableSeqs
      rw [host_setHost_of_ne hh]
      refine (hs.seqs h').mono fun source k hknown => hknown.mono ?_
      show s.enqueued h' ⊆ Function.update s.enqueued h _ h'
      rw [Function.update_of_ne hh]
      exact List.Subset.refl _

theorem enqueued_subset_afterReceive (h : H) (host : Host K H) (enqueued : List (Enqueued H))
    (settled : List (UInt32 × Queued)) :
    s.enqueued h ⊆ (s.afterReceive h host enqueued settled).enqueued h := by
  show s.enqueued h ⊆ Function.update s.enqueued h _ h
  rw [Function.update_self]
  exact List.subset_append_left ..

/-- The receiver's answer to a built datagram. -/
theorem receivePackets_built (hlz4 : lz4.RoundTrip) (sized : gcm.Sized)
    (authentic : gcm.Authentic) {d : Datagram H} (hbuilt : d.Built lz4 gcm) (host : Host K H) :
    receivePackets lz4 gcm host d.source d.bytes = (.error, host.peerList) ∨
    ∃ received, Conveys d.origin.packet d.sequenceNumber received ∧
      receivePackets lz4 gcm host d.source d.bytes =
        (receivedFrom received (host.peerList.getOrCreatePeer d.source).1,
          (host.peerList.getOrCreatePeer d.source).2) := by
  obtain ⟨⟨crypto, env, packetInfo, hbuilt⟩, hne⟩ := hbuilt
  have htake : d.bytes.take kMaxBufferSize ≠ [] := by
    intro h
    rcases List.take_eq_nil_iff.mp h with h | h
    · exact absurd h (by decide)
    · exact hne h
  unfold receivePackets
  simp only [if_neg htake]
  exact receiveDatagram_buildPacket hlz4 sized authentic hbuilt hne host.crypto initialPack
    d.source host.peerList

omit [DecidableEq H] in
/-- The number of a reliable packet is the one it was sent under. -/
theorem carries_sequenceNumber {d : Datagram H} {pack : IncomingPacket}
    (hcarries : Conveys d.origin.packet d.sequenceNumber pack)
    (hreliable : pack.flags.reliable = true) :
    pack.sequenceNumber = d.sequenceNumber := by
  have hflag := hcarries.reliable.symm.trans hreliable
  rw [hcarries.sequenceNumber, carriedSequence, if_pos hflag]

/-- A delivery: a number that becomes known is the number of the packet it enqueues. -/
theorem Remembers.receive (hlz4 : lz4.RoundTrip) (sized : gcm.Sized) (authentic : gcm.Authentic)
    (hs : s.Remembers lz4 gcm) {d : Datagram H} (hd : d ∈ s.wire) :
    (s.receive lz4 gcm d).Remembers lz4 gcm := by
  unfold Network.receive
  simp only
  apply hs.afterReceive
  -- what was known stays known: the logs only grow
  have hold (host : Host K H) (enqueued : List (Enqueued H)) (settled : List (UInt32 × Queued)) :
      SeqsOk ((s.afterReceive d.target host enqueued settled).Known d.target)
        (s.host d.target).peerList (s.host d.target).queue.receivedReliableSeqs :=
    (hs.seqs d.target).mono fun source k hknown =>
      hknown.mono (enqueued_subset_afterReceive ..)
  rcases receivePackets_built hlz4 sized authentic (hs.built d hd) (s.host d.target) with
    heq | ⟨pack, hcarries, heq⟩ <;> rw [heq]
  · exact hold ..
  rcases hpeers : (s.host d.target).peerList.getOrCreatePeer d.source with ⟨found, peerList⟩
  -- the sender may be new in the table
  have hgrown (host : Host K H) (enqueued : List (Enqueued H))
      (settled : List (UInt32 × Queued)) :
      SeqsOk ((s.afterReceive d.target host enqueued settled).Known d.target) peerList
        (s.host d.target).queue.receivedReliableSeqs := by
    have hlookup := (hold host enqueued settled).getOrCreatePeer d.source
    rw [hpeers] at hlookup
    exact hlookup
  cases found with
  | none => exact hgrown ..
  | some peer =>
      obtain ⟨hpeer, haddr⟩ := ZPeerMapping.getOrCreatePeer_mem hpeers
      simp only [receivedFrom]
      split
      · simp only [ZPacketQueue.processReceived]
        rw [receivedReliableSeqs_receiveAcknowledgement]
        exact hgrown ..
      · simp only [ZPacketQueue.processReceived]
        rcases receivedReliableSeqs_receivePacket (s.host d.target).queue
          (s.host d.target).crypto.isSome { pack with sourcePeerId := peer.identifier } with
            hsame | ⟨hreliable, henqueued, hinserted⟩
        · rw [hsame]
          exact hgrown ..
        -- the number becomes known with the packet enqueued under it
        · rw [hinserted]
          refine (hgrown ..).insert hpeer ⟨⟨d.source, d.origin.serial,
            { pack with sourcePeerId := peer.identifier }⟩, ?_, haddr.symm, hreliable, rfl⟩
          show _ ∈ Function.update s.enqueued d.target _ d.target
          rw [Function.update_self, henqueued]
          exact List.mem_append_right _ (List.mem_singleton.mpr rfl)

theorem Remembers.restart (hs : s.Remembers lz4 gcm) (h : H) (now : Nat) :
    (s.restart h now).Remembers lz4 gcm where
  built := hs.built
  seqs h' := by
    by_cases hh : h' = h
    · subst hh
      show SeqsOk _ ((Network.setHost h' _ s).host h').peerList
        ((Network.setHost h' _ s).host h').queue.receivedReliableSeqs
      rw [host_setHost_self]
      exact
        { grown := ZPeerMapping.grown_empty
          seen := fun _ hpeer => absurd hpeer List.not_mem_nil
          unused := fun _ _ => rfl }
    · show SeqsOk _ ((Network.setHost h _ s).host h').peerList
        ((Network.setHost h _ s).host h').queue.receivedReliableSeqs
      rw [host_setHost_of_ne hh]
      refine (hs.seqs h').mono fun source k hknown => hknown.mono ?_
      show s.enqueued h' ⊆ Function.update s.enqueued h [] h'
      rw [Function.update_of_ne hh]
      exact List.Subset.refl _

/-- Every step keeps it. -/
theorem Remembers.step (hlz4 : lz4.RoundTrip) (sized : gcm.Sized) (authentic : gcm.Authentic)
    (hs : s.Remembers lz4 gcm) {e : ProcessEvent K H}
    (hstep : (processes lz4 gcm serverOf).step s e = some s') : s'.Remembers lz4 gcm := by
  cases e with
  | restart h now =>
      obtain rfl := Option.some.inj hstep
      exact hs.restart h now
  | network e =>
      cases e with
      | setCryptoProvider h crypto =>
          obtain rfl := Option.some.inj hstep
          exact hs.setHost (hs.seqs h)
      | setRateLimitConfig h config =>
          obtain rfl := Option.some.inj hstep
          exact hs.setHost (hs.seqs h)
      | addPeer h address =>
          obtain rfl := Option.some.inj hstep
          exact hs.setHost ((hs.seqs h).getOrCreatePeer address)
      -- what does not touch the dedup sets keeps them
      | push h now packet =>
          obtain rfl := Option.some.inj hstep
          have hqueue : (Network.setHost h { s.host h with
              queue := (s.host h).queue.push now ⟨packet, some (s.pushed h).length⟩ } s).Remembers
              lz4 gcm :=
            hs.setHost (by
              rw [(push_cases now _ (s.host h).queue).2.1]
              exact hs.seqs h)
          exact ⟨hqueue.built, hqueue.seqs⟩
      | processChannel h channel =>
          obtain ⟨queue, hqueue, rfl⟩ := Option.map_eq_some_iff.mp hstep
          obtain ⟨⟨queued, rest⟩, -, rfl⟩ := Option.map_eq_some_iff.mp hqueue
          exact hs.setHost (hs.seqs h)
      | runTask h index env =>
          obtain ⟨result, hresult, rfl⟩ := Option.map_eq_some_iff.mp hstep
          obtain ⟨queued, -, rfl⟩ := Option.map_eq_some_iff.mp hresult
          exact hs.afterSend rfl (built_dispatchPacket lz4 gcm _ _ env queued _)
      | retry h now seqNum env =>
          obtain rfl := Option.some.inj hstep
          exact hs.afterSend (receivedReliableSeqs_retryEntry ..)
            (built_retryEntry lz4 gcm _ _ now seqNum env _ (serverOf h))
      | deliver index =>
          obtain ⟨d, hd, rfl⟩ := Option.map_eq_some_iff.mp hstep
          exact hs.receive hlz4 sized authentic (List.mem_of_getElem? hd)
      | pop h channel =>
          obtain ⟨result, hresult, rfl⟩ := Option.map_eq_some_iff.mp hstep
          obtain ⟨⟨pack, rest⟩, -, rfl⟩ := Option.map_eq_some_iff.mp hresult
          exact hs.setHost (hs.seqs h)

/-- A dropped number is known, so a packet was enqueued under it, and it is the datagram's if no
other was. -/
theorem Remembers.enqueued_of_drops (hlz4 : lz4.RoundTrip) (sized : gcm.Sized)
    (authentic : gcm.Authentic) (hs : s.Remembers lz4 gcm) {d : Datagram H} (hd : d ∈ s.wire)
    (hunused : s.NumberUnused d) (hdrops : s.Drops lz4 gcm d) : s.HasEnqueuedOrigin d := by
  obtain ⟨pack, hpack, hreliable, hdropped⟩ := hdrops
  rcases receivePackets_built hlz4 sized authentic (hs.built d hd) (s.host d.target) with
    heq | ⟨received, hcarries, heq⟩ <;> rw [heq] at hpack
  · cases hpack
  rcases hpeers : (s.host d.target).peerList.getOrCreatePeer d.source with ⟨found, peerList⟩
  rw [hpeers] at hpack
  have hok := (hs.seqs d.target).getOrCreatePeer d.source
  rw [hpeers] at hok
  cases found with
  | none => cases hpack
  | some peer =>
      obtain ⟨hpeer, haddr⟩ := ZPeerMapping.getOrCreatePeer_mem hpeers
      simp only [receivedFrom] at hpack
      split at hpack
      · cases hpack
      obtain rfl := ReceiveResult.success.inj hpack
      have hnumber := carries_sequenceNumber hcarries hreliable
      rw [enqueued_receivePacket] at hdropped
      split at hdropped
      · rename_i hseen
        obtain ⟨e, he, hsource, hflag, hnumber'⟩ := hok.seen peer hpeer _ hseen.2
        exact ⟨e, he, hsource.trans haddr,
          hunused e he (hsource.trans haddr) hflag (hnumber'.trans hnumber)⟩
      · cases hdropped

/-- After every run, restarts and wraps included, a reliable packet whose number no other packet
was enqueued under is dropped as a duplicate only if it was enqueued before. -/
theorem dropped_enqueued (hlz4 : lz4.RoundTrip) (sized : gcm.Sized) (authentic : gcm.Authentic)
    {now : H → Nat} {events : List (ProcessEvent K H)}
    (hexec : (processes lz4 gcm serverOf).exec (start now) events = some s) {d : Datagram H}
    (hd : d ∈ s.wire) (hunused : s.NumberUnused d) (hdrops : s.Drops lz4 gcm d) :
    s.HasEnqueuedOrigin d := by
  have hstart : (start now : Network K H).Remembers lz4 gcm := remembers_start now
  have hs := Machine.invariant_of_exec
    (fun _ _ _ hs hstep => hs.step hlz4 sized authentic hstep) hstart hexec
  exact hs.enqueued_of_drops hlz4 sized authentic hd hunused hdrops

/-! ## Runs -/

/-- `Drops`, evaluated. -/
def dropsBool (lz4 : Lz4) (gcm : AesGcm K) (s : Network K H) (d : Datagram H) : Bool :=
  let host := s.host d.target
  match (receivePackets lz4 gcm host d.source d.bytes).1 with
  | .success pack =>
      pack.flags.reliable && (host.queue.receivePacket host.crypto.isSome pack).enqueued.isNone
  | _ => false

theorem drops_of_dropsBool {d : Datagram H} (h : s.dropsBool lz4 gcm d = true) :
    s.Drops lz4 gcm d := by
  unfold dropsBool at h
  dsimp only at h
  split at h
  · rename_i pack hpack
    obtain ⟨hreliable, hnone⟩ := Bool.and_eq_true_iff.mp h
    exact ⟨pack, hpack, hreliable, Option.isNone_iff_eq_none.mp hnone⟩
  · cases h

/-- A push of one byte to the server `true` and its dispatch. -/
def sendEvents (byte : UInt8) : List (ProcessEvent UInt8 Bool) :=
  let packet := OutgoingPacket.ofData ZPeerId.toServer 101 .data
    { reliable := true, encrypted := false, compressed := false, priority := .high } [byte]
  [.network (.push false 0 packet), .network (.processChannel false .data),
    .network (.runTask false 0 (steadyEnv 10))]

/-- The sender's second process begins with the number its first one used, and the receiver
acknowledges and drops the new packet. -/
theorem new_packet_dropped :
    ∃ (s : Network UInt8 Bool) (d : Datagram Bool),
      (processes literalLz4 maskGcm fun _ => true).exec (start fun _ => 0)
        (sendEvents 7 ++ [.network (.deliver 0), .restart false 0] ++ sendEvents 8) = some s ∧
      d ∈ s.wire ∧ d.origin.packet.heapData = [8] ∧ s.Drops literalLz4 maskGcm d ∧
      ¬ s.HasEnqueuedOrigin d := by
  have heval : ((processes literalLz4 maskGcm fun _ => true).exec (start fun _ => 0)
      (sendEvents 7 ++ [.network (.deliver 0), .restart false 0] ++ sendEvents 8)).bind (fun s =>
        s.wire[1]?.map fun d => decide (d.origin.packet.heapData = [8] ∧
          s.dropsBool literalLz4 maskGcm d = true ∧
          ¬ ∃ e ∈ s.enqueued d.target, e.source = d.source ∧ e.serial = d.origin.serial)) =
      some true := by decide +kernel
  obtain ⟨s, hexec, hrest⟩ := Option.bind_eq_some_iff.mp heval
  obtain ⟨d, hd, hfacts⟩ := Option.map_eq_some_iff.mp hrest
  obtain ⟨hdata, hdrops, hnew⟩ := of_decide_eq_true hfacts
  exact ⟨s, d, hexec, List.mem_of_getElem? hd, hdata, drops_of_dropsBool hdrops, hnew⟩

/-- A repeated delivery, dropped. -/
theorem dropped_enqueued_repeated :
    ∃ (s : Network UInt8 Bool) (d : Datagram Bool),
      (processes literalLz4 maskGcm fun _ => true).exec (start fun _ => 0)
        (sendEvents 7 ++ [.network (.deliver 0)]) = some s ∧
      s.Drops literalLz4 maskGcm d ∧ s.HasEnqueuedOrigin d := by
  have heval : ((processes literalLz4 maskGcm fun _ => true).exec (start fun _ => 0)
      (sendEvents 7 ++ [.network (.deliver 0)])).bind (fun s =>
        s.wire[0]?.map fun d => decide (s.dropsBool literalLz4 maskGcm d = true ∧
          ∀ e ∈ s.enqueued d.target, e.serial = d.origin.serial)) = some true := by
    decide +kernel
  obtain ⟨s, hexec, hrest⟩ := Option.bind_eq_some_iff.mp heval
  obtain ⟨d, hd, hfacts⟩ := Option.map_eq_some_iff.mp hrest
  obtain ⟨hdrops, hserial⟩ := of_decide_eq_true hfacts
  exact ⟨s, d, hexec, drops_of_dropsBool hdrops, dropped_enqueued literalLz4_roundTrip
    maskGcm_sized maskGcm_authentic hexec (List.mem_of_getElem? hd)
    (fun e he _ _ _ => hserial e he) (drops_of_dropsBool hdrops)⟩

end Network

end ZetaNet
