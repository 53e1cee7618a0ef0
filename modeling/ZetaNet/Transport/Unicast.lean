import ZetaNet.Transport.Reliability

/-!
# Reliable unicast

When no reliable packet is a broadcast, every receipt has one addressee, so a retransmission
never meets `RetryToAddressee`'s exception and a run of the network is a run of the abstract
delivery. From this: each reliable push is handed on at most once wherever it arrives, and an
acknowledgement only removes the entry of a packet its addressee has handed on.
-/

namespace ZetaNet

variable {K H : Type} [DecidableEq H]

namespace Network

variable {lz4 : Lz4} {gcm : AesGcm K} {serverOf : H → H} {s s' : Network K H}
  {a : DeliveryState H} {h : H}

/-! ## Runs without reliable broadcasts -/

/-- No application has pushed a reliable broadcast. -/
def UnicastOnly (s : Network K H) : Prop :=
  ∀ h, ∀ packet ∈ s.pushed h, packet.flags.reliable = true →
    packet.destinationPeerId ≠ ZPeerId.toAll

/-- Only a push adds to a host's log. -/
theorem mem_pushed_of_step {e : NetworkEvent K H} {packet : OutgoingPacket}
    (hstep : (machine lz4 gcm serverOf).step s e = some s') (hmem : packet ∈ s'.pushed h) :
    packet ∈ s.pushed h ∨ ∃ now, e = .push h now packet := by
  cases e with
  | setCryptoProvider | setRateLimitConfig | addPeer | retry =>
      obtain rfl := Option.some.inj hstep
      exact .inl hmem
  | processChannel | runTask | deliver | pop =>
      obtain ⟨_, -, rfl⟩ := Option.map_eq_some_iff.mp hstep
      exact .inl hmem
  | push h' now pushed =>
      obtain rfl := Option.some.inj hstep
      change packet ∈ Function.update s.pushed h' (s.pushed h' ++ [pushed]) h at hmem
      by_cases hh : h = h'
      · subst hh
        rw [Function.update_self] at hmem
        rcases List.mem_append.mp hmem with hold | hnew
        · exact .inl hold
        · rw [List.mem_singleton.mp hnew]
          exact .inr ⟨now, rfl⟩
      · rw [Function.update_of_ne hh] at hmem
        exact .inl hmem

theorem UnicastOnly.step (hs : s.UnicastOnly) {e : NetworkEvent K H} (hpush : e.pushesUnicast)
    (hstep : (machine lz4 gcm serverOf).step s e = some s') : s'.UnicastOnly := by
  intro h packet hmem
  rcases mem_pushed_of_step hstep hmem with hold | ⟨now, rfl⟩
  · exact hs h packet hold
  · exact hpush.2

omit [DecidableEq H] in
/-- A receipt has the destination of its push, so none of them is a broadcast. -/
theorem Matches.retryToAddressee (hm : Matches lz4 gcm serverOf s a) (hs : s.UnicastOnly)
    (e : NetworkEvent K H) : s.RetryToAddressee e := by
  cases e with
  | retry h now seqNum env =>
      intro queued hlookup _ hall
      obtain ⟨n, b, -, ⟨pushed, hpushed, hcopy⟩, hreliable, -⟩ := (hm.host h).receipts hlookup
      have hunicast := hs h pushed (List.mem_of_getElem? hpushed)
        (hcopy.reliable.symm.trans hreliable)
      exact absurd (hcopy.destination.symm.trans hall) hunicast
  | _ => trivial

/-- Every run without reliable broadcasts follows the abstract delivery. -/
theorem exists_matches_of_pushesUnicast (hlz4 : lz4.RoundTrip) (sized : gcm.Sized)
    (authentic : gcm.Authentic) {now : H → Nat} {events : List (NetworkEvent K H)}
    (hpush : ∀ e ∈ events, e.pushesUnicast)
    (hexec : (machine lz4 gcm serverOf).exec (start now) events = some s)
    (hfew : s.wire.length < 2 ^ 32) :
    s.UnicastOnly ∧ ∃ a, Matches lz4 gcm serverOf s a := by
  have preserved (s : Network K H) (e : NetworkEvent K H) (s' : Network K H)
      (hs : s.UnicastOnly ∧ (s.wire.length < 2 ^ 32 → ∃ a, Matches lz4 gcm serverOf s a))
      (hpush : e.pushesUnicast) (hstep : (machine lz4 gcm serverOf).step s e = some s') :
      s'.UnicastOnly ∧ (s'.wire.length < 2 ^ 32 → ∃ a, Matches lz4 gcm serverOf s' a) := by
    refine ⟨hs.1.step hpush hstep, fun hfew => ?_⟩
    obtain ⟨a, hm⟩ := hs.2 (lt_of_le_of_lt (wire_length_le_of_step hstep) hfew)
    have hnoAck : e.pushesNoAck := by
      cases e with
      | push => exact hpush.1
      | _ => trivial
    exact hm.step hlz4 sized authentic hnoAck (hm.retryToAddressee hs.1 e) hstep hfew
  have hstart : (start now : Network K H).UnicastOnly :=
    fun h packet hmem => absurd hmem List.not_mem_nil
  obtain ⟨hunicast, hmatches⟩ := Machine.invariant_of_along preserved
    ⟨hstart, fun _ => ⟨_, matches_start now⟩⟩ (Machine.along_of_forall hpush _) hexec
  exact ⟨hunicast, hmatches hfew⟩

/-- An entry settled is a unicast its addressee has handed on. -/
theorem Matches.settled_enqueued (hm : Matches lz4 gcm serverOf s a) (hs : s.UnicastOnly)
    {k : UInt32} {queued : Queued} (hsettled : (k, queued) ∈ s.settled h) :
    ∃ n target, queued.serial = some n ∧
      Addressee (serverOf h) (s.host h).peerList.peerList queued.packet target ∧
      s.HasEnqueued target h n := by
  obtain ⟨⟨n, b, hserial, ⟨pushed, hpushed, hcopy⟩, hreliable, hnumber, haddressee⟩, hseen⟩ :=
    (hm.host h).settled _ hsettled
  have hunicast := hs h pushed (List.mem_of_getElem? hpushed)
    (hcopy.reliable.symm.trans hreliable)
  rw [← hcopy.destination] at hunicast
  exact ⟨n, b, hserial, haddressee hunicast, hm.hasEnqueued hnumber (hseen b n hnumber)⟩

/-- Reliable unicast between any number of hosts, in every state of every run: each reliable
push is on each host's incoming queues at most once, as it was pushed; and a delivery removes
an entry of the receipt map only if the addressee has that push. -/
theorem reliable_unicast (hlz4 : lz4.RoundTrip) (sized : gcm.Sized) (authentic : gcm.Authentic)
    {now : H → Nat} {events : List (NetworkEvent K H)} (hpush : ∀ e ∈ events, e.pushesUnicast)
    (hexec : (machine lz4 gcm serverOf).exec (start now) events = some s)
    (hfew : s.wire.length < 2 ^ 32) :
    (∀ source n packet, (s.pushed source)[n]? = some packet → packet.flags.reliable = true →
      ∀ target, (s.enqueued target).countP (Enqueued.isCopyOf source n) ≤ 1 ∧
        ∀ e ∈ s.enqueued target, e.isCopyOf source n = true →
          e.pack.type = packet.type ∧ e.pack.data = packet.heapData) ∧
    ∀ index s', (machine lz4 gcm serverOf).step s (.deliver index) = some s' →
      ∀ source k queued, s.Removed s' source k queued →
        ∃ n target, queued.serial = some n ∧
          Addressee (serverOf source) (s'.host source).peerList.peerList queued.packet target ∧
          s'.HasEnqueued target source n := by
  constructor
  · intro source n packet hpushed hreliable target
    obtain ⟨-, a, hm⟩ := exists_matches_of_pushesUnicast hlz4 sized authentic hpush hexec hfew
    exact hm.enqueued_once hpushed hreliable target
  · intro index s' hstep source k queued hremoved
    obtain ⟨hunicast, a, hm⟩ := exists_matches_of_pushesUnicast hlz4 sized authentic hpush hexec
      hfew
    obtain ⟨a', hm', hsettled⟩ := hm.removed hlz4 sized authentic hstep hremoved
    have hunicast' : s'.UnicastOnly := hunicast.step (e := .deliver index) trivial hstep
    exact hm'.settled_enqueued hunicast' hsettled

/-! ## A run -/

def relayPacket : OutgoingPacket :=
  OutgoingPacket.ofData ZPeerId.toServer 101 .data
    { reliable := true, encrypted := false, compressed := false, priority := .high } [7, 8, 9]

/-- A push to the server `true`, its datagram and a retransmission of it delivered, and one of
the two acknowledgements on its way back. -/
def relayEvents : List (NetworkEvent UInt8 Bool) :=
  [.push false 0 relayPacket, .processChannel false .data, .runTask false 0 (steadyEnv 10),
    .deliver 0, .retry false 12 0 (steadyEnv 12), .deliver 1, .processChannel true .control,
    .runTask true 0 (steadyEnv 12)]

/-- The packet is there once, and its entry went because the server has it. -/
theorem reliable_unicast_relay :
    ∃ (s s' : Network UInt8 Bool) (queued : Queued),
      (machine literalLz4 maskGcm fun _ => true).exec (start fun _ => 0) relayEvents = some s ∧
      (s.enqueued true).countP (Enqueued.isCopyOf false 0) ≤ 1 ∧
      s.Removed s' false 0 queued ∧
      ∃ n target, queued.serial = some n ∧ s'.HasEnqueued target false n := by
  obtain ⟨s, s', queued, hexec, hstep, hremoved, hpushed, hfew⟩ :=
    exists_removed_of_eval literalLz4 maskGcm (fun _ : Bool => true) false (fun _ => 0) relayEvents
      2 0 relayPacket (by decide +kernel)
  have hpush : ∀ e ∈ relayEvents, e.pushesUnicast := by
    simp only [relayEvents, List.forall_mem_cons, NetworkEvent.pushesUnicast, true_and]
    exact ⟨by decide, fun e he => absurd he List.not_mem_nil⟩
  obtain ⟨honce, hsettled⟩ := reliable_unicast literalLz4_roundTrip maskGcm_sized
    maskGcm_authentic hpush hexec hfew
  obtain ⟨n, target, hserial, -, henqueued⟩ := hsettled 2 s' hstep false 0 queued hremoved
  exact ⟨s, s', queued, hexec, (honce false 0 relayPacket hpushed rfl true).1, hremoved, n,
    target, hserial, henqueued⟩

end Network

end ZetaNet
