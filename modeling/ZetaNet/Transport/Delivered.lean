import ZetaNet.Transport.Polled

/-!
# Reliable delivery, exactly once

A reliable push is on the incoming queues of a host once, as soon as the receiver there has
taken one datagram of it, whichever copy or retransmission that was and whatever came before.
-/

namespace ZetaNet

namespace Network

variable {K H : Type} [DecidableEq H] {lz4 : Lz4} {gcm : AesGcm K} {serverOf : H → H}
  {s s' : Network K H} {a : DeliveryState H} {source target : H} {n : Nat}

variable (lz4 gcm source target n) in
/-- The event is the arrival of a datagram of the `n`-th push of `source` at `target`, which
takes it. -/
def Brings (s : Network K H) (e : NetworkEvent K H) : Prop :=
  ∃ index d pack, e = .deliver index ∧ s.wire[index]? = some d ∧ d.target = target ∧
    d.source = source ∧ d.origin.serial = some n ∧
    (receivePackets lz4 gcm (s.host target) source d.bytes).1 = .success pack

/-- What is on the incoming queues stays in the log. -/
theorem HasEnqueued.step {e : NetworkEvent K H}
    (hstep : (machine lz4 gcm serverOf).step s e = some s') (h : s.HasEnqueued target source n) :
    s'.HasEnqueued target source n := by
  obtain ⟨entry, hentry, hcopy⟩ := h
  obtain ⟨arrivals, henqueued, -⟩ := @incoming_step K H _ lz4 gcm serverOf s s' target e hstep
  exact ⟨entry, henqueued ▸ List.mem_append_left _ hentry, hcopy⟩

/-- The log grows at the target of a datagram, by the packet the receiver took. -/
theorem enqueued_deliver {d : Datagram H} :
    (s.receive lz4 gcm d).enqueued = Function.update s.enqueued d.target
      (s.enqueued d.target ++
        ((s.host d.target).queue.processReceived (s.host d.target).crypto.isSome
          (receivePackets lz4 gcm (s.host d.target) d.source d.bytes).1).enqueued.toList.map
            (⟨d.source, d.origin.serial, ·⟩)) := rfl

/-- A datagram the receiver takes brings its push, or the push is there already. -/
theorem Matches.brings (hlz4 : lz4.RoundTrip) (sized : gcm.Sized) (authentic : gcm.Authentic)
    (hm : Matches lz4 gcm serverOf s a)
    (hreliable : ∀ packet, (s.pushed source)[n]? = some packet → packet.flags.reliable = true)
    {e : NetworkEvent K H} (hstep : (machine lz4 gcm serverOf).step s e = some s')
    (hbrings : s.Brings lz4 gcm source target n e) : s'.HasEnqueued target source n := by
  obtain ⟨index, d, pack, rfl, hd, rfl, rfl, hserial, hsuccess⟩ := hbrings
  obtain ⟨d', hd', rfl⟩ := Option.map_eq_some_iff.mp hstep
  obtain rfl := Option.some.inj (hd.symm.trans hd')
  obtain ⟨⟨crypto, env, packetInfo, hbuilt⟩, hne, horigin⟩ := hm.wire d (List.mem_of_getElem? hd)
  rw [hserial] at horigin
  obtain ⟨⟨packet, hpushed, hcopy⟩, hcopied⟩ := horigin
  have horiginReliable : d.origin.packet.flags.reliable = true :=
    hcopy.reliable.trans (hreliable packet hpushed)
  -- the receiver's result is the packet under the id of its source
  have hresult := hsuccess
  unfold receivePackets at hresult
  dsimp only at hresult
  split at hresult
  · cases hresult
  rcases receiveDatagram_buildPacket hlz4 sized authentic hbuilt hne (s.host d.target).crypto
    initialPack d.source (s.host d.target).peerList with heq | ⟨received, hconveys, heq⟩
  · rw [heq] at hresult
    cases hresult
  rw [heq] at hresult
  rcases hpeers : (s.host d.target).peerList.getOrCreatePeer d.source with ⟨found, peerList⟩
  rw [hpeers] at hresult
  obtain ⟨peer, rfl⟩ : ∃ peer, found = some peer := by
    cases found with
    | none => cases hresult
    | some peer => exact ⟨peer, rfl⟩
  unfold receivedFrom at hresult
  dsimp only at hresult
  split at hresult
  · cases hresult
  obtain rfl := ReceiveResult.success.inj hresult
  have hnumber : received.sequenceNumber = d.sequenceNumber := by
    rw [hconveys.sequenceNumber, carriedSequence, if_pos horiginReliable]
  by_cases hold : received.sequenceNumber ∈
      (s.host d.target).queue.receivedReliableSeqs peer.identifier
  · -- a repetition: the number was seen, so its push was handed on
    obtain ⟨hpeer, haddr⟩ := ZPeerMapping.getOrCreatePeer_mem hpeers
    have hhost := (hm.host d.target).getOrCreatePeer d.source
    rw [hpeers] at hhost
    have hseen := (hhost.seen peer hpeer received.sequenceNumber).mp hold
    rw [haddr, hnumber] at hseen
    exact (hm.hasEnqueued (hcopied horiginReliable) hseen).step hstep
  · refine ⟨⟨d.source, d.origin.serial, { received with sourcePeerId := peer.identifier }⟩, ?_, ?_⟩
    · rw [enqueued_deliver, Function.update_self, hsuccess]
      refine List.mem_append_right _ (List.mem_map_of_mem (Option.mem_toList.mpr ?_))
      show ((s.host d.target).queue.receivePacket (s.host d.target).crypto.isSome
        { received with sourcePeerId := peer.identifier }).enqueued = _
      rw [enqueued_receivePacket, if_neg fun h => hold h.2]
    · simp [Enqueued.isCopyOf, hserial]

/-- Nothing else does. -/
theorem brings_of_hasEnqueued {e : NetworkEvent K H}
    (hstep : (machine lz4 gcm serverOf).step s e = some s')
    (h : s'.HasEnqueued target source n) (hnot : ¬ s.HasEnqueued target source n) :
    s.Brings lz4 gcm source target n e := by
  obtain ⟨entry, hentry, hcopy⟩ := h
  have hnew (hsame : s'.enqueued target = s.enqueued target) : False :=
    hnot ⟨entry, hsame ▸ hentry, hcopy⟩
  cases e with
  | setCryptoProvider | setRateLimitConfig | addPeer | push | retry =>
      obtain rfl := Option.some.inj hstep
      exact (hnew rfl).elim
  | processChannel | runTask | pop =>
      obtain ⟨_, -, rfl⟩ := Option.map_eq_some_iff.mp hstep
      exact (hnew rfl).elim
  | deliver index =>
      obtain ⟨d, hd, rfl⟩ := Option.map_eq_some_iff.mp hstep
      rw [enqueued_deliver] at hentry
      by_cases htarget : target = d.target
      · subst htarget
        rw [Function.update_self] at hentry
        rcases List.mem_append.mp hentry with hold | hentry
        · exact (hnot ⟨entry, hold, hcopy⟩).elim
        · obtain ⟨pack, hpack, rfl⟩ := List.mem_map.mp hentry
          obtain ⟨hsource, hserial⟩ : d.source = source ∧ d.origin.serial = some n := by
            simpa [Enqueued.isCopyOf] using hcopy
          refine ⟨index, d, pack, rfl, hd, rfl, hsource, hserial, ?_⟩
          rw [← hsource]
          exact ZPacketQueue.success_of_processReceived (Option.mem_toList.mp hpack)
      · rw [Function.update_of_ne htarget] at hentry
        exact (hnot ⟨entry, hentry, hcopy⟩).elim

/-- The logs of the applications grow. -/
theorem pushed_prefix_of_step {e : NetworkEvent K H}
    (hstep : (machine lz4 gcm serverOf).step s e = some s') (h : H) :
    s.pushed h <+: s'.pushed h := by
  cases e with
  | setCryptoProvider | setRateLimitConfig | addPeer | retry =>
      obtain rfl := Option.some.inj hstep
      exact List.prefix_rfl
  | processChannel | runTask | deliver | pop =>
      obtain ⟨_, -, rfl⟩ := Option.map_eq_some_iff.mp hstep
      exact List.prefix_rfl
  | push h' now packet =>
      obtain rfl := Option.some.inj hstep
      show s.pushed h <+: Function.update s.pushed h' (s.pushed h' ++ [packet]) h
      by_cases hh : h = h'
      · subst hh
        rw [Function.update_self]
        exact List.prefix_append ..
      · rw [Function.update_of_ne hh]

theorem grown_of_exec {events : List (NetworkEvent K H)}
    (hexec : (machine lz4 gcm serverOf).exec s events = some s') :
    s.wire.length ≤ s'.wire.length ∧ ∀ h, s.pushed h <+: s'.pushed h := by
  induction events generalizing s with
  | nil =>
      obtain rfl := Option.some.inj hexec
      exact ⟨le_rfl, fun h => List.prefix_rfl⟩
  | cons e events ih =>
      obtain ⟨mid, hstep, hrest⟩ := (Machine.exec_cons_eq_some _).mp hexec
      obtain ⟨hwire, hpushed⟩ := ih hrest
      exact ⟨(wire_length_le_of_step hstep).trans hwire,
        fun h => (pushed_prefix_of_step hstep h).trans (hpushed h)⟩

/-- A push is in the log after a run if it was before, or some event brought it. -/
theorem hasEnqueued_iff (hlz4 : lz4.RoundTrip) (sized : gcm.Sized) (authentic : gcm.Authentic)
    {events : List (NetworkEvent K H)} (hpush : ∀ e ∈ events, e.pushesUnicast)
    (hexec : (machine lz4 gcm serverOf).exec s events = some s')
    (hfew : s'.wire.length < 2 ^ 32) (hunicast : s.UnicastOnly)
    (hmatches : ∃ a, Matches lz4 gcm serverOf s a)
    (hreliable : ∀ packet, (s'.pushed source)[n]? = some packet →
      packet.flags.reliable = true) :
    s'.HasEnqueued target source n ↔ s.HasEnqueued target source n ∨
      ¬ (machine lz4 gcm serverOf).Along (fun s e => ¬ s.Brings lz4 gcm source target n e) s
        events := by
  induction events generalizing s with
  | nil =>
      obtain rfl := Option.some.inj hexec
      exact (or_iff_left (not_not.mpr trivial)).symm
  | cons e events ih =>
      obtain ⟨mid, hstep, hrest⟩ := (Machine.exec_cons_eq_some _).mp hexec
      obtain ⟨a, hm⟩ := hmatches
      have hpushed := hpush e List.mem_cons_self
      obtain ⟨hwire, hlog⟩ := grown_of_exec hrest
      have hnoAck : e.pushesNoAck := by
        cases e with
        | push => exact hpushed.1
        | _ => trivial
      have hmid := hm.step hlz4 sized authentic hnoAck (hm.retryToAddressee hunicast e) hstep
        (hwire.trans_lt hfew)
      have hlater := ih (fun e he => hpush e (List.mem_cons_of_mem _ he)) hrest
        (hunicast.step hpushed hstep) hmid
      have hbefore (packet : OutgoingPacket) (h : (s.pushed source)[n]? = some packet) :
          packet.flags.reliable = true := by
        obtain ⟨more, hmore⟩ := (pushed_prefix_of_step hstep source).trans (hlog source)
        refine hreliable packet ?_
        rw [← hmore, List.getElem?_append_left (List.getElem?_eq_some_iff.mp h).1, h]
      have hone : mid.HasEnqueued target source n ↔
          s.HasEnqueued target source n ∨ s.Brings lz4 gcm source target n e := by
        constructor
        · intro h
          exact or_iff_not_imp_left.mpr (brings_of_hasEnqueued hstep h)
        · rintro (h | h)
          · exact h.step hstep
          · exact hm.brings hlz4 sized authentic hbefore hstep h
      have halong : ¬ (machine lz4 gcm serverOf).Along
          (fun s e => ¬ s.Brings lz4 gcm source target n e) s (e :: events) ↔
            s.Brings lz4 gcm source target n e ∨ ¬ (machine lz4 gcm serverOf).Along
              (fun s e => ¬ s.Brings lz4 gcm source target n e) mid events := by
        rw [Machine.Along, not_and_or, not_not]
        refine or_congr_right (not_congr ⟨fun h => h mid hstep, fun h mid' hstep' => ?_⟩)
        rwa [Option.some.inj (hstep'.symm.trans hstep)]
      rw [hlater, hone, halong, or_assoc]

/-- In every run without reliable broadcasts, a reliable push is on the incoming queues of a host
exactly once if the receiver there took a datagram of it at some point of the run, and not at
all otherwise. -/
theorem delivered_exactly_once (hlz4 : lz4.RoundTrip) (sized : gcm.Sized)
    (authentic : gcm.Authentic) {now : H → Nat} {events : List (NetworkEvent K H)}
    (hpush : ∀ e ∈ events, e.pushesUnicast)
    (hexec : (machine lz4 gcm serverOf).exec (start now) events = some s)
    (hfew : s.wire.length < 2 ^ 32) {packet : OutgoingPacket}
    (hpushed : (s.pushed source)[n]? = some packet) (hreliable : packet.flags.reliable = true)
    (target : H) :
    let count := (s.enqueued target).countP (Enqueued.isCopyOf source n)
    let untaken := (machine lz4 gcm serverOf).Along
      (fun s e => ¬ s.Brings lz4 gcm source target n e) (start now) events
    (count = 1 ↔ ¬ untaken) ∧ (count = 0 ↔ untaken) := by
  intro count untaken
  obtain ⟨-, a, hm⟩ := exists_matches_of_pushesUnicast hlz4 sized authentic hpush hexec hfew
  have honce : count ≤ 1 := (hm.enqueued_once hpushed hreliable target).1
  have hfresh : ¬ (start now : Network K H).HasEnqueued target source n :=
    fun ⟨entry, hentry, _⟩ => absurd hentry List.not_mem_nil
  have hhas : s.HasEnqueued target source n ↔ ¬ untaken := by
    rw [hasEnqueued_iff hlz4 sized authentic hpush hexec hfew
      (fun h packet hmem => absurd hmem List.not_mem_nil) ⟨_, matches_start now⟩
      (fun other hother => by
        rw [hpushed] at hother
        rw [← Option.some.inj hother, hreliable])]
    exact or_iff_right hfresh
  have hpos : 0 < count ↔ s.HasEnqueued target source n := List.countP_pos_iff
  rw [← hhas, ← not_iff_not (b := untaken), ← hhas, ← hpos]
  omega

/-- Of the two datagrams of a push that were delivered one was taken, and the push is there
once. -/
theorem delivered_exactly_once_relay : ∃ s : Network UInt8 Bool,
    (machine literalLz4 maskGcm fun _ => true).exec (start fun _ => 0) relayEvents = some s ∧
      (s.enqueued true).countP (Enqueued.isCopyOf false 0) = 1 ∧
      ¬ (machine literalLz4 maskGcm fun _ => true).Along
        (fun s e => ¬ s.Brings literalLz4 maskGcm false true 0 e) (start fun _ => 0)
          relayEvents := by
  have heval : ((machine literalLz4 maskGcm fun _ : Bool => true).exec (start fun _ => 0)
      relayEvents).map (fun s => decide ((s.pushed false)[0]? = some relayPacket ∧
        s.wire.length < 2 ^ 32 ∧ (s.enqueued true).countP (Enqueued.isCopyOf false 0) = 1)) =
          some true := by
    decide +kernel
  obtain ⟨s, hexec, hfacts⟩ := Option.map_eq_some_iff.mp heval
  obtain ⟨hpushed, hfew, hcount⟩ := of_decide_eq_true hfacts
  have hpush : ∀ e ∈ relayEvents, e.pushesUnicast := by
    simp only [relayEvents, List.forall_mem_cons, NetworkEvent.pushesUnicast, true_and]
    exact ⟨by decide, fun e he => absurd he List.not_mem_nil⟩
  obtain ⟨honce, -⟩ := delivered_exactly_once literalLz4_roundTrip maskGcm_sized
    maskGcm_authentic hpush hexec hfew hpushed rfl true
  exact ⟨s, hexec, hcount, honce.mp hcount⟩

end Network

end ZetaNet
