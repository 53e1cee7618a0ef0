import ZetaNet.Transport.Reliability

/-!
# Reliable broadcast

`DispatchPacket` gives every peer its own copy of a broadcast under its own number, and one
receipt for each number. `RetransmitPacket` sends the packet of one receipt to every peer, so
a peer can get the push a second time under a number it has not seen. In the runs in which no
such retry happens, a broadcast is handed on at most once at every host, and a receipt is
removed by a delivery only after the peer of its copy has the push.
-/

namespace ZetaNet

variable {K H : Type} [DecidableEq H]

namespace Network

variable {lz4 : Lz4} {gcm : AesGcm K} {serverOf : H → H} {s : Network K H}
  {a : DeliveryState H} {h : H}

omit [DecidableEq H] in
/-- A number has one reliable push, so the datagram first sent under it names the target. -/
theorem Matches.copy_of_dispatched (hm : Matches lz4 gcm serverOf s a) {d : Datagram H}
    (hd : d ∈ s.wire) {k : UInt32} {n : Nat} (hfirst : d.Dispatched h k n)
    {pushed : OutgoingPacket} (hpushed : (s.pushed h)[n]? = some pushed)
    (hreliable : pushed.flags.reliable = true) : a.copy h k = some (d.target, n) := by
  obtain ⟨-, -, horigin⟩ := hm.wire d hd
  rw [hfirst.serial, hfirst.source, hfirst.sequenceNumber] at horigin
  obtain ⟨⟨pushed', hpushed', hcopy⟩, hnumber⟩ := horigin
  rw [hpushed] at hpushed'
  obtain rfl := Option.some.inj hpushed'
  exact hnumber (hcopy.reliable.trans hreliable)

/-- An entry settled was made for a datagram, and the target of the datagram has the push. -/
theorem Matches.settled_dispatched (hm : Matches lz4 gcm serverOf s a) {k : UInt32}
    {queued : Queued} (hsettled : (k, queued) ∈ s.settled h) :
    ∃ n, queued.serial = some n ∧ (∃ d ∈ s.wire, d.Dispatched h k n) ∧
      ∀ d ∈ s.wire, d.Dispatched h k n → s.HasEnqueued d.target h n := by
  obtain ⟨⟨n, b, hserial, ⟨pushed, hpushed, hcopy⟩, hreliable, hnumber, -⟩, hseen⟩ :=
    (hm.host h).settled _ hsettled
  obtain ⟨d, hd, hfirst, -⟩ := hm.copy_wire hnumber
  refine ⟨n, hserial, ⟨d, hd, hfirst⟩, ?_⟩
  intro d' hd' hfirst'
  have hnumber' := hm.copy_of_dispatched hd' hfirst' hpushed
    (hcopy.reliable.symm.trans hreliable)
  exact hm.hasEnqueued hnumber' (hseen _ _ hnumber')

/-- In every run in which no retry takes a broadcast's number to another peer: each reliable
push is on each host's incoming queues at most once, as it was pushed; and a delivery removes
a receipt only if the host its number was dispatched to has that push. -/
theorem reliable_broadcast (hlz4 : lz4.RoundTrip) (sized : gcm.Sized)
    (authentic : gcm.Authentic) {now : H → Nat} {events : List (NetworkEvent K H)}
    (halong : (machine lz4 gcm serverOf).Along
      (fun s e => e.pushesNoAck ∧ s.RetryToAddressee e) (start now) events)
    (hexec : (machine lz4 gcm serverOf).exec (start now) events = some s)
    (hfew : s.wire.length < 2 ^ 32) :
    (∀ source n packet, (s.pushed source)[n]? = some packet → packet.flags.reliable = true →
      ∀ target, (s.enqueued target).countP (Enqueued.isCopyOf source n) ≤ 1 ∧
        ∀ e ∈ s.enqueued target, e.isCopyOf source n = true →
          e.pack.type = packet.type ∧ e.pack.data = packet.heapData) ∧
    ∀ index s', (machine lz4 gcm serverOf).step s (.deliver index) = some s' →
      ∀ source k queued, s.Removed s' source k queued →
        ∃ n, queued.serial = some n ∧ (∃ d ∈ s'.wire, d.Dispatched source k n) ∧
          ∀ d ∈ s'.wire, d.Dispatched source k n → s'.HasEnqueued d.target source n := by
  obtain ⟨a, hm⟩ := exists_matches_of_along hlz4 sized authentic halong hexec hfew
  constructor
  · intro source n packet hpushed hreliable target
    exact hm.enqueued_once hpushed hreliable target
  · intro index s' hstep source k queued hremoved
    obtain ⟨a', hm', hsettled⟩ := hm.removed hlz4 sized authentic hstep hremoved
    exact hm'.settled_dispatched hsettled

/-! ## Two runs -/

def roundPacket : OutgoingPacket :=
  OutgoingPacket.ofData ZPeerId.toAll 101 .data
    { reliable := true, encrypted := false, compressed := false, priority := .high } [7, 8, 9]

theorem roundPacket_type : roundPacket.type ≠ PacketType.acknowledgement := by decide

/-- A broadcast of host 0 to its only peer 1. -/
def pairSend : List (NetworkEvent UInt8 (Fin 3)) :=
  [.addPeer 0 1, .push 0 0 roundPacket, .processChannel 0 .data, .runTask 0 0 (steadyEnv 10)]

/-- Both datagrams arrive, and the first acknowledgement is on its way back. -/
def pairArrive : List (NetworkEvent UInt8 (Fin 3)) :=
  [.deliver 0, .deliver 1, .processChannel 1 .control, .runTask 1 0 (steadyEnv 12)]

def pairRetry : NetworkEvent UInt8 (Fin 3) := .retry 0 12 0 (steadyEnv 12)

/-- The retry goes to the peer the number was dispatched to: there is no other. -/
theorem pair_retryToAddressee {s : Network UInt8 (Fin 3)}
    (hexec : (machine literalLz4 maskGcm fun _ => 0).exec (start fun _ => 0) pairSend = some s) :
    s.RetryToAddressee pairRetry := by
  have hrun : ((machine literalLz4 maskGcm fun _ => 0).exec (start fun _ => 0) pairSend).all
      (fun s : Network UInt8 (Fin 3) =>
        s.wire.all fun d => (s.host 0).peerList.peerList.all fun peer =>
          d.target == peer.address) = true := by
    decide +kernel
  rw [hexec] at hrun
  intro queued _ _ _ peer hpeer _ n d hd _
  exact eq_of_beq (List.all_eq_true.mp (List.all_eq_true.mp hrun d hd) peer hpeer)

theorem reliable_broadcast_pair :
    ∃ (s s' : Network UInt8 (Fin 3)) (queued : Queued),
      (machine literalLz4 maskGcm fun _ => 0).exec (start fun _ => 0)
        (pairSend ++ pairRetry :: pairArrive) = some s ∧
      (s.enqueued 1).countP (Enqueued.isCopyOf 0 0) ≤ 1 ∧ s.Removed s' 0 0 queued ∧
      ∃ n, queued.serial = some n ∧ ∃ d ∈ s'.wire, s'.HasEnqueued d.target 0 n := by
  obtain ⟨s, s', queued, hexec, hstep, hremoved, hpushed, hfew⟩ :=
    exists_removed_of_eval literalLz4 maskGcm (fun _ => 0) 0 (fun _ => 0)
      (pairSend ++ pairRetry :: pairArrive) 2 0 roundPacket (by decide +kernel)
  have halong : (machine literalLz4 maskGcm fun _ => 0).Along
      (fun s e => e.pushesNoAck ∧ s.RetryToAddressee e) (start fun _ => 0)
      (pairSend ++ pairRetry :: pairArrive) := by
    refine Machine.along_append ⟨⟨trivial, trivial⟩, fun _ _ => ⟨⟨roundPacket_type, trivial⟩,
      fun _ _ => ⟨⟨trivial, trivial⟩, fun _ _ => ⟨⟨trivial, trivial⟩, fun _ _ => trivial⟩⟩⟩⟩ ?_
    intro s hsent
    exact ⟨⟨trivial, pair_retryToAddressee hsent⟩, fun _ _ => ⟨⟨trivial, trivial⟩,
      fun _ _ => ⟨⟨trivial, trivial⟩, fun _ _ => ⟨⟨trivial, trivial⟩, fun _ _ =>
        ⟨⟨trivial, trivial⟩, fun _ _ => trivial⟩⟩⟩⟩⟩
  obtain ⟨honce, hconfirmed⟩ := reliable_broadcast literalLz4_roundTrip maskGcm_sized
    maskGcm_authentic halong hexec hfew
  obtain ⟨n, hserial, ⟨d, hd, hfirst⟩, htarget⟩ := hconfirmed 2 s' hstep 0 0 queued hremoved
  exact ⟨s, s', queued, hexec, (honce 0 0 roundPacket hpushed rfl 1).1, hremoved, n, hserial, d,
    hd, htarget d hd hfirst⟩

/-- A broadcast of host 0 to 1 and 2 under the numbers 0 and 1. Host 1 gets nothing; host 2
gets its copy, then the retry of the number 0, and acknowledges that. -/
def lostCopyEvents : List (NetworkEvent UInt8 (Fin 3)) :=
  [.addPeer 0 1, .addPeer 0 2, .push 0 0 roundPacket, .processChannel 0 .data,
    .runTask 0 0 (steadyEnv 10), .deliver 1, .retry 0 12 0 (steadyEnv 12), .deliver 3,
    .processChannel 2 .control, .processChannel 2 .control, .runTask 2 1 (steadyEnv 12)]

/-- With two peers a retry breaks both promises: host 2 has the broadcast twice, and its
acknowledgement removes the receipt of the copy for host 1, which has nothing. -/
theorem broadcast_enqueued_twice :
    ∃ (s s' : Network UInt8 (Fin 3)) (queued : Queued),
      (∀ e ∈ lostCopyEvents, e.pushesNoAck) ∧
      (machine literalLz4 maskGcm fun _ => 0).exec (start fun _ => 0) lostCopyEvents = some s ∧
      s.wire.length < 2 ^ 32 ∧
      (s.pushed 0)[0]? = some roundPacket ∧
      (s.enqueued 2).countP (Enqueued.isCopyOf 0 0) = 2 ∧
      (machine literalLz4 maskGcm fun _ => 0).step s (.deliver 4) = some s' ∧
      s.Removed s' 0 0 queued ∧ queued.serial = some 0 ∧
      (∃ d ∈ s'.wire, d.Dispatched 0 0 0 ∧ d.target = 1) ∧ ¬ s'.HasEnqueued 1 0 0 := by
  have hrun : ((machine literalLz4 maskGcm fun _ => 0).exec (start fun _ => 0)
      lostCopyEvents).bind (fun s : Network UInt8 (Fin 3) =>
        ((machine literalLz4 maskGcm fun _ => 0).step s (.deliver 4)).map fun s' =>
          decide (s.wire.length < 2 ^ 32 ∧ (s.pushed 0)[0]? = some roundPacket ∧
            (s.enqueued 2).countP (Enqueued.isCopyOf 0 0) = 2 ∧
            ((s.host 0).queue.dispatcher.awaitingAckPackets.lookup 0).map Queued.serial =
              some (some 0) ∧
            (s'.host 0).queue.dispatcher.awaitingAckPackets.lookup 0 = none ∧
            (∃ d ∈ s'.wire, (d.source = 0 ∧ d.sequenceNumber = 0 ∧ d.resent = false ∧
              d.origin.serial = some 0) ∧ d.target = 1) ∧
            (s'.enqueued 1).length = 0)) = some true := by
    decide +kernel
  obtain ⟨s, hexec, hrest⟩ := Option.bind_eq_some_iff.mp hrun
  obtain ⟨s', hstep, hfacts⟩ := Option.map_eq_some_iff.mp hrest
  obtain ⟨hfew, hpushed, htwice, hbefore, hafter, ⟨d, hd, hfirst, htarget⟩, hnone⟩ :=
    of_decide_eq_true hfacts
  obtain ⟨queued, hqueued, hserial⟩ := Option.map_eq_some_iff.mp hbefore
  refine ⟨s, s', queued, ?_, hexec, hfew, hpushed, htwice, hstep, ⟨hqueued, hafter⟩, hserial,
    ⟨d, hd, ⟨hfirst.1, hfirst.2.1, hfirst.2.2.1, hfirst.2.2.2⟩, htarget⟩, ?_⟩
  · simp only [lostCopyEvents, List.forall_mem_cons, NetworkEvent.pushesNoAck, true_and]
    exact ⟨roundPacket_type, fun e he => absurd he List.not_mem_nil⟩
  · rintro ⟨e, he, -⟩
    rw [List.eq_nil_of_length_eq_zero hnone] at he
    exact absurd he List.not_mem_nil

end Network

end ZetaNet
