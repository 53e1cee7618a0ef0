import ZetaNet.Packet.Binding
import ZetaNet.Packet.Corruption
import ZetaNet.Transport.Arrivals

/-!
# A stranger's datagrams at an encrypted transport

A party without the session key cannot make a payload that opens, but the encrypted bit of a
datagram is its own choice. Data packets in the clear go through unpacking, peer lookup and
dedup like any other, and end on the incoming queue: exactly these do, whatever else the
party composes.
-/

namespace ZetaNet

variable {K H : Type} [DecidableEq H] {lz4 : Lz4} {gcm : AesGcm K}

/-! ## Datagrams without the key -/

/-- No part of the datagram opens under the key. -/
def Foreign (gcm : AesGcm K) (key : K) (bytes : Bytes) : Prop :=
  ∀ part, part <:+: bytes → ∀ aad, decryptPayload gcm key part aad = none

theorem prefix_checkedBytes {received buffer : Bytes} (h : checkedBytes received = some buffer) :
    buffer <+: received := by
  unfold checkedBytes at h
  split at h
  · cases h
  · split at h
    · cases h
    · split at h
      · cases h
      · split at h
        · cases h
        · rw [← Option.some.inj h]
          exact List.take_prefix ..

/-- What a holder of the key accepts of such a datagram is accepted without any key. -/
theorem unpackPacket_foreign {key : K} {buffer : Bytes} {out packet : IncomingPacket}
    (hforeign : Foreign gcm key buffer) :
    unpackPacket lz4 gcm (some key) buffer out = .ok packet ↔
      unpackPacket lz4 gcm none buffer out = .ok packet := by
  have hpayload (d : Decoding) :
      decryptPayloadIfNeeded gcm (some key) (buffer.drop d.offset) d.sequenceNumber
          d.acknowledgementNumber d.header =
        decryptPayloadIfNeeded gcm none (buffer.drop d.offset) d.sequenceNumber
          d.acknowledgementNumber d.header := by
    unfold decryptPayloadIfNeeded
    cases hencrypted : d.header.flags.isEncrypted with
    | false => rfl
    | true =>
        rw [if_neg (by decide), if_neg (by decide)]
        exact hforeign _ (List.drop_suffix ..).isInfix _
  rw [unpackPacket_eq_ok_iff, unpackPacket_eq_ok_iff]
  refine exists_congr fun d => and_congr_left fun _ => ?_
  exact ⟨fun h => { h with decrypted := (hpayload d).symm.trans h.decrypted },
    fun h => { h with decrypted := (hpayload d).trans h.decrypted }⟩

/-! ## The receiving transport -/

/-- A transport with the packets its receive loop has put on the incoming queues. -/
structure Receiving (K H : Type) where
  host : Host K H
  enqueued : List IncomingPacket

namespace Receiving

/-- A datagram of the stranger arrives, or the process goes on with something else: its other
handlers and its honest peers' datagrams leave any queue and any peer table behind. -/
inductive Event (H : Type)
  | arrive (source : H) (bytes : Bytes)
  | proceed (queue : ZPacketQueue) (peerList : ZPeerMapping H)

variable (lz4 gcm)

/-- One turn of `ProcessReceiving` for the datagram. -/
def arrive (source : H) (bytes : Bytes) (s : Receiving K H) : Receiving K H :=
  let (result, peerList) := Network.receivePackets lz4 gcm s.host source bytes
  let received := s.host.queue.processReceived s.host.crypto.isSome result
  { host := { s.host with queue := received.queue, peerList }
    enqueued := s.enqueued ++ received.enqueued.toList }

/-- The receive loop; it takes no datagram once it has been stopped. -/
def machine : Machine (Receiving K H) (Event H) where
  step s
    | .arrive source bytes =>
        if s.host.queue.stopThreads then none else some (s.arrive lz4 gcm source bytes)
    | .proceed queue peerList => some { s with host := { s.host with queue, peerList } }

/-- The datagram is a well-formed Data packet in the clear, its sender has or gets an entry in
the peer table, and it is no duplicate. -/
def Downgrades (s : Receiving K H) : Event H → Prop
  | .arrive source bytes =>
      ∃ buffer packet peer, checkedBytes (bytes.take kMaxBufferSize) = some buffer ∧
        unpackPacket lz4 gcm none buffer initialPack = .ok packet ∧ packet.channel = .data ∧
        (s.host.peerList.getOrCreatePeer source).1 = some peer ∧
        (packet.flags.reliable = true →
          packet.sequenceNumber ∉ s.host.queue.receivedReliableSeqs peer.identifier)
  | .proceed .. => False

/-- The party that composed the datagram does not hold the key. -/
def Event.IsForeign (gcm : AesGcm K) (key : K) : Event H → Prop
  | .arrive _ bytes => Foreign gcm key bytes
  | .proceed .. => True

/-- Nothing of the stranger is on the Data queue. -/
def NoData (s : Receiving K H) : Prop := ∀ pack ∈ s.enqueued, pack.channel ≠ .data

end Receiving

/-- The channel of an accepted packet is the one of its type. -/
theorem channel_unpackPacket {crypto : Option K} {buffer : Bytes} {out packet : IncomingPacket}
    (h : unpackPacket lz4 gcm crypto buffer out = .ok packet) :
    packet.channel = PacketChannelType.ofType packet.type := by
  obtain ⟨d, hd, rfl⟩ := unpackPacket_eq_ok_iff.mp h
  exact hd.channel

namespace Receiving

variable {s s' : Receiving K H} {key : K} {source : H} {bytes : Bytes}

/-- The packet the arrival of a datagram puts on an incoming queue. -/
def taken (lz4 : Lz4) (gcm : AesGcm K) (s : Receiving K H) (source : H) (bytes : Bytes) :
    Option IncomingPacket :=
  (s.host.queue.processReceived s.host.crypto.isSome
    (Network.receivePackets lz4 gcm s.host source bytes).1).enqueued

/-- What is put there is a packet the host can unpack, from a peer in its table, and new. -/
theorem taken_eq_some_iff {pack : IncomingPacket} :
    s.taken lz4 gcm source bytes = some pack ↔
      ∃ buffer packet peer, checkedBytes (bytes.take kMaxBufferSize) = some buffer ∧
        unpackPacket lz4 gcm s.host.crypto buffer initialPack = .ok packet ∧
        packet.type ≠ PacketType.acknowledgement ∧
        (s.host.peerList.getOrCreatePeer source).1 = some peer ∧
        (packet.flags.reliable = true →
          packet.sequenceNumber ∉ s.host.queue.receivedReliableSeqs peer.identifier) ∧
        pack = { packet with sourcePeerId := peer.identifier } := by
  unfold taken Network.receivePackets
  -- an empty datagram is a goodbye
  by_cases hempty : bytes.take kMaxBufferSize = []
  · simp only [if_pos hempty]
    constructor
    · intro h
      cases h
    · rintro ⟨buffer, _, _, hbytes, -⟩
      rw [hempty] at hbytes
      cases hbytes
  simp only [if_neg hempty]
  -- the datagram is dropped, or unpacked to one packet
  rcases receiveDatagram_cases lz4 gcm s.host.crypto initialPack (bytes.take kMaxBufferSize) source
    s.host.peerList with herror | ⟨buffer, packet, hbytes, hunpack, hresult⟩
  · rw [herror]
    constructor
    · intro h
      cases h
    · rintro ⟨buffer, packet, peer, hbytes, hunpack, -, hpeer, -⟩
      rw [receiveDatagram_eq source s.host.peerList hbytes hunpack, hpeer] at herror
      have hresult : receivedFrom packet (some peer) = .error := congrArg Prod.fst herror
      simp only [receivedFrom] at hresult
      split at hresult <;> cases hresult
  · rw [hresult]
    constructor
    · intro h
      cases hpeer : (s.host.peerList.getOrCreatePeer source).1 with
      | none =>
          rw [hpeer] at h
          cases h
      | some peer =>
          rw [hpeer, enqueued_receivedFrom] at h
          split at h
          · cases h
          · rename_i hnew
            obtain ⟨hack, hdup⟩ := not_or.mp hnew
            exact ⟨buffer, packet, peer, hbytes, hunpack, hack, rfl,
              fun hreliable hmem => hdup ⟨hreliable, hmem⟩, (Option.some.inj h).symm⟩
    · rintro ⟨buffer', packet', peer, hbytes', hunpack', hack, hpeer, hdup, rfl⟩
      obtain rfl := Option.some.inj (hbytes.symm.trans hbytes')
      obtain rfl := Except.ok.inj (hunpack.symm.trans hunpack')
      rw [hpeer, enqueued_receivedFrom, if_neg]
      rintro (hack' | ⟨hreliable, hmem⟩)
      · exact hack hack'
      · exact hdup hreliable hmem

/-- A stranger's datagram puts a Data packet there exactly if it is a downgrade. -/
theorem taken_data_iff (hkey : s.host.crypto = some key) (hforeign : Foreign gcm key bytes) :
    (∃ pack, s.taken lz4 gcm source bytes = some pack ∧ pack.channel = .data) ↔
      s.Downgrades lz4 gcm (.arrive source bytes) := by
  have hforeign {buffer : Bytes} (hbytes : checkedBytes (bytes.take kMaxBufferSize) = some buffer) :
      Foreign gcm key buffer := fun part hpart => hforeign part
    (hpart.trans ((prefix_checkedBytes hbytes).isInfix.trans (List.take_prefix ..).isInfix))
  constructor
  · rintro ⟨pack, htaken, hchannel⟩
    obtain ⟨buffer, packet, peer, hbytes, hunpack, -, hpeer, hnew, rfl⟩ :=
      taken_eq_some_iff.mp htaken
    rw [hkey, unpackPacket_foreign (hforeign hbytes)] at hunpack
    exact ⟨buffer, packet, peer, hbytes, hunpack, hchannel, hpeer, hnew⟩
  · rintro ⟨buffer, packet, peer, hbytes, hunpack, hchannel, hpeer, hnew⟩
    have hack : packet.type ≠ PacketType.acknowledgement := by
      intro hack
      rw [channel_unpackPacket hunpack, hack] at hchannel
      cases hchannel
    rw [← unpackPacket_foreign (hforeign hbytes), ← hkey] at hunpack
    exact ⟨_, taken_eq_some_iff.mpr
      ⟨buffer, packet, peer, hbytes, hunpack, hack, hpeer, hnew, rfl⟩, hchannel⟩

/-- One event keeps the Data queue free of the stranger's packets exactly if it is no
downgrade. -/
theorem noData_step {e : Event H} (hkey : s.host.crypto = some key) (hforeign : e.IsForeign gcm key)
    (hstep : (machine lz4 gcm).step s e = some s') :
    s'.host.crypto = some key ∧ (s'.NoData ↔ s.NoData ∧ ¬ s.Downgrades lz4 gcm e) := by
  cases e with
  | proceed queue peerList =>
      obtain rfl := Option.some.inj hstep
      exact ⟨hkey, (and_iff_left id).symm⟩
  | arrive source bytes =>
      simp only [machine] at hstep
      split at hstep
      · cases hstep
      obtain rfl := Option.some.inj hstep
      refine ⟨hkey, ?_⟩
      rw [← taken_data_iff hkey hforeign]
      show (∀ pack ∈ s.enqueued ++ (s.taken lz4 gcm source bytes).toList, pack.channel ≠ .data) ↔ _
      cases htaken : s.taken lz4 gcm source bytes with
      | none => simp [NoData]
      | some pack => simp [NoData, or_imp, forall_and]

/-- No Data packet of a party without the session key gets on the incoming queue of an encrypted
transport, exactly as long as none of its datagrams is a well-formed Data packet in the clear. -/
theorem no_downgrade_iff (hkey : s.host.crypto = some key) {events : List (Event H)}
    (hforeign : ∀ e ∈ events, e.IsForeign gcm key) (hstart : s.enqueued = [])
    (hexec : (machine lz4 gcm).exec s events = some s') :
    s'.NoData ↔ (machine lz4 gcm).Along (fun s e => ¬ s.Downgrades lz4 gcm e) s events := by
  have hnone : s.NoData := by
    intro pack hpack
    rw [hstart] at hpack
    cases hpack
  rw [Machine.iff_along_of_exec (fun _ _ _ => noData_step) hkey hforeign hexec]
  exact and_iff_right hnone

/-- A transport with a session key, before anything was received. -/
def sampleReceiving : Receiving Unit Nat where
  host := { queue := ZPacketQueue.init 0, peerList := ZPeerMapping.empty, crypto := some () }
  enqueued := []

/-- The sealed message is no part of the plain datagram, so nothing of it opens. -/
theorem plainDatagram_foreign : Foreign sealedGcm () plainDatagram := by
  intro part hpart aad
  by_contra hopens
  have hnonce : part.take kNonceSize = [1, 2, 3, 4, 5, 6, 7, 8, 9, 10, 11, 12] := by
    unfold decryptPayload at hopens
    split at hopens
    · exact absurd rfl hopens
    simp only at hopens
    split at hopens
    · exact absurd rfl hopens
    simp only [sealedGcm] at hopens
    split at hopens
    · rename_i hsealed
      exact hsealed.1
    · exact absurd rfl hopens
  have hinfix : part.take kNonceSize <:+: plainDatagram :=
    (List.take_prefix ..).isInfix.trans hpart
  rw [hnonce] at hinfix
  revert hinfix
  decide +kernel

/-- One plain datagram of a stranger, and the application has a Data packet from it. -/
theorem plaintext_enqueued :
    sampleReceiving.host.crypto = some () ∧ Foreign sealedGcm () plainDatagram ∧
      ∃ s', (machine literalLz4 sealedGcm).exec sampleReceiving [.arrive 7 plainDatagram] =
          some s' ∧
        s'.enqueued.map (fun pack => (pack.channel, pack.data)) = [(.data, [7, 8, 9])] ∧
        ¬ s'.NoData := by
  have henqueued : (sampleReceiving.arrive literalLz4 sealedGcm 7 plainDatagram).enqueued.map
      (fun pack => (pack.channel, pack.data)) = [(.data, [7, 8, 9])] := by decide +kernel
  refine ⟨rfl, plainDatagram_foreign, _, rfl, henqueued, fun hclean => ?_⟩
  have hmem := List.mem_singleton_self (PacketChannelType.data, ([7, 8, 9] : Bytes))
  rw [← henqueued] at hmem
  obtain ⟨pack, hpack, hdata⟩ := List.mem_map.mp hmem
  exact hclean pack hpack (congrArg Prod.fst hdata)

theorem no_downgrade_iff_sampleReceiving :
    ∃ s', (machine literalLz4 sealedGcm).exec sampleReceiving [.arrive 7 plainDatagram] =
        some s' ∧
      (s'.NoData ↔ (machine literalLz4 sealedGcm).Along
        (fun s e => ¬ s.Downgrades literalLz4 sealedGcm e) sampleReceiving
        [.arrive 7 plainDatagram]) :=
  ⟨_, rfl, no_downgrade_iff rfl
    (fun e he => by rw [List.mem_singleton.mp he]; exact plainDatagram_foreign) rfl rfl⟩

end Receiving

end ZetaNet
