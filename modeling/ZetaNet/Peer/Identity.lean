import ZetaNet.Packet.RoundTrip
import ZetaNet.Peer.Receiver
import Mathlib.Combinatorics.Enumerative.DoubleCounting

/-!
# Peer identity

Which peer id a run of datagrams is attributed to. The table compares whole address
buffers, and `Receive` rewrites only the front of the one buffer it has, so an endpoint
keeps its peer id exactly as long as what stands behind its text stays the same
(`peerIdentity_iff_remnantsAgree`). Two endpoints never share an id.
-/

namespace ZetaNet

/-- A datagram on its way to the receiver, with the crypto context and the packet object
`ReceivePackets` is called with. -/
structure Arrival (K : Type) where
  crypto : Option K
  pack : IncomingPacket
  source : Endpoint
  bytes : Bytes

variable {K : Type}

/-- The receiver takes the datagram. -/
def Arrival.valid (lz4 : Lz4) (gcm : AesGcm K) (arrival : Arrival K) : Bool :=
  validDatagram lz4 gcm arrival.crypto arrival.pack arrival.bytes

/-- The `source_peer_id` each datagram of a run is given. -/
def sourcePeerIds (lz4 : Lz4) (gcm : AesGcm K) (receiver : PacketReceiver) :
    List (Arrival K) → List (Option UInt32)
  | [] => []
  | arrival :: arrivals =>
      let (result, receiver) := receiver.receivePackets lz4 gcm arrival.crypto arrival.pack
        (.datagram arrival.source arrival.bytes)
      result.sourcePeerId :: sourcePeerIds lz4 gcm receiver arrivals

/-- Every datagram is given an id, and two are given the same one exactly when they come from
the same endpoint. -/
def PeerIdentity (sources : List Endpoint) (ids : List (Option UInt32)) : Prop :=
  ∀ (i j : Nat) (e e' : Endpoint), sources[i]? = some e → sources[j]? = some e' →
    ∃ x y : UInt32, ids[i]? = some (some x) ∧ ids[j]? = some (some y) ∧ (x = y ↔ e = e')

/-- Before any two datagrams of one endpoint the texts received so far have left the same
bytes behind the endpoint's own text. -/
def RemnantsAgree (sources : List Endpoint) : Prop :=
  ∀ (i j : Nat) (e : Endpoint), sources[i]? = some e → sources[j]? = some e →
    ∀ p, e.text.length < p → p < kAddressTextSize →
      remnant ((sources.take i).map Endpoint.text).reverse p =
        remnant ((sources.take j).map Endpoint.text).reverse p

instance (sources : List Endpoint) : Decidable (RemnantsAgree sources) :=
  decidable_of_iff (∀ i j : Fin sources.length, sources[i] = sources[j] →
      ∀ p : Fin kAddressTextSize, sources[i].text.length < p →
        remnant ((sources.take i).map Endpoint.text).reverse p =
          remnant ((sources.take j).map Endpoint.text).reverse p)
    ⟨fun h i j e hi hj p hlength hp => by
        obtain ⟨hilt, rfl⟩ := List.getElem?_eq_some_iff.mp hi
        obtain ⟨hjlt, heq⟩ := List.getElem?_eq_some_iff.mp hj
        exact h ⟨i, hilt⟩ ⟨j, hjlt⟩ heq.symm ⟨p, hp⟩ hlength,
      fun h i j heq p hlength => h i j _ (List.getElem?_eq_getElem i.2)
        ((List.getElem?_eq_getElem j.2).trans (congrArg some heq.symm)) p hlength p.2⟩

/-- The address object at each of a run of datagrams. -/
def addressesFrom (address : Address) : List Endpoint → List Address
  | [] => []
  | source :: sources =>
      address.receive source :: addressesFrom (address.receive source) sources

theorem getElem?_addressesFrom (address : Address) (sources : List Endpoint) (i : Nat) :
    (addressesFrom address sources)[i]? =
      sources[i]?.map ((sources.take i).foldl Address.receive address).receive := by
  induction sources generalizing address i with
  | nil => rfl
  | cons source sources ih =>
      cases i with
      | zero => rfl
      | succ i => exact ih (address.receive source) i

/-- A run of valid datagrams looks up one address after the other. -/
theorem sourcePeerIds_eq_idsOf {lz4 : Lz4} {gcm : AesGcm K} {arrivals : List (Arrival K)}
    (hvalid : ∀ arrival ∈ arrivals, arrival.valid lz4 gcm = true)
    (receiver : PacketReceiver) :
    sourcePeerIds lz4 gcm receiver arrivals =
      receiver.peerList.idsOf (addressesFrom receiver.address (arrivals.map Arrival.source)) := by
  induction arrivals generalizing receiver with
  | nil => rfl
  | cons arrival arrivals ih =>
      obtain ⟨packet, hstep⟩ := PacketReceiver.receivePackets_valid
        (hvalid arrival List.mem_cons_self) arrival.source receiver
      rw [sourcePeerIds, hstep]
      simp only [sourcePeerId_receivedFrom, List.map_cons, addressesFrom, ZPeerMapping.idsOf]
      rw [ih fun a ha => hvalid a (List.mem_cons_of_mem _ ha)]

/-! ## The addresses of a run -/

/-- The address object at position `i` of a run from the start. -/
def addressAt (sources : List Endpoint) (i : Nat) (source : Endpoint) : Address :=
  (Address.receiveAll (sources.take i)).receive source

theorem getElem?_addresses {sources : List Endpoint} {i : Nat} {e : Endpoint}
    (h : sources[i]? = some e) :
    (addressesFrom Address.init sources)[i]? = some (addressAt sources i e) := by
  rw [getElem?_addressesFrom, h]
  rfl

theorem addressAt_eq_iff {sources : List Endpoint} {i j : Nat} {e e' : Endpoint} :
    addressAt sources i e = addressAt sources j e' ↔
      e = e' ∧ ∀ p, e.text.length < p → p < kAddressTextSize →
        remnant ((sources.take i).map Endpoint.text).reverse p =
          remnant ((sources.take j).map Endpoint.text).reverse p := by
  unfold addressAt
  rw [Address.receive_eq_iff]
  simp only [getD_receiveAll]

/-- While the remnants agree, a run shows no more addresses than it has endpoints. -/
theorem card_addresses_le {sources : List Endpoint} (hagree : RemnantsAgree sources) :
    (addressesFrom Address.init sources).toFinset.card ≤ sources.toFinset.card := by
  refine Finset.card_le_card_of_forall_subsingleton
    (fun address e => ∃ i, sources[i]? = some e ∧ addressAt sources i e = address) ?_ ?_
  · intro address haddress
    obtain ⟨i, hi⟩ := List.mem_iff_getElem?.mp (List.mem_toFinset.mp haddress)
    rw [getElem?_addressesFrom] at hi
    obtain ⟨e, he, rfl⟩ := Option.map_eq_some_iff.mp hi
    exact ⟨e, List.mem_toFinset.mpr (List.mem_of_getElem? he), i, he, rfl⟩
  · rintro e he a ⟨-, i, hi, rfl⟩ b ⟨-, j, hj, rfl⟩
    exact addressAt_eq_iff.mpr ⟨rfl, hagree i j e hi hj⟩

/-- Two datagrams with one id come from one endpoint, in every run. -/
theorem source_eq_of_sourcePeerIds_eq {lz4 : Lz4} {gcm : AesGcm K} {arrivals : List (Arrival K)}
    (hvalid : ∀ arrival ∈ arrivals, arrival.valid lz4 gcm = true) {i j : Nat} {e e' : Endpoint}
    {id : UInt32} (hi : (arrivals.map Arrival.source)[i]? = some e)
    (hj : (arrivals.map Arrival.source)[j]? = some e')
    (hid : (sourcePeerIds lz4 gcm PacketReceiver.init arrivals)[i]? = some (some id))
    (hid' : (sourcePeerIds lz4 gcm PacketReceiver.init arrivals)[j]? = some (some id)) :
    e = e' := by
  rw [sourcePeerIds_eq_idsOf hvalid] at hid hid'
  have haddress := (ZPeerMapping.idsOf_eq_iff ZPeerMapping.addressesDistinct_empty
    (getElem?_addresses hi) (getElem?_addresses hj) hid hid').mp rfl
  exact (addressAt_eq_iff.mp haddress).1

/-- The exact condition under which endpoints and peer ids correspond, while the peer table
is large enough. -/
theorem peerIdentity_iff_remnantsAgree (lz4 : Lz4) (gcm : AesGcm K)
    (arrivals : List (Arrival K))
    (hvalid : ∀ arrival ∈ arrivals, arrival.valid lz4 gcm = true)
    (hpeers : (arrivals.map Arrival.source).toFinset.card < kMaxPeers) :
    PeerIdentity (arrivals.map Arrival.source)
        (sourcePeerIds lz4 gcm PacketReceiver.init arrivals) ↔
      RemnantsAgree (arrivals.map Arrival.source) := by
  rw [sourcePeerIds_eq_idsOf hvalid]
  set sources := arrivals.map Arrival.source
  have hdistinct : PacketReceiver.init.peerList.AddressesDistinct :=
    ZPeerMapping.addressesDistinct_empty
  show PeerIdentity sources (ZPeerMapping.idsOf _ (addressesFrom Address.init sources)) ↔ _
  constructor
  · intro hidentity i j e hi hj
    obtain ⟨x, y, hx, hy, hxy⟩ := hidentity i j e e hi hj
    have haddress := (ZPeerMapping.idsOf_eq_iff hdistinct (getElem?_addresses hi)
      (getElem?_addresses hj) hx hy).mp (hxy.mpr rfl)
    exact (addressAt_eq_iff.mp haddress).2
  · intro hagree i j e e' hi hj
    have hroom : (PacketReceiver.init.peerList.peerList.map ZPeer.address ++
        addressesFrom Address.init sources).toFinset.card ≤ kMaxPeers :=
      le_of_lt (lt_of_le_of_lt (card_addresses_le hagree) hpeers)
    have hgiven := ZPeerMapping.idsOf_ne_none ZPeerMapping.grown_empty hroom
    -- with every lookup answered, equal ids are equal addresses
    have given {k : Nat} {c : Endpoint} (hk : sources[k]? = some c) :
        ∃ z, (PacketReceiver.init.peerList.idsOf (addressesFrom Address.init sources))[k]? =
          some (some z) := by
      have hlt : k < (PacketReceiver.init.peerList.idsOf
          (addressesFrom Address.init sources)).length := by
        rw [ZPeerMapping.length_idsOf]
        exact (List.getElem?_eq_some_iff.mp (getElem?_addresses hk)).1
      obtain ⟨z, hz⟩ := Option.ne_none_iff_exists'.mp (hgiven _ (List.getElem_mem hlt))
      exact ⟨z, by rw [List.getElem?_eq_getElem hlt, hz]⟩
    obtain ⟨x, hx⟩ := given hi
    obtain ⟨y, hy⟩ := given hj
    refine ⟨x, y, hx, hy, ?_⟩
    rw [ZPeerMapping.idsOf_eq_iff hdistinct (getElem?_addresses hi) (getElem?_addresses hj) hx hy,
      addressAt_eq_iff]
    constructor
    · exact fun h => h.1
    · rintro rfl
      exact ⟨rfl, hagree i j e hi hj⟩

/-! ## A longer address in between -/

/-- An unreliable application packet without payload, as a datagram. -/
def plainBytes : Bytes :=
  (buildPacket literalLz4 maskGcm none sampleEnv
    (OutgoingPacket.ofHeader 0 101 .data ⟨false, false, false, .low, false, false, false⟩) 0).2

/-- `1.2.3.4`, port 5000. -/
def shortEndpoint : Endpoint where
  text := [49, 46, 50, 46, 51, 46, 52]
  port := 5000
  family := .inet
  text_lt := by decide
  noNul := by decide

/-- `192.168.10.20`, port 5000. -/
def longEndpoint : Endpoint where
  text := [49, 57, 50, 46, 49, 54, 56, 46, 49, 48, 46, 50, 48]
  port := 5000
  family := .inet
  text_lt := by decide
  noNul := by decide

def plainArrival (source : Endpoint) : Arrival UInt8 where
  crypto := none
  pack := sampleIncoming
  source
  bytes := plainBytes

/-- The datagram of the long address leaves `8.10.20` behind the short text, and the short
endpoint's second datagram makes a third peer. -/
theorem peerIdentity_fails_after_longer_text :
    (∀ arrival ∈ [shortEndpoint, longEndpoint, shortEndpoint].map plainArrival,
      arrival.valid literalLz4 maskGcm = true) ∧
    [shortEndpoint, longEndpoint, shortEndpoint].toFinset.card < kMaxPeers ∧
    ¬ PeerIdentity [shortEndpoint, longEndpoint, shortEndpoint]
      (sourcePeerIds literalLz4 maskGcm PacketReceiver.init
        ([shortEndpoint, longEndpoint, shortEndpoint].map plainArrival)) := by
  refine ⟨by decide +kernel, by decide +kernel, ?_⟩
  intro h
  have hids : sourcePeerIds literalLz4 maskGcm PacketReceiver.init
      ([shortEndpoint, longEndpoint, shortEndpoint].map plainArrival) =
        [some 0, some 1, some 2] := by decide +kernel
  rw [hids] at h
  obtain ⟨x, y, hx, hy, hxy⟩ := h 0 2 shortEndpoint shortEndpoint rfl rfl
  obtain rfl : 0 = x := Option.some.inj (Option.some.inj hx)
  obtain rfl : 2 = y := Option.some.inj (Option.some.inj hy)
  exact absurd (hxy.mpr rfl) (by decide)

/-- The two endpoints take turns, and the long text comes first. -/
def takingTurns : List Endpoint :=
  [longEndpoint, shortEndpoint, longEndpoint, shortEndpoint, longEndpoint]

theorem peerIdentity_iff_remnantsAgree_two :
    PeerIdentity takingTurns
        (sourcePeerIds literalLz4 maskGcm PacketReceiver.init (takingTurns.map plainArrival)) ∧
      sourcePeerIds literalLz4 maskGcm PacketReceiver.init (takingTurns.map plainArrival) =
        [some 0, some 1, some 0, some 1, some 0] := by
  have hvalid : ∀ arrival ∈ takingTurns.map plainArrival,
      arrival.valid literalLz4 maskGcm = true := by decide +kernel
  have hagree : RemnantsAgree takingTurns := by decide +kernel
  have hiff := peerIdentity_iff_remnantsAgree literalLz4 maskGcm (takingTurns.map plainArrival)
    hvalid (by decide +kernel)
  exact ⟨hiff.mpr hagree, by decide +kernel⟩

end ZetaNet
