import ZetaNet.Packet.Types
import Mathlib.Data.List.Nodup
import Mathlib.Data.Finset.Card

/-!
# `ZPeerMapping`

The peer table of `z_peer_mapping.h` with the id generator it uses. Addresses are of any
type with a lawful comparison: the table only ever compares them. Ids are handed out in
increasing order and never again, so no two entries share one.
-/

namespace ZetaNet

/-- `struct ZPeer`. -/
structure ZPeer (A : Type) where
  identifier : UInt32
  address : A
  deriving DecidableEq, Repr

/-- `class ZPeerMapping`: `peer_list_`, and `next_id_` of `z_peer_ids_`. -/
structure ZPeerMapping (A : Type) where
  nextId : UInt32
  peerList : List (ZPeer A)
  ids_lt : ∀ peer ∈ peerList, peer.identifier < nextId
  ids_nodup : (peerList.map ZPeer.identifier).Nodup

/-- `kMaxPeers`. -/
def kMaxPeers : Nat := 2048

namespace ZPeerMapping

variable {A : Type} [DecidableEq A]

def empty : ZPeerMapping A where
  nextId := 0
  peerList := []
  ids_lt := by simp
  ids_nodup := by simp

omit [DecidableEq A] in
theorem lt_succ_of_lt_maxId {id : UInt32} (h : id < ZPeerId.maxId) : id < id + 1 := by
  have hmax : ZPeerId.maxId.toNat = 4294967294 := by decide
  rw [UInt32.lt_iff_toNat_lt] at h ⊢
  rw [UInt32.toNat_add, UInt32.toNat_one]
  omega

/-- `CreatePeer`: the new peer, or none when the table is full or the ids are used up. -/
def createPeer (addr : A) (mapping : ZPeerMapping A) : Option (ZPeer A) × ZPeerMapping A :=
  if mapping.peerList.length ≥ kMaxPeers then (none, mapping)
  else if h : mapping.nextId < ZPeerId.maxId then
    let peer := ⟨mapping.nextId, addr⟩
    (some peer,
      { nextId := mapping.nextId + 1
        peerList := mapping.peerList ++ [peer]
        ids_lt := by
          intro old hold
          have hnext := lt_succ_of_lt_maxId h
          rcases List.mem_append.mp hold with hmem | hmem
          · exact UInt32.lt_trans (mapping.ids_lt old hmem) hnext
          · rw [List.mem_singleton.mp hmem]
            exact hnext
        ids_nodup := by
          rw [List.map_append, List.map_singleton]
          refine List.Nodup.append mapping.ids_nodup (List.nodup_singleton _) ?_
          intro id hid hnew
          rw [List.mem_singleton] at hnew
          obtain ⟨old, hold, rfl⟩ := List.mem_map.mp hid
          exact absurd (hnew ▸ mapping.ids_lt old hold) (UInt32.lt_irrefl _) })
  else (none, mapping)

/-- `DestroyPeer`; the id is not used again. -/
def destroyPeer (id : UInt32) (mapping : ZPeerMapping A) : Bool × ZPeerMapping A :=
  if mapping.peerList.any (·.identifier == id) then
    (true,
      { mapping with
        peerList := mapping.peerList.eraseP (·.identifier == id)
        ids_lt := fun peer hpeer => mapping.ids_lt peer (List.mem_of_mem_eraseP hpeer)
        ids_nodup := (List.eraseP_sublist.map _).nodup mapping.ids_nodup })
  else (false, mapping)

/-- `GetPeer`. -/
def getPeer (id : UInt32) (mapping : ZPeerMapping A) : Option (ZPeer A) :=
  mapping.peerList.find? (·.identifier == id)

/-- `GetPeerByAddress`. -/
def getPeerByAddress (addr : A) (mapping : ZPeerMapping A) : Option (ZPeer A) :=
  mapping.peerList.find? (·.address == addr)

/-- `GetOrCreatePeer`. -/
def getOrCreatePeer (addr : A) (mapping : ZPeerMapping A) :
    Option (ZPeer A) × ZPeerMapping A :=
  match mapping.getPeerByAddress addr with
  | some peer => (some peer, mapping)
  | none => mapping.createPeer addr

omit [DecidableEq A] in
theorem eq_of_identifier_eq {mapping : ZPeerMapping A} {p q : ZPeer A}
    (hp : p ∈ mapping.peerList) (hq : q ∈ mapping.peerList)
    (h : p.identifier = q.identifier) : p = q :=
  List.inj_on_of_nodup_map mapping.ids_nodup hp hq h

omit [DecidableEq A] in
theorem getPeer_eq_some {mapping : ZPeerMapping A} {id : UInt32} {peer : ZPeer A} :
    mapping.getPeer id = some peer ↔ peer ∈ mapping.peerList ∧ peer.identifier = id := by
  constructor
  · intro h
    exact ⟨List.mem_of_find?_eq_some h, by simpa using List.find?_some h⟩
  · rintro ⟨hmem, rfl⟩
    cases hfind : mapping.getPeer peer.identifier with
    | none => exact absurd (List.find?_eq_none.mp hfind peer hmem) (by simp)
    | some found =>
        have hfound : found ∈ mapping.peerList := List.mem_of_find?_eq_some hfind
        have hid : found.identifier = peer.identifier := by simpa using List.find?_some hfind
        rw [eq_of_identifier_eq hfound hmem hid]

theorem getPeerByAddress_some {mapping : ZPeerMapping A} {addr : A} {peer : ZPeer A}
    (h : mapping.getPeerByAddress addr = some peer) :
    peer ∈ mapping.peerList ∧ peer.address = addr :=
  ⟨List.mem_of_find?_eq_some h, by simpa using List.find?_some h⟩

theorem getPeerByAddress_none {mapping : ZPeerMapping A} {addr : A}
    (h : mapping.getPeerByAddress addr = none) :
    ∀ peer ∈ mapping.peerList, peer.address ≠ addr := by
  intro peer hpeer
  simpa using List.find?_eq_none.mp h peer hpeer

omit [DecidableEq A] in
/-- Everything `CreatePeer` can do: append a peer with a new id, or fail on a full table or
without ids. -/
theorem createPeer_cases (addr : A) (mapping : ZPeerMapping A) :
    (∃ mapping', mapping.createPeer addr = (some ⟨mapping.nextId, addr⟩, mapping') ∧
      mapping'.peerList = mapping.peerList ++ [⟨mapping.nextId, addr⟩] ∧
      mapping'.nextId = mapping.nextId + 1 ∧ mapping.peerList.length < kMaxPeers ∧
      mapping.nextId < ZPeerId.maxId) ∨
    (mapping.createPeer addr = (none, mapping) ∧
      (kMaxPeers ≤ mapping.peerList.length ∨ ZPeerId.maxId ≤ mapping.nextId)) := by
  unfold createPeer
  split
  · rename_i hfull
    exact .inr ⟨rfl, .inl hfull⟩
  · split
    · exact .inl ⟨_, rfl, rfl, rfl, Nat.not_le.mp ‹_›, ‹_›⟩
    · rename_i hids
      exact .inr ⟨rfl, .inr (UInt32.not_lt.mp hids)⟩

/-- Everything `GetOrCreatePeer` can do: find a peer, append one with a new id, or fail on a
full table or without ids. -/
theorem getOrCreatePeer_cases (addr : A) (mapping : ZPeerMapping A) :
    (∃ peer, mapping.getOrCreatePeer addr = (some peer, mapping) ∧
      peer ∈ mapping.peerList ∧ peer.address = addr) ∨
    (∃ mapping', mapping.getOrCreatePeer addr = (some ⟨mapping.nextId, addr⟩, mapping') ∧
      mapping'.peerList = mapping.peerList ++ [⟨mapping.nextId, addr⟩] ∧
      mapping'.nextId = mapping.nextId + 1 ∧ mapping.peerList.length < kMaxPeers ∧
      mapping.nextId < ZPeerId.maxId ∧ (∀ peer ∈ mapping.peerList, peer.address ≠ addr)) ∨
    (mapping.getOrCreatePeer addr = (none, mapping) ∧
      (kMaxPeers ≤ mapping.peerList.length ∨ ZPeerId.maxId ≤ mapping.nextId) ∧
      (∀ peer ∈ mapping.peerList, peer.address ≠ addr)) := by
  unfold getOrCreatePeer
  cases hfind : mapping.getPeerByAddress addr with
  | some peer => exact .inl ⟨peer, rfl, getPeerByAddress_some hfind⟩
  | none =>
      have hnew := getPeerByAddress_none hfind
      rcases createPeer_cases addr mapping with
        ⟨grown, heq, hlist, hid, hroom, hids⟩ | ⟨heq, hfull⟩
      · exact .inr (.inl ⟨grown, heq, hlist, hid, hroom, hids, hnew⟩)
      · exact .inr (.inr ⟨heq, hfull, hnew⟩)

omit [DecidableEq A] in
/-- Without repeated ids the first entry of an id is all there is. -/
theorem eraseP_eq_filter {peers : List (ZPeer A)} (id : UInt32)
    (hnodup : (peers.map ZPeer.identifier).Nodup) :
    peers.eraseP (·.identifier == id) = peers.filter (·.identifier ≠ id) := by
  induction peers with
  | nil => rfl
  | cons peer peers ih =>
      obtain ⟨hnew, hrest⟩ := List.nodup_cons.mp hnodup
      by_cases hid : peer.identifier = id
      · have hothers : ∀ other ∈ peers, decide (other.identifier ≠ id) = true := by
          intro other hother
          refine decide_eq_true fun h => hnew ?_
          rw [hid, ← h]
          exact List.mem_map_of_mem hother
        rw [List.eraseP_cons_of_pos (by simpa using hid),
          List.filter_cons_of_neg (by simpa using hid), List.filter_eq_self.mpr hothers]
      · rw [List.eraseP_cons_of_neg (by simpa using hid),
          List.filter_cons_of_pos (by simpa using hid), ih hrest]

omit [DecidableEq A] in
/-- Everything `DestroyPeer` can do: take out the one peer with the id, or find none. -/
theorem destroyPeer_cases (id : UInt32) (mapping : ZPeerMapping A) :
    (∃ peer ∈ mapping.peerList, peer.identifier = id ∧
      ∃ mapping', mapping.destroyPeer id = (true, mapping') ∧
        mapping'.peerList = mapping.peerList.filter (·.identifier ≠ id) ∧
        mapping'.nextId = mapping.nextId) ∨
    (mapping.destroyPeer id = (false, mapping) ∧
      ∀ peer ∈ mapping.peerList, peer.identifier ≠ id) := by
  unfold destroyPeer
  split
  · rename_i hany
    obtain ⟨peer, hpeer, hid⟩ := List.any_eq_true.mp hany
    exact .inl ⟨peer, hpeer, by simpa using hid, _, rfl,
      eraseP_eq_filter id mapping.ids_nodup, rfl⟩
  · rename_i hany
    refine .inr ⟨rfl, fun peer hpeer hid => hany ?_⟩
    exact List.any_eq_true.mpr ⟨peer, hpeer, by simpa using hid⟩

omit [DecidableEq A] in
theorem peerList_destroyPeer (id : UInt32) (mapping : ZPeerMapping A) :
    (mapping.destroyPeer id).2.peerList = mapping.peerList.filter (·.identifier ≠ id) := by
  rcases destroyPeer_cases id mapping with ⟨-, -, -, shrunk, heq, hlist, -⟩ | ⟨heq, hnone⟩
  · rw [heq, hlist]
  · rw [heq]
    exact (List.filter_eq_self.mpr fun peer hpeer => decide_eq_true (hnone peer hpeer)).symm

omit [DecidableEq A] in
theorem nextId_destroyPeer (id : UInt32) (mapping : ZPeerMapping A) :
    (mapping.destroyPeer id).2.nextId = mapping.nextId := by
  rcases destroyPeer_cases id mapping with ⟨-, -, -, shrunk, heq, -, hnext⟩ | ⟨heq, -⟩
  · rw [heq, hnext]
  · rw [heq]

theorem peerList_getOrCreatePeer (addr : A) (mapping : ZPeerMapping A) :
    (mapping.getOrCreatePeer addr).2.peerList = mapping.peerList ∨
      (mapping.getOrCreatePeer addr).2.peerList =
        mapping.peerList ++ [⟨mapping.nextId, addr⟩] := by
  rcases getOrCreatePeer_cases addr mapping with
    ⟨found, heq, -⟩ | ⟨grown, heq, hlist, -⟩ | ⟨heq, -⟩
  · rw [heq]
    exact .inl rfl
  · rw [heq]
    exact .inr hlist
  · rw [heq]
    exact .inl rfl

/-- The peer `GetOrCreatePeer` returns is in the table under the address asked for. -/
theorem getOrCreatePeer_mem {addr : A} {mapping mapping' : ZPeerMapping A} {peer : ZPeer A}
    (h : mapping.getOrCreatePeer addr = (some peer, mapping')) :
    peer ∈ mapping'.peerList ∧ peer.address = addr := by
  rcases getOrCreatePeer_cases addr mapping with
    ⟨found, heq, hmem, haddr⟩ | ⟨grown, heq, hlist, -, -⟩ | ⟨heq, -⟩
  · rw [h] at heq
    obtain ⟨hpeer, rfl⟩ := Prod.mk.inj heq
    obtain rfl := Option.some.inj hpeer
    exact ⟨hmem, haddr⟩
  · rw [h] at heq
    obtain ⟨hpeer, rfl⟩ := Prod.mk.inj heq
    obtain rfl := Option.some.inj hpeer
    rw [hlist]
    exact ⟨List.mem_append_right _ (List.mem_singleton.mpr rfl), rfl⟩
  · rw [h] at heq
    cases heq

/-- `GetOrCreatePeer` never takes an entry away. -/
theorem prefix_getOrCreatePeer (addr : A) (mapping : ZPeerMapping A) :
    mapping.peerList <+: (mapping.getOrCreatePeer addr).2.peerList := by
  rcases peerList_getOrCreatePeer addr mapping with hsame | hgrown
  · rw [hsame]
  · rw [hgrown]
    exact List.prefix_append _ _

/-! ## One entry for each address -/

/-- No two entries have the same address. `GetOrCreatePeer` keeps this; `CreatePeer` on its
own does not. -/
def AddressesDistinct (mapping : ZPeerMapping A) : Prop :=
  (mapping.peerList.map ZPeer.address).Nodup

omit [DecidableEq A] in
theorem addressesDistinct_empty : (empty : ZPeerMapping A).AddressesDistinct := List.nodup_nil

omit [DecidableEq A] in
theorem AddressesDistinct.eq {mapping : ZPeerMapping A} (h : mapping.AddressesDistinct)
    {p q : ZPeer A} (hp : p ∈ mapping.peerList) (hq : q ∈ mapping.peerList)
    (haddr : p.address = q.address) : p = q :=
  List.inj_on_of_nodup_map h hp hq haddr

omit [DecidableEq A] in
/-- An entry of a new address. -/
theorem AddressesDistinct.append {mapping : ZPeerMapping A} (h : mapping.AddressesDistinct)
    {id : UInt32} {addr : A} (hnew : ∀ peer ∈ mapping.peerList, peer.address ≠ addr) :
    ((mapping.peerList ++ [(⟨id, addr⟩ : ZPeer A)]).map ZPeer.address).Nodup := by
  rw [List.map_append, List.map_singleton]
  refine List.Nodup.append h (List.nodup_singleton _) ?_
  intro a ha hsame
  rw [List.mem_singleton] at hsame
  obtain ⟨old, hold, rfl⟩ := List.mem_map.mp ha
  exact hnew old hold hsame

theorem AddressesDistinct.getPeerByAddress_eq_some {mapping : ZPeerMapping A}
    (h : mapping.AddressesDistinct) {addr : A} {peer : ZPeer A} :
    mapping.getPeerByAddress addr = some peer ↔
      peer ∈ mapping.peerList ∧ peer.address = addr := by
  refine ⟨getPeerByAddress_some, ?_⟩
  rintro ⟨hpeer, haddr⟩
  cases hfind : mapping.getPeerByAddress addr with
  | none => exact absurd haddr (getPeerByAddress_none hfind peer hpeer)
  | some found =>
      obtain ⟨hfound, hsame⟩ := getPeerByAddress_some hfind
      rw [h.eq hfound hpeer (hsame.trans haddr.symm)]

/-- The peer of an address is found again as long as it is in the table. -/
theorem AddressesDistinct.getOrCreatePeer_of_mem {mapping : ZPeerMapping A}
    (h : mapping.AddressesDistinct) {peer : ZPeer A} (hpeer : peer ∈ mapping.peerList) :
    mapping.getOrCreatePeer peer.address = (some peer, mapping) := by
  unfold getOrCreatePeer
  rw [h.getPeerByAddress_eq_some.mpr ⟨hpeer, rfl⟩]

theorem AddressesDistinct.getOrCreatePeer {mapping : ZPeerMapping A}
    (h : mapping.AddressesDistinct) (addr : A) :
    (mapping.getOrCreatePeer addr).2.AddressesDistinct := by
  rcases getOrCreatePeer_cases addr mapping with
    ⟨found, heq, -⟩ | ⟨grown, heq, hlist, -, -, -, hnew⟩ | ⟨heq, -⟩
  · rw [heq]
    exact h
  · rw [heq, AddressesDistinct, hlist]
    exact h.append hnew
  · rw [heq]
    exact h

/-- A new address needs one more entry than there are. -/
theorem room_of_new {mapping : ZPeerMapping A} (h : mapping.AddressesDistinct) {addr : A}
    {addrs : List A} (hnew : ∀ peer ∈ mapping.peerList, peer.address ≠ addr) :
    mapping.peerList.length <
      (mapping.peerList.map ZPeer.address ++ addr :: addrs).toFinset.card := by
  have hnodup : (addr :: mapping.peerList.map ZPeer.address).Nodup := by
    refine List.nodup_cons.mpr ⟨?_, h⟩
    intro hmem
    obtain ⟨peer, hpeer, haddr⟩ := List.mem_map.mp hmem
    exact hnew peer hpeer haddr
  have hsub : (addr :: mapping.peerList.map ZPeer.address).toFinset ⊆
      (mapping.peerList.map ZPeer.address ++ addr :: addrs).toFinset := by
    intro a
    simp only [List.mem_toFinset, List.mem_append, List.mem_cons]
    tauto
  have hcard := Finset.card_le_card hsub
  rw [List.toFinset_card_of_nodup hnodup, List.length_cons, List.length_map] at hcard
  exact hcard

/-! ## Runs of lookups -/

/-- As many ids were handed out as there are entries: no peer was destroyed. -/
def NoneDestroyed (mapping : ZPeerMapping A) : Prop :=
  mapping.nextId.toNat = mapping.peerList.length

/-- What holds of a table that only `GetOrCreatePeer` has worked on. -/
structure Grown (mapping : ZPeerMapping A) : Prop where
  distinct : mapping.AddressesDistinct
  noneDestroyed : mapping.NoneDestroyed
  length_le : mapping.peerList.length ≤ kMaxPeers

omit [DecidableEq A] in
theorem grown_empty : (empty : ZPeerMapping A).Grown :=
  ⟨addressesDistinct_empty, rfl, Nat.zero_le _⟩

theorem Grown.getOrCreatePeer {mapping : ZPeerMapping A} (h : mapping.Grown) (addr : A) :
    (mapping.getOrCreatePeer addr).2.Grown := by
  refine ⟨h.distinct.getOrCreatePeer addr, ?_, ?_⟩ <;>
    rcases getOrCreatePeer_cases addr mapping with
      ⟨found, heq, -⟩ | ⟨grown, heq, hlist, hid, hroom, -⟩ | ⟨heq, -⟩
  · rw [heq]
    exact h.noneDestroyed
  · have hdense := h.noneDestroyed
    rw [heq]
    rw [NoneDestroyed] at hdense ⊢
    unfold kMaxPeers at hroom
    rw [hid, hlist, UInt32.toNat_add, hdense, List.length_append]
    simp
    omega
  · rw [heq]
    exact h.noneDestroyed
  · rw [heq]
    exact h.length_le
  · rw [heq, hlist, List.length_append]
    exact hroom
  · rw [heq]
    exact h.length_le

/-- The ids handed out stay used up. -/
theorem Grown.nextId_le {mapping : ZPeerMapping A} (h : mapping.Grown) (addr : A) :
    mapping.nextId ≤ (mapping.getOrCreatePeer addr).2.nextId := by
  rcases getOrCreatePeer_cases addr mapping with
    ⟨found, heq, -⟩ | ⟨grown, heq, -, hid, hroom, -⟩ | ⟨heq, -⟩
  · rw [heq]
    exact UInt32.le_refl _
  · have hdense := h.noneDestroyed
    rw [NoneDestroyed] at hdense
    unfold kMaxPeers at hroom
    rw [heq, hid, UInt32.le_iff_toNat_le, UInt32.toNat_add, hdense]
    simp
    omega
  · rw [heq]
    exact UInt32.le_refl _

omit [DecidableEq A] in
/-- The ids of such a table are small, so none is reserved. -/
theorem Grown.identifier_lt {mapping : ZPeerMapping A} (h : mapping.Grown) {peer : ZPeer A}
    (hpeer : peer ∈ mapping.peerList) : peer.identifier.toNat < kMaxPeers := by
  have hlt := UInt32.lt_iff_toNat_lt.mp (mapping.ids_lt peer hpeer)
  rw [h.noneDestroyed] at hlt
  exact lt_of_lt_of_le hlt h.length_le

omit [DecidableEq A] in
theorem Grown.not_reserved {mapping : ZPeerMapping A} (h : mapping.Grown) {peer : ZPeer A}
    (hpeer : peer ∈ mapping.peerList) :
    peer.identifier ≠ ZPeerId.toServer ∧ peer.identifier ≠ ZPeerId.toAll := by
  have hlt := h.identifier_lt hpeer
  constructor <;> (intro heq; rw [heq] at hlt; exact absurd hlt (by decide))

/-- The table after a lookup for every address in turn. -/
def register (mapping : ZPeerMapping A) (addrs : List A) : ZPeerMapping A :=
  addrs.foldl (fun mapping addr => (mapping.getOrCreatePeer addr).2) mapping

/-- The ids these lookups return; `none` is a failed one. -/
def idsOf (mapping : ZPeerMapping A) : List A → List (Option UInt32)
  | [] => []
  | addr :: addrs =>
      (mapping.getOrCreatePeer addr).1.map ZPeer.identifier ::
        idsOf (mapping.getOrCreatePeer addr).2 addrs

@[simp] theorem length_idsOf (mapping : ZPeerMapping A) (addrs : List A) :
    (mapping.idsOf addrs).length = addrs.length := by
  induction addrs generalizing mapping with
  | nil => rfl
  | cons addr addrs ih => simp [idsOf, ih]

theorem prefix_register (mapping : ZPeerMapping A) (addrs : List A) :
    mapping.peerList <+: (mapping.register addrs).peerList := by
  induction addrs generalizing mapping with
  | nil => exact List.prefix_refl _
  | cons addr addrs ih => exact (prefix_getOrCreatePeer addr mapping).trans (ih _)

theorem AddressesDistinct.register {mapping : ZPeerMapping A} (h : mapping.AddressesDistinct)
    (addrs : List A) : (mapping.register addrs).AddressesDistinct := by
  induction addrs generalizing mapping with
  | nil => exact h
  | cons addr addrs ih => exact ih (h.getOrCreatePeer addr)

theorem Grown.register {mapping : ZPeerMapping A} (h : mapping.Grown) (addrs : List A) :
    (mapping.register addrs).Grown := by
  induction addrs generalizing mapping with
  | nil => exact h
  | cons addr addrs ih => exact ih (h.getOrCreatePeer addr)

/-- Every id returned stands in the final table beside its address. -/
theorem idsOf_owned (mapping : ZPeerMapping A) (addrs : List A) :
    List.Forall₂ (fun addr given => ∀ id, given = some id →
        ∃ peer ∈ (mapping.register addrs).peerList, peer.identifier = id ∧ peer.address = addr)
      addrs (mapping.idsOf addrs) := by
  induction addrs generalizing mapping with
  | nil => exact .nil
  | cons addr addrs ih =>
      refine .cons ?_ (ih _)
      intro id hid
      obtain ⟨peer, hpeer, rfl⟩ := Option.map_eq_some_iff.mp hid
      have hmem : peer ∈ (mapping.getOrCreatePeer addr).2.peerList ∧ peer.address = addr :=
        getOrCreatePeer_mem (Prod.ext hpeer rfl)
      exact ⟨peer, (prefix_register _ addrs).subset hmem.1, rfl, hmem.2⟩

/-- Two lookups return the same id exactly when they ask for the same address. -/
theorem idsOf_eq_iff {mapping : ZPeerMapping A} (h : mapping.AddressesDistinct)
    {addrs : List A} {i j : Nat} {a b : A} {x y : UInt32}
    (hi : addrs[i]? = some a) (hj : addrs[j]? = some b)
    (hx : (mapping.idsOf addrs)[i]? = some (some x))
    (hy : (mapping.idsOf addrs)[j]? = some (some y)) : x = y ↔ a = b := by
  have owned {k : Nat} {c : A} {z : UInt32} (hk : addrs[k]? = some c)
      (hz : (mapping.idsOf addrs)[k]? = some (some z)) :
      ∃ peer ∈ (mapping.register addrs).peerList, peer.identifier = z ∧ peer.address = c := by
    obtain ⟨hlt, rfl⟩ := List.getElem?_eq_some_iff.mp hk
    obtain ⟨hlt', hz⟩ := List.getElem?_eq_some_iff.mp hz
    exact (List.forall₂_iff_get.mp (idsOf_owned mapping addrs)).2 k hlt hlt' z hz
  obtain ⟨p, hp, rfl, rfl⟩ := owned hi hx
  obtain ⟨q, hq, rfl, rfl⟩ := owned hj hy
  constructor
  · intro hid
    rw [eq_of_identifier_eq hp hq hid]
  · intro haddr
    rw [(h.register addrs).eq hp hq haddr]

/-- While the addresses fit into the table no lookup fails. -/
theorem idsOf_ne_none {mapping : ZPeerMapping A} (hgrown : mapping.Grown) {addrs : List A}
    (hroom : (mapping.peerList.map ZPeer.address ++ addrs).toFinset.card ≤ kMaxPeers) :
    ∀ given ∈ mapping.idsOf addrs, given ≠ none := by
  induction addrs generalizing mapping with
  | nil => simp [idsOf]
  | cons addr addrs ih =>
      have hnext := hgrown.getOrCreatePeer addr
      intro given hgiven
      rw [idsOf, List.mem_cons] at hgiven
      rcases getOrCreatePeer_cases addr mapping with
        ⟨found, heq, hmem, haddr⟩ | ⟨grown, heq, hlist, -, -, -, hnew⟩ | ⟨heq, hfull, hnew⟩
      · rw [heq] at hgiven
        rcases hgiven with rfl | hgiven
        · simp
        · refine ih hgrown (le_trans (Finset.card_le_card ?_) hroom) given hgiven
          intro a
          simp only [List.mem_toFinset, List.mem_append, List.mem_cons]
          tauto
      · rw [heq] at hgiven hnext
        rcases hgiven with rfl | hgiven
        · simp
        · refine ih hnext (le_trans (Finset.card_le_card ?_) hroom) given hgiven
          rw [hlist]
          intro a
          simp only [List.map_append, List.map_singleton, List.mem_toFinset, List.mem_append,
            List.mem_cons]
          tauto
      · have hbound := lt_of_lt_of_le (room_of_new hgrown.distinct hnew) hroom
        exfalso
        rcases hfull with hfull | hfull
        · omega
        · rw [UInt32.le_iff_toNat_le, hgrown.noneDestroyed] at hfull
          have hmax : ZPeerId.maxId.toNat = 4294967294 := by decide
          unfold kMaxPeers at hbound
          omega

end ZPeerMapping

end ZetaNet
