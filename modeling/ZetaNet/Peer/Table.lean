import ZetaNet.Lib.Machine
import ZetaNet.Peer.Mapping

/-!
# Runs of the peer table

The calls of a `ZPeerMapping` in any order, with the ids of the peers destroyed so far beside
the table. What a call can do is said once, in `apply_cases`.
-/

namespace ZetaNet

/-- The calls of a `ZPeerMapping`. -/
inductive TableCall (A : Type)
  | createPeer (addr : A)
  | getOrCreatePeer (addr : A)
  | destroyPeer (id : UInt32)
  | getPeer (id : UInt32)
  | getPeerByAddress (addr : A)

/-- Every call but `CreatePeer`, which does not look for the address. -/
def TableCall.Checked {A : Type} : TableCall A → Prop
  | .createPeer _ => False
  | _ => True

/-- A peer table, and the ids of the peers destroyed. -/
structure PeerTable (A : Type) where
  mapping : ZPeerMapping A
  destroyed : List UInt32

namespace PeerTable

variable {A : Type} [DecidableEq A]

def init : PeerTable A := ⟨.empty, []⟩

/-- What a call leaves. -/
def apply (table : PeerTable A) : TableCall A → PeerTable A
  | .createPeer addr => { table with mapping := (table.mapping.createPeer addr).2 }
  | .getOrCreatePeer addr => { table with mapping := (table.mapping.getOrCreatePeer addr).2 }
  | .destroyPeer id =>
      match table.mapping.destroyPeer id with
      | (true, mapping) => ⟨mapping, id :: table.destroyed⟩
      | (false, mapping) => { table with mapping }
  | .getPeer _ => table
  | .getPeerByAddress _ => table

def machine : Machine (PeerTable A) (TableCall A) where
  step table call := some (table.apply call)

theorem mapping_apply_destroyPeer (table : PeerTable A) (id : UInt32) :
    (table.apply (.destroyPeer id)).mapping = (table.mapping.destroyPeer id).2 := by
  unfold apply
  dsimp only
  rcases table.mapping.destroyPeer id with ⟨destroyed, mapping⟩
  cases destroyed <;> rfl

/-- The call makes a peer of this address. -/
def Creates (table : PeerTable A) (call : TableCall A) (addr : A) : Prop :=
  (call = .createPeer addr ∨
    call = .getOrCreatePeer addr ∧ ∀ peer ∈ table.mapping.peerList, peer.address ≠ addr) ∧
  table.mapping.peerList.length < kMaxPeers ∧ table.mapping.nextId < ZPeerId.maxId

/-- Everything a call can do: nothing, append one entry with the next id, or take out one
entry. -/
theorem apply_cases (table : PeerTable A) (call : TableCall A) :
    (table.apply call = table ∧ ∀ addr, ¬ table.Creates call addr) ∨
    (∃ addr mapping', table.Creates call addr ∧ table.apply call = ⟨mapping', table.destroyed⟩ ∧
      mapping'.peerList = table.mapping.peerList ++ [⟨table.mapping.nextId, addr⟩] ∧
      mapping'.nextId = table.mapping.nextId + 1) ∨
    (∃ id mapping', call = .destroyPeer id ∧ table.apply call = ⟨mapping', id :: table.destroyed⟩ ∧
      (∃ peer ∈ table.mapping.peerList, peer.identifier = id) ∧
      mapping'.peerList = table.mapping.peerList.filter (·.identifier ≠ id) ∧
      mapping'.nextId = table.mapping.nextId) := by
  obtain ⟨mapping, destroyed⟩ := table
  -- a full table or a used up counter makes no peer for any call
  have hfullNot {call : TableCall A}
      (hfull : kMaxPeers ≤ mapping.peerList.length ∨ ZPeerId.maxId ≤ mapping.nextId) (addr : A) :
      ¬ (⟨mapping, destroyed⟩ : PeerTable A).Creates call addr := by
    rintro ⟨-, hroom, hids⟩
    rcases hfull with hfull | hused
    · exact absurd hroom (Nat.not_lt.mpr hfull)
    · exact absurd hids (UInt32.not_lt.mpr hused)
  cases call with
  | createPeer addr =>
      unfold apply
      dsimp only
      rcases ZPeerMapping.createPeer_cases addr mapping with
        ⟨grown, heq, hlist, hid, hroom, hids⟩ | ⟨heq, hfull⟩
      · rw [heq]
        exact .inr (.inl ⟨addr, grown, ⟨.inl rfl, hroom, hids⟩, rfl, hlist, hid⟩)
      · rw [heq]
        exact .inl ⟨rfl, hfullNot hfull⟩
  | getOrCreatePeer addr =>
      unfold apply
      dsimp only
      rcases ZPeerMapping.getOrCreatePeer_cases addr mapping with
        ⟨found, heq, hmem, haddr⟩ | ⟨grown, heq, hlist, hid, hroom, hids, hnew⟩ |
        ⟨heq, hfull, -⟩
      · rw [heq]
        refine .inl ⟨rfl, ?_⟩
        rintro other ⟨hcall | ⟨hcall, hnew⟩, -⟩
        · cases hcall
        · -- the address asked for is that of the peer found
          obtain rfl := TableCall.getOrCreatePeer.inj hcall
          exact hnew found hmem haddr
      · rw [heq]
        exact .inr (.inl ⟨addr, grown, ⟨.inr ⟨rfl, hnew⟩, hroom, hids⟩, rfl, hlist, hid⟩)
      · rw [heq]
        exact .inl ⟨rfl, hfullNot hfull⟩
  | destroyPeer id =>
      unfold apply
      dsimp only
      rcases ZPeerMapping.destroyPeer_cases id mapping with
        ⟨peer, hpeer, hid, shrunk, heq, hlist, hnext⟩ | ⟨heq, -⟩
      · rw [heq]
        exact .inr (.inr ⟨id, shrunk, rfl, rfl, ⟨peer, hpeer, hid⟩, hlist, hnext⟩)
      · rw [heq]
        refine .inl ⟨rfl, ?_⟩
        rintro addr ⟨hcall | ⟨hcall, -⟩, -⟩ <;> cases hcall
  | getPeer id =>
      refine .inl ⟨rfl, ?_⟩
      rintro addr ⟨hcall | ⟨hcall, -⟩, -⟩ <;> cases hcall
  | getPeerByAddress address =>
      refine .inl ⟨rfl, ?_⟩
      rintro addr ⟨hcall | ⟨hcall, -⟩, -⟩ <;> cases hcall

/-! ## What holds of every table -/

/-- What the calls that look for their address keep. -/
structure Sound (table : PeerTable A) : Prop where
  length_le : table.mapping.peerList.length ≤ kMaxPeers
  distinct : table.mapping.AddressesDistinct
  /-- the ids of destroyed peers are used up, and no entry has one -/
  destroyed_lt : ∀ id ∈ table.destroyed, id < table.mapping.nextId
  fresh : ∀ peer ∈ table.mapping.peerList, peer.identifier ∉ table.destroyed

omit [DecidableEq A] in
theorem sound_init : (init : PeerTable A).Sound where
  length_le := Nat.zero_le _
  distinct := ZPeerMapping.addressesDistinct_empty
  destroyed_lt := nofun
  fresh := nofun

theorem Sound.apply {table : PeerTable A} (h : table.Sound) {call : TableCall A}
    (hcall : call.Checked) : (table.apply call).Sound := by
  rcases table.apply_cases call with
    ⟨heq, -⟩ | ⟨addr, grown, hcreates, heq, hlist, hid⟩ | ⟨id, shrunk, -, heq, hheld, hlist, hid⟩
  · rwa [heq]
  · obtain ⟨hwhich, hroom, hids⟩ := hcreates
    have hnext := ZPeerMapping.lt_succ_of_lt_maxId hids
    have hnew : ∀ peer ∈ table.mapping.peerList, peer.address ≠ addr := by
      rcases hwhich with rfl | ⟨-, hnew⟩
      · exact hcall.elim
      · exact hnew
    rw [heq]
    refine
      { length_le := by simpa [hlist] using hroom
        distinct := ?_
        destroyed_lt := fun id hdestroyed => ?_
        fresh := fun peer hpeer hdestroyed => ?_ }
    · rw [ZPeerMapping.AddressesDistinct, hlist]
      exact h.distinct.append hnew
    · rw [hid]
      exact UInt32.lt_trans (h.destroyed_lt id hdestroyed) hnext
    · rw [hlist] at hpeer
      rcases List.mem_append.mp hpeer with hold | hnewPeer
      · exact h.fresh peer hold hdestroyed
      · -- the new id is above all that were destroyed
        rw [List.mem_singleton.mp hnewPeer] at hdestroyed
        exact UInt32.lt_irrefl _ (h.destroyed_lt _ hdestroyed)
  · obtain ⟨held, hheldMem, hheldId⟩ := hheld
    have hsub : shrunk.peerList.Sublist table.mapping.peerList := by
      rw [hlist]
      exact List.filter_sublist
    rw [heq]
    refine
      { length_le := hsub.length_le.trans h.length_le
        distinct := (hsub.map _).nodup h.distinct
        destroyed_lt := fun other hother => ?_
        fresh := fun peer hpeer hdestroyed => ?_ }
    · rw [hid]
      rcases List.mem_cons.mp hother with rfl | hbefore
      · rw [← hheldId]
        exact table.mapping.ids_lt held hheldMem
      · exact h.destroyed_lt other hbefore
    · rcases List.mem_cons.mp hdestroyed with hsame | hbefore
      · rw [hlist] at hpeer
        exact of_decide_eq_true (List.mem_filter.mp hpeer).2 hsame
      · exact h.fresh peer (hsub.subset hpeer) hbefore

theorem sound_of_exec {table table' : PeerTable A} {calls : List (TableCall A)}
    (h : table.Sound) (hcalls : ∀ call ∈ calls, call.Checked)
    (hexec : machine.exec table calls = some table') : table'.Sound := by
  refine machine.invariant_of_along ?_ h (machine.along_of_forall hcalls _) hexec
  intro before call after hsound hcall hstep
  rw [← Option.some.inj hstep]
  exact hsound.apply hcall

/-- An entry stays as it is until its peer is destroyed. -/
theorem mem_apply {table : PeerTable A} {call : TableCall A} {peer : ZPeer A}
    (hpeer : peer ∈ table.mapping.peerList) (hcall : call ≠ .destroyPeer peer.identifier) :
    peer ∈ (table.apply call).mapping.peerList := by
  rcases table.apply_cases call with
    ⟨heq, -⟩ | ⟨addr, grown, -, heq, hlist, -⟩ | ⟨id, shrunk, rfl, heq, -, hlist, -⟩
  · rwa [heq]
  · rw [heq, hlist]
    exact List.mem_append_left _ hpeer
  · rw [heq, hlist]
    refine List.mem_filter.mpr ⟨hpeer, decide_eq_true fun hsame => hcall ?_⟩
    rw [hsame]

theorem mem_of_exec {table table' : PeerTable A} {calls : List (TableCall A)} {peer : ZPeer A}
    (hpeer : peer ∈ table.mapping.peerList)
    (hcalls : ∀ call ∈ calls, call ≠ .destroyPeer peer.identifier)
    (hexec : machine.exec table calls = some table') : peer ∈ table'.mapping.peerList := by
  refine @Machine.invariant_of_along _ _ machine _
    (fun table : PeerTable A => peer ∈ table.mapping.peerList) ?_ _ _ _ hpeer
    (machine.along_of_forall hcalls _) hexec
  intro before call after hmem hcall hstep
  rw [← Option.some.inj hstep]
  exact mem_apply hmem hcall

/-- A peer table as its callers rely on it. -/
structure Correct (table : PeerTable A) : Prop where
  length_le : table.mapping.peerList.length ≤ kMaxPeers
  identifiers : (table.mapping.peerList.map ZPeer.identifier).Nodup
  /-- no entry has the id of a destroyed peer -/
  fresh : ∀ peer ∈ table.mapping.peerList, peer.identifier ∉ table.destroyed
  addresses : (table.mapping.peerList.map ZPeer.address).Nodup
  getPeer : ∀ id peer, table.mapping.getPeer id = some peer ↔
    peer ∈ table.mapping.peerList ∧ peer.identifier = id
  getPeerByAddress : ∀ addr peer, table.mapping.getPeerByAddress addr = some peer ↔
    peer ∈ table.mapping.peerList ∧ peer.address = addr
  /-- an address keeps its peer until that is destroyed -/
  stable : ∀ addr peer calls table', (table.mapping.getOrCreatePeer addr).1 = some peer →
    (∀ call ∈ calls, call.Checked ∧ call ≠ .destroyPeer peer.identifier) →
    machine.exec (table.apply (.getOrCreatePeer addr)) calls = some table' →
    (table'.mapping.getOrCreatePeer addr).1 = some peer
  /-- the other entries stay as they are, id and address -/
  created : ∀ addr, (table.mapping.getOrCreatePeer addr).2.peerList = table.mapping.peerList ∨
    (table.mapping.getOrCreatePeer addr).2.peerList =
      table.mapping.peerList ++ [⟨table.mapping.nextId, addr⟩]
  removed : ∀ id, (table.mapping.destroyPeer id).2.peerList =
    table.mapping.peerList.filter (·.identifier ≠ id)

/-- Every table that calls of `GetOrCreatePeer`, `DestroyPeer`, `GetPeer` and
`GetPeerByAddress` lead to is correct. -/
theorem peer_table_invariant {calls : List (TableCall A)} {table : PeerTable A}
    (hcalls : ∀ call ∈ calls, call.Checked) (hexec : machine.exec init calls = some table) :
    table.Correct := by
  have hsound := sound_of_exec sound_init hcalls hexec
  refine
    { length_le := hsound.length_le
      identifiers := table.mapping.ids_nodup
      fresh := hsound.fresh
      addresses := hsound.distinct
      getPeer := fun id peer => ZPeerMapping.getPeer_eq_some
      getPeerByAddress := fun addr peer => hsound.distinct.getPeerByAddress_eq_some
      stable := ?_
      created := fun addr => ZPeerMapping.peerList_getOrCreatePeer addr table.mapping
      removed := fun id => ZPeerMapping.peerList_destroyPeer id table.mapping }
  intro addr peer later table' hpeer hlater hexec'
  obtain ⟨hmem, rfl⟩ := ZPeerMapping.getOrCreatePeer_mem (Prod.ext hpeer rfl)
  have hchecked : (TableCall.getOrCreatePeer peer.address).Checked := trivial
  have hsound' : table'.Sound :=
    sound_of_exec (hsound.apply hchecked) (fun call hcall => (hlater call hcall).1) hexec'
  have hmem' : peer ∈ table'.mapping.peerList :=
    mem_of_exec hmem (fun call hcall => (hlater call hcall).2) hexec'
  rw [hsound'.distinct.getOrCreatePeer_of_mem hmem']

/-- The second address takes the id after that of the destroyed first. -/
theorem peer_table_invariant_churn :
    ∃ table : PeerTable Nat,
      machine.exec init [.getOrCreatePeer 7, .destroyPeer 0, .getOrCreatePeer 8,
        .getPeer 1] = some table ∧
      table.destroyed = [0] ∧ table.mapping.peerList = [⟨1, 8⟩] ∧ table.Correct :=
  ⟨_, rfl, rfl, rfl, @peer_table_invariant Nat _
    [.getOrCreatePeer 7, .destroyPeer 0, .getOrCreatePeer 8, .getPeer 1] _
    (by simp [TableCall.Checked]) rfl⟩

end PeerTable

end ZetaNet
