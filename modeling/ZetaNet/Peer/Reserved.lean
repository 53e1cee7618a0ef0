import ZetaNet.Peer.Address
import ZetaNet.Peer.Table

/-!
# Reserved ids

The id counter of a `ZPeerMapping` stops at `ZPeerId::max_id`, which is above the two ids that
stand for all peers and for the server. It comes to them when as many peers have been made,
however few of them are left.
-/

namespace ZetaNet

namespace PeerTable

variable {A : Type} [DecidableEq A]

/-- `to_all`, `to_server` and `invalid_id`. -/
def Reserved (id : UInt32) : Prop :=
  id = ZPeerId.toAll ∨ id = ZPeerId.toServer ∨ id = ZPeerId.invalidId

/-- No entry has a reserved id. -/
def Unreserved (table : PeerTable A) : Prop :=
  ∀ peer ∈ table.mapping.peerList, ¬ Reserved peer.identifier

/-- The call makes no peer while the counter stands at a reserved id. -/
def Spares (table : PeerTable A) (call : TableCall A) : Prop :=
  ∀ addr, table.Creates call addr →
    table.mapping.nextId ≠ ZPeerId.toAll ∧ table.mapping.nextId ≠ ZPeerId.toServer

/-- The invalid id is never next. -/
theorem not_reserved_nextId {id : UInt32} (hid : id < ZPeerId.maxId) :
    ¬ Reserved id ↔ id ≠ ZPeerId.toAll ∧ id ≠ ZPeerId.toServer := by
  have hinvalid : id ≠ ZPeerId.invalidId := by
    rintro rfl
    exact absurd hid (by decide)
  unfold Reserved
  tauto

/-- Only a new peer can get a reserved id. -/
theorem unreserved_apply {table : PeerTable A} (h : table.Unreserved) (call : TableCall A) :
    (table.apply call).Unreserved ↔ table.Spares call := by
  rcases table.apply_cases call with
    ⟨heq, hnone⟩ | ⟨addr, grown, hcreates, heq, hlist, -⟩ | ⟨id, shrunk, rfl, heq, -, hlist, -⟩
  · rw [heq]
    exact iff_of_true h fun addr hcreates => absurd hcreates (hnone addr)
  · have hnext := not_reserved_nextId hcreates.2.2
    unfold Unreserved
    rw [heq, hlist]
    constructor
    · intro hall other hother
      exact hnext.mp (hall _ (List.mem_append_right _ (List.mem_singleton.mpr rfl)))
    · intro hspares peer hpeer
      rcases List.mem_append.mp hpeer with hold | hnew
      · exact h peer hold
      · rw [List.mem_singleton.mp hnew]
        exact hnext.mpr (hspares addr hcreates)
  · refine iff_of_true ?_ ?_
    · intro peer hpeer
      rw [heq, hlist] at hpeer
      exact h peer (List.mem_filter.mp hpeer).1
    · rintro addr ⟨hcall | ⟨hcall, -⟩, -⟩ <;> cases hcall

theorem exec_total (table : PeerTable A) (calls : List (TableCall A)) :
    ∃ table', machine.exec table calls = some table' := by
  induction calls generalizing table with
  | nil => exact ⟨table, rfl⟩
  | cons call calls ih => exact ih (table.apply call)

/-- In every table of a run all ids are unreserved, exactly if no call of it makes a peer while
the counter stands at `to_server` or `to_all`. -/
theorem no_reserved_id_iff (calls : List (TableCall A)) :
    machine.Always Unreserved init calls ↔ machine.Along Spares (init : PeerTable A) calls := by
  obtain ⟨table, hexec⟩ := exec_total init calls
  have preserved : ∀ (before : PeerTable A) call after, True → before.Unreserved →
      machine.step before call = some after →
      True ∧ (after.Unreserved ↔ before.Spares call) := by
    intro before call after _ hgood hstep
    rw [← Option.some.inj hstep]
    exact ⟨trivial, unreserved_apply hgood call⟩
  exact Machine.always_iff_along preserved trivial nofun hexec

/-! ## Churn -/

/-- Each call takes the counter on by one at most. -/
theorem nextId_apply_le (table : PeerTable A) (call : TableCall A) :
    (table.apply call).mapping.nextId.toNat ≤ table.mapping.nextId.toNat + 1 := by
  rcases table.apply_cases call with
    ⟨heq, -⟩ | ⟨addr, grown, -, heq, -, hid⟩ | ⟨id, shrunk, -, heq, -, -, hid⟩
  · rw [heq]
    exact Nat.le_succ _
  · rw [heq, hid, UInt32.toNat_add]
    exact Nat.mod_le _ _
  · rw [heq, hid]
    exact Nat.le_succ _

theorem spares_of_short {table : PeerTable A} {calls : List (TableCall A)}
    (h : table.mapping.nextId.toNat + calls.length ≤ ZPeerId.toServer.toNat) :
    machine.Along Spares table calls := by
  induction calls generalizing table with
  | nil => trivial
  | cons call calls ih =>
      rw [List.length_cons] at h
      have hall : ZPeerId.toServer.toNat < ZPeerId.toAll.toNat := by decide
      refine ⟨fun addr _ => ⟨fun heq => ?_, fun heq => ?_⟩, fun table' hstep => ?_⟩
      · rw [heq] at h
        omega
      · rw [heq] at h
        omega
      · have hnext := nextId_apply_le table call
        rw [← Option.some.inj hstep]
        exact ih (by omega)

/-- The first calls of any run, some four thousand million, give out no reserved id. -/
theorem unreserved_of_short {calls : List (TableCall A)}
    (h : calls.length ≤ ZPeerId.toServer.toNat) :
    machine.Always Unreserved (init : PeerTable A) calls :=
  (no_reserved_id_iff calls).mpr (spares_of_short (by
    rw [show (init : PeerTable A).mapping.nextId.toNat = 0 from rfl, Nat.zero_add]
    exact h))

/-- Peers made and destroyed one after the other, each with the id of its turn. -/
def churn (addr : A) : Nat → List (TableCall A)
  | 0 => []
  | n + 1 => churn addr n ++ [.getOrCreatePeer addr, .destroyPeer (UInt32.ofNat n)]

/-- A peer made in an empty table takes the id the counter stands at. -/
theorem apply_empty {table : PeerTable A} (addr : A) (hempty : table.mapping.peerList = [])
    (hid : table.mapping.nextId < ZPeerId.maxId) :
    (table.apply (.getOrCreatePeer addr)).mapping.peerList = [⟨table.mapping.nextId, addr⟩] ∧
      (table.apply (.getOrCreatePeer addr)).mapping.nextId = table.mapping.nextId + 1 := by
  have hcreates : table.Creates (.getOrCreatePeer addr) addr := by
    refine ⟨.inr ⟨rfl, ?_⟩, ?_, hid⟩
    · rw [hempty]
      exact nofun
    · rw [hempty]
      exact Nat.zero_lt_of_lt (Nat.lt_succ_self _)
  rcases table.apply_cases (.getOrCreatePeer addr) with
    ⟨-, hnone⟩ | ⟨other, grown, ⟨hcall, -⟩, heq, hlist, hnext⟩ | ⟨id, shrunk, hcall, -⟩
  · exact absurd hcreates (hnone addr)
  · obtain rfl : addr = other := by
      rcases hcall with hcall | ⟨hcall, -⟩
      · cases hcall
      · exact TableCall.getOrCreatePeer.inj hcall
    rw [heq, hlist, hempty]
    exact ⟨rfl, hnext⟩
  · cases hcall

theorem exec_churn (addr : A) {n : Nat} (hn : n ≤ ZPeerId.maxId.toNat) :
    ∃ table, machine.exec init (churn addr n) = some table ∧
      table.mapping.nextId.toNat = n ∧ table.mapping.peerList = [] := by
  induction n with
  | zero => exact ⟨init, rfl, rfl, rfl⟩
  | succ n ih =>
      obtain ⟨table, hexec, hid, hempty⟩ := ih (Nat.le_of_succ_le hn)
      have hlt : table.mapping.nextId < ZPeerId.maxId := by
        rw [UInt32.lt_iff_toNat_lt, hid]
        exact hn
      have hofNat : UInt32.ofNat n = table.mapping.nextId := by
        rw [← hid, UInt32.ofNat_toNat]
      obtain ⟨hlist, hnext⟩ := apply_empty addr hempty hlt
      refine ⟨(table.apply (.getOrCreatePeer addr)).apply (.destroyPeer (UInt32.ofNat n)),
        ?_, ?_, ?_⟩
      · rw [churn, Machine.exec_append, hexec]
        rfl
      · rw [mapping_apply_destroyPeer, ZPeerMapping.nextId_destroyPeer, hnext, UInt32.toNat_add,
          hid, UInt32.toNat_one]
        have hmax : ZPeerId.maxId.toNat = 4294967294 := by decide
        omega
      · rw [mapping_apply_destroyPeer, ZPeerMapping.peerList_destroyPeer, hlist, hofNat]
        exact List.filter_eq_nil_iff.mpr (by simp)

/-- The peer made when the counter has come to `to_server` has that id. -/
theorem reserved_id_assigned (addr : A) :
    ∃ calls table, machine.exec init calls = some table ∧
      table.mapping.peerList = [⟨ZPeerId.toServer, addr⟩] := by
  obtain ⟨n, hn⟩ : ∃ n, n = ZPeerId.toServer.toNat := ⟨_, rfl⟩
  have hle : n ≤ ZPeerId.maxId.toNat := by
    rw [hn]
    decide
  obtain ⟨table, hexec, hid, hempty⟩ := exec_churn addr hle
  have hserver : table.mapping.nextId = ZPeerId.toServer := by
    rw [← UInt32.toNat_inj, hid, hn]
  have hlist := (apply_empty addr hempty (by rw [hserver]; decide)).1
  refine ⟨churn addr n ++ [.getOrCreatePeer addr], table.apply (.getOrCreatePeer addr), ?_, ?_⟩
  · rw [Machine.exec_append, hexec]
    rfl
  · rw [hlist, hserver]

theorem no_reserved_id_fails_churn :
    ¬ ∀ (calls : List (TableCall Address)) (table : PeerTable Address),
      machine.exec init calls = some table →
      ∀ peer ∈ table.mapping.peerList, peer.identifier ≠ ZPeerId.toAll ∧
        peer.identifier ≠ ZPeerId.toServer ∧ peer.identifier ≠ ZPeerId.invalidId := by
  intro h
  obtain ⟨calls, table, hexec, hlist⟩ := reserved_id_assigned Address.init
  have hpeer := h calls table hexec _ (hlist ▸ List.mem_singleton.mpr rfl)
  exact hpeer.2.1 rfl

end PeerTable

end ZetaNet
