import ZetaNet.Lib.Chain
import ZetaNet.Map.Ordered

/-!
# The shape of the map

What holds of the nodes between two operations: the bucket chains consist of the nodes that are
not deleted, each in the bucket of its key, and the order chain of all nodes there are. On this
shape `find_in_bucket` finds the node of a key that is present, and the link to it.
-/

namespace ZetaNet

open Links

namespace LockFreeOrderedHashMap

variable {K V : Type}

/-- The node is there and not deleted. -/
def Live (id : Nat) (map : LockFreeOrderedHashMap K V) : Prop :=
  id ∈ map.allNodes ∧ map.isDeleted id = false

/-- The values of the live nodes by their keys. -/
def Represents (map : LockFreeOrderedHashMap K V) (contents : K → Option V) : Prop :=
  ∀ key value, contents key = some value ↔
    ∃ id, map.Live id ∧ map.keyValue id = some (key, value)

/-- `chains` are the chains of the buckets. -/
structure Shape (hash : K → Nat) (map : LockFreeOrderedHashMap K V)
    (chains : Nat → List Nat) : Prop where
  bucketCount_pos : 0 < map.bucketCount
  chain : ∀ i < map.bucketCount, Chain map.bucketNext (map.buckets i) (chains i)
  mem_chain : ∀ i < map.bucketCount, ∀ id, id ∈ chains i ↔
    map.Live id ∧ ∃ keyValue, map.keyValue id = some keyValue ∧ map.hashKey hash keyValue.1 = i
  order : Chain map.orderNext map.orderHead map.allNodes
  tail : map.orderTail = map.allNodes.getLast?
  mem_allNodes : ∀ id, id ∈ map.allNodes ↔ ∃ keyValue, map.node id = some keyValue
  fresh : ∀ id, map.nextNode ≤ id → map.keyValue id = none ∧ map.freed id = false
  unique : ∀ id other key value value', map.Live id → map.Live other →
    map.keyValue id = some (key, value) → map.keyValue other = some (key, value') → id = other

section Shape

variable {hash : K → Nat} {map : LockFreeOrderedHashMap K V} {chains : Nat → List Nat} {id i : Nat}

theorem node_eq_some {keyValue : K × V} :
    map.node id = some keyValue ↔ map.freed id = false ∧ map.keyValue id = some keyValue := by
  unfold node
  split <;> simp_all

theorem Shape.hashKey_lt (h : Shape hash map chains) (key : K) :
    map.hashKey hash key < map.bucketCount :=
  Nat.mod_lt _ h.bucketCount_pos

theorem Shape.exists_node (h : Shape hash map chains) (hid : id ∈ map.allNodes) :
    ∃ keyValue, map.node id = some keyValue ∧ map.keyValue id = some keyValue := by
  obtain ⟨keyValue, hnode⟩ := (h.mem_allNodes id).mp hid
  exact ⟨keyValue, hnode, (node_eq_some.mp hnode).2⟩

theorem Shape.node_eq (h : Shape hash map chains) (hid : id ∈ map.allNodes) :
    map.node id = map.keyValue id := by
  obtain ⟨keyValue, hnode, hkeyValue⟩ := h.exists_node hid
  rw [hnode, hkeyValue]

theorem Shape.nodup (h : Shape hash map chains) : map.allNodes.Nodup := h.order.nodup

theorem Shape.mem_allNodes_of_mem (h : Shape hash map chains) (hi : i < map.bucketCount)
    (hid : id ∈ chains i) : id ∈ map.allNodes :=
  ((h.mem_chain i hi id).mp hid).1.1

/-- A bucket has no more nodes than there are. -/
theorem Shape.length_chain_le (h : Shape hash map chains) (hi : i < map.bucketCount) :
    (chains i).length ≤ map.allNodes.length :=
  (List.subperm_of_subset (h.chain i hi).nodup fun _ => h.mem_allNodes_of_mem hi).length_le

/-- What a represented key tells of the nodes. -/
theorem Represents.cases {contents : K → Option V} (h : map.Represents contents) (key : K) :
    (∃ id value, contents key = some value ∧ map.Live id ∧
        map.keyValue id = some (key, value)) ∨
      contents key = none ∧ ∀ id value, map.Live id → map.keyValue id ≠ some (key, value) := by
  cases hcontents : contents key with
  | some value =>
      obtain ⟨id, hlive, hkey⟩ := (h key value).mp hcontents
      exact Or.inl ⟨id, value, rfl, hlive, hkey⟩
  | none =>
      refine Or.inr ⟨rfl, fun id value hlive hkey => ?_⟩
      rw [(h key value).mpr ⟨id, hlive, hkey⟩] at hcontents
      cases hcontents

variable (hash) in
theorem shape_init (count : Nat) : Shape hash (init K V count) fun _ => [] where
  bucketCount_pos := by
    show 0 < if count > 0 then count else 1
    split <;> omega
  chain := fun _ _ => rfl
  mem_chain := fun _ _ id =>
    iff_of_false List.not_mem_nil fun h => absurd h.1.1 List.not_mem_nil
  order := rfl
  tail := rfl
  mem_allNodes := fun id =>
    iff_of_false List.not_mem_nil fun ⟨_, h⟩ => by cases (node_eq_some.mp h).2
  fresh := fun _ _ => ⟨rfl, rfl⟩
  unique := fun _ _ _ _ _ h => absurd h.1 List.not_mem_nil

theorem represents_init (count : Nat) : (init K V count).Represents fun _ => none :=
  fun _ _ => iff_of_false (fun h => by cases h) fun ⟨_, h, _⟩ => absurd h.1 List.not_mem_nil

/-- The node is reachable from a bucket, from `orderHead` or from `orderTail`. -/
def Reachable (map : LockFreeOrderedHashMap K V) (id : Nat) : Prop :=
  (∃ i < map.bucketCount, Reaches map.bucketNext (map.buckets i) id) ∨
    Reaches map.orderNext map.orderHead id ∨ Reaches map.orderNext map.orderTail id

/-- In this shape nothing that is linked is freed. -/
theorem Shape.not_freed (h : Shape hash map chains) {id : Nat} (hreach : map.Reachable id) :
    map.freed id = false := by
  have hmem : id ∈ map.allNodes := by
    rcases hreach with ⟨i, hi, hreach⟩ | hreach | hreach
    · exact h.mem_allNodes_of_mem hi ((h.chain i hi).reaches_iff.mp hreach)
    · exact h.order.reaches_iff.mp hreach
    · -- behind the tail there is nothing
      rw [h.tail] at hreach
      rcases List.eq_nil_or_concat map.allNodes with hnil | ⟨front, last, hconcat⟩
      · rw [hnil] at hreach
        cases hreach
      · rw [List.concat_eq_append] at hconcat
        have horder := h.order
        rw [hconcat] at horder
        rw [hconcat, List.getLast?_concat] at hreach
        have hchain : Chain map.orderNext (some last) [last] := ⟨rfl, horder.of_append⟩
        rw [hconcat]
        exact List.mem_append_right _ (hchain.reaches_iff.mp hreach)
  obtain ⟨keyValue, hnode, -⟩ := h.exists_node hmem
  exact (node_eq_some.mp hnode).1

/-! ## `find_in_bucket` -/

variable [DecidableEq K]

/-- The loop runs along a chain until it meets the key. -/
theorem findLoop_cases {key : K} {cells : List Nat} {curr : Option Nat} {rounds : Nat}
    (hchain : Chain map.bucketNext curr cells)
    (hnodes : ∀ id ∈ cells, ∃ keyValue, map.node id = some keyValue)
    (hrounds : cells.length < rounds) (prev : BucketLink) :
    (∃ front id rest value, cells = front ++ id :: rest ∧ map.node id = some (key, value) ∧
        map.findLoop key rounds prev curr =
          some (some id, front.getLast?.elim prev BucketLink.next)) ∨
      (∀ id ∈ cells, ∀ value, map.node id ≠ some (key, value)) ∧
        ∃ last, map.findLoop key rounds prev curr = some (none, last) := by
  induction cells generalizing curr prev rounds with
  | nil =>
      obtain rfl := chain_nil.mp hchain
      obtain ⟨rounds, rfl⟩ := Nat.exists_eq_succ_of_ne_zero (Nat.pos_iff_ne_zero.mp hrounds)
      exact Or.inr ⟨fun id hid => absurd hid List.not_mem_nil, prev, rfl⟩
  | cons i cells ih =>
      obtain ⟨rfl, hcells⟩ := chain_cons.mp hchain
      cases rounds with
      | zero => cases hrounds
      | succ rounds =>
          obtain ⟨⟨other, value⟩, hnode⟩ := hnodes i List.mem_cons_self
          simp only [findLoop, hnode, Option.bind_eq_bind, Option.bind_some]
          by_cases hkey : other = key
          · subst hkey
            -- found at the head: nothing of the chain is before it
            refine Or.inl ⟨[], i, cells, value, rfl, hnode, ?_⟩
            rw [if_pos rfl]
            rfl
          · rw [if_neg hkey]
            rcases ih hcells (fun id hid => hnodes id (List.mem_cons_of_mem _ hid))
              (Nat.lt_of_succ_lt_succ hrounds) (.next i) with
              ⟨front, id, rest, value', rfl, hfound, heq⟩ | ⟨hnone, last, heq⟩
            -- found further on, behind one node more
            · refine Or.inl ⟨i :: front, id, rest, value', rfl, hfound, ?_⟩
              rw [heq, List.getLast?_cons]
              cases front.getLast? <;> rfl
            · refine Or.inr ⟨fun id hid value' => ?_, last, heq⟩
              rcases List.mem_cons.mp hid with rfl | hid
              · rw [hnode]
                intro heq
                exact hkey (congrArg Prod.fst (Option.some.inj heq))
              · exact hnone id hid value'

/-- The link to a node of a bucket behind `front`. -/
def linkBehind (front : List Nat) (i : Nat) : BucketLink :=
  front.getLast?.elim (.bucket i) BucketLink.next

/-- `find_in_bucket` finds the live node of a key. -/
theorem Shape.findInBucket_cases (h : Shape hash map chains) (key : K) :
    (∃ front id rest value, chains (map.hashKey hash key) = front ++ id :: rest ∧
        map.Live id ∧ map.keyValue id = some (key, value) ∧
        map.findInBucket hash key =
          some (some id, linkBehind front (map.hashKey hash key))) ∨
      (∀ id value, map.Live id → map.keyValue id ≠ some (key, value)) ∧
        ∃ last, map.findInBucket hash key = some (none, last) := by
  set i := map.hashKey hash key with hi
  have hlt : i < map.bucketCount := h.hashKey_lt key
  have hnodes : ∀ id ∈ chains i, ∃ keyValue, map.node id = some keyValue := fun id hid =>
    (h.mem_allNodes id).mp (h.mem_allNodes_of_mem hlt hid)
  have hrounds : (chains i).length < map.rounds := Nat.lt_succ_of_le (h.length_chain_le hlt)
  rcases @findLoop_cases K V map _ key _ _ _ (h.chain i hlt) hnodes hrounds (.bucket i) with
    ⟨front, id, rest, value, hcells, hnode, heq⟩ | ⟨hnone, last, heq⟩
  · have hmem : id ∈ chains i := by
      rw [hcells]
      exact List.mem_append_right _ List.mem_cons_self
    exact Or.inl ⟨front, id, rest, value, hcells, ((h.mem_chain i hlt id).mp hmem).1,
      (node_eq_some.mp hnode).2, heq⟩
  · refine Or.inr ⟨fun id value hlive hkeyValue => ?_, last, heq⟩
    have hmem : id ∈ chains i :=
      (h.mem_chain i hlt id).mpr ⟨hlive, (key, value), hkeyValue, hi.symm⟩
    exact hnone id hmem value ((h.node_eq hlive.1).trans hkeyValue)

end Shape

end LockFreeOrderedHashMap

end ZetaNet
