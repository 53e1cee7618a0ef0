import ZetaNet.Map.Shape

/-!
# Insertion, removal and lookup

`insert`, `remove`, `find` and `with_value` keep the shape of the map and do to what it
represents what they do to a finite map.
-/

namespace ZetaNet

open Links

namespace LockFreeOrderedHashMap

variable {K V : Type} {hash : K → Nat} {map : LockFreeOrderedHashMap K V}
  {chains : Nat → List Nat} {contents : K → Option V} {id : Nat}

/-! ## Appending to the order chain -/

/-- The second phase of an insertion puts the node behind the last one. -/
theorem appendOrder_eq {nodes : List Nat} {newNode : Nat}
    (hchain : Chain map.orderNext map.orderHead nodes) (htail : map.orderTail = nodes.getLast?)
    (hnodes : ∀ id ∈ nodes, ∃ keyValue, map.node id = some keyValue) (hnew : newNode ∉ nodes)
    (hlast : map.orderNext newNode = none) (rounds : Nat) :
    ∃ orderNext orderHead, map.appendOrder newNode (rounds + 1) =
        some { map with orderNext, orderHead, orderTail := some newNode } ∧
      Chain orderNext orderHead (nodes ++ [newNode]) := by
  rcases List.eq_nil_or_concat nodes with rfl | ⟨front, tail, hconcat⟩
  · -- the first node
    have hhead : map.orderHead = none := hchain
    refine ⟨map.orderNext, some newNode, ?_, ?_⟩
    · simp [appendOrder, htail, hhead]
    · exact chain_cons.mpr ⟨rfl, hlast⟩
  · rw [List.concat_eq_append] at hconcat
    subst hconcat
    obtain ⟨keyValue, hnode⟩ := hnodes tail (List.mem_append_right _ List.mem_cons_self)
    have hnext : map.orderNext tail = none := (hchain : Chain _ _ (front ++ tail :: [])).of_append
    rw [List.getLast?_concat] at htail
    refine ⟨Function.update map.orderNext tail (some newNode), map.orderHead, ?_, ?_⟩
    · simp [appendOrder, htail, hnode, hnext]
    · rw [List.append_assoc]
      exact hchain.append hnew hlast

/-! ## Insertion -/

/-- The map after an insertion that put a new node in front of bucket `i`. -/
def inserted (key : K) (value : V) (i : Nat) (orderNext : Nat → Option Nat)
    (orderHead : Option Nat) (map : LockFreeOrderedHashMap K V) : LockFreeOrderedHashMap K V :=
  { map with
    buckets := Function.update map.buckets i (some map.nextNode)
    keyValue := Function.update map.keyValue map.nextNode (some (key, value))
    bucketNext := Function.update map.bucketNext map.nextNode (map.buckets i)
    isDeleted := Function.update map.isDeleted map.nextNode false
    nextNode := map.nextNode + 1
    allNodes := map.allNodes ++ [map.nextNode]
    orderNext, orderHead
    orderTail := some map.nextNode }

section Inserted

variable {key : K} {value : V} {i : Nat} {orderNext : Nat → Option Nat} {orderHead : Option Nat}

theorem Shape.nextNode_notMem (h : Shape hash map chains) : map.nextNode ∉ map.allNodes := by
  intro hmem
  obtain ⟨keyValue, -, hkeyValue⟩ := h.exists_node hmem
  rw [(h.fresh _ (Nat.le_refl _)).1] at hkeyValue
  cases hkeyValue

theorem ne_nextNode (h : Shape hash map chains) (hid : id ∈ map.allNodes) : id ≠ map.nextNode :=
  fun heq => h.nextNode_notMem (heq ▸ hid)

theorem live_inserted :
    (map.inserted key value i orderNext orderHead).Live id ↔
      id = map.nextNode ∨ map.Live id := by
  simp only [Live, inserted, List.mem_append, List.mem_singleton]
  by_cases hid : id = map.nextNode
  · simp [hid]
  · simp [hid]

theorem keyValue_inserted_of_live (h : Shape hash map chains) (hid : map.Live id) :
    (map.inserted key value i orderNext orderHead).keyValue id = map.keyValue id :=
  Function.update_of_ne (ne_nextNode h hid.1) ..

theorem keyValue_inserted_nextNode :
    (map.inserted key value i orderNext orderHead).keyValue map.nextNode = some (key, value) :=
  Function.update_self ..

/-- The new node is the first of its bucket. -/
theorem Shape.inserted (h : Shape hash map chains)
    (habsent : ∀ id value, map.Live id → map.keyValue id ≠ some (key, value))
    (horder : Chain orderNext orderHead (map.allNodes ++ [map.nextNode])) :
    Shape hash (map.inserted key value (map.hashKey hash key) orderNext orderHead)
      (Function.update chains (map.hashKey hash key)
        (map.nextNode :: chains (map.hashKey hash key))) := by
  set i := map.hashKey hash key with hi
  have hnotMem {j : Nat} (hj : j < map.bucketCount) : map.nextNode ∉ chains j := fun hmem =>
    h.nextNode_notMem (h.mem_allNodes_of_mem hj hmem)
  refine
    { bucketCount_pos := h.bucketCount_pos
      chain := fun j hj => ?_
      mem_chain := fun j hj id => ?_
      order := horder
      tail := ?_
      mem_allNodes := fun id => ?_
      fresh := fun id hid => ?_
      unique := fun id other key' value' value'' hid hother hkey hkey' => ?_ }
  · by_cases hji : j = i
    · subst hji
      simp only [LockFreeOrderedHashMap.inserted, Function.update_self]
      exact (h.chain i hj).push (hnotMem hj)
    · simp only [LockFreeOrderedHashMap.inserted, Function.update_of_ne hji]
      exact (segment_update (hnotMem hj) _).mpr (h.chain j hj)
  · have hold : id ∈ chains j ↔ map.Live id ∧
        ∃ keyValue, map.keyValue id = some keyValue ∧ map.hashKey hash keyValue.1 = j :=
      h.mem_chain j hj id
    rw [live_inserted]
    by_cases hid : id = map.nextNode
    · subst hid
      rw [keyValue_inserted_nextNode]
      simp only [true_or, true_and, Option.some.injEq, exists_eq_left']
      show _ ↔ i = j
      by_cases hji : j = i
      · simp [hji]
      · simp [Function.update_of_ne hji, hnotMem hj, Ne.symm hji]
    · have hkept : (map.inserted key value i orderNext orderHead).keyValue id = map.keyValue id :=
        Function.update_of_ne hid ..
      rw [hkept, or_iff_right hid]
      refine Iff.trans ?_ hold
      by_cases hji : j = i
      · subst hji
        simp [hid]
      · rw [Function.update_of_ne hji]
  · exact List.getLast?_concat.symm
  · show id ∈ map.allNodes ++ [map.nextNode] ↔ _
    rw [List.mem_append, List.mem_singleton, h.mem_allNodes id]
    simp only [node_eq_some]
    by_cases hid : id = map.nextNode
    · subst hid
      rw [keyValue_inserted_nextNode]
      simp [LockFreeOrderedHashMap.inserted, (h.fresh _ (Nat.le_refl _)).2]
    · have hkept : (map.inserted key value i orderNext orderHead).keyValue id = map.keyValue id :=
        Function.update_of_ne hid ..
      rw [hkept]
      simp [hid, LockFreeOrderedHashMap.inserted]
  · have hlt : map.nextNode < id := hid
    obtain ⟨hkeyValue, hfreed⟩ := h.fresh id (Nat.le_of_lt hlt)
    exact ⟨(Function.update_of_ne (Nat.ne_of_gt hlt) ..).trans hkeyValue, hfreed⟩
  · -- no live node had the key before
    rw [live_inserted] at hid hother
    rcases hid with rfl | hid
    · rcases hother with rfl | hother
      · rfl
      · rw [keyValue_inserted_nextNode] at hkey
        rw [keyValue_inserted_of_live h hother] at hkey'
        obtain ⟨rfl, rfl⟩ := Prod.mk.inj (Option.some.inj hkey)
        exact absurd hkey' (habsent other value'' hother)
    · rw [keyValue_inserted_of_live h hid] at hkey
      rcases hother with rfl | hother
      · rw [keyValue_inserted_nextNode] at hkey'
        obtain ⟨rfl, rfl⟩ := Prod.mk.inj (Option.some.inj hkey')
        exact absurd hkey (habsent id value' hid)
      · rw [keyValue_inserted_of_live h hother] at hkey'
        exact h.unique id other key' value' value'' hid hother hkey hkey'

variable [DecidableEq K]

theorem Represents.inserted (hshape : Shape hash map chains) (h : map.Represents contents)
    (habsent : ∀ id value, map.Live id → map.keyValue id ≠ some (key, value)) :
    (map.inserted key value i orderNext orderHead).Represents
      (Function.update contents key (some value)) := by
  intro key' value'
  simp only [live_inserted, or_and_right, exists_or, exists_eq_left,
    keyValue_inserted_nextNode, Option.some.injEq, Prod.mk.injEq]
  have hold : (∃ id, map.Live id ∧ (map.inserted key value i orderNext orderHead).keyValue id =
      some (key', value')) ↔ contents key' = some value' := by
    rw [h key' value']
    refine exists_congr fun id => and_congr_right fun hid => ?_
    rw [keyValue_inserted_of_live hshape hid]
  rw [hold]
  by_cases hkey : key' = key
  · subst hkey
    have hnone : contents key' ≠ some value' := by
      intro hsome
      obtain ⟨id, hid, hkeyValue⟩ := (h key' value').mp hsome
      exact habsent id value' hid hkeyValue
    simp [hnone]
  · simp [Function.update_of_ne hkey, Ne.symm hkey]

/-- An insertion of a key that is absent succeeds. -/
theorem Shape.insert_eq (h : Shape hash map chains)
    (habsent : ∀ id value, map.Live id → map.keyValue id ≠ some (key, value)) (value : V) :
    ∃ orderNext orderHead, map.insert hash key value =
        some (true, map.inserted key value (map.hashKey hash key) orderNext orderHead) ∧
      Chain orderNext orderHead (map.allNodes ++ [map.nextNode]) := by
  have hnot := h.nextNode_notMem
  set started : LockFreeOrderedHashMap K V :=
    { map with
      buckets := Function.update map.buckets (map.hashKey hash key) (some map.nextNode)
      keyValue := Function.update map.keyValue map.nextNode (some (key, value))
      bucketNext := Function.update map.bucketNext map.nextNode
        (map.buckets (map.hashKey hash key))
      orderNext := Function.update map.orderNext map.nextNode none
      isDeleted := Function.update map.isDeleted map.nextNode false
      nextNode := map.nextNode + 1
      allNodes := map.allNodes ++ [map.nextNode] } with hstarted
  have hchain : Chain started.orderNext started.orderHead map.allNodes :=
    (segment_update hnot none).mpr h.order
  have hnodes : ∀ id ∈ map.allNodes, ∃ keyValue, started.node id = some keyValue := by
    intro id hid
    obtain ⟨keyValue, hnode, -⟩ := h.exists_node hid
    obtain ⟨hfreed, hkeyValue⟩ := node_eq_some.mp hnode
    exact ⟨keyValue, node_eq_some.mpr
      ⟨hfreed, (Function.update_of_ne (ne_nextNode h hid) ..).trans hkeyValue⟩⟩
  obtain ⟨orderNext, orderHead, happend, hordered⟩ := appendOrder_eq hchain h.tail hnodes hnot
    (Function.update_self ..) started.allNodes.length
  refine ⟨orderNext, orderHead, ?_, hordered⟩
  rcases h.findInBucket_cases key with ⟨-, id, -, other, -, hid, hkeyValue, -⟩ | ⟨-, last, hfind⟩
  · exact absurd hkeyValue (habsent id other hid)
  · rw [insert, hfind]
    simp only [Option.bind_eq_bind, Option.bind_some, newNode, storeLink, Function.update_idem]
    exact congrArg (Option.bind · fun map => some (true, map)) happend

/-- An insertion of a key that is present fails. -/
theorem Shape.insert_present (h : Shape hash map chains) {id : Nat} (hid : map.Live id)
    (hkey : map.keyValue id = some (key, value)) (other : V) :
    map.insert hash key other = some (false, map) := by
  rcases h.findInBucket_cases key with ⟨_, _, _, _, _, _, _, hfind⟩ | ⟨hnone, -⟩
  · rw [insert, hfind]
    rfl
  · exact absurd hkey (hnone id value hid)

end Inserted

/-! ## Removal -/

section StoreLink

variable (link : BucketLink) (value : Option Nat) (map : LockFreeOrderedHashMap K V)

@[simp] theorem bucketCount_storeLink :
    (map.storeLink link value).bucketCount = map.bucketCount := by
  cases link <;> rfl

@[simp] theorem keyValue_storeLink : (map.storeLink link value).keyValue = map.keyValue := by
  cases link <;> rfl

@[simp] theorem orderNext_storeLink : (map.storeLink link value).orderNext = map.orderNext := by
  cases link <;> rfl

@[simp] theorem isDeleted_storeLink : (map.storeLink link value).isDeleted = map.isDeleted := by
  cases link <;> rfl

@[simp] theorem freed_storeLink : (map.storeLink link value).freed = map.freed := by
  cases link <;> rfl

@[simp] theorem nextNode_storeLink : (map.storeLink link value).nextNode = map.nextNode := by
  cases link <;> rfl

@[simp] theorem orderHead_storeLink : (map.storeLink link value).orderHead = map.orderHead := by
  cases link <;> rfl

@[simp] theorem orderTail_storeLink : (map.storeLink link value).orderTail = map.orderTail := by
  cases link <;> rfl

@[simp] theorem allNodes_storeLink : (map.storeLink link value).allNodes = map.allNodes := by
  cases link <;> rfl

end StoreLink

section Unlink

variable {front rest : List Nat} {i : Nat}

@[simp] theorem linkBehind_nil : linkBehind [] i = .bucket i := rfl

@[simp] theorem linkBehind_concat (prev : Nat) : linkBehind (front ++ [prev]) i = .next prev := by
  rw [linkBehind, List.getLast?_concat]
  rfl

/-- The link behind the nodes in front of a node leads to it. -/
theorem Shape.loadLink_linkBehind (h : Shape hash map chains) (hi : i < map.bucketCount)
    (hcells : chains i = front ++ id :: rest) :
    map.loadLink (linkBehind front i) = some (some id) := by
  have hchain := h.chain i hi
  rw [hcells] at hchain
  rcases List.eq_nil_or_concat front with rfl | ⟨front, prev, hconcat⟩
  · exact congrArg some (chain_cons.mp hchain).1
  · rw [List.concat_eq_append] at hconcat
    subst hconcat
    have hmem : prev ∈ chains i := by simp [hcells]
    obtain ⟨keyValue, hnode, -⟩ := h.exists_node (h.mem_allNodes_of_mem hi hmem)
    rw [List.append_assoc] at hchain
    have hnext := (chain_cons.mp hchain.of_append).1
    rw [linkBehind_concat, loadLink, hnode, hnext]
    rfl

/-- Storing the next link of a node there takes it out of its bucket. -/
theorem Shape.chain_storeLink (h : Shape hash map chains) (hi : i < map.bucketCount)
    (hcells : chains i = front ++ id :: rest) {j : Nat} (hj : j < map.bucketCount) :
    Chain (map.storeLink (linkBehind front i) (map.bucketNext id)).bucketNext
      ((map.storeLink (linkBehind front i) (map.bucketNext id)).buckets j)
      (Function.update chains i (front ++ rest) j) := by
  have hchain := h.chain i hi
  rw [hcells] at hchain
  rcases List.eq_nil_or_concat front with rfl | ⟨front, prev, hconcat⟩
  · rw [linkBehind_nil]
    by_cases hji : j = i
    · subst hji
      simp only [storeLink, Function.update_self]
      exact (chain_cons.mp hchain).2
    · simp only [storeLink, Function.update_of_ne hji]
      exact h.chain j hj
  · rw [List.concat_eq_append] at hconcat
    subst hconcat
    rw [linkBehind_concat]
    have hmem : prev ∈ chains i := by simp [hcells]
    rw [List.append_assoc] at hchain
    by_cases hji : j = i
    · subst hji
      simp only [storeLink, Function.update_self, List.append_assoc]
      exact hchain.unlink
    · -- the node before it belongs to no other bucket
      simp only [storeLink, Function.update_of_ne hji]
      refine (segment_update (fun hmem' => hji ?_) _).mpr (h.chain j hj)
      obtain ⟨-, keyValue, hkeyValue, hhash⟩ := (h.mem_chain i hi prev).mp hmem
      obtain ⟨-, keyValue', hkeyValue', hhash'⟩ := (h.mem_chain j hj prev).mp hmem'
      rw [hkeyValue] at hkeyValue'
      rw [← hhash, ← hhash', Option.some.inj hkeyValue']

end Unlink

/-- The map after a removal of the node behind `link`. -/
def removed (id : Nat) (link : BucketLink) (map : LockFreeOrderedHashMap K V) :
    LockFreeOrderedHashMap K V :=
  { map.storeLink link (map.bucketNext id) with
    isDeleted := Function.update map.isDeleted id true }

section Removed

variable {front rest : List Nat} {i : Nat} {link : BucketLink} {key : K} {value : V}

theorem live_removed {other : Nat} :
    (map.removed id link).Live other ↔ map.Live other ∧ other ≠ id := by
  simp only [Live, removed, allNodes_storeLink, and_assoc]
  refine and_congr_right fun _ => ?_
  by_cases hother : other = id
  · simp [hother]
  · simp [hother]

@[simp] theorem keyValue_removed : (map.removed id link).keyValue = map.keyValue :=
  keyValue_storeLink ..

theorem node_removed (other : Nat) : (map.removed id link).node other = map.node other := by
  simp [node, removed]

/-- The other nodes stay in their buckets. -/
theorem Shape.removed (h : Shape hash map chains) (hi : i < map.bucketCount)
    (hcells : chains i = front ++ id :: rest) :
    Shape hash (map.removed id (linkBehind front i))
      (Function.update chains i (front ++ rest)) := by
  -- the key's hash says which bucket a node is in
  have hbucket : ∀ j < map.bucketCount, id ∈ chains j → j = i := by
    intro j hj hmem
    obtain ⟨-, keyValue, hkeyValue, hhash⟩ := (h.mem_chain j hj id).mp hmem
    obtain ⟨-, keyValue', hkeyValue', hhash'⟩ := (h.mem_chain i hi id).mp (by simp [hcells])
    rw [hkeyValue] at hkeyValue'
    rw [← hhash, ← hhash', Option.some.inj hkeyValue']
  have hnodup := (h.chain i hi).nodup
  rw [hcells, List.nodup_append, List.nodup_cons] at hnodup
  obtain ⟨-, ⟨hrest, -⟩, hfront⟩ := hnodup
  refine
    { bucketCount_pos := by simpa [LockFreeOrderedHashMap.removed] using h.bucketCount_pos
      chain := fun j hj => ?_
      mem_chain := fun j hj other => ?_
      order := by simpa [LockFreeOrderedHashMap.removed] using h.order
      tail := by simpa [LockFreeOrderedHashMap.removed] using h.tail
      mem_allNodes := fun other => ?_
      fresh := fun other hother => ?_
      unique := fun first second key value value' hfirst hsecond hkey hkey' => ?_ }
  · simp only [LockFreeOrderedHashMap.removed, bucketCount_storeLink] at hj
    exact h.chain_storeLink hi hcells hj
  · simp only [LockFreeOrderedHashMap.removed, bucketCount_storeLink] at hj
    rw [live_removed, and_assoc, and_left_comm]
    have hold := h.mem_chain j hj other
    simp only [LockFreeOrderedHashMap.removed, keyValue_storeLink, hashKey,
      bucketCount_storeLink] at hold ⊢
    rw [← hold]
    -- the bucket that lost the node, and the others
    by_cases hji : j = i
    · subst hji
      rw [Function.update_self, hcells, List.mem_append, List.mem_append, List.mem_cons]
      constructor
      · rintro (hmem | hmem)
        · exact ⟨fun heq => hfront other hmem id List.mem_cons_self heq, Or.inl hmem⟩
        · exact ⟨fun heq => hrest (heq ▸ hmem), Or.inr (Or.inr hmem)⟩
      · rintro ⟨hne, hmem | heq | hmem⟩
        · exact Or.inl hmem
        · exact absurd heq hne
        · exact Or.inr hmem
    · rw [Function.update_of_ne hji]
      exact ⟨fun hmem => ⟨fun heq => hji (hbucket j hj (heq ▸ hmem)), hmem⟩, And.right⟩
  · rw [node_removed, ← h.mem_allNodes other]
    simp [LockFreeOrderedHashMap.removed]
  · simp only [LockFreeOrderedHashMap.removed, nextNode_storeLink] at hother
    simpa [LockFreeOrderedHashMap.removed] using h.fresh other hother
  · simp only [LockFreeOrderedHashMap.removed, keyValue_storeLink] at hkey hkey'
    exact h.unique first second key value value' (live_removed.mp hfirst).1
      (live_removed.mp hsecond).1 hkey hkey'

/-- The unlinking of a node just marked. -/
theorem tryUnlinkBucket_marked {keyValue : K × V} (hload : map.loadLink link = some (some id))
    (hnode : map.node id = some keyValue) :
    { map with isDeleted := Function.update map.isDeleted id true }.tryUnlinkBucket id link =
      some (map.removed id link) := by
  have hload' : { map with
      isDeleted := Function.update map.isDeleted id true }.loadLink link = some (some id) := by
    rw [← hload]
    cases link <;> rfl
  have hnode' : { map with
      isDeleted := Function.update map.isDeleted id true }.node id = some keyValue := hnode
  simp only [tryUnlinkBucket, hload', hnode', Option.bind_eq_bind, Option.bind_some, if_true]
  cases link <;> rfl

variable [DecidableEq K]

theorem Represents.removed (hshape : Shape hash map chains) (h : map.Represents contents)
    (hlive : map.Live id) (hkey : map.keyValue id = some (key, value)) :
    (map.removed id link).Represents (Function.update contents key none) := by
  intro key' value'
  simp only [live_removed, keyValue_removed]
  by_cases hkeys : key' = key
  · subst hkeys
    rw [Function.update_self]
    refine iff_of_false (fun heq => by cases heq) ?_
    rintro ⟨other, ⟨hother, hne⟩, hkey'⟩
    exact hne (hshape.unique other id key' value' value hother hlive hkey' hkey)
  · rw [Function.update_of_ne hkeys, h key' value']
    refine exists_congr fun other => ?_
    constructor
    · rintro ⟨hother, hkey'⟩
      refine ⟨⟨hother, fun heq => hkeys ?_⟩, hkey'⟩
      rw [heq, hkey] at hkey'
      exact (congrArg Prod.fst (Option.some.inj hkey')).symm
    · rintro ⟨⟨hother, -⟩, hkey'⟩
      exact ⟨hother, hkey'⟩

/-- A removal of a key that is present succeeds. -/
theorem Shape.remove_eq (h : Shape hash map chains) (hlive : map.Live id)
    (hkey : map.keyValue id = some (key, value)) :
    ∃ front rest, chains (map.hashKey hash key) = front ++ id :: rest ∧
      map.remove hash key =
        some (true, map.removed id (linkBehind front (map.hashKey hash key))) := by
  rcases h.findInBucket_cases key with
    ⟨front, found, rest, value', hcells, hfound, hkey', hfind⟩ | ⟨hnone, -⟩
  · obtain rfl := h.unique found id key value' value hfound hlive hkey' hkey
    refine ⟨front, rest, hcells, ?_⟩
    have hload := h.loadLink_linkBehind (h.hashKey_lt key) hcells
    have hnode := (h.node_eq hlive.1).trans hkey
    rw [remove, hfind]
    exact congrArg (Option.bind · fun map => some (true, map)) (tryUnlinkBucket_marked hload hnode)
  · exact absurd hkey (hnone id value hlive)

/-- A removal of a key that is absent fails. -/
theorem Shape.remove_absent (h : Shape hash map chains)
    (habsent : ∀ id value, map.Live id → map.keyValue id ≠ some (key, value)) :
    map.remove hash key = some (false, map) := by
  rcases h.findInBucket_cases key with ⟨_, found, _, value, _, hfound, hkey, _⟩ | ⟨-, last, hfind⟩
  · exact absurd hkey (habsent found value hfound)
  · rw [remove, hfind]
    rfl

end Removed

/-! ## Lookup -/

/-- The map after a node with the key `key` got another value. -/
def revalued (id : Nat) (key : K) (value : V) (map : LockFreeOrderedHashMap K V) :
    LockFreeOrderedHashMap K V :=
  { map with keyValue := Function.update map.keyValue id (some (key, value)) }

section Lookup

variable {key : K} {value : V}

@[simp] theorem keyValue_revalued_self :
    (map.revalued id key value).keyValue id = some (key, value) :=
  Function.update_self ..

theorem keyValue_revalued_of_ne {other : Nat} (hother : other ≠ id) :
    (map.revalued id key value).keyValue other = map.keyValue other :=
  Function.update_of_ne hother ..

/-- The keys of the nodes stay as they are. -/
theorem exists_keyValue_revalued (hkey : map.keyValue id = some (key, value)) (value' : V)
    (other : Nat) (p : K → Prop) :
    (∃ keyValue, (map.revalued id key value').keyValue other = some keyValue ∧ p keyValue.1) ↔
      ∃ keyValue, map.keyValue other = some keyValue ∧ p keyValue.1 := by
  by_cases hother : other = id
  · subst hother
    simp [hkey]
  · rw [keyValue_revalued_of_ne hother]

theorem Shape.revalued (h : Shape hash map chains) (hkey : map.keyValue id = some (key, value))
    (value' : V) : Shape hash (map.revalued id key value') chains := by
  refine
    { h with
      mem_chain := fun i hi other => ?_
      mem_allNodes := fun other => ?_
      fresh := fun other hother => ?_
      unique := fun first second key₁ value₁ value₂ hfirst hsecond hkey₁ hkey₂ => ?_ }
  · refine (h.mem_chain i hi other).trans (and_congr_right fun _ => ?_)
    exact (exists_keyValue_revalued hkey value' other fun key => map.hashKey hash key = i).symm
  · refine (h.mem_allNodes other).trans ?_
    simp only [node_eq_some]
    have hkeys := exists_keyValue_revalued hkey value' other fun _ => True
    simp only [and_true] at hkeys
    rw [exists_and_left, exists_and_left, hkeys]
    rfl
  · obtain ⟨hnone, hfreed⟩ := h.fresh other hother
    have hne : other ≠ id := by
      rintro rfl
      rw [hnone] at hkey
      cases hkey
    exact ⟨(keyValue_revalued_of_ne hne).trans hnone, hfreed⟩
  · -- the same keys as before, whatever the values are
    have hold {other : Nat} {key₁ : K} {value₁ : V}
        (hkey₁ : (map.revalued id key value').keyValue other = some (key₁, value₁)) :
        ∃ value, map.keyValue other = some (key₁, value) := by
      obtain ⟨keyValue, hkeyValue, rfl⟩ :=
        (exists_keyValue_revalued hkey value' other (· = key₁)).mp ⟨_, hkey₁, rfl⟩
      exact ⟨keyValue.2, hkeyValue⟩
    obtain ⟨_, hold₁⟩ := hold hkey₁
    obtain ⟨_, hold₂⟩ := hold hkey₂
    exact h.unique first second key₁ _ _ hfirst hsecond hold₁ hold₂

variable [DecidableEq K]

theorem Represents.revalued (hshape : Shape hash map chains) (h : map.Represents contents)
    (hlive : map.Live id) (hkey : map.keyValue id = some (key, value)) (value' : V) :
    (map.revalued id key value').Represents (Function.update contents key (some value')) := by
  intro key₁ value₁
  by_cases hkeys : key₁ = key
  · subst hkeys
    rw [Function.update_self, Option.some.injEq]
    constructor
    · rintro rfl
      exact ⟨id, hlive, keyValue_revalued_self⟩
    · rintro ⟨other, hother, hkey₁⟩
      by_cases hsame : other = id
      · subst hsame
        rw [keyValue_revalued_self] at hkey₁
        exact congrArg Prod.snd (Option.some.inj hkey₁)
      · rw [keyValue_revalued_of_ne hsame] at hkey₁
        exact absurd (hshape.unique other id key₁ value₁ value hother hlive hkey₁ hkey) hsame
  · rw [Function.update_of_ne hkeys, h key₁ value₁]
    refine exists_congr fun other => and_congr_right fun _ => ?_
    by_cases hsame : other = id
    · subst hsame
      rw [keyValue_revalued_self, hkey]
      refine iff_of_false (fun heq => ?_) fun heq => ?_
      · exact hkeys (congrArg Prod.fst (Option.some.inj heq)).symm
      · exact hkeys (congrArg Prod.fst (Option.some.inj heq)).symm
    · rw [keyValue_revalued_of_ne hsame]

theorem Shape.findInBucket_present (h : Shape hash map chains) (hlive : map.Live id)
    (hkey : map.keyValue id = some (key, value)) :
    ∃ link, map.findInBucket hash key = some (some id, link) := by
  rcases h.findInBucket_cases key with
    ⟨_, found, _, value', _, hfound, hkey', hfind⟩ | ⟨hnone, -⟩
  · obtain rfl := h.unique found id key value' value hfound hlive hkey' hkey
    exact ⟨_, hfind⟩
  · exact absurd hkey (hnone id value hlive)

theorem Shape.findInBucket_absent (h : Shape hash map chains)
    (habsent : ∀ id value, map.Live id → map.keyValue id ≠ some (key, value)) :
    ∃ link, map.findInBucket hash key = some (none, link) := by
  rcases h.findInBucket_cases key with ⟨_, found, _, value, _, hfound, hkey, _⟩ | ⟨-, hfind⟩
  · exact absurd hkey (habsent found value hfound)
  · exact hfind

theorem Shape.find_eq (hshape : Shape hash map chains) (h : map.Represents contents) (key : K) :
    map.find hash key = some (contents key) := by
  rcases h.cases key with ⟨id, value, hcontents, hlive, hkey⟩ | ⟨hcontents, habsent⟩
  · obtain ⟨link, hfind⟩ := hshape.findInBucket_present hlive hkey
    simp [find, hfind, (hshape.node_eq hlive.1).trans hkey, hlive.2, hcontents]
  · obtain ⟨link, hfind⟩ := hshape.findInBucket_absent habsent
    simp [find, hfind, hcontents]

theorem Shape.withValue_eq (h : Shape hash map chains) (hlive : map.Live id)
    (hkey : map.keyValue id = some (key, value)) (callback : V → V) :
    map.withValue hash key callback = some (true, map.revalued id key (callback value)) := by
  obtain ⟨link, hfind⟩ := h.findInBucket_present hlive hkey
  simp [withValue, hfind, (h.node_eq hlive.1).trans hkey, hlive.2, LockFreeOrderedHashMap.revalued]

theorem Shape.withValue_absent (h : Shape hash map chains)
    (habsent : ∀ id value, map.Live id → map.keyValue id ≠ some (key, value))
    (callback : V → V) : map.withValue hash key callback = some (false, map) := by
  obtain ⟨link, hfind⟩ := h.findInBucket_absent habsent
  rw [withValue, hfind]
  rfl

end Lookup

end LockFreeOrderedHashMap

end ZetaNet
