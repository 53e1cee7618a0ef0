import ZetaNet.Map.Shape

/-!
# Garbage collection

`collect_garbage` takes the deleted nodes out of the order chain and frees them; the nodes of the
buckets stay.
-/

namespace ZetaNet

open Links

namespace LockFreeOrderedHashMap

variable {K V : Type} {hash : K → Nat} {map : LockFreeOrderedHashMap K V}
  {chains : Nat → List Nat} {contents : K → Option V} {id : Nat}

/-! ## The order chain -/

/-- The tail after a node was taken out. -/
theorem getLast?_unlink {kept rest : List Nat} {i : Nat} (hrest : i ∉ rest) :
    (if (kept ++ i :: rest).getLast? = some i then kept.getLast?
      else (kept ++ i :: rest).getLast?) = (kept ++ rest).getLast? := by
  rcases List.eq_nil_or_concat rest with rfl | ⟨front, last, hconcat⟩
  · simp
  · rw [List.concat_eq_append] at hconcat
    subst hconcat
    have hne : last ≠ i := fun heq => hrest (heq ▸ List.mem_append_right _ List.mem_cons_self)
    rw [← List.cons_append, ← List.append_assoc, ← List.append_assoc, List.getLast?_concat,
      List.getLast?_concat, if_neg fun heq => hne (Option.some.inj heq)]

/-- Taking a node out leaves the chain of the others. -/
theorem unlinkOrderNode_eq {kept rest : List Nat} {i : Nat}
    (hchain : Chain map.orderNext map.orderHead (kept ++ i :: rest))
    (htail : map.orderTail = (kept ++ i :: rest).getLast?) :
    ∃ orderNext orderHead, map.unlinkOrderNode kept.getLast? i =
        { map with orderNext, orderHead, orderTail := (kept ++ rest).getLast? } ∧
      Chain orderNext orderHead (kept ++ rest) := by
  have hnot : i ∉ rest := (List.nodup_cons.mp (List.nodup_append.mp hchain.nodup).2.1).1
  have htail' := @getLast?_unlink kept rest i hnot
  rw [← htail] at htail'
  rcases List.eq_nil_or_concat kept with rfl | ⟨front, last, hconcat⟩
  · refine ⟨map.orderNext, map.orderNext i, ?_, (chain_cons.mp hchain).2⟩
    rw [← htail']
    by_cases hlast : map.orderTail = some i
    · simp [unlinkOrderNode, hlast]
    · simp [unlinkOrderNode, hlast]
  · rw [List.concat_eq_append] at hconcat
    subst hconcat
    rw [List.append_assoc] at hchain
    refine ⟨Function.update map.orderNext last (map.orderNext i), map.orderHead, ?_, ?_⟩
    · rw [← htail']
      by_cases hlast : map.orderTail = some i
      · simp [unlinkOrderNode, hlast]
      · simp [unlinkOrderNode, hlast]
    · rw [List.append_assoc]
      exact hchain.unlink

/-- The pass over the order chain keeps the nodes that are not deleted. -/
theorem unlinkOrder_eq {kept rest : List Nat} {rounds : Nat}
    (hchain : Chain map.orderNext map.orderHead (kept ++ rest))
    (htail : map.orderTail = (kept ++ rest).getLast?)
    (hnodes : ∀ id ∈ rest, ∃ keyValue, map.node id = some keyValue)
    (hrounds : rest.length < rounds) :
    ∃ orderNext orderHead, map.unlinkOrder rounds kept.getLast? rest.head? =
        some { map with
          orderNext, orderHead
          orderTail := (kept ++ rest.filter fun id => !map.isDeleted id).getLast? } ∧
      Chain orderNext orderHead (kept ++ rest.filter fun id => !map.isDeleted id) := by
  induction rest generalizing kept map rounds with
  | nil =>
      obtain ⟨rounds, rfl⟩ := Nat.exists_eq_succ_of_ne_zero (Nat.pos_iff_ne_zero.mp hrounds)
      refine ⟨map.orderNext, map.orderHead, ?_, hchain⟩
      rw [List.filter_nil, ← htail]
      rfl
  | cons i rest ih =>
      cases rounds with
      | zero => cases hrounds
      | succ rounds =>
          obtain ⟨keyValue, hnode⟩ := hnodes i List.mem_cons_self
          have hbehind := hchain.of_append
          have hnext : map.orderNext i = rest.head? := hbehind.head_eq
          have hlater : ∀ id ∈ rest, ∃ keyValue, map.node id = some keyValue :=
            fun id hid => hnodes id (List.mem_cons_of_mem _ hid)
          have hfuel : rest.length < rounds := Nat.lt_of_succ_lt_succ hrounds
          simp only [List.head?_cons, unlinkOrder, hnode, Option.bind_eq_bind, Option.bind_some,
            hnext]
          -- a deleted node leaves the chain, another joins the ones that are kept
          by_cases hdeleted : map.isDeleted i = true
          · obtain ⟨orderNext, orderHead, hunlink, hunlinked⟩ := unlinkOrderNode_eq hchain htail
            rw [if_pos hdeleted, hunlink, List.filter_cons_of_neg (by simp [hdeleted])]
            exact ih hunlinked rfl hlater hfuel
          · rw [if_neg hdeleted, List.filter_cons_of_pos (by simp [hdeleted])]
            have happend (later : List Nat) : kept ++ i :: later = (kept ++ [i]) ++ later := by
              simp
            rw [happend] at hchain htail ⊢
            have hkept := ih hchain htail hlater hfuel
            rwa [List.getLast?_concat] at hkept

/-! ## The sweep -/

/-- The sweep frees the deleted nodes and keeps the others. -/
theorem sweep_eq {ids : List Nat} (hnodup : ids.Nodup)
    (hnodes : ∀ id ∈ ids, ∃ keyValue, map.node id = some keyValue) :
    map.sweep ids = some (ids.filter fun id => !map.isDeleted id,
      { map with freed := fun id => map.freed id || (decide (id ∈ ids) && map.isDeleted id) }) := by
  induction ids generalizing map with
  | nil => simp [sweep]
  | cons i ids ih =>
      obtain ⟨hnot, hnodup⟩ := List.nodup_cons.mp hnodup
      obtain ⟨keyValue, hnode⟩ := hnodes i List.mem_cons_self
      simp only [sweep, hnode, Option.bind_eq_bind, Option.bind_some]
      by_cases hdeleted : map.isDeleted i = true
      · have hlater : ∀ id ∈ ids, ∃ keyValue,
            { map with freed := Function.update map.freed i true }.node id = some keyValue := by
          intro id hid
          obtain ⟨keyValue, hnode⟩ := hnodes id (List.mem_cons_of_mem _ hid)
          obtain ⟨hfreed, hkeyValue⟩ := node_eq_some.mp hnode
          have hne : id ≠ i := fun heq => hnot (heq ▸ hid)
          exact ⟨keyValue, node_eq_some.mpr
            ⟨(Function.update_of_ne hne ..).trans hfreed, hkeyValue⟩⟩
        rw [if_pos hdeleted, ih hnodup hlater, List.filter_cons_of_neg (by simp [hdeleted])]
        congr 3
        funext id
        by_cases hid : id = i
        · simp [hid, hdeleted]
        · simp [hid]
      · rw [if_neg hdeleted, ih hnodup fun id hid => hnodes id (List.mem_cons_of_mem _ hid),
          List.filter_cons_of_pos (by simp [hdeleted])]
        simp only [Option.bind_some]
        congr 3
        funext id
        by_cases hid : id = i
        · simp [hid, hdeleted]
        · simp [hid]

/-! ## The collection -/

/-- The nodes that are not deleted. -/
def keptNodes (map : LockFreeOrderedHashMap K V) : List Nat :=
  map.allNodes.filter fun id => !map.isDeleted id

/-- The map after a collection. -/
def collected (orderNext : Nat → Option Nat) (orderHead : Option Nat)
    (map : LockFreeOrderedHashMap K V) : LockFreeOrderedHashMap K V :=
  { map with
    orderNext, orderHead
    orderTail := map.keptNodes.getLast?
    freed := fun id => map.freed id || (decide (id ∈ map.allNodes) && map.isDeleted id)
    allNodes := map.keptNodes }

section Collected

variable {orderNext : Nat → Option Nat} {orderHead : Option Nat}

theorem mem_keptNodes : id ∈ map.keptNodes ↔ map.Live id := by
  simp [keptNodes, Live]

theorem live_collected : (map.collected orderNext orderHead).Live id ↔ map.Live id := by
  show id ∈ map.keptNodes ∧ map.isDeleted id = false ↔ map.Live id
  rw [mem_keptNodes]
  exact and_iff_left_of_imp And.right

theorem Represents.collected (h : map.Represents contents) :
    (map.collected orderNext orderHead).Represents contents := fun key value =>
  (h key value).trans (exists_congr fun _ => and_congr_left fun _ => live_collected.symm)

theorem Shape.collectGarbage_eq (h : Shape hash map chains) :
    ∃ orderNext orderHead, map.collectGarbage = some (map.collected orderNext orderHead) ∧
      Chain orderNext orderHead map.keptNodes := by
  have hnodes : ∀ id ∈ map.allNodes, ∃ keyValue, map.node id = some keyValue :=
    fun id => (h.mem_allNodes id).mp
  have hrounds : map.allNodes.length < map.rounds := Nat.lt_succ_self _
  obtain ⟨orderNext, orderHead, hunlink, hkept⟩ :=
    @unlinkOrder_eq K V map [] map.allNodes map.rounds h.order h.tail hnodes hrounds
  rw [List.getLast?_nil, ← h.order.head_eq] at hunlink
  refine ⟨orderNext, orderHead, ?_, hkept⟩
  have hsweep := @sweep_eq K V
    { map with orderNext, orderHead, orderTail := ([] ++ map.keptNodes).getLast? } _ h.nodup hnodes
  rw [collectGarbage, hunlink]
  exact congrArg (Option.bind · fun swept => some { swept.2 with allNodes := swept.1 }) hsweep

/-- The buckets stay as they are. -/
theorem Shape.collected (h : Shape hash map chains)
    (hchain : Chain orderNext orderHead map.keptNodes) :
    Shape hash (map.collected orderNext orderHead) chains where
  bucketCount_pos := h.bucketCount_pos
  chain := h.chain
  mem_chain := fun i hi id => by
    rw [live_collected]
    exact h.mem_chain i hi id
  order := hchain
  tail := rfl
  mem_allNodes := fun id => by
    show id ∈ map.keptNodes ↔ _
    rw [mem_keptNodes, Live, h.mem_allNodes id]
    simp only [node_eq_some, LockFreeOrderedHashMap.collected, Bool.or_eq_false_iff]
    constructor
    · rintro ⟨⟨keyValue, hfreed, hkeyValue⟩, hlive⟩
      exact ⟨keyValue, ⟨hfreed, by simp [hlive]⟩, hkeyValue⟩
    · rintro ⟨keyValue, ⟨hfreed, hswept⟩, hkeyValue⟩
      have hmem : id ∈ map.allNodes :=
        (h.mem_allNodes id).mpr ⟨keyValue, node_eq_some.mpr ⟨hfreed, hkeyValue⟩⟩
      exact ⟨⟨keyValue, hfreed, hkeyValue⟩, by simpa [hmem] using hswept⟩
  fresh := fun id hid => by
    obtain ⟨hnone, hfreed⟩ := h.fresh id hid
    refine ⟨hnone, ?_⟩
    have hmem : id ∉ map.allNodes := by
      intro hmem
      obtain ⟨keyValue, -, hkeyValue⟩ := h.exists_node hmem
      rw [hnone] at hkeyValue
      cases hkeyValue
    simp [LockFreeOrderedHashMap.collected, hfreed, hmem]
  unique := fun first second key value value' hfirst hsecond =>
    h.unique first second key value value' (live_collected.mp hfirst) (live_collected.mp hsecond)

/-- A collection frees the deleted nodes and no others. -/
theorem Shape.freed_collected (h : Shape hash map chains) {keyValue : K × V}
    (hnode : map.node id = some keyValue) :
    (map.collected orderNext orderHead).freed id = map.isDeleted id := by
  have hmem : id ∈ map.allNodes := (h.mem_allNodes id).mpr ⟨keyValue, hnode⟩
  simp [LockFreeOrderedHashMap.collected, (node_eq_some.mp hnode).1, hmem]

theorem Shape.freed_collected_of_none (h : Shape hash map chains) (hnode : map.node id = none) :
    (map.collected orderNext orderHead).freed id = map.freed id := by
  have hmem : id ∉ map.allNodes := by
    rw [h.mem_allNodes id, hnode]
    rintro ⟨keyValue, ⟨⟩⟩
  simp [LockFreeOrderedHashMap.collected, hmem]

end Collected

end LockFreeOrderedHashMap

end ZetaNet
