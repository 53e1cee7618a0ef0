import ZetaNet.Lib.Ownership
import ZetaNet.Map.Reclaim

/-!
# The insertion order under many threads

Phase 2 of `insert_internal` appends the new node behind `orderTail`, which may lag one node
behind the last one; whoever finds it lagging moves it on. As long as `collect_garbage` is not
called, concurrent inserts and removes keep the order a single chain to which nodes are only
added, and no node that got into a bucket is missed: it is in the chain, or its thread is on the
way to append it.
-/

namespace ZetaNet

open Links

namespace OrderPc

/-- The node that the thread is going to append. -/
def appending : OrderPc → Option Nat
  | .storeOrderNext newNode | .loadTail newNode _ | .swapOrderHead newNode _
  | .loadOrderNext newNode _ | .checkTail newNode _ _ | .helpTail newNode _ _
  | .swapOrderNext newNode _ => some newNode
  | .swapFirstTail _ _ | .swapTail _ _ => none

/-- The node that was appended and is to become the tail, and the tail that is expected. -/
def swaps : OrderPc → Option (Nat × Option Nat)
  | .swapFirstTail newNode expectedTail => some (newNode, expectedTail)
  | .swapTail newNode currentTail => some (newNode, some currentTail)
  | _ => none

/-- What the thread has seen of the chain. `reached` are the nodes up to the tail: a tail that
was read once is among them ever after, and so is a successor that was read. -/
def Placed (orderNext : Nat → Option Nat) (reached order : List Nat) : OrderPc → Prop
  | .storeOrderNext _ => True
  | .loadTail _ expectedTail => ∀ node, expectedTail = some node → node ∈ reached
  | .swapOrderHead _ expectedTail => expectedTail = none
  | .swapFirstTail newNode expectedTail => expectedTail = none ∧ newNode ∈ order
  | .loadOrderNext _ currentTail | .swapOrderNext _ currentTail => currentTail ∈ reached
  | .checkTail _ currentTail currentTailOrderNext =>
      currentTail ∈ reached ∧
        ∀ node, currentTailOrderNext = some node → orderNext currentTail = some node
  | .helpTail _ currentTail next =>
      currentTail ∈ reached ∧ orderNext currentTail = some next
  | .swapTail newNode currentTail =>
      currentTail ∈ reached ∧ orderNext currentTail = some newNode

/-- The chain grows, and no successor changes. -/
theorem Placed.mono {orderNext orderNext' : Nat → Option Nat}
    {reached reached' order order' : List Nat} {pc : OrderPc}
    (h : pc.Placed orderNext reached order) (hreached : reached ⊆ reached')
    (horder : order ⊆ order')
    (hnext : ∀ i ∈ reached, ∀ j, orderNext i = some j → orderNext' i = some j) :
    pc.Placed orderNext' reached' order' := by
  cases pc with
  | storeOrderNext => trivial
  | loadTail newNode expectedTail => exact fun node hnode => hreached (h node hnode)
  | swapOrderHead => exact h
  | swapFirstTail => exact ⟨h.1, horder h.2⟩
  | loadOrderNext | swapOrderNext => exact hreached h
  | checkTail => exact ⟨hreached h.1, fun node hnode => hnext _ h.1 _ (h.2 node hnode)⟩
  | helpTail | swapTail => exact ⟨hreached h.1, hnext _ h.1 _ h.2⟩

end OrderPc

namespace MapPc

variable {K V : Type}

/-- The node that is in no chain yet but its bucket's, or in none. -/
def own : MapPc K V → Option Nat
  | .order pc => pc.appending
  | pc => pc.newNode

def swaps : MapPc K V → Option (Nat × Option Nat)
  | .order pc => pc.swaps
  | _ => none

def Placed (orderNext : Nat → Option Nat) (reached order : List Nat) : MapPc K V → Prop
  | .order pc => pc.Placed orderNext reached order
  | .collect _ => False
  | _ => True

theorem Placed.mono {orderNext orderNext' : Nat → Option Nat}
    {reached reached' order order' : List Nat} {pc : MapPc K V}
    (h : pc.Placed orderNext reached order) (hreached : reached ⊆ reached')
    (horder : order ⊆ order')
    (hnext : ∀ i ∈ reached, ∀ j, orderNext i = some j → orderNext' i = some j) :
    pc.Placed orderNext' reached' order' := by
  cases pc with
  | order pc => exact OrderPc.Placed.mono h hreached horder hnext
  | collect => exact h.elim
  | _ => trivial

end MapPc

namespace SharedMap

variable {K V : Type}

/-- The order is `reached`, up to the tail, and the node that the tail has not got to. -/
structure Appending (s : SharedMap K V) (reached : List Nat) (lag : Option Nat) : Prop where
  chain : Chain s.map.orderNext s.map.orderHead (reached ++ lag.toList)
  tail : s.map.orderTail = reached.getLast?
  /-- whoever appended the last node has not moved the tail yet -/
  lagging : ∀ node, lag = some node → ∃ t, (s.pc t).swaps = some (node, s.map.orderTail)
  placed : ∀ t, (s.pc t).Placed s.map.orderNext reached (reached ++ lag.toList)
  own_next : ∀ t node, (s.pc t).own = some node → s.map.orderNext node = none
  ownership : Ownership MapPc.own s.map.nextNode s.map.freed s.pc
    fun node => node ∈ reached ++ lag.toList

theorem appending_init (count : Nat) : (init K V count).Appending [] none where
  chain := rfl
  tail := rfl
  lagging _ h := nomatch h
  placed _ := trivial
  own_next _ _ h := nomatch h
  ownership := .start (fun _ => rfl) (fun _ => rfl) fun _ => List.not_mem_nil

section Steps

variable {s s' : SharedMap K V} {t : Nat} {pc : MapPc K V} {reached : List Nat}
  {lag : Option Nat} {map : LockFreeOrderedHashMap K V}

/-- The links, the tail and the deleted nodes are what they were. -/
structure SameOrder (map map' : LockFreeOrderedHashMap K V) : Prop where
  orderNext : map'.orderNext = map.orderNext
  orderHead : map'.orderHead = map.orderHead
  orderTail : map'.orderTail = map.orderTail
  freed : map'.freed = map.freed
  nextNode : map'.nextNode = map.nextNode

theorem Appending.write (h : s.Appending reached lag) (hmap : SameOrder s.map map) :
    (s.write map).Appending reached lag := by
  obtain ⟨horderNext, horderHead, horderTail, hfreed, hnextNode⟩ := hmap
  obtain ⟨chain, tail, lagging, placed, ownNext, ownership⟩ := h
  rw [← horderNext, ← horderHead] at chain
  rw [← horderTail] at tail lagging
  rw [← horderNext] at placed ownNext
  rw [← hfreed, ← hnextNode] at ownership
  exact ⟨chain, tail, lagging, placed, ownNext, ownership⟩

/-- The last node still has its thread after another one has moved. -/
theorem Appending.lagging_update (h : s.Appending reached lag)
    (hswaps : ∀ node, lag = some node → (s.pc t).swaps ≠ some (node, s.map.orderTail)) {node : Nat}
    (hnode : lag = some node) :
    ∃ u, (Function.update s.pc t pc u).swaps = some (node, s.map.orderTail) := by
  obtain ⟨u, hu⟩ := h.lagging node hnode
  have hne : u ≠ t := by
    rintro rfl
    exact hswaps node hnode hu
  refine ⟨u, ?_⟩
  rw [Function.update_of_ne hne, hu]

/-- A thread gets on and keeps its node. -/
theorem Appending.goto (h : s.Appending reached lag) (hown : pc.own = (s.pc t).own)
    (hplaced : pc.Placed s.map.orderNext reached (reached ++ lag.toList))
    (hswaps : ∀ node, lag = some node → (s.pc t).swaps ≠ some (node, s.map.orderTail)) :
    (s.goto t pc).Appending reached lag where
  chain := h.chain
  tail := h.tail
  lagging _ hnode := h.lagging_update hswaps hnode
  placed := (Function.forall_update_iff s.pc fun _ pc =>
    pc.Placed s.map.orderNext reached (reached ++ lag.toList)).mpr ⟨hplaced, fun u _ => h.placed u⟩
  own_next := (Function.forall_update_iff s.pc fun _ pc => ∀ node, pc.own = some node →
    s.map.orderNext node = none).mpr
      ⟨fun node hnode => h.own_next t node (hown ▸ hnode), fun u _ => h.own_next u⟩
  ownership := h.ownership.move hown

/-! ## The steps that change the order -/

/-- The tail gets to the last node. -/
theorem Appending.moveTail {node : Nat} (h : s.Appending reached (some node)) :
    (s.write { s.map with orderTail := some node }).Appending (reached ++ [node]) none := by
  have horder : reached ++ [node] ++ (none : Option Nat).toList = reached ++ [node] :=
    List.append_nil _
  exact {
    chain := horder.symm ▸ h.chain
    tail := (List.getLast?_concat ..).symm
    lagging := fun _ hnode => nomatch hnode
    placed := fun u => (h.placed u).mono (List.subset_append_left ..)
      (horder.symm ▸ List.Subset.refl _) fun _ _ _ => id
    own_next := h.own_next
    ownership := h.ownership.congr fun _ => by
      rw [horder]
      exact Iff.rfl }

/-- A thread links its node behind the last one. -/
theorem Appending.link {node : Nat} (h : s.Appending reached none)
    (hown : (s.pc t).own = some node)
    (hchain : Chain map.orderNext map.orderHead (reached ++ [node]))
    (hnext : ∀ i ∈ reached, ∀ j, s.map.orderNext i = some j → map.orderNext i = some j)
    (hclean : ∀ u i, (s.pc u).own = some i → i ≠ node → map.orderNext i = none)
    (htail : map.orderTail = s.map.orderTail) (hfreed : map.freed = s.map.freed)
    (hnextNode : map.nextNode = s.map.nextNode) (hpc : pc.own = none)
    (hswaps : pc.swaps = some (node, s.map.orderTail))
    (hplaced : pc.Placed map.orderNext reached (reached ++ [node])) :
    ((s.write map).goto t pc).Appending reached (some node) where
  chain := hchain
  tail := htail.trans h.tail
  lagging last hlast := by
    obtain rfl := Option.some.inj hlast
    refine ⟨t, ?_⟩
    show (Function.update s.pc t pc t).swaps = some (node, map.orderTail)
    rw [Function.update_self, hswaps, htail]
  placed := (Function.forall_update_iff s.pc fun _ pc =>
    pc.Placed map.orderNext reached (reached ++ [node])).mpr ⟨hplaced, fun u _ =>
      (h.placed u).mono (List.Subset.refl _)
        (List.append_subset.mpr ⟨List.subset_append_left .., List.nil_subset _⟩) hnext⟩
  own_next u i hu := by
    obtain ⟨hne, hu⟩ := (h.ownership.own_of_release hown hpc).mp hu
    exact hclean u i hu hne
  ownership := by
    have hshare := h.ownership.share hown hpc
    rw [← hfreed, ← hnextNode] at hshare
    refine hshare.congr fun i => ?_
    rw [Option.toList_none, List.append_nil, Option.toList_some, List.mem_append,
      List.mem_singleton]

/-- A thread allocates a node. -/
theorem Appending.allocate (h : s.Appending reached lag) (key : K) (value : V)
    (hnone : (s.pc t).own = none) (hown : pc.own = some s.map.nextNode)
    (hplaced : ∀ orderNext, pc.Placed orderNext reached (reached ++ lag.toList))
    (hswaps : (s.pc t).swaps = none) :
    ((s.write (s.map.newNode key value).2).goto t pc).Appending reached lag := by
  have hne (node : Nat) (hmem : node ∈ reached ++ lag.toList) : node ≠ s.map.nextNode :=
    (h.ownership.lt_of_shared hmem).ne
  have hlink {i : Nat} (hi : i ≠ s.map.nextNode) :
      Function.update s.map.orderNext s.map.nextNode none i = s.map.orderNext i :=
    Function.update_of_ne hi ..
  exact {
    chain := (segment_update (fun hmem => hne _ hmem rfl) none).mpr h.chain
    tail := h.tail
    lagging := fun _ hnode => h.lagging_update (fun _ _ hlast => by
      rw [hswaps] at hlast
      cases hlast) hnode
    placed := (Function.forall_update_iff s.pc fun _ pc => pc.Placed
      (Function.update s.map.orderNext s.map.nextNode none) reached
        (reached ++ lag.toList)).mpr ⟨hplaced _, fun u _ =>
          (h.placed u).mono (List.Subset.refl _) (List.Subset.refl _) fun i hi j hj =>
            (hlink (hne i (List.mem_append_left _ hi))).trans hj⟩
    own_next := (Function.forall_update_iff s.pc fun _ pc => ∀ node, pc.own = some node →
      Function.update s.map.orderNext s.map.nextNode none node = none).mpr
        ⟨fun node hnode => by
          obtain rfl := Option.some.inj (hown.symm.trans hnode)
          exact Function.update_self ..,
        fun u _ node hnode =>
          (hlink (h.ownership.lt u node hnode).ne).trans (h.own_next u node hnode)⟩
    ownership := h.ownership.take hnone hown }

/-- An insert deletes the node that it has not linked. -/
theorem Appending.lose {node : Nat} (h : s.Appending reached lag)
    (hown : (s.pc t).own = some node) (hnone : pc.own = none)
    (hplaced : pc.Placed s.map.orderNext reached (reached ++ lag.toList))
    (hswaps : (s.pc t).swaps = none) :
    ((s.write { s.map with freed := Function.update s.map.freed node true }).goto t
      pc).Appending reached lag where
  chain := h.chain
  tail := h.tail
  lagging _ hlast := h.lagging_update (fun _ _ hlast => by
    rw [hswaps] at hlast
    cases hlast) hlast
  placed := (Function.forall_update_iff s.pc fun _ pc =>
    pc.Placed s.map.orderNext reached (reached ++ lag.toList)).mpr
      ⟨hplaced, fun u _ => h.placed u⟩
  own_next u i hu := h.own_next u i ((h.ownership.own_of_release hown hnone).mp hu).2
  ownership := h.ownership.drop hown hnone

/-! ## Phase 2 of `insert_internal` -/

/-- `order` is the insertion order. -/
def Appended (s : SharedMap K V) (order : List Nat) : Prop :=
  ∃ reached lag, order = reached ++ lag.toList ∧ s.Appending reached lag

theorem Appending.appended (h : s.Appending reached lag) : s.Appended (reached ++ lag.toList) :=
  ⟨reached, lag, rfl, h⟩

theorem Appended.grown {order : List Nat} (h : s.Appended order) :
    ∃ appended, s.Appended (order ++ appended) :=
  ⟨[], (List.append_nil order).symm ▸ h⟩

/-- The successor of the tail is the node it lags behind. -/
theorem Appending.lag_eq {currentTail next : Nat} (h : s.Appending reached lag)
    (htail : s.map.orderTail = some currentTail)
    (hnext : s.map.orderNext currentTail = some next) : lag = some next := by
  obtain ⟨front, rfl⟩ := List.getLast?_eq_some_iff.mp (h.tail.symm.trans htail)
  have hchain := h.chain
  rw [List.append_assoc, List.singleton_append] at hchain
  have hrest := hchain.of_append
  rw [hnext] at hrest
  cases lag with
  | none => cases hrest
  | some last => exact congrArg some (Option.some.inj hrest.1.symm)

/-- A node of the order that has no successor is the last one, and the tail. -/
theorem Appending.eq_tail {currentTail : Nat} (h : s.Appending reached lag)
    (hmem : currentTail ∈ reached) (hnext : s.map.orderNext currentTail = none) :
    lag = none ∧ ∃ front, reached = front ++ [currentTail] := by
  obtain ⟨front, rest, rfl⟩ := List.append_of_mem hmem
  have hchain := h.chain
  rw [List.append_assoc, List.cons_append] at hchain
  have hrest := hchain.of_append
  rw [hnext] at hrest
  have hnil := hrest.head_eq
  cases rest with
  | cons => cases hnil
  | nil =>
      cases lag with
      | none => exact ⟨rfl, front, rfl⟩
      | some => cases hnil

/-- A tail that was missing or that lags is moved by the thread that appended the node. -/
theorem Appending.finish {node : Nat} {expectedTail : Option Nat} (h : s.Appending reached lag)
    (hpc : s.pc t = pc) (hswaps : pc.swaps = some (node, expectedTail)) (hown : pc.own = none)
    (hlag : s.map.orderTail = expectedTail → lag = some node) :
    ((if s.map.orderTail = expectedTail then
        (s.write { s.map with orderTail := some node }).goto t .idle
      else s.goto t .idle)).Appended (reached ++ lag.toList) := by
  subst hpc
  by_cases htail : s.map.orderTail = expectedTail
  · rw [if_pos htail]
    obtain rfl := hlag htail
    have hidle : ((s.write { s.map with orderTail := some node }).goto t .idle).Appending
        (reached ++ [node]) none := h.moveTail.goto hown.symm trivial nofun
    exact ⟨_, none, (List.append_nil _).symm, hidle⟩
  · rw [if_neg htail]
    have hidle : (s.goto t .idle).Appending reached lag := by
      refine h.goto hown.symm trivial fun last _ hlast => ?_
      rw [hswaps] at hlast
      exact htail (Prod.mk.inj (Option.some.inj hlast)).2.symm
    exact hidle.appended

/-- A step of phase 2 that only reads. -/
theorem Appending.stay {pc pc' : OrderPc} (h : s.Appending reached lag)
    (hpc : s.pc t = .order pc) (hown : pc'.appending = pc.appending) (hswaps : pc.swaps = none)
    (hplaced : pc'.Placed s.map.orderNext reached (reached ++ lag.toList)) :
    (s.goto t (.order pc')).Appended (reached ++ lag.toList) := by
  have hgoto : (s.goto t (.order pc')).Appending reached lag := by
    refine h.goto ?_ hplaced fun _ _ hlast => ?_
    · rw [hpc]
      exact hown
    · rw [hpc] at hlast
      cases hswaps.symm.trans hlast
  exact hgoto.appended

/-- Nobody has linked anything behind the new node, so its link is null already. -/
theorem Appending.storeOrderNext {newNode : Nat} {spurious : Bool}
    (h : s.Appending reached lag) (hpc : s.pc t = .order (.storeOrderNext newNode)) :
    (s.stepOrder t spurious (.storeOrderNext newNode)).Appended (reached ++ lag.toList) := by
  have hown : (s.pc t).own = some newNode := by rw [hpc]; rfl
  have hsame : Function.update s.map.orderNext newNode none = s.map.orderNext := by
    rw [← h.own_next t newNode hown, Function.update_eq_self]
  have hgoto : (s.stepOrder t spurious (.storeOrderNext newNode)) =
      s.goto t (.order (.loadTail newNode none)) := by
    rw [SharedMap.stepOrder, hsame]
    rfl
  rw [hgoto]
  exact h.stay hpc rfl rfl nofun

/-- The tail is missing only while the order is empty. -/
theorem Appending.loadTail {newNode : Nat} {expectedTail : Option Nat} {spurious : Bool}
    (h : s.Appending reached lag) (hpc : s.pc t = .order (.loadTail newNode expectedTail)) :
    (s.stepOrder t spurious (.loadTail newNode expectedTail)).Appended
      (reached ++ lag.toList) := by
  have hplaced := h.placed t
  rw [hpc] at hplaced
  rw [SharedMap.stepOrder]
  cases htail : s.map.orderTail with
  | none =>
      refine h.stay hpc rfl rfl ?_
      have hnil := List.getLast?_eq_none_iff.mp (h.tail.symm.trans htail)
      cases expectedTail with
      | none => rfl
      | some node =>
          have hmem := hplaced node rfl
          rw [hnil] at hmem
          cases hmem
  | some currentTail =>
      exact h.stay hpc rfl rfl (List.mem_of_getLast? (h.tail.symm.trans htail))

/-- The new node becomes the head of an empty order. -/
theorem Appending.swapOrderHead {newNode : Nat} {expectedTail : Option Nat} {spurious : Bool}
    (h : s.Appending reached lag)
    (hpc : s.pc t = .order (.swapOrderHead newNode expectedTail)) :
    ∃ appended, (s.stepOrder t spurious (.swapOrderHead newNode expectedTail)).Appended
      (reached ++ lag.toList ++ appended) := by
  have hplaced := h.placed t
  rw [hpc] at hplaced
  obtain rfl : expectedTail = none := hplaced
  rw [SharedMap.stepOrder]
  split
  · rename_i hhead
    have hown : (s.pc t).own = some newNode := by rw [hpc]; rfl
    have hnil := List.head?_eq_none_iff.mp (h.chain.head_eq.symm.trans hhead.1)
    obtain ⟨rfl, hlag⟩ := List.append_eq_nil_iff.mp hnil
    obtain rfl := Option.toList_eq_nil_iff.mp hlag
    have htail : s.map.orderTail = none := h.tail
    refine ⟨[newNode], [], some newNode, rfl, h.link hown ?_ (fun _ _ _ => id)
      (fun u i hu _ => h.own_next u i hu) rfl rfl rfl rfl ?_ ?_⟩
    · exact chain_cons.mpr ⟨rfl, h.own_next t newNode hown⟩
    · rw [htail]
      rfl
    · exact ⟨rfl, List.mem_singleton_self _⟩
  · refine Appended.grown ?_
    exact h.stay hpc rfl rfl nofun

/-- The tail is looked at again after its successor has been read. -/
theorem Appending.checkTail {newNode currentTail : Nat} {currentTailOrderNext : Option Nat}
    {spurious : Bool} (h : s.Appending reached lag)
    (hpc : s.pc t = .order (.checkTail newNode currentTail currentTailOrderNext)) :
    (s.stepOrder t spurious (.checkTail newNode currentTail currentTailOrderNext)).Appended
      (reached ++ lag.toList) := by
  have hplaced := h.placed t
  rw [hpc] at hplaced
  have hretry : (s.goto t (.order (.loadTail newNode (some currentTail)))).Appended
      (reached ++ lag.toList) := by
    refine h.stay hpc rfl rfl fun node hnode => ?_
    obtain rfl := Option.some.inj hnode
    exact hplaced.1
  cases currentTailOrderNext with
  | some next =>
      rw [SharedMap.stepOrder]
      split
      · exact h.stay hpc rfl rfl ⟨hplaced.1, hplaced.2 next rfl⟩
      · exact hretry
  | none =>
      rw [SharedMap.stepOrder]
      split
      · exact h.stay hpc rfl rfl hplaced.1
      · exact hretry

/-- Whoever finds the tail lagging moves it on. -/
theorem Appending.helpTail {newNode currentTail next : Nat} {spurious : Bool}
    (h : s.Appending reached lag)
    (hpc : s.pc t = .order (.helpTail newNode currentTail next)) :
    (s.stepOrder t spurious (.helpTail newNode currentTail next)).Appended
      (reached ++ lag.toList) := by
  have hplaced := h.placed t
  rw [hpc] at hplaced
  have hseen (reached' : List Nat) (hsub : reached ⊆ reached') :
      ∀ node, some currentTail = some node → node ∈ reached' := by
    intro node hnode
    obtain rfl := Option.some.inj hnode
    exact hsub hplaced.1
  rw [SharedMap.stepOrder]
  split
  · rename_i hswap
    obtain rfl := h.lag_eq hswap.1 hplaced.2
    have hmoved : ((s.write { s.map with orderTail := some next }).goto t
        (.order (.loadTail newNode (some currentTail)))).Appending (reached ++ [next]) none := by
      refine h.moveTail.goto ?_ (hseen _ (List.subset_append_left ..)) nofun
      show _ = (s.pc t).own
      rw [hpc]
      rfl
    exact ⟨_, none, (List.append_nil _).symm, hmoved⟩
  · exact h.stay hpc rfl rfl (hseen _ (List.Subset.refl _))

/-- A tail without a successor is the last node, and the new one goes behind it. -/
theorem Appending.swapOrderNext {newNode currentTail : Nat} {spurious : Bool}
    (h : s.Appending reached lag)
    (hpc : s.pc t = .order (.swapOrderNext newNode currentTail)) :
    ∃ appended, (s.stepOrder t spurious (.swapOrderNext newNode currentTail)).Appended
      (reached ++ lag.toList ++ appended) := by
  have hplaced := h.placed t
  rw [hpc] at hplaced
  rw [SharedMap.stepOrder]
  split
  · rename_i hswap
    have hown : (s.pc t).own = some newNode := by rw [hpc]; rfl
    have hfresh := h.ownership.not_shared hown
    obtain ⟨rfl, front, rfl⟩ := h.eq_tail hplaced hswap.1
    have hchain := h.chain
    rw [Option.toList_none, List.append_nil] at hchain hfresh
    have hne (i : Nat) (hi : i ∈ front ++ [currentTail]) (j : Nat)
        (hj : s.map.orderNext i = some j) :
        Function.update s.map.orderNext currentTail (some newNode) i = some j := by
      rw [Function.update_of_ne, hj]
      rintro rfl
      rw [hswap.1] at hj
      cases hj
    refine ⟨[newNode], front ++ [currentTail], some newNode, ?_, h.link hown ?_ hne ?_ rfl rfl
      rfl rfl ?_ ?_⟩
    · simp
    · rw [List.append_assoc]
      exact hchain.append hfresh (h.own_next t newNode hown)
    · intro u i hu _
      show Function.update s.map.orderNext currentTail (some newNode) i = none
      rw [Function.update_of_ne]
      · exact h.own_next u i hu
      · rintro rfl
        exact h.ownership.not_shared hu (List.mem_append_left _ (List.mem_append_right _
          (List.mem_singleton_self _)))
    · rw [h.tail, List.getLast?_concat]
      rfl
    · exact ⟨List.mem_append_right _ (List.mem_singleton_self _), Function.update_self ..⟩
  · refine Appended.grown (h.stay hpc rfl rfl ?_)
    intro node hnode
    obtain rfl := Option.some.inj hnode
    exact hplaced

theorem Appending.stepOrder {pc : OrderPc} {spurious : Bool} (h : s.Appending reached lag)
    (hpc : s.pc t = .order pc) :
    ∃ appended, (s.stepOrder t spurious pc).Appended (reached ++ lag.toList ++ appended) := by
  have hplaced := h.placed t
  rw [hpc] at hplaced
  cases pc with
  | storeOrderNext newNode => exact (h.storeOrderNext hpc).grown
  | loadTail newNode expectedTail => exact (h.loadTail hpc).grown
  | swapOrderHead newNode expectedTail => exact h.swapOrderHead hpc
  | swapFirstTail newNode expectedTail =>
      obtain ⟨rfl, hmem⟩ := hplaced
      refine (h.finish hpc rfl rfl fun htail => ?_).grown
      have hnil := List.getLast?_eq_none_iff.mp (h.tail.symm.trans htail)
      rw [hnil, List.nil_append] at hmem
      exact Option.mem_toList.mp hmem
  | loadOrderNext newNode currentTail =>
      refine Appended.grown ?_
      exact h.stay hpc rfl rfl ⟨hplaced, fun _ => id⟩
  | checkTail newNode currentTail currentTailOrderNext => exact (h.checkTail hpc).grown
  | helpTail newNode currentTail next => exact (h.helpTail hpc).grown
  | swapOrderNext newNode currentTail => exact h.swapOrderNext hpc
  | swapTail newNode currentTail =>
      exact (h.finish hpc rfl rfl fun htail => h.lag_eq htail hplaced.2).grown

/-! ## Phase 1 of `insert_internal`, and `remove` -/

theorem Appending.stepInsert [DecidableEq K] {hash : K → Nat} {pc : InsertPc K V}
    {spurious : Bool} (h : s.Appending reached lag) (hpc : s.pc t = .insert pc)
    (hstep : s.stepInsert hash t spurious pc = some s') :
    s'.Appending reached lag := by
  have hswaps : (s.pc t).swaps = none := by rw [hpc]; rfl
  have hno : ∀ node, lag = some node → (s.pc t).swaps ≠ some (node, s.map.orderTail) := by
    intro _ _ hlast
    rw [hswaps] at hlast
    cases hlast
  -- the order is not touched, and the thread keeps its node
  have hgoto {map : LockFreeOrderedHashMap K V} (hmap : SameOrder s.map map)
      {pc' : MapPc K V} (hown : pc'.own = MapPc.own (.insert pc))
      (hplaced : pc'.Placed map.orderNext reached (reached ++ lag.toList)) :
      ((s.write map).goto t pc').Appending reached lag := by
    refine (h.write hmap).goto ?_ hplaced ?_
    · show _ = (s.pc t).own
      rw [hpc]
      exact hown
    · rw [show (s.write map).map.orderTail = s.map.orderTail from hmap.orderTail]
      exact hno
  have hsame : SameOrder s.map s.map := ⟨rfl, rfl, rfl, rfl, rfl⟩
  have hlink (link : BucketLink) (value : Option Nat) :
      SameOrder s.map (s.map.storeLink link value) := by
    cases link <;> exact ⟨rfl, rfl, rfl, rfl, rfl⟩
  cases pc with
  | loadHead =>
      cases hstep
      exact hgoto hsame rfl trivial
  | find key value newNode curr =>
      cases curr with
      | some curr =>
          rw [SharedMap.stepInsert] at hstep
          split at hstep <;> cases hstep <;> exact hgoto hsame rfl trivial
      | none =>
          cases newNode with
          | none =>
              cases hstep
              exact hgoto hsame rfl trivial
          | some newNode =>
              cases hstep
              exact hgoto hsame rfl trivial
  | found newNode existingNode =>
      cases newNode with
      | none =>
          cases hstep
          exact hgoto hsame rfl trivial
      | some newNode =>
          cases hstep
          exact h.lose (by rw [hpc]; rfl) rfl trivial hswaps
  | allocate key value =>
      rw [SharedMap.stepInsert] at hstep
      split at hstep
      · cases hstep
        exact h.allocate key value (by rw [hpc]; rfl) rfl (fun _ => trivial) hswaps
      · cases hstep
  | loadOldHead =>
      cases hstep
      exact hgoto hsame rfl trivial
  | storeBucketNext key value newNode oldHead =>
      cases hstep
      exact hgoto (hlink _ _) rfl trivial
  | swapHead key value newNode oldHead =>
      rw [SharedMap.stepInsert] at hstep
      split at hstep <;> cases hstep
      · exact hgoto (hlink _ _) rfl trivial
      · exact hgoto hsame rfl trivial

theorem Appending.stepRemove [DecidableEq K] {hash : K → Nat} {pc : RemovePc K}
    {spurious : Bool} (h : s.Appending reached lag) (hpc : s.pc t = .remove pc) :
    (s.stepRemove hash t spurious pc).Appending reached lag := by
  have hgoto {map : LockFreeOrderedHashMap K V} (hmap : SameOrder s.map map)
      {pc' : MapPc K V} (hown : pc'.own = none)
      (hplaced : pc'.Placed map.orderNext reached (reached ++ lag.toList)) :
      ((s.write map).goto t pc').Appending reached lag := by
    refine (h.write hmap).goto ?_ hplaced fun _ _ hlast => ?_
    · show _ = (s.pc t).own
      rw [hpc]
      exact hown
    · replace hlast : (s.pc t).swaps = _ := hlast
      rw [hpc] at hlast
      cases hlast
  have hsame : SameOrder s.map s.map := ⟨rfl, rfl, rfl, rfl, rfl⟩
  cases pc with
  | loadHead => exact hgoto hsame rfl trivial
  | find key prev curr =>
      cases curr with
      | none => exact hgoto hsame rfl trivial
      | some curr =>
          rw [SharedMap.stepRemove]
          split <;> exact hgoto hsame rfl trivial
  | mark key prev node =>
      rw [SharedMap.stepRemove]
      split
      · exact hgoto hsame rfl trivial
      · split
        · exact hgoto hsame rfl trivial
        · refine hgoto ?_ rfl trivial
          exact ⟨rfl, rfl, rfl, rfl, rfl⟩
  | loadPrev prev node =>
      rw [SharedMap.stepRemove]
      split <;> exact hgoto hsame rfl trivial
  | loadNext prev node => exact hgoto hsame rfl trivial
  | swapPrev prev node next =>
      rw [SharedMap.stepRemove]
      split
      · refine hgoto ?_ rfl trivial
        cases prev <;> exact ⟨rfl, rfl, rfl, rfl, rfl⟩
      · exact hgoto hsame rfl trivial

end Steps

/-! ## Runs -/

/-- The event is no call of `collect_garbage`. -/
def Collectless : ThreadEvent K V → Prop
  | .call _ .collectGarbage => False
  | _ => True

variable [DecidableEq K] {hash : K → Nat} {s s' : SharedMap K V} {order : List Nat}

theorem Appended.step (h : s.Appended order) {e : ThreadEvent K V} (he : Collectless e)
    (hstep : (machine hash).step s e = some s') :
    ∃ appended, s'.Appended (order ++ appended) := by
  obtain ⟨reached, lag, rfl, h⟩ := h
  have hnothing (h' : s'.Appending reached lag) :
      ∃ appended, s'.Appended (reached ++ lag.toList ++ appended) :=
    ⟨[], (List.append_nil _).symm ▸ h'.appended⟩
  cases e with
  | call t operation =>
      unfold machine at hstep
      dsimp only at hstep
      split at hstep
      · rename_i hidle
        obtain rfl := Option.some.inj hstep
        refine hnothing (h.goto ?_ ?_ fun _ _ hlast => ?_)
        · rw [hidle]
          cases operation with
          | insert | remove => rfl
          | collectGarbage => exact he.elim
        · cases operation with
          | insert | remove => trivial
          | collectGarbage => exact he.elim
        · rw [hidle] at hlast
          cases hlast
      · cases hstep
  | step t spurious =>
      replace hstep : s.next hash t spurious = some s' := hstep
      unfold next at hstep
      cases hpc : s.pc t with
      | idle =>
          rw [hpc] at hstep
          cases hstep
      | insert pc =>
          rw [hpc] at hstep
          exact hnothing (h.stepInsert hpc hstep)
      | order pc =>
          rw [hpc] at hstep
          obtain rfl := Option.some.inj hstep
          exact h.stepOrder hpc
      | remove pc =>
          rw [hpc] at hstep
          obtain rfl := Option.some.inj hstep
          exact hnothing (h.stepRemove hpc)
      | collect pc =>
          have hplaced := h.placed t
          rw [hpc] at hplaced
          exact hplaced.elim

theorem Appended.run {events : List (ThreadEvent K V)} (h : s.Appended order)
    (hcollect : ∀ e ∈ events, Collectless e) (hexec : (machine hash).exec s events = some s') :
    ∃ appended, s'.Appended (order ++ appended) := by
  induction events generalizing s order with
  | nil =>
      obtain rfl := Option.some.inj hexec
      exact ⟨[], (List.append_nil order).symm ▸ h⟩
  | cons e events ih =>
      obtain ⟨mid, hstep, hrest⟩ := ((machine hash).exec_cons_eq_some).mp hexec
      obtain ⟨first, hmid⟩ := h.step (hcollect e List.mem_cons_self) hstep
      obtain ⟨later, hlast⟩ := ih hmid (fun e he => hcollect e (List.mem_cons_of_mem _ he)) hrest
      rw [List.append_assoc] at hlast
      exact ⟨first ++ later, hlast⟩

/-- `order` is the chain from `orderHead`: each node once that an insert has appended. The nodes
that are missing were deleted by their insert or are on the way, and the last node is the tail
unless an insert is still at it. -/
structure Complete (s : SharedMap K V) (order : List Nat) : Prop where
  chain : Chain s.map.orderNext s.map.orderHead order
  nodup : order.Nodup
  appended : ∀ node, node ∈ order ↔
    node < s.map.nextNode ∧ s.map.freed node = false ∧ ∀ t, (s.pc t).own ≠ some node
  tail : (∀ t, s.pc t = .idle) → s.map.orderTail = order.getLast?

omit [DecidableEq K] in
theorem Appended.complete (h : s.Appended order) : s.Complete order := by
  obtain ⟨reached, lag, rfl, h⟩ := h
  refine ⟨h.chain, h.chain.nodup, h.ownership.shared_iff, fun hidle => ?_⟩
  cases lag with
  | none =>
      rw [Option.toList_none, List.append_nil]
      exact h.tail
  | some node =>
      obtain ⟨t, ht⟩ := h.lagging node rfl
      rw [hidle t] at ht
      cases ht

/-- In every run of inserts and removes by any number of threads the order is complete at any
two moments, and the later order continues the earlier one. -/
theorem order_complete {count : Nat} {first second : List (ThreadEvent K V)}
    (hcollect : ∀ e ∈ first ++ second, Collectless e)
    (hfirst : (machine hash).exec (init K V count) first = some s)
    (hsecond : (machine hash).exec s second = some s') :
    ∃ order appended, s.Complete order ∧ s'.Complete (order ++ appended) := by
  obtain ⟨order, h⟩ := (appending_init count).appended.run
    (fun e he => hcollect e (List.mem_append_left _ he)) hfirst
  obtain ⟨appended, h'⟩ := h.run (fun e he => hcollect e (List.mem_append_right _ he)) hsecond
  exact ⟨_, appended, h.complete, h'.complete⟩

/-- `count` steps of thread `t`. -/
def turns (t count : Nat) : List (ThreadEvent Nat Unit) :=
  List.replicate count (.step t false)

/-- Thread 0 has linked its node and not made it the tail; thread 1 finds a head and no tail. -/
def headWithoutTail : List (ThreadEvent Nat Unit) :=
  .call 0 (.insert 1 ()) :: turns 0 9 ++ .call 1 (.insert 2 ()) :: turns 1 10

theorem order_complete_headWithoutTail :
    ∃ s s', (machine id).exec (init Nat Unit 1) headWithoutTail = some s ∧
      (machine id).exec s (turns 0 1 ++ turns 1 5) = some s' ∧ s'.map.orderTail = some 1 ∧
      ∃ order appended, s.Complete order ∧ s'.Complete (order ++ appended) := by
  have hrun : ((machine id).exec (init Nat Unit 1)
      (headWithoutTail ++ (turns 0 1 ++ turns 1 5))).map (fun s => s.map.orderTail) =
        some (some 1) := by decide +kernel
  obtain ⟨s', hexec, htail⟩ := Option.map_eq_some_iff.mp hrun
  rw [Machine.exec_append] at hexec
  obtain ⟨s, hfirst, hsecond⟩ := Option.bind_eq_some_iff.mp hexec
  refine ⟨s, s', hfirst, hsecond, htail, order_complete (fun e he => ?_) hfirst hsecond⟩
  revert e
  simp [headWithoutTail, turns, Collectless]

/-- Thread 2 collects node 0, which was the tail when it looked, and thread 1, whose node was
allocated before, has put it behind node 0 since. -/
def appendedToCollected : List (ThreadEvent Nat Unit) :=
  .call 0 (.insert 1 ()) :: turns 0 10 ++ .call 0 (.remove 1) :: turns 0 6 ++
    .call 1 (.insert 2 ()) :: turns 1 3 ++ .call 2 .collectGarbage :: turns 2 4 ++ turns 1 9 ++
    turns 2 5

/-- With `collect_garbage` between the steps of an insert the node is in its bucket and not in
the order, which begins nowhere. -/
theorem order_lost_appendedToCollected :
    ∃ s, (machine id).exec (init Nat Unit 1) appendedToCollected = some s ∧
      (s.map.buckets 0, s.map.isDeleted 1, s.map.freed 1, s.map.orderHead) =
        (some 1, false, false, none) := by
  have hrun : ((machine id).exec (init Nat Unit 1) appendedToCollected).map (fun s =>
      (s.map.buckets 0, s.map.isDeleted 1, s.map.freed 1, s.map.orderHead)) =
        some (some 1, false, false, none) := by decide +kernel
  exact Option.map_eq_some_iff.mp hrun

end SharedMap

end ZetaNet
