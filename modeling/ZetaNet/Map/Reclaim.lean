import ZetaNet.Lib.Chain
import ZetaNet.Map.Concurrent

/-!
# What `collect_garbage` may free

A node is shared from the moment it is linked: it stands in a bucket, behind another node or in
the hands of a `remove`. The invariant says that the buckets lead through separate chains of
shared nodes, that a marked node which is still linked has a `remove` at work on it, and that
`allNodes` lists nodes that are there. A step breaks it where a `remove` gives up a node that is
still linked or writes a successor that is out of date, where `collect_garbage` comes between the
mark and the unlinking, and where an `insert` deletes the node it has put in `allNodes`.
-/

namespace ZetaNet

open Links

namespace MapPc

variable {K V : Type}

/-- The node that the thread has allocated and not linked. -/
def newNode : MapPc K V → Option Nat
  | .insert (.loadHead _ _ newNode) => newNode
  | .insert (.find _ _ newNode _) => newNode
  | .insert (.found newNode _) => newNode
  | .insert (.loadOldHead _ _ newNode) => some newNode
  | .insert (.storeBucketNext _ _ newNode _) => some newNode
  | .insert (.swapHead _ _ newNode _) => some newNode
  | _ => none

/-- The node is one that the thread goes on to mark, to unlink, to write to or to link. -/
def Holds : MapPc K V → Nat → Prop
  | .insert (.storeBucketNext _ _ _ oldHead), id => oldHead = some id
  | .remove (.find _ prev curr), id => prev = .next id ∨ curr = some id
  | .remove (.mark _ prev node), id => prev = .next id ∨ node = id
  | .remove (.loadPrev prev node), id => prev = .next id ∨ node = id
  | .remove (.loadNext prev node), id => prev = .next id ∨ node = id
  | .remove (.swapPrev prev node next), id => (prev = .next id ∨ node = id) ∨ next = some id
  | _, _ => False

/-- Before its compare-and-swap the new node is linked to the head that is expected. -/
def Ready (bucketNext : Nat → Option Nat) : MapPc K V → Prop
  | .insert (.swapHead _ _ newNode oldHead) => bucketNext newNode = oldHead
  | _ => True

/-- The marked node that the thread is in `try_unlink_bucket` with. -/
def unlinking : MapPc K V → Option Nat
  | .remove (.loadPrev _ node) => some node
  | .remove (.loadNext _ node) => some node
  | .remove (.swapPrev _ node _) => some node
  | _ => none

/-- The thread is in the locked part of `collect_garbage`. -/
def Collects : MapPc K V → Prop
  | .collect .lock => False
  | .collect _ => True
  | _ => False

/-- The two indices of the sweep are in order. -/
def Ordered : MapPc K V → Prop
  | .collect (.sweep writeIdx readIdx) => writeIdx ≤ readIdx
  | _ => True

/-- What is left of `nodes` when the thread is done with it: during the sweep the entries
between `write_idx` and `read_idx` are free to be written over. -/
def kept (nodes : List Nat) : MapPc K V → List Nat
  | .collect (.sweep writeIdx readIdx) => nodes.take writeIdx ++ nodes.drop readIdx
  | _ => nodes

theorem Ready.update {pc : MapPc K V} {bucketNext : Nat → Option Nat} {id : Nat}
    (h : pc.Ready bucketNext) (hid : pc.newNode ≠ some id) (value : Option Nat) :
    pc.Ready (Function.update bucketNext id value) := by
  cases pc with
  | insert pc =>
      cases pc with
      | swapHead key val newNode oldHead =>
          have hne : newNode ≠ id := fun heq => hid (congrArg some heq)
          exact (Function.update_of_ne hne ..).trans h
      | _ => trivial
  | _ => trivial

end MapPc

namespace SharedMap

/-! ## The parts of the invariant -/

section Parts

variable {K V : Type} {nextNode id t : Nat} {buckets bucketNext : Nat → Option Nat}
  {linked linked' : Nat → Prop} {isDeleted freed : Nat → Bool} {nodes : List Nat}
  {mutex : Option Nat} {pc : Nat → MapPc K V} {pc' : MapPc K V}

/-- The node was given out and is no thread's own. -/
def Shared (nextNode : Nat) (pc : Nat → MapPc K V) (id : Nat) : Prop :=
  id < nextNode ∧ ∀ t, (pc t).newNode ≠ some id

/-- Pointers lead to shared nodes, and each new node has one owner. -/
structure Sharing (nextNode : Nat) (buckets bucketNext : Nat → Option Nat)
    (pc : Nat → MapPc K V) : Prop where
  head : ∀ i id, buckets i = some id → Shared nextNode pc id
  next : ∀ p id, bucketNext p = some id → Shared nextNode pc id
  holds : ∀ t id, (pc t).Holds id → Shared nextNode pc id
  ready : ∀ t, (pc t).Ready bucketNext
  newNode_lt : ∀ t id, (pc t).newNode = some id → id < nextNode
  newNode_unique : ∀ t u id, (pc t).newNode = some id → (pc u).newNode = some id → t = u

/-- Nothing that is linked or going to be linked is freed, and what is both linked and marked is
being unlinked. -/
structure Reclaiming (nextNode : Nat) (linked : Nat → Prop) (isDeleted freed : Nat → Bool)
    (pc : Nat → MapPc K V) : Prop where
  marked : ∀ id, linked id → isDeleted id = true → ∃ t, (pc t).unlinking = some id
  linked_not_freed : ∀ id, linked id → freed id = false
  newNode_clean : ∀ t id, (pc t).newNode = some id → isDeleted id = false ∧ freed id = false
  unborn : ∀ id, nextNode ≤ id → freed id = false

/-- `nodes` are nodes that are there, each once, and only the owner of the mutex collects. -/
structure Tracking (nextNode : Nat) (freed : Nat → Bool) (nodes : List Nat)
    (mutex : Option Nat) (pc : Nat → MapPc K V) : Prop where
  lt : ∀ id ∈ nodes, id < nextNode
  nodup : nodes.Nodup
  not_freed : ∀ id ∈ nodes, freed id = false
  owner : ∀ t, (pc t).Collects → mutex = some t
  ordered : ∀ t, (pc t).Ordered

theorem Shared.update (h : Shared nextNode pc id) (hpc : pc'.newNode ≠ some id) :
    Shared nextNode (Function.update pc t pc') id :=
  ⟨h.1, (Function.forall_update_iff pc fun _ pc => pc.newNode ≠ some id).mpr
    ⟨hpc, fun u _ => h.2 u⟩⟩

/-- A node that its owner lets go of is shared. -/
theorem Sharing.shared_of_release (h : Sharing nextNode buckets bucketNext pc)
    (hid : (pc t).newNode = some id) (hpc : pc'.newNode = none) :
    Shared nextNode (Function.update pc t pc') id := by
  refine ⟨h.newNode_lt t id hid,
    (Function.forall_update_iff pc fun _ pc => pc.newNode ≠ some id).mpr ⟨?_, ?_⟩⟩
  · rw [hpc]
    exact (Option.some_ne_none id).symm
  · exact fun u hu hnew => hu (h.newNode_unique u t id hnew hid)

/-! ### Threads move -/

theorem Sharing.goto (h : Sharing nextNode buckets bucketNext pc)
    (hnew : ∀ id, pc'.newNode = some id → (pc t).newNode = some id)
    (hholds : ∀ id, pc'.Holds id → Shared nextNode pc id) (hready : pc'.Ready bucketNext) :
    Sharing nextNode buckets bucketNext (Function.update pc t pc') := by
  have hshared {id : Nat} (hid : Shared nextNode pc id) :
      Shared nextNode (Function.update pc t pc') id :=
    hid.update fun hpc => hid.2 t (hnew id hpc)
  -- who has a new node now had it before
  have hbefore (u : Nat) :
      ∀ id, (Function.update pc t pc' u).newNode = some id → (pc u).newNode = some id :=
    (Function.forall_update_iff pc fun u p =>
      ∀ id, p.newNode = some id → (pc u).newNode = some id).mpr ⟨hnew, fun _ _ _ h => h⟩ u
  exact {
    head := fun i id hi => hshared (h.head i id hi)
    next := fun p id hp => hshared (h.next p id hp)
    holds := (Function.forall_update_iff pc fun _ p =>
      ∀ id, p.Holds id → Shared nextNode (Function.update pc t pc') id).mpr
      ⟨fun id hid => hshared (hholds id hid), fun u _ id hid => hshared (h.holds u id hid)⟩
    ready := (Function.forall_update_iff pc fun _ p => p.Ready bucketNext).mpr
      ⟨hready, fun u _ => h.ready u⟩
    newNode_lt := fun u id hid => h.newNode_lt u id (hbefore u id hid)
    newNode_unique := fun u v id hu hv =>
      h.newNode_unique u v id (hbefore u id hu) (hbefore v id hv) }

theorem Reclaiming.goto (h : Reclaiming nextNode linked isDeleted freed pc)
    (hnew : ∀ id, pc'.newNode = some id → (pc t).newNode = some id)
    (hunlinking : ∀ id, (pc t).unlinking = some id → linked id →
      pc'.unlinking = some id ∨ ∃ u, u ≠ t ∧ (pc u).unlinking = some id) :
    Reclaiming nextNode linked isDeleted freed (Function.update pc t pc') where
  marked id hlinked hdeleted := by
    have hkeep {u : Nat} (hu : u ≠ t) (hid : (pc u).unlinking = some id) :
        ∃ u, (Function.update pc t pc' u).unlinking = some id := by
      refine ⟨u, ?_⟩
      rw [Function.update_of_ne hu]
      exact hid
    obtain ⟨u, hu⟩ := h.marked id hlinked hdeleted
    by_cases hut : u = t
    · subst hut
      rcases hunlinking id hu hlinked with hid | ⟨v, hv, hid⟩
      · refine ⟨u, ?_⟩
        rw [Function.update_self]
        exact hid
      · exact hkeep hv hid
    · exact hkeep hut hu
  linked_not_freed := h.linked_not_freed
  newNode_clean := (Function.forall_update_iff pc fun _ p =>
    ∀ id, p.newNode = some id → isDeleted id = false ∧ freed id = false).mpr
    ⟨fun id hid => h.newNode_clean t id (hnew id hid), fun u _ => h.newNode_clean u⟩
  unborn := h.unborn

theorem Tracking.goto (h : Tracking nextNode freed nodes mutex pc)
    (howner : pc'.Collects → mutex = some t) (hordered : pc'.Ordered) :
    Tracking nextNode freed nodes mutex (Function.update pc t pc') where
  lt := h.lt
  nodup := h.nodup
  not_freed := h.not_freed
  owner := (Function.forall_update_iff pc fun u p => p.Collects → mutex = some u).mpr
    ⟨howner, fun u _ => h.owner u⟩
  ordered := (Function.forall_update_iff pc fun _ p => p.Ordered).mpr
    ⟨hordered, fun u _ => h.ordered u⟩

/-! ### A node is allocated -/

theorem Shared.allocate (h : Shared nextNode pc id) (hnew : pc'.newNode = some nextNode) :
    Shared (nextNode + 1) (Function.update pc t pc') id := by
  have hne : pc'.newNode ≠ some id := by
    rw [hnew]
    exact fun heq => h.1.ne (Option.some.inj heq).symm
  exact ⟨Nat.lt_succ_of_lt h.1, (h.update hne).2⟩

theorem Sharing.allocate (h : Sharing nextNode buckets bucketNext pc)
    (hnew : pc'.newNode = some nextNode) (hholds : ∀ id, ¬ pc'.Holds id)
    (hready : ∀ bucketNext, pc'.Ready bucketNext) :
    Sharing (nextNode + 1) buckets (Function.update bucketNext nextNode none)
      (Function.update pc t pc') := by
  have hne {u id : Nat} (hid : (pc u).newNode = some id) : id ≠ nextNode :=
    (h.newNode_lt u id hid).ne
  exact {
    head := fun i id hi => (h.head i id hi).allocate hnew
    next := (Function.forall_update_iff bucketNext fun _ next =>
      ∀ id, next = some id → Shared (nextNode + 1) (Function.update pc t pc') id).mpr
      ⟨fun _ hid => (nomatch hid), fun p _ id hid => (h.next p id hid).allocate hnew⟩
    holds := (Function.forall_update_iff pc fun _ p =>
      ∀ id, p.Holds id → Shared (nextNode + 1) (Function.update pc t pc') id).mpr
      ⟨fun id hid => absurd hid (hholds id),
        fun u _ id hid => (h.holds u id hid).allocate hnew⟩
    ready := (Function.forall_update_iff pc fun _ p =>
      p.Ready (Function.update bucketNext nextNode none)).mpr
      ⟨hready _, fun u _ => (h.ready u).update (fun heq => hne heq rfl) none⟩
    newNode_lt := (Function.forall_update_iff pc fun _ p =>
      ∀ id, p.newNode = some id → id < nextNode + 1).mpr
      ⟨fun id hid => by
        obtain rfl := Option.some.inj (hnew.symm.trans hid)
        exact Nat.lt_succ_self _,
      fun u _ id hid => Nat.lt_succ_of_lt (h.newNode_lt u id hid)⟩
    -- two threads with one new node are one: the fresh id is nobody else's
    newNode_unique := fun u v id hu hv => by
      by_cases hut : u = t
      · subst hut
        rw [Function.update_self, hnew] at hu
        by_cases hvt : v = u
        · exact hvt.symm
        · rw [Function.update_of_ne hvt] at hv
          exact absurd (Option.some.inj hu).symm (hne hv)
      · rw [Function.update_of_ne hut] at hu
        by_cases hvt : v = t
        · subst hvt
          rw [Function.update_self, hnew] at hv
          exact absurd (Option.some.inj hv).symm (hne hu)
        · rw [Function.update_of_ne hvt] at hv
          exact h.newNode_unique u v id hu hv }

theorem Reclaiming.allocate (h : Reclaiming nextNode linked isDeleted freed pc)
    (hlinked : ∀ id, linked id → id < nextNode)
    (hlt : ∀ u id, (pc u).newNode = some id → id < nextNode)
    (hnew : pc'.newNode = some nextNode) (hunlinking : (pc t).unlinking = none) :
    Reclaiming (nextNode + 1) linked (Function.update isDeleted nextNode false) freed
      (Function.update pc t pc') where
  marked id hid hdeleted := by
    rw [Function.update_of_ne (hlinked id hid).ne] at hdeleted
    obtain ⟨u, hu⟩ := h.marked id hid hdeleted
    have hut : u ≠ t := by
      rintro rfl
      rw [hunlinking] at hu
      cases hu
    refine ⟨u, ?_⟩
    rw [Function.update_of_ne hut]
    exact hu
  linked_not_freed := h.linked_not_freed
  newNode_clean := (Function.forall_update_iff pc fun _ p => ∀ id, p.newNode = some id →
    Function.update isDeleted nextNode false id = false ∧ freed id = false).mpr
    ⟨fun id hid => by
      obtain rfl := Option.some.inj (hnew.symm.trans hid)
      exact ⟨Function.update_self .., h.unborn _ le_rfl⟩,
    fun u _ id hid =>
      ⟨(Function.update_of_ne (hlt u id hid).ne ..).trans (h.newNode_clean u id hid).1,
        (h.newNode_clean u id hid).2⟩⟩
  unborn id hid := h.unborn id (Nat.le_of_succ_le hid)

theorem Tracking.allocate (h : Tracking nextNode freed nodes mutex pc)
    (hfreed : freed nextNode = false) :
    Tracking (nextNode + 1) freed (nodes ++ [nextNode]) mutex pc where
  lt id hid := by
    rcases List.mem_append.mp hid with hid | hid
    · exact Nat.lt_succ_of_lt (h.lt id hid)
    · rw [List.mem_singleton.mp hid]
      exact Nat.lt_succ_self _
  nodup := by
    refine List.nodup_append.mpr ⟨h.nodup, List.nodup_singleton _, fun i hi j hj => ?_⟩
    rw [List.mem_singleton.mp hj]
    exact (h.lt i hi).ne
  not_freed id hid := by
    rcases List.mem_append.mp hid with hid | hid
    · exact h.not_freed id hid
    · rw [List.mem_singleton.mp hid]
      exact hfreed
  owner := h.owner
  ordered := h.ordered

/-! ### A node is freed -/

theorem Reclaiming.free (h : Reclaiming nextNode linked isDeleted freed pc) (hid : id < nextNode)
    (hlinked : ¬ linked id) (hdeleted : isDeleted id = true) :
    Reclaiming nextNode linked isDeleted (Function.update freed id true) pc := by
  have hsame {j : Nat} (hne : j ≠ id) : Function.update freed id true j = freed j :=
    Function.update_of_ne hne ..
  exact { h with
    linked_not_freed := fun j hj => by
      rw [hsame fun heq => hlinked (heq ▸ hj)]
      exact h.linked_not_freed j hj
    newNode_clean := fun t j hj => by
      obtain ⟨hclean, hfreed⟩ := h.newNode_clean t j hj
      have hne : j ≠ id := by
        rintro rfl
        rw [hclean] at hdeleted
        cases hdeleted
      exact ⟨hclean, (hsame hne).trans hfreed⟩
    unborn := fun j hj => by
      rw [hsame fun heq => absurd (heq ▸ hj) (Nat.not_le_of_lt hid)]
      exact h.unborn j hj }

theorem Tracking.free {front back : List Nat}
    (h : Tracking nextNode freed (front ++ id :: back) mutex pc) :
    Tracking nextNode (Function.update freed id true) (front ++ back) mutex pc := by
  have hsub : (front ++ back).Sublist (front ++ id :: back) :=
    List.Sublist.append_left (List.sublist_cons_self id back) front
  have hid : id ∉ front ++ back := by
    have hnodup := (List.perm_middle.nodup_iff).mp h.nodup
    exact (List.nodup_cons.mp hnodup).1
  exact { h with
    lt := fun j hj => h.lt j (hsub.subset hj)
    nodup := h.nodup.sublist hsub
    not_freed := fun j hj => by
      have hne : j ≠ id := by
        rintro rfl
        exact hid hj
      rw [Function.update_of_ne hne]
      exact h.not_freed j (hsub.subset hj) }

end Parts

/-! ## The invariant -/

section Invariant

/-- A bucket head leads to the node through `bucketNext`. -/
def Linked {K V : Type} (s : SharedMap K V) (id : Nat) : Prop :=
  Links.Linked s.map.bucketNext s.map.buckets id

variable {K V : Type} {s s' : SharedMap K V} {t id : Nat} {pc pc' : MapPc K V}
  {link prev : BucketLink} {value : Option Nat}

/-- What `allNodes` lists to the thread that has the mutex or may get it. -/
def tracked (s : SharedMap K V) : List Nat :=
  match s.allNodesMutex with
  | none => s.map.allNodes
  | some t => (s.pc t).kept s.map.allNodes

theorem tracked_of_free (h : s.allNodesMutex = none) : s.tracked = s.map.allNodes := by
  unfold tracked
  rw [h]

theorem tracked_of_owner (h : s.allNodesMutex = some t) :
    s.tracked = (s.pc t).kept s.map.allNodes := by
  unfold tracked
  rw [h]

/-- Nothing that is freed is linked or tracked. -/
def Reclaimed (s : SharedMap K V) : Prop :=
  (∀ index id, Reaches s.map.bucketNext (s.map.buckets index) id → s.map.freed id = false) ∧
    ∀ id ∈ s.tracked, s.map.freed id = false

/-- The invariant. -/
structure Ok (s : SharedMap K V) : Prop where
  chains : ∃ cells, Chains s.map.bucketNext s.map.buckets cells
  sharing : Sharing s.map.nextNode s.map.buckets s.map.bucketNext s.pc
  reclaiming : Reclaiming s.map.nextNode s.Linked s.map.isDeleted s.map.freed s.pc
  tracking : Tracking s.map.nextNode s.map.freed s.tracked s.allNodesMutex s.pc

theorem Ok.reclaimed (h : s.Ok) : s.Reclaimed :=
  ⟨fun index id hid => h.reclaiming.linked_not_freed id ⟨index, hid⟩, h.tracking.not_freed⟩

theorem ok_init (K V : Type) (count : Nat) : (init K V count).Ok := by
  have hnothing (id : Nat) : ¬ (init K V count).Linked id := by
    rintro ⟨index, hreach⟩
    cases hreach
  exact {
    chains := ⟨fun _ => [], fun _ => rfl, fun _ _ _ h => absurd h List.not_mem_nil⟩
    sharing := {
      head := fun _ _ h => nomatch h
      next := fun _ _ h => nomatch h
      holds := fun _ _ h => h.elim
      ready := fun _ => trivial
      newNode_lt := fun _ _ h => nomatch h
      newNode_unique := fun _ _ _ h => nomatch h }
    reclaiming := {
      marked := fun id h => absurd h (hnothing id)
      linked_not_freed := fun _ _ => rfl
      newNode_clean := fun _ _ h => nomatch h
      unborn := fun _ _ => rfl }
    tracking := {
      lt := fun _ h => absurd h List.not_mem_nil
      nodup := List.nodup_nil
      not_freed := fun _ _ => rfl
      owner := fun _ h => h.elim
      ordered := fun _ => trivial } }

theorem Ok.shared_of_linked (h : s.Ok) (hid : s.Linked id) : Shared s.map.nextNode s.pc id := by
  obtain ⟨index, hreach⟩ := hid
  rcases hreach.head_or_next with hhead | ⟨p, hnext⟩
  · exact h.sharing.head index id hhead
  · exact h.sharing.next p id hnext

/-- Where a link stands that holds a linked node: in a bucket or in a linked node. -/
def InPlace (prev : BucketLink) (node : Nat) (s : SharedMap K V) : Prop :=
  s.map.linkValue prev = some node ∧ ∀ id, prev = .next id → s.Linked id

/-- Another thread than `t` is in `try_unlink_bucket` with the node. -/
def Helped (t node : Nat) (s : SharedMap K V) : Prop :=
  ∃ u, u ≠ t ∧ (s.pc u).unlinking = some node

/-! ### Steps that leave the nodes as they are -/

/-- A move of thread `t` from `pc` to `pc'` that the invariant allows. -/
structure Quiet (s : SharedMap K V) (t : Nat) (pc pc' : MapPc K V) : Prop where
  newNode : ∀ id, pc'.newNode = some id → pc.newNode = some id
  holds : ∀ id, pc'.Holds id → Shared s.map.nextNode s.pc id
  ready : pc'.Ready s.map.bucketNext
  unlinking : ∀ id, pc.unlinking = some id → s.Linked id →
    pc'.unlinking = some id ∨ s.Helped t id
  collects : pc'.Collects → pc.Collects
  kept : ∀ nodes, pc'.kept nodes = pc.kept nodes
  ordered : pc'.Ordered

theorem tracked_goto (hkept : ∀ nodes, pc'.kept nodes = (s.pc t).kept nodes) :
    (s.goto t pc').tracked = s.tracked := by
  unfold tracked goto
  cases s.allNodesMutex with
  | none => rfl
  | some u =>
      show (Function.update s.pc t pc' u).kept s.map.allNodes = (s.pc u).kept s.map.allNodes
      by_cases hu : u = t
      · subst hu
        rw [Function.update_self]
        exact hkept _
      · rw [Function.update_of_ne hu]

theorem Ok.goto (h : s.Ok) (hpc : s.pc t = pc) (hquiet : s.Quiet t pc pc') :
    (s.goto t pc').Ok := by
  subst hpc
  refine ⟨h.chains, h.sharing.goto hquiet.newNode hquiet.holds hquiet.ready,
    h.reclaiming.goto hquiet.newNode hquiet.unlinking, ?_⟩
  rw [tracked_goto hquiet.kept]
  exact h.tracking.goto (fun hc => h.tracking.owner t (hquiet.collects hc)) hquiet.ordered

/-- The order chain has no part in the invariant. -/
theorem Ok.writeOrder (h : s.Ok) (orderNext : Nat → Option Nat) (orderHead orderTail : Option Nat) :
    (s.write { s.map with
      orderNext := orderNext, orderHead := orderHead, orderTail := orderTail }).Ok :=
  ⟨h.chains, h.sharing, h.reclaiming, h.tracking⟩

/-! ### Links -/

/-- A shared node or nothing is stored to a link. What gets linked by it is neither marked nor
freed. -/
theorem Ok.storeLink (h : s.Ok)
    (hchains : ∃ cells, Chains (s.map.storeLink link value).bucketNext
      (s.map.storeLink link value).buckets cells)
    (hlinked : ∀ id, (s.write (s.map.storeLink link value)).Linked id →
      s.Linked id ∨ s.map.isDeleted id = false ∧ s.map.freed id = false)
    (hvalue : ∀ id, value = some id → Shared s.map.nextNode s.pc id)
    (hready : ∀ t, (s.pc t).Ready (s.map.storeLink link value).bucketNext) :
    (s.write (s.map.storeLink link value)).Ok := by
  have hsharing : Sharing s.map.nextNode (s.map.storeLink link value).buckets
      (s.map.storeLink link value).bucketNext s.pc := by
    cases link with
    | bucket index =>
        exact { h.sharing with
          head := (Function.forall_update_iff s.map.buckets fun _ head =>
            ∀ id, head = some id → Shared s.map.nextNode s.pc id).mpr
            ⟨hvalue, fun i _ => h.sharing.head i⟩ }
    | next p =>
        exact { h.sharing with
          next := (Function.forall_update_iff s.map.bucketNext fun _ next =>
            ∀ id, next = some id → Shared s.map.nextNode s.pc id).mpr
            ⟨hvalue, fun i _ => h.sharing.next i⟩
          ready := hready }
  -- a marked node is not linked anew
  have hmarked (id : Nat) (hid : (s.write (s.map.storeLink link value)).Linked id)
      (hdeleted : s.map.isDeleted id = true) : s.Linked id := by
    rcases hlinked id hid with hid | ⟨hclean, -⟩
    · exact hid
    · rw [hclean] at hdeleted
      cases hdeleted
  have hnotFreed (id : Nat) (hid : (s.write (s.map.storeLink link value)).Linked id) :
      s.map.freed id = false := by
    rcases hlinked id hid with hid | ⟨-, hclean⟩
    · exact h.reclaiming.linked_not_freed id hid
    · exact hclean
  cases link with
  | _ =>
      exact {
        chains := hchains
        sharing := hsharing
        reclaiming := { h.reclaiming with
          marked := fun id hid hdeleted =>
            h.reclaiming.marked id (hmarked id hid hdeleted) hdeleted
          linked_not_freed := hnotFreed }
        tracking := h.tracking }

/-- The link of a node that is not linked may change. -/
theorem Ok.storeUnlinked {p : Nat} (h : s.Ok) (hp : ¬ s.Linked p)
    (hvalue : ∀ id, value = some id → Shared s.map.nextNode s.pc id)
    (hready : ∀ t, (s.pc t).Ready (Function.update s.map.bucketNext p value)) :
    (s.write (s.map.storeLink (.next p) value)).Ok ∧
      ∀ id, (s.write (s.map.storeLink (.next p) value)).Linked id ↔ s.Linked id := by
  obtain ⟨cells, hcells⟩ := h.chains
  have hlinked (id : Nat) :
      (s.write (s.map.storeLink (.next p) value)).Linked id ↔ s.Linked id :=
    hcells.linked_update hp value
  exact ⟨h.storeLink ⟨cells, hcells.update hp value⟩ (fun id hid => Or.inl ((hlinked id).mp hid))
    hvalue hready, hlinked⟩

/-- A node that is let go of is put at the head of a bucket. -/
theorem Ok.push {index : Nat} (h : s.Ok) (hid : Shared s.map.nextNode s.pc id)
    (hlinked : ¬ s.Linked id) (hdeleted : s.map.isDeleted id = false)
    (hfreed : s.map.freed id = false) (hnext : s.map.bucketNext id = s.map.buckets index) :
    (s.write (s.map.storeLink (.bucket index) (some id))).Ok := by
  obtain ⟨cells, hcells⟩ := h.chains
  refine h.storeLink ⟨_, hcells.push hlinked hnext⟩ ?_ ?_ h.sharing.ready
  · intro j hj
    rcases (hcells.linked_push hlinked hnext).mp hj with rfl | hj
    · exact Or.inr ⟨hdeleted, hfreed⟩
    · exact Or.inl hj
  · rintro j hj
    obtain rfl := Option.some.inj hj
    exact hid

theorem InPlace.linked {node : Nat} (h : s.InPlace prev node) : s.Linked node := by
  obtain ⟨hvalue, hplace⟩ := h
  cases prev with
  | bucket index =>
      refine ⟨index, ?_⟩
      have hhead : s.map.buckets index = some node := hvalue
      rw [hhead]
      exact Reaches.here node
  | next p =>
      obtain ⟨index, hreach⟩ := hplace p rfl
      exact ⟨index, hreach.step hvalue⟩

/-- The node behind a link in place is taken out. -/
theorem Ok.unlink {node : Nat} (h : s.Ok) (hplace : s.InPlace prev node) :
    (s.write (s.map.storeLink prev (s.map.bucketNext node))).Ok ∧
      ¬ (s.write (s.map.storeLink prev (s.map.bucketNext node))).Linked node := by
  obtain ⟨cells, hcells⟩ := h.chains
  obtain ⟨hvalue, hprev⟩ := hplace
  have herase : (∃ cells', Chains (s.map.storeLink prev (s.map.bucketNext node)).bucketNext
      (s.map.storeLink prev (s.map.bucketNext node)).buckets cells') ∧
      ∀ id, (s.write (s.map.storeLink prev (s.map.bucketNext node))).Linked id ↔
        s.Linked id ∧ id ≠ node := by
    cases prev with
    | bucket index =>
        obtain ⟨cells', hcells', hlinked⟩ := hcells.unlink_head hvalue
        exact ⟨⟨cells', hcells'⟩, hlinked⟩
    | next p =>
        obtain ⟨cells', hcells', hlinked⟩ := hcells.unlink_next (hprev p rfl) hvalue
        exact ⟨⟨cells', hcells'⟩, hlinked⟩
  have hready (t : Nat) :
      (s.pc t).Ready (s.map.storeLink prev (s.map.bucketNext node)).bucketNext := by
    cases prev with
    | bucket index => exact h.sharing.ready t
    | next p => exact (h.sharing.ready t).update ((h.shared_of_linked (hprev p rfl)).2 t) _
  refine ⟨h.storeLink herase.1 (fun id hid => Or.inl ((herase.2 id).mp hid).1)
    (h.sharing.next node) hready, fun hnode => ?_⟩
  exact ((herase.2 node).mp hnode).2 rfl

/-! ### Nodes -/

/-- A remove at work on a node may mark it. -/
theorem Ok.mark (h : s.Ok) (hid : Shared s.map.nextNode s.pc id)
    (hunlinking : ∃ t, (s.pc t).unlinking = some id) :
    (s.write { s.map with isDeleted := Function.update s.map.isDeleted id true }).Ok where
  chains := h.chains
  sharing := h.sharing
  reclaiming := { h.reclaiming with
    marked := fun j hj hdeleted => by
      by_cases hne : j = id
      · rw [hne]
        exact hunlinking
      · have hsame : Function.update s.map.isDeleted id true j = s.map.isDeleted j :=
          Function.update_of_ne hne ..
        exact h.reclaiming.marked j hj (hsame ▸ hdeleted)
    newNode_clean := fun t j hj => by
      have hne : j ≠ id := by
        rintro rfl
        exact hid.2 t hj
      have hsame : Function.update s.map.isDeleted id true j = s.map.isDeleted j :=
        Function.update_of_ne hne ..
      exact ⟨hsame.trans (h.reclaiming.newNode_clean t j hj).1,
        (h.reclaiming.newNode_clean t j hj).2⟩ }
  tracking := h.tracking

theorem Ok.allocate (h : s.Ok) {key : K} {val : V} (hpc : s.pc t = .insert (.allocate key val))
    (hmutex : s.allNodesMutex = none) :
    ((s.write (s.map.newNode key val).2).goto t
      (.insert (.loadOldHead key val s.map.nextNode))).Ok := by
  have hunborn : ¬ s.Linked s.map.nextNode :=
    fun hlinked => (h.shared_of_linked hlinked).1.ne rfl
  obtain ⟨cells, hcells⟩ := h.chains
  have hlinked : ((s.write (s.map.newNode key val).2).goto t
      (.insert (.loadOldHead key val s.map.nextNode))).Linked = s.Linked :=
    funext fun id => propext (hcells.linked_update hunborn none)
  refine ⟨⟨cells, hcells.update hunborn none⟩,
    h.sharing.allocate rfl (fun _ hid => hid) fun _ => trivial, ?_, ?_⟩
  · rw [hlinked]
    exact h.reclaiming.allocate (fun id hid => (h.shared_of_linked hid).1) h.sharing.newNode_lt
      rfl (by rw [hpc]; rfl)
  · have htracking := h.tracking
    have htracked : ((s.write (s.map.newNode key val).2).goto t
        (.insert (.loadOldHead key val s.map.nextNode))).tracked =
          s.map.allNodes ++ [s.map.nextNode] := tracked_of_free hmutex
    rw [tracked_of_free hmutex] at htracking
    rw [htracked]
    exact (htracking.allocate (h.reclaiming.unborn _ le_rfl)).goto (fun hc => hc.elim) trivial

/-! ### The mutex -/

theorem tracked_goto_of_owner (h : s.allNodesMutex = some t) :
    (s.goto t pc').tracked = pc'.kept s.map.allNodes := by
  have htracked := tracked_of_owner (s := s.goto t pc') h
  rw [htracked]
  exact congrArg (fun pc => pc.kept s.map.allNodes) (Function.update_self t pc' s.pc)

theorem Ok.lock (h : s.Ok) (hpc : s.pc t = .collect .lock) (hmutex : s.allNodesMutex = none) :
    ({ s with allNodesMutex := some t }.goto t (.collect .loadOrderHead)).Ok := by
  have hnobody (u : Nat) : ¬ (s.pc u).Collects := by
    intro hu
    have howner := h.tracking.owner u hu
    rw [hmutex] at howner
    cases howner
  have htracking := h.tracking
  rw [tracked_of_free hmutex] at htracking
  have hlocked : Tracking s.map.nextNode s.map.freed s.map.allNodes (some t) s.pc :=
    { htracking with owner := fun u hu => absurd hu (hnobody u) }
  refine ⟨h.chains, h.sharing.goto (fun _ hid => (nomatch hid)) (fun _ hid => hid.elim) trivial,
    h.reclaiming.goto (fun _ hid => (nomatch hid)) ?_, ?_⟩
  · intro id hid
    rw [hpc] at hid
    cases hid
  · rw [tracked_goto_of_owner]
    · exact hlocked.goto (fun _ => rfl) trivial
    · rfl

/-! ### The sweep -/

section Sweep

variable {writeIdx readIdx : Nat}

theorem Ok.owner_sweep (h : s.Ok) (hpc : s.pc t = .collect (.sweep writeIdx readIdx)) :
    s.allNodesMutex = some t := by
  refine h.tracking.owner t ?_
  rw [hpc]
  trivial

theorem Ok.tracked_sweep (h : s.Ok) (hpc : s.pc t = .collect (.sweep writeIdx readIdx)) :
    s.tracked = s.map.allNodes.take writeIdx ++ s.map.allNodes.drop readIdx := by
  rw [tracked_of_owner (h.owner_sweep hpc), hpc]
  rfl

theorem Ok.sweep_le (h : s.Ok) (hpc : s.pc t = .collect (.sweep writeIdx readIdx)) :
    writeIdx ≤ readIdx := by
  have hordered := h.tracking.ordered t
  rw [hpc] at hordered
  exact hordered

theorem drop_of_getElem? {nodes : List Nat} (hid : nodes[readIdx]? = some id) :
    nodes.drop readIdx = id :: nodes.drop (readIdx + 1) := by
  obtain ⟨hlt, rfl⟩ := List.getElem?_eq_some_iff.mp hid
  exact List.drop_eq_getElem_cons hlt

/-- A node that is not linked is freed and its entry skipped. -/
theorem Ok.sweepFree (h : s.Ok) (hpc : s.pc t = .collect (.sweep writeIdx readIdx))
    (hid : s.map.allNodes[readIdx]? = some id) (hdeleted : s.map.isDeleted id = true)
    (hlinked : ¬ s.Linked id) :
    ((s.write { s.map with freed := Function.update s.map.freed id true }).goto t
      (.collect (.sweep writeIdx (readIdx + 1)))).Ok := by
  have howner := h.owner_sweep hpc
  have htracking := h.tracking
  rw [h.tracked_sweep hpc, drop_of_getElem? hid] at htracking
  have hlt : id < s.map.nextNode :=
    htracking.lt id (List.mem_append_right _ List.mem_cons_self)
  refine ⟨h.chains, h.sharing.goto (fun _ hid => (nomatch hid)) (fun _ hid => hid.elim) trivial,
    (h.reclaiming.free hlt hlinked hdeleted).goto (fun _ hid => (nomatch hid)) ?_, ?_⟩
  · intro id hid
    rw [hpc] at hid
    cases hid
  · rw [tracked_goto_of_owner]
    · exact htracking.free.goto (fun _ => howner)
        (Nat.le_succ_of_le (h.sweep_le hpc) : writeIdx ≤ readIdx + 1)
    · exact howner

/-- The entry of a node that stays moves to the front. -/
theorem compact {nodes : List Nat} (hle : writeIdx ≤ readIdx)
    (hid : nodes[readIdx]? = some id) :
    (nodes.set writeIdx id).take (writeIdx + 1) ++ (nodes.set writeIdx id).drop (readIdx + 1) =
      nodes.take writeIdx ++ nodes.drop readIdx := by
  have hlt : writeIdx < nodes.length :=
    Nat.lt_of_le_of_lt hle (List.getElem?_eq_some_iff.mp hid).1
  rw [List.take_add_one, List.take_set_of_le le_rfl, List.getElem?_set_self hlt,
    List.drop_set_of_lt (Nat.lt_succ_of_le hle), drop_of_getElem? hid, List.append_assoc]
  rfl

theorem Ok.sweepKeep (h : s.Ok) (hpc : s.pc t = .collect (.sweep writeIdx readIdx))
    (hid : s.map.allNodes[readIdx]? = some id) :
    ((s.write { s.map with allNodes := s.map.allNodes.set writeIdx id }).goto t
      (.collect (.sweep (writeIdx + 1) (readIdx + 1)))).Ok := by
  have howner := h.owner_sweep hpc
  have htracking := h.tracking
  rw [h.tracked_sweep hpc, ← compact (h.sweep_le hpc) hid] at htracking
  refine ⟨h.chains, h.sharing.goto (fun _ hid => (nomatch hid)) (fun _ hid => hid.elim) trivial,
    h.reclaiming.goto (fun _ hid => (nomatch hid)) ?_, ?_⟩
  · intro id hid
    rw [hpc] at hid
    cases hid
  · rw [tracked_goto_of_owner]
    · exact htracking.goto (fun _ => howner)
        (Nat.succ_le_succ (h.sweep_le hpc) : writeIdx + 1 ≤ readIdx + 1)
    · exact howner

theorem Ok.sweepEnd (h : s.Ok) (hpc : s.pc t = .collect (.sweep writeIdx readIdx))
    (hend : s.map.allNodes[readIdx]? = none) :
    (({ s with allNodesMutex := none }.write
      { s.map with allNodes := s.map.allNodes.take writeIdx }).goto t .idle).Ok := by
  have howner := h.owner_sweep hpc
  have htracking := h.tracking
  rw [h.tracked_sweep hpc, List.drop_eq_nil_of_le (List.getElem?_eq_none_iff.mp hend),
    List.append_nil] at htracking
  have hmoved : Tracking s.map.nextNode s.map.freed (s.map.allNodes.take writeIdx)
      s.allNodesMutex (Function.update s.pc t .idle) :=
    htracking.goto (fun hc => hc.elim) trivial
  refine ⟨h.chains, h.sharing.goto (fun _ hid => (nomatch hid)) (fun _ hid => hid.elim) trivial,
    h.reclaiming.goto (fun _ hid => (nomatch hid)) ?_, { hmoved with owner := ?_ }⟩
  · intro id hid
    rw [hpc] at hid
    cases hid
  · -- the owner of the mutex was the only one that collected
    refine (Function.forall_update_iff s.pc fun u pc => pc.Collects → none = some u).mpr
      ⟨fun hc => hc.elim, fun u hu hc => ?_⟩
    have hother := h.tracking.owner u hc
    rw [howner] at hother
    exact absurd (Option.some.inj hother).symm hu

end Sweep

end Invariant

end SharedMap

end ZetaNet
