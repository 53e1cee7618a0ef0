import ZetaNet.Lib.Machine
import ZetaNet.Map.Ordered

/-!
# `LockFreeOrderedHashMap` under many threads

`insert`, `remove` and `collect_garbage` cut into steps of at most one atomic load, store or
compare-and-swap each, run by any number of threads in any order. Memory is sequentially
consistent. A weak compare-and-swap may fail for no reason; the event of the step says whether
it does. `delete` marks a node as freed and leaves what is in it, so that a thread that still
holds the pointer reads on.
-/

namespace ZetaNet

/-! ## Where a thread stands -/

/-- Phase 1 of `insert_internal`; `newNode` is what was allocated in an earlier round. -/
inductive InsertPc (K V : Type)
  /-- `find_in_bucket` is about to read the head of the bucket -/
  | loadHead (key : K) (value : V) (newNode : Option Nat)
  /-- the loop of `find_in_bucket` -/
  | find (key : K) (value : V) (newNode curr : Option Nat)
  | found (newNode : Option Nat) (existingNode : Nat)
  | allocate (key : K) (value : V)
  | loadOldHead (key : K) (value : V) (newNode : Nat)
  | storeBucketNext (key : K) (value : V) (newNode : Nat) (oldHead : Option Nat)
  | swapHead (key : K) (value : V) (newNode : Nat) (oldHead : Option Nat)

/-- Phase 2 of `insert_internal`. -/
inductive OrderPc
  | storeOrderNext (newNode : Nat)
  | loadTail (newNode : Nat) (expectedTail : Option Nat)
  | swapOrderHead (newNode : Nat) (expectedTail : Option Nat)
  | swapFirstTail (newNode : Nat) (expectedTail : Option Nat)
  | loadOrderNext (newNode currentTail : Nat)
  | checkTail (newNode currentTail : Nat) (currentTailOrderNext : Option Nat)
  | helpTail (newNode currentTail next : Nat)
  | swapOrderNext (newNode currentTail : Nat)
  | swapTail (newNode currentTail : Nat)

/-- `remove`, and `try_unlink_bucket` at its end. -/
inductive RemovePc (K : Type)
  | loadHead (key : K)
  | find (key : K) (prevBucketNextPtr : BucketLink) (curr : Option Nat)
  | mark (key : K) (prevBucketNextPtr : BucketLink) (nodeToRemove : Nat)
  | loadPrev (prevBucketNextPtr : BucketLink) (node : Nat)
  | loadNext (prevBucketNextPtr : BucketLink) (node : Nat)
  | swapPrev (prevBucketNextPtr : BucketLink) (node : Nat) (next : Option Nat)

/-- `collect_garbage`. -/
inductive CollectPc
  | lock
  | loadOrderHead
  | loadOrderNext (prev curr : Option Nat)
  | testDeleted (prev : Option Nat) (curr : Nat) (next : Option Nat)
  | unlinkOrder (prev : Option Nat) (curr : Nat) (next : Option Nat)
  | swapTail (prev : Option Nat) (curr : Nat) (next : Option Nat)
  | sweep (writeIdx readIdx : Nat)

/-- Where a thread stands. -/
inductive MapPc (K V : Type)
  | idle
  | insert (pc : InsertPc K V)
  | order (pc : OrderPc)
  | remove (pc : RemovePc K)
  | collect (pc : CollectPc)

/-- The map, the thread that holds `allNodesMutex`, and where the threads stand. -/
structure SharedMap (K V : Type) where
  map : LockFreeOrderedHashMap K V
  allNodesMutex : Option Nat
  pc : Nat → MapPc K V

/-- An operation that a thread calls. -/
inductive ThreadCall (K V : Type)
  | insert (key : K) (value : V)
  | remove (key : K)
  | collectGarbage

/-- A thread calls an operation, or takes the next step of the one it is in. `spurious` makes a
weak compare-and-swap fail. -/
inductive ThreadEvent (K V : Type)
  | call (thread : Nat) (operation : ThreadCall K V)
  | step (thread : Nat) (spurious : Bool)

/-- The thread that acts. -/
def ThreadEvent.thread {K V : Type} : ThreadEvent K V → Nat
  | .call t _ => t
  | .step t _ => t

namespace LockFreeOrderedHashMap

variable {K V : Type}

/-- What a link holds. -/
def linkValue (link : BucketLink) (map : LockFreeOrderedHashMap K V) : Option Nat :=
  match link with
  | .bucket index => map.buckets index
  | .next id => map.bucketNext id

/-- The node has the key. -/
def HasKey (key : K) (id : Nat) (map : LockFreeOrderedHashMap K V) : Prop :=
  (map.keyValue id).map Prod.fst = some key

instance [DecidableEq K] (key : K) (id : Nat) (map : LockFreeOrderedHashMap K V) :
    Decidable (map.HasKey key id) :=
  inferInstanceAs (Decidable (_ = _))

end LockFreeOrderedHashMap

namespace SharedMap

variable {K V : Type}

def init (K V : Type) (count : Nat) : SharedMap K V :=
  ⟨.init K V count, none, fun _ => .idle⟩

/-- Thread `t` gets to `pc`. -/
def goto (t : Nat) (pc : MapPc K V) (s : SharedMap K V) : SharedMap K V :=
  { s with pc := Function.update s.pc t pc }

/-- The map changes. -/
def write (map : LockFreeOrderedHashMap K V) (s : SharedMap K V) : SharedMap K V :=
  { s with map := map }

/-- `operation` begins. -/
def begin (operation : ThreadCall K V) : MapPc K V :=
  match operation with
  | .insert key value => .insert (.loadHead key value none)
  | .remove key => .remove (.loadHead key)
  | .collectGarbage => .collect .lock

section Steps

variable [DecidableEq K] (hash : K → Nat) (t : Nat) (spurious : Bool)

/-- A step of phase 1 of `insert_internal`. -/
def stepInsert (pc : InsertPc K V) (s : SharedMap K V) : Option (SharedMap K V) :=
  match pc with
  | .loadHead key value newNode =>
      some (s.goto t (.insert (.find key value newNode
        (s.map.buckets (s.map.hashKey hash key)))))
  | .find key value newNode (some curr) =>
      if s.map.HasKey key curr then some (s.goto t (.insert (.found newNode curr)))
      else some (s.goto t (.insert (.find key value newNode (s.map.bucketNext curr))))
  | .find key value none none => some (s.goto t (.insert (.allocate key value)))
  | .find key value (some newNode) none =>
      some (s.goto t (.insert (.loadOldHead key value newNode)))
  | .found none _ => some (s.goto t .idle)
  | .found (some newNode) _ =>
      -- whether the existing node is deleted or not, the new one goes and the answer is no
      some ((s.write { s.map with freed := Function.update s.map.freed newNode true }).goto t
        .idle)
  | .allocate key value =>
      -- the mutex is taken, the node tracked and the mutex released
      if s.allNodesMutex = none then
        let (newNode, map) := s.map.newNode key value
        some ((s.write map).goto t (.insert (.loadOldHead key value newNode)))
      else none
  | .loadOldHead key value newNode =>
      some (s.goto t (.insert (.storeBucketNext key value newNode
        (s.map.buckets (s.map.hashKey hash key)))))
  | .storeBucketNext key value newNode oldHead =>
      some ((s.write (s.map.storeLink (.next newNode) oldHead)).goto t
        (.insert (.swapHead key value newNode oldHead)))
  | .swapHead key value newNode oldHead =>
      let index := s.map.hashKey hash key
      if s.map.buckets index = oldHead ∧ spurious = false then
        some ((s.write (s.map.storeLink (.bucket index) (some newNode))).goto t
          (.order (.storeOrderNext newNode)))
      else some (s.goto t (.insert (.loadHead key value (some newNode))))

/-- A step of phase 2 of `insert_internal`. -/
def stepOrder (pc : OrderPc) (s : SharedMap K V) : SharedMap K V :=
  match pc with
  | .storeOrderNext newNode =>
      (s.write { s.map with orderNext := Function.update s.map.orderNext newNode none }).goto t
        (.order (.loadTail newNode none))
  | .loadTail newNode expectedTail =>
      match s.map.orderTail with
      | none => s.goto t (.order (.swapOrderHead newNode expectedTail))
      | some currentTail => s.goto t (.order (.loadOrderNext newNode currentTail))
  | .swapOrderHead newNode expectedTail =>
      if s.map.orderHead = expectedTail ∧ spurious = false then
        (s.write { s.map with orderHead := some newNode }).goto t
          (.order (.swapFirstTail newNode expectedTail))
      else s.goto t (.order (.loadTail newNode none))
  | .swapFirstTail newNode expectedTail =>
      if s.map.orderTail = expectedTail then
        (s.write { s.map with orderTail := some newNode }).goto t .idle
      else s.goto t .idle
  | .loadOrderNext newNode currentTail =>
      s.goto t (.order (.checkTail newNode currentTail (s.map.orderNext currentTail)))
  | .checkTail newNode currentTail currentTailOrderNext =>
      -- `expected_tail` is the tail of this round from here on, also in the next one
      if s.map.orderTail = some currentTail then
        match currentTailOrderNext with
        | some next => s.goto t (.order (.helpTail newNode currentTail next))
        | none => s.goto t (.order (.swapOrderNext newNode currentTail))
      else s.goto t (.order (.loadTail newNode (some currentTail)))
  | .helpTail newNode currentTail next =>
      if s.map.orderTail = some currentTail ∧ spurious = false then
        (s.write { s.map with orderTail := some next }).goto t
          (.order (.loadTail newNode (some currentTail)))
      else s.goto t (.order (.loadTail newNode (some currentTail)))
  | .swapOrderNext newNode currentTail =>
      if s.map.orderNext currentTail = none ∧ spurious = false then
        (s.write { s.map with
          orderNext := Function.update s.map.orderNext currentTail (some newNode) }).goto t
          (.order (.swapTail newNode currentTail))
      else s.goto t (.order (.loadTail newNode (some currentTail)))
  | .swapTail newNode currentTail =>
      if s.map.orderTail = some currentTail then
        (s.write { s.map with orderTail := some newNode }).goto t .idle
      else s.goto t .idle

/-- A step of `remove`. -/
def stepRemove (pc : RemovePc K) (s : SharedMap K V) : SharedMap K V :=
  match pc with
  | .loadHead key =>
      let index := s.map.hashKey hash key
      s.goto t (.remove (.find key (.bucket index) (s.map.buckets index)))
  | .find _ _ none => s.goto t .idle
  | .find key prev (some curr) =>
      if s.map.HasKey key curr then s.goto t (.remove (.mark key prev curr))
      else s.goto t (.remove (.find key (.next curr) (s.map.bucketNext curr)))
  | .mark key prev node =>
      -- marked by another thread, the node is unlinked all the same
      if s.map.isDeleted node then s.goto t (.remove (.loadPrev prev node))
      else if spurious then s.goto t (.remove (.loadHead key))
      else
        (s.write { s.map with isDeleted := Function.update s.map.isDeleted node true }).goto t
          (.remove (.loadPrev prev node))
  | .loadPrev prev node =>
      if s.map.linkValue prev = some node then s.goto t (.remove (.loadNext prev node))
      else s.goto t .idle
  | .loadNext prev node => s.goto t (.remove (.swapPrev prev node (s.map.bucketNext node)))
  | .swapPrev prev node next =>
      if s.map.linkValue prev = some node then
        (s.write (s.map.storeLink prev next)).goto t .idle
      else s.goto t .idle

/-- A step of `collect_garbage`. -/
def stepCollect (pc : CollectPc) (s : SharedMap K V) : Option (SharedMap K V) :=
  match pc with
  | .lock =>
      if s.allNodesMutex = none then
        some ({ s with allNodesMutex := some t }.goto t (.collect .loadOrderHead))
      else none
  | .loadOrderHead => some (s.goto t (.collect (.loadOrderNext none s.map.orderHead)))
  | .loadOrderNext _ none => some (s.goto t (.collect (.sweep 0 0)))
  | .loadOrderNext prev (some curr) =>
      some (s.goto t (.collect (.testDeleted prev curr (s.map.orderNext curr))))
  | .testDeleted prev curr next =>
      if s.map.isDeleted curr then some (s.goto t (.collect (.unlinkOrder prev curr next)))
      else some (s.goto t (.collect (.loadOrderNext (some curr) next)))
  | .unlinkOrder prev curr next =>
      let map :=
        match prev with
        | some prev => { s.map with orderNext := Function.update s.map.orderNext prev next }
        | none => { s.map with orderHead := next }
      some ((s.write map).goto t (.collect (.swapTail prev curr next)))
  | .swapTail prev curr next =>
      if s.map.orderTail = some curr then
        some ((s.write { s.map with orderTail := prev }).goto t
          (.collect (.loadOrderNext prev next)))
      else some (s.goto t (.collect (.loadOrderNext prev next)))
  | .sweep writeIdx readIdx =>
      match s.map.allNodes[readIdx]? with
      | some id =>
          if s.map.isDeleted id then
            some ((s.write { s.map with freed := Function.update s.map.freed id true }).goto t
              (.collect (.sweep writeIdx (readIdx + 1))))
          else
            some ((s.write { s.map with allNodes := s.map.allNodes.set writeIdx id }).goto t
              (.collect (.sweep (writeIdx + 1) (readIdx + 1))))
      | none =>
          -- `resize`, and the mutex is released
          some (({ s with allNodesMutex := none }.write
            { s.map with allNodes := s.map.allNodes.take writeIdx }).goto t .idle)

end Steps

/-- The next step of thread `t`. -/
def next [DecidableEq K] (hash : K → Nat) (t : Nat) (spurious : Bool) (s : SharedMap K V) :
    Option (SharedMap K V) :=
  match s.pc t with
  | .idle => none
  | .insert pc => s.stepInsert hash t spurious pc
  | .order pc => some (s.stepOrder t spurious pc)
  | .remove pc => some (s.stepRemove hash t spurious pc)
  | .collect pc => s.stepCollect t pc

/-- The threads over the map. -/
def machine [DecidableEq K] (hash : K → Nat) : Machine (SharedMap K V) (ThreadEvent K V) where
  step s e :=
    match e with
    | .call t operation =>
        match s.pc t with
        | .idle => some (s.goto t (begin operation))
        | _ => none
    | .step t spurious => s.next hash t spurious

/-! ## Other threads -/

section Frame

variable {s s' : SharedMap K V} {t u : Nat} {spurious : Bool}

theorem goto_pc_of_ne (hu : u ≠ t) (pc : MapPc K V) (s : SharedMap K V) :
    (s.goto t pc).pc u = s.pc u :=
  Function.update_of_ne hu ..

theorem stepOrder_pc (hu : u ≠ t) (pc : OrderPc) : (s.stepOrder t spurious pc).pc u = s.pc u := by
  unfold stepOrder
  split <;> (try split) <;> (try split) <;> exact goto_pc_of_ne hu _ _

theorem stepCollect_pc (hu : u ≠ t) {pc : CollectPc} (hstep : s.stepCollect t pc = some s') :
    s'.pc u = s.pc u := by
  unfold stepCollect at hstep
  split at hstep <;> (try split at hstep) <;> (try split at hstep) <;> cases hstep <;>
    exact goto_pc_of_ne hu _ _

variable [DecidableEq K] {hash : K → Nat}

theorem stepInsert_pc (hu : u ≠ t) {pc : InsertPc K V}
    (hstep : s.stepInsert hash t spurious pc = some s') : s'.pc u = s.pc u := by
  unfold stepInsert at hstep
  split at hstep <;> (try dsimp only at hstep) <;> (try split at hstep) <;> cases hstep <;>
    exact goto_pc_of_ne hu _ _

theorem stepRemove_pc (hu : u ≠ t) (pc : RemovePc K) :
    (s.stepRemove hash t spurious pc).pc u = s.pc u := by
  unfold stepRemove
  split <;> (try split) <;> (try split) <;> exact goto_pc_of_ne hu _ _

/-- A thread stays where it is while another one takes a step. -/
theorem step_pc {e : ThreadEvent K V} (hu : u ≠ e.thread)
    (hstep : (machine hash).step s e = some s') : s'.pc u = s.pc u := by
  cases e with
  | call t operation =>
      unfold machine at hstep
      dsimp only at hstep
      split at hstep
      · obtain rfl := Option.some.inj hstep
        exact goto_pc_of_ne hu _ _
      · cases hstep
  | step t spurious =>
      replace hstep : s.next hash t spurious = some s' := hstep
      unfold next at hstep
      split at hstep
      · cases hstep
      · exact stepInsert_pc hu hstep
      · obtain rfl := Option.some.inj hstep
        exact stepOrder_pc hu _
      · obtain rfl := Option.some.inj hstep
        exact stepRemove_pc hu _
      · exact stepCollect_pc hu hstep

end Frame

end SharedMap

end ZetaNet
