import Mathlib.Logic.Function.Basic
import Mathlib.Tactic

/-!
# `LockFreeOrderedHashMap`

The hash map of `fancy_queue.h` as one thread runs it. A `Node*` is the identifier of its node,
the members of `struct Node` are functions of the identifier, and no identifier is given out
twice. A read or write of a node that is not there gives `none`, as does a loop that takes more
rounds than there are nodes. A weak compare-and-swap may fail although it finds what it expects;
its loop then does the same again, so each is taken to be the one that succeeds.
-/

namespace ZetaNet

/-- The map. `keyValue` is `none` for an identifier that was never given out. -/
structure LockFreeOrderedHashMap (K V : Type) where
  bucketCount : Nat
  buckets : Nat → Option Nat
  keyValue : Nat → Option (K × V)
  bucketNext : Nat → Option Nat
  orderNext : Nat → Option Nat
  isDeleted : Nat → Bool
  /-- `delete` was called on the node -/
  freed : Nat → Bool
  /-- the next identifier of `new Node` -/
  nextNode : Nat
  orderHead : Option Nat
  orderTail : Option Nat
  allNodes : List Nat

/-- `base::Atomic<Node*>*`: the head of a bucket or the `bucketNext` of a node. -/
inductive BucketLink
  | bucket (index : Nat)
  | next (node : Nat)
  deriving DecidableEq

/-- `BucketIterator`. -/
structure BucketIterator where
  currentNode : Option Nat
  bucketIndex : Nat
  deriving DecidableEq

namespace LockFreeOrderedHashMap

variable {K V : Type}

/-- The constructor. -/
def init (K V : Type) (count : Nat) : LockFreeOrderedHashMap K V where
  bucketCount := if count > 0 then count else 1
  buckets := fun _ => none
  keyValue := fun _ => none
  bucketNext := fun _ => none
  orderNext := fun _ => none
  isDeleted := fun _ => false
  freed := fun _ => false
  nextNode := 0
  orderHead := none
  orderTail := none
  allNodes := []

/-- What a pointer to a node leads to. -/
def node (id : Nat) (map : LockFreeOrderedHashMap K V) : Option (K × V) :=
  if map.freed id then none else map.keyValue id

/-- More rounds than any loop over nodes takes. -/
def rounds (map : LockFreeOrderedHashMap K V) : Nat := map.allNodes.length + 1

/-- `new Node`, tracked in `allNodes`. -/
def newNode (key : K) (value : V) (map : LockFreeOrderedHashMap K V) :
    Nat × LockFreeOrderedHashMap K V :=
  let id := map.nextNode
  (id,
    { map with
      keyValue := Function.update map.keyValue id (some (key, value))
      bucketNext := Function.update map.bucketNext id none
      orderNext := Function.update map.orderNext id none
      isDeleted := Function.update map.isDeleted id false
      nextNode := id + 1
      allNodes := map.allNodes ++ [id] })

/-! ## The links of the buckets -/

/-- `load` of a link. -/
def loadLink (link : BucketLink) (map : LockFreeOrderedHashMap K V) : Option (Option Nat) :=
  match link with
  | .bucket index => some (map.buckets index)
  | .next id => (map.node id).map fun _ => map.bucketNext id

/-- `store` to a link. -/
def storeLink (link : BucketLink) (value : Option Nat) (map : LockFreeOrderedHashMap K V) :
    LockFreeOrderedHashMap K V :=
  match link with
  | .bucket index => { map with buckets := Function.update map.buckets index value }
  | .next id => { map with bucketNext := Function.update map.bucketNext id value }

/-- `try_unlink_bucket`. -/
def tryUnlinkBucket (id : Nat) (prevBucketNextPtr : BucketLink)
    (map : LockFreeOrderedHashMap K V) : Option (LockFreeOrderedHashMap K V) := do
  let currentPrevPointsTo ← map.loadLink prevBucketNextPtr
  if currentPrevPointsTo = some id then
    let _ ← map.node id
    return map.storeLink prevBucketNextPtr (map.bucketNext id)
  else return map

section Keys

variable [DecidableEq K] (hash : K → Nat)

/-- `hash_key`. -/
def hashKey (key : K) (map : LockFreeOrderedHashMap K V) : Nat := hash key % map.bucketCount

/-- The loop of `find_in_bucket` with its two variables. -/
def findLoop (key : K) (map : LockFreeOrderedHashMap K V) :
    Nat → BucketLink → Option Nat → Option (Option Nat × BucketLink)
  | 0, _, _ => none
  | _ + 1, prev, none => some (none, prev)
  | rounds + 1, prev, some curr => do
      let keyValue ← map.node curr
      if keyValue.1 = key then return (some curr, prev)
      else findLoop key map rounds (.next curr) (map.bucketNext curr)

/-- `find_in_bucket`: the node and `prev_bucket_next_ptr`. -/
def findInBucket (key : K) (map : LockFreeOrderedHashMap K V) :
    Option (Option Nat × BucketLink) :=
  let index := map.hashKey hash key
  map.findLoop key map.rounds (.bucket index) (map.buckets index)

/-! ## The operations -/

/-- The second phase of `insert_internal`. -/
def appendOrder (newNode : Nat) :
    Nat → LockFreeOrderedHashMap K V → Option (LockFreeOrderedHashMap K V)
  | 0, _ => none
  | rounds + 1, map =>
      match map.orderTail with
      | none =>
          if map.orderHead = none then
            -- the tail was null when it was read, and the swap expects null
            some { map with orderHead := some newNode, orderTail := some newNode }
          else appendOrder newNode rounds map
      | some currentTail => do
          let _ ← map.node currentTail
          match map.orderNext currentTail with
          | some next => appendOrder newNode rounds { map with orderTail := some next }
          | none =>
              return { map with
                orderNext := Function.update map.orderNext currentTail (some newNode)
                orderTail := some newNode }

/-- `insert`. -/
def insert (key : K) (value : V) (map : LockFreeOrderedHashMap K V) :
    Option (Bool × LockFreeOrderedHashMap K V) := do
  let (existingNode, _) ← map.findInBucket hash key
  match existingNode with
  | some _ =>
      -- deleted or not, a node with the key makes the insertion fail
      return (false, map)
  | none =>
      let index := map.hashKey hash key
      let (newNode, map) := map.newNode key value
      let oldHead := map.buckets index
      let map := map.storeLink (.next newNode) oldHead
      let map := map.storeLink (.bucket index) (some newNode)
      let map := { map with orderNext := Function.update map.orderNext newNode none }
      let map ← map.appendOrder newNode map.rounds
      return (true, map)

/-- `remove`. -/
def remove (key : K) (map : LockFreeOrderedHashMap K V) :
    Option (Bool × LockFreeOrderedHashMap K V) := do
  let (nodeToRemove, prevBucketNextPtr) ← map.findInBucket hash key
  match nodeToRemove with
  | none => return (false, map)
  | some id =>
      -- marked just now or before, the node is unlinked and the answer is yes
      let map := { map with isDeleted := Function.update map.isDeleted id true }
      let map ← map.tryUnlinkBucket id prevBucketNextPtr
      return (true, map)

/-- `find`: the value, `none` for `false`. -/
def find (key : K) (map : LockFreeOrderedHashMap K V) : Option (Option V) := do
  let (found, _) ← map.findInBucket hash key
  match found with
  | none => return none
  | some id =>
      let keyValue ← map.node id
      if map.isDeleted id then return none else return some keyValue.2

/-- `with_value`; `callback` is what the callback makes of the value. -/
def withValue (key : K) (callback : V → V) (map : LockFreeOrderedHashMap K V) :
    Option (Bool × LockFreeOrderedHashMap K V) := do
  let (found, _) ← map.findInBucket hash key
  match found with
  | none => return (false, map)
  | some id =>
      let keyValue ← map.node id
      if map.isDeleted id then return (false, map)
      else
        return (true, { map with
          keyValue := Function.update map.keyValue id (some (keyValue.1, callback keyValue.2)) })

end Keys

/-! ## `collect_garbage` -/

/-- Take `curr` behind `prev` out of the order chain. -/
def unlinkOrderNode (prev : Option Nat) (curr : Nat) (map : LockFreeOrderedHashMap K V) :
    LockFreeOrderedHashMap K V :=
  let next := map.orderNext curr
  let map :=
    match prev with
    | some prev => { map with orderNext := Function.update map.orderNext prev next }
    | none => { map with orderHead := next }
  if map.orderTail = some curr then { map with orderTail := prev } else map

/-- The pass over the order chain, from `curr` with `prev` before it. -/
def unlinkOrder : Nat → Option Nat → Option Nat → LockFreeOrderedHashMap K V →
    Option (LockFreeOrderedHashMap K V)
  | 0, _, _, _ => none
  | _ + 1, _, none, map => some map
  | rounds + 1, prev, some curr, map => do
      let _ ← map.node curr
      let next := map.orderNext curr
      if map.isDeleted curr then
        unlinkOrder rounds prev next (map.unlinkOrderNode prev curr)
      else unlinkOrder rounds (some curr) next map

/-- The sweep over the rest of `allNodes`: the nodes that are kept. -/
def sweep : List Nat → LockFreeOrderedHashMap K V → Option (List Nat × LockFreeOrderedHashMap K V)
  | [], map => some ([], map)
  | id :: rest, map => do
      let _ ← map.node id
      if map.isDeleted id then sweep rest { map with freed := Function.update map.freed id true }
      else
        let (kept, map) ← sweep rest map
        return (id :: kept, map)

/-- `collect_garbage`. -/
def collectGarbage (map : LockFreeOrderedHashMap K V) : Option (LockFreeOrderedHashMap K V) := do
  let map ← map.unlinkOrder map.rounds none map.orderHead
  let (kept, map) ← map.sweep map.allNodes
  return { map with allNodes := kept }

/-! ## `BucketIterator` -/

/-- The loop of `advance_to_next_valid` over the buckets behind `bucketIndex`, as many as there
are. -/
def nextBucket (map : LockFreeOrderedHashMap K V) : Nat → Nat → BucketIterator
  | 0, bucketIndex => ⟨none, bucketIndex⟩
  | todo + 1, bucketIndex =>
      match map.buckets (bucketIndex + 1) with
      | some id => ⟨some id, bucketIndex + 1⟩
      | none => nextBucket map todo (bucketIndex + 1)

/-- `end()`. -/
def endIterator (map : LockFreeOrderedHashMap K V) : BucketIterator := ⟨none, map.bucketCount⟩

/-- `advance_to_next_valid`. -/
def advanceToNextValid (it : BucketIterator) (map : LockFreeOrderedHashMap K V) :
    Option BucketIterator :=
  match it.currentNode with
  | none => some it
  | some curr => do
      let _ ← map.node curr
      match map.bucketNext curr with
      | some next => return ⟨some next, it.bucketIndex⟩
      | none =>
          let it := map.nextBucket (map.bucketCount - 1 - it.bucketIndex) it.bucketIndex
          match it.currentNode with
          | some _ => return it
          | none => return map.endIterator

/-- The loop of `operator++` over deleted nodes. -/
def skipDeleted (map : LockFreeOrderedHashMap K V) : Nat → BucketIterator → Option BucketIterator
  | 0, _ => none
  | rounds + 1, it =>
      match it.currentNode with
      | none => some it
      | some curr => do
          let _ ← map.node curr
          if map.isDeleted curr then
            let it ← map.advanceToNextValid it
            skipDeleted map rounds it
          else return it

/-- `operator++`. -/
def increment (it : BucketIterator) (map : LockFreeOrderedHashMap K V) :
    Option BucketIterator :=
  match it.currentNode with
  | none => some it
  | some _ => do
      let it ← map.advanceToNextValid it
      map.skipDeleted map.rounds it

/-- The first node from `curr` on along its bucket that is not deleted. -/
def firstInBucket (map : LockFreeOrderedHashMap K V) : Nat → Option Nat → Option (Option Nat)
  | 0, _ => none
  | _ + 1, none => some none
  | rounds + 1, some curr => do
      let _ ← map.node curr
      if map.isDeleted curr then firstInBucket map rounds (map.bucketNext curr)
      else return some curr

/-- The loop of `begin` with `todo` buckets to go, from bucket `i` on. -/
def beginLoop (map : LockFreeOrderedHashMap K V) : Nat → Nat → Option BucketIterator
  | 0, _ => some map.endIterator
  | todo + 1, i => do
      let firstNode ← map.firstInBucket map.rounds (map.buckets i)
      match firstNode with
      | some id => return ⟨some id, i⟩
      | none => beginLoop map todo (i + 1)

/-- `begin()`. -/
def beginIterator (map : LockFreeOrderedHashMap K V) : Option BucketIterator :=
  map.beginLoop map.bucketCount 0

/-- A loop from `it` to `end()` whose body removes the key it visits where `removes` says so of
the number of the visit; the visited pairs. -/
def iterateFrom [DecidableEq K] (hash : K → Nat) (removes : Nat → Bool) :
    Nat → Nat → BucketIterator → LockFreeOrderedHashMap K V →
      Option (List (K × V) × LockFreeOrderedHashMap K V)
  | 0, _, _, _ => none
  | rounds + 1, visit, it, map =>
      if it = map.endIterator then some ([], map)
      else
        match it.currentNode with
        | none => none
        | some curr => do
            let keyValue ← map.node curr
            let (_, map) ←
              (if removes visit then map.remove hash keyValue.1 else some (false, map))
            let it ← map.increment it
            let (visited, map) ← iterateFrom hash removes rounds (visit + 1) it map
            return (keyValue :: visited, map)

/-- A loop from `begin()` to `end()`. -/
def iterate [DecidableEq K] (hash : K → Nat) (removes : Nat → Bool)
    (map : LockFreeOrderedHashMap K V) :
    Option (List (K × V) × LockFreeOrderedHashMap K V) := do
  let it ← map.beginIterator
  iterateFrom hash removes map.rounds 0 it map

end LockFreeOrderedHashMap

end ZetaNet
