import ZetaNet.Packet.Types

/-!
# The pool of payload buffers

`PacketBufferPool` of `z_network_allocator.h` over an explicit heap. A block is named by its data
pointer, which stands right behind its header. `operator new` may place a block wherever none
stands; `dangling` is set when a header is touched where none stands.
-/

namespace ZetaNet

namespace PacketBufferPool

def kMinClassSize : Nat := 64
def kMaxClassSize : Nat := 65536
/-- 64 ... 65536 -/
def kClassCount : Nat := 11
def kRetunePeriod : UInt64 := 4096
def kCacheBudgetBytes : Nat := 16 * 1024 * 1024
def kMinTargetPerClass : UInt64 := 8

instance : NeZero kClassCount := ⟨by decide⟩

end PacketBufferPool

open PacketBufferPool in
/-- A size class; `none` is `kInvalidClassIndex`. -/
abbrev ClassIndex := Option (Fin kClassCount)

/-- `struct BlockHeader`, and what was last written behind it. -/
structure Block where
  refCount : UInt32
  requestedSize : UInt32
  sizeClassIndex : ClassIndex
  pooled : Bool
  capacity : Nat
  bytes : Bytes

/-- `struct ClassBucket`. -/
structure ClassBucket where
  blockSize : Nat
  requests : UInt64
  ewmaDemand : Float
  targetCachedBlocks : UInt64
  /-- its back first -/
  freeList : List UInt64

structure PacketBufferPool where
  heap : UInt64 → Option Block
  classes : Fin PacketBufferPool.kClassCount → ClassBucket
  totalRequests : UInt64
  dangling : Bool

namespace PacketBufferPool

/-- The pool as it is constructed. -/
def start : PacketBufferPool where
  heap _ := none
  classes i :=
    { blockSize := kMinClassSize <<< i.val
      requests := 0
      ewmaDemand := 0.0
      targetCachedBlocks := kMinTargetPerClass
      freeList := [] }
  totalRequests := 0
  dangling := false

/-- The loop of `SizeToClassIndex`; it goes on at most `fuel` times. -/
def classIndexLoop (requestedSize : Nat) : Nat → Nat → Fin kClassCount → Fin kClassCount
  | 0, _, classIndex => classIndex
  | fuel + 1, classSize, classIndex =>
      if h : classSize < requestedSize ∧ classIndex.val + 1 < kClassCount then
        classIndexLoop requestedSize fuel (classSize <<< 1) ⟨classIndex.val + 1, h.2⟩
      else classIndex

/-- `SizeToClassIndex`. -/
def sizeToClassIndex (requestedSize : Nat) : ClassIndex :=
  if requestedSize > kMaxClassSize then none
  else some (classIndexLoop requestedSize kClassCount kMinClassSize ⟨0, by decide⟩)

def modifyBucket (i : Fin kClassCount) (f : ClassBucket → ClassBucket) (pool : PacketBufferPool) :
    PacketBufferPool :=
  { pool with classes := Function.update pool.classes i (f (pool.classes i)) }

/-- An access to the block at `data`. -/
def modifyBlock (data : UInt64) (f : Block → Block) (pool : PacketBufferPool) : PacketBufferPool :=
  match pool.heap data with
  | none => { pool with dangling := true }
  | some block => { pool with heap := Function.update pool.heap data (some (f block)) }

/-- `::operator delete`. -/
def delete (data : UInt64) (pool : PacketBufferPool) : PacketBufferPool :=
  match pool.heap data with
  | none => { pool with dangling := true }
  | some _ => { pool with heap := Function.update pool.heap data none }

/-- `AllocateNewBlock`, with the address `::operator new` chooses. -/
def allocateNewBlock (requestedSize : Nat) (classIndex : ClassIndex) (pooled : Bool)
    (address : UInt64) (pool : PacketBufferPool) : Option (UInt64 × PacketBufferPool) :=
  if address ≠ 0 ∧ (pool.heap address).isNone then
    let block : Block :=
      { refCount := 1
        requestedSize := UInt32.ofNat requestedSize
        sizeClassIndex := classIndex
        pooled
        capacity := match classIndex with
          | none => requestedSize
          | some i => (pool.classes i).blockSize
        bytes := [] }
    some (address, { pool with heap := Function.update pool.heap address (some block) })
  else none

/-- `Allocate`. -/
def allocate (requestedSize : Nat) (address : UInt64) (pool : PacketBufferPool) :
    Option (UInt64 × PacketBufferPool) :=
  if requestedSize = 0 then some (0, pool)
  else
    let pool := { pool with totalRequests := pool.totalRequests + 1 }
    match sizeToClassIndex requestedSize with
    | none => pool.allocateNewBlock requestedSize none false address
    | some i =>
        let pool := pool.modifyBucket i fun bucket =>
          { bucket with requests := bucket.requests + 1 }
        match (pool.classes i).freeList with
        | data :: freeList =>
            let pool := pool.modifyBucket i fun bucket => { bucket with freeList }
            some (data, pool.modifyBlock data fun block =>
              { block with refCount := 1, requestedSize := UInt32.ofNat requestedSize })
        | [] => pool.allocateNewBlock requestedSize (some i) true address

/-- `Retain`. -/
def retain (data : UInt64) (pool : PacketBufferPool) : PacketBufferPool :=
  if data = 0 then pool
  else pool.modifyBlock data fun block => { block with refCount := block.refCount + 1 }

/-- `TrimClassCache`. -/
def trimClassCache (i : Fin kClassCount) (target : UInt64) (pool : PacketBufferPool) :
    PacketBufferPool :=
  let freeList := (pool.classes i).freeList
  if freeList.length ≤ target.toNat then pool
  else
    let excess := freeList.length - target.toNat
    (freeList.take excess).foldl (fun pool data => pool.delete data)
      (pool.modifyBucket i fun bucket => { bucket with freeList := freeList.drop excess })

/-- The demand of a class with the requests since the last time. -/
def updatedDemand (bucket : ClassBucket) : Float :=
  bucket.ewmaDemand * 0.8 + bucket.requests.toFloat * 0.2

/-- The cached blocks a class may have for its share of the demand. -/
def retunedTarget (demandSum : Float) (bucket : ClassBucket) : UInt64 :=
  let weight := bucket.ewmaDemand / demandSum
  let target :=
    (weight * Float.ofNat kCacheBudgetBytes / Float.ofNat bucket.blockSize).toUInt64
  if target < kMinTargetPerClass then kMinTargetPerClass else target

/-- A pass of the first loop of `RetuneTargets`. -/
def collectDemand (i : Fin kClassCount) (pool : PacketBufferPool) : PacketBufferPool :=
  pool.modifyBucket i fun bucket =>
    { bucket with requests := 0, ewmaDemand := updatedDemand bucket }

/-- A pass of its second loop. -/
def retuneClass (demandSum : Float) (i : Fin kClassCount) (pool : PacketBufferPool) :
    PacketBufferPool :=
  let target := retunedTarget demandSum (pool.classes i)
  (pool.modifyBucket i fun bucket =>
    { bucket with targetCachedBlocks := target }).trimClassCache i target

/-- `RetuneTargets`. -/
def retuneTargets (pool : PacketBufferPool) : PacketBufferPool :=
  let indices := List.finRange kClassCount
  let demandSum := indices.foldl (fun sum i => sum + updatedDemand (pool.classes i)) 0.0
  let pool := indices.foldl (fun pool i => pool.collectDemand i) pool
  if demandSum ≤ 0.0 then pool
  else indices.foldl (fun pool i => pool.retuneClass demandSum i) pool

/-- `MaybeRetune`. No other thread has the lock. -/
def maybeRetune (pool : PacketBufferPool) : PacketBufferPool :=
  if pool.totalRequests < kRetunePeriod ∨ pool.totalRequests % kRetunePeriod ≠ 0 then pool
  else pool.retuneTargets

/-- `Release`. -/
def release (data : UInt64) (pool : PacketBufferPool) : PacketBufferPool :=
  if data = 0 then pool
  else
    match pool.heap data with
    | none => { pool with dangling := true }
    | some header =>
        let previous := header.refCount
        let pool := pool.modifyBlock data fun block => { block with refCount := previous - 1 }
        if previous ≠ 1 then pool
        else
          match header.pooled, header.sizeClassIndex with
          | true, some i =>
              let target := (pool.classes i).targetCachedBlocks
              (if (pool.classes i).freeList.length < target.toNat then
                pool.modifyBucket i fun bucket =>
                  { bucket with freeList := data :: bucket.freeList }
              else pool.delete data).maybeRetune
          | _, _ => pool.delete data

/-- `BoostClassCacheForSize`. -/
def boostClassCacheForSize (requestedSize : Nat) (minTargetBlocks : UInt64)
    (pool : PacketBufferPool) : PacketBufferPool :=
  if minTargetBlocks = 0 then pool
  else
    match sizeToClassIndex requestedSize with
    | none => pool
    | some i =>
        if (pool.classes i).targetCachedBlocks < minTargetBlocks then
          pool.modifyBucket i fun bucket => { bucket with targetCachedBlocks := minTargetBlocks }
        else pool

/-! ## Size classes -/

theorem le_classIndexLoop {requestedSize : Nat} (hmax : requestedSize ≤ kMaxClassSize)
    (fuel : Nat) (i : Fin kClassCount) (hfuel : kClassCount ≤ fuel + i.val + 1) :
    requestedSize ≤
      kMinClassSize <<< (classIndexLoop requestedSize fuel (kMinClassSize <<< i.val) i).val := by
  induction fuel generalizing i with
  | zero =>
      have hlast : i.val = 10 := by
        have hlt := i.isLt
        simp only [kClassCount] at hfuel hlt
        omega
      show requestedSize ≤ kMinClassSize <<< i.val
      rw [hlast]
      exact hmax
  | succ fuel ih =>
      simp only [classIndexLoop]
      split
      · rename_i hmore
        rw [show kMinClassSize <<< i.val <<< 1 = kMinClassSize <<< (i.val + 1) from
          (Nat.shiftLeft_add ..).symm]
        exact ih ⟨i.val + 1, hmore.2⟩ (by
          show kClassCount ≤ fuel + (i.val + 1) + 1
          omega)
      · rename_i hdone
        by_contra hsmall
        have hlast : i.val = 10 := by
          have hlt := i.isLt
          simp only [kClassCount] at hdone hlt
          omega
        rw [hlast] at hsmall
        exact hsmall hmax

/-- A block of the class has room for the request. -/
theorem le_blockSize {requestedSize : Nat} {i : Fin kClassCount}
    (h : sizeToClassIndex requestedSize = some i) : requestedSize ≤ kMinClassSize <<< i.val := by
  unfold sizeToClassIndex at h
  split at h
  · cases h
  · rename_i hmax
    obtain rfl := Option.some.inj h
    exact le_classIndexLoop (Nat.not_lt.mp hmax) kClassCount ⟨0, by decide⟩ (by decide)

/-! ## Blocks and their owners -/

/-- A block that waits in the cache of its class. -/
def idle (heap : UInt64 → Option Block) (i : Fin kClassCount) (data : UInt64) : Prop :=
  ∃ block, heap data = some block ∧ block.refCount = 0 ∧ block.sizeClassIndex = some i

/-- A block with `n` owners. -/
structure BlockOk (block : Block) (n : Nat) : Prop where
  count : block.refCount.toNat = n
  class_ : ∀ i, block.sizeClassIndex = some i →
    block.pooled = true ∧ block.capacity = kMinClassSize <<< i.val
  /-- only the blocks of a class are kept without an owner -/
  kept : block.refCount = 0 → block.sizeClassIndex ≠ none

/-- What holds between the calls, if `owners` is how many packets hold each block. -/
structure Inv (pool : PacketBufferPool) (owners : UInt64 → Nat) : Prop where
  sizes : ∀ i, (pool.classes i).blockSize = kMinClassSize <<< i.val
  null : pool.heap 0 = none
  dangling : pool.dangling = false
  blocks : ∀ data block, pool.heap data = some block → BlockOk block (owners data)
  freed : ∀ data, pool.heap data = none → owners data = 0
  nodup : ∀ i, (pool.classes i).freeList.Nodup
  cached : ∀ i data, data ∈ (pool.classes i).freeList ↔ idle pool.heap i data

variable {pool : PacketBufferPool} {owners owners' : UInt64 → Nat}

theorem inv_start : start.Inv fun _ => 0 where
  sizes _ := rfl
  null := rfl
  dangling := rfl
  blocks _ _ h := by cases h
  freed _ _ := rfl
  nodup _ := List.nodup_nil
  cached _ _ := iff_of_false List.not_mem_nil fun ⟨_, h, _⟩ => by cases h

/-- Away from one address nothing has changed. -/
theorem idle_update {heap : UInt64 → Option Block} {data other : UInt64} {cell : Option Block}
    (i : Fin kClassCount) (hother : other ≠ data) :
    idle (Function.update heap data cell) i other ↔ idle heap i other := by
  unfold idle
  rw [Function.update_of_ne hother]

theorem classes_setFreeList (i : Fin kClassCount) (freeList : List UInt64) (j : Fin kClassCount) :
    (Function.update pool.classes i { pool.classes i with freeList } j).blockSize =
        (pool.classes j).blockSize ∧
      (Function.update pool.classes i { pool.classes i with freeList } j).freeList =
        if j = i then freeList else (pool.classes j).freeList := by
  by_cases hij : j = i
  · subst hij
    rw [Function.update_self, if_pos rfl]
    exact ⟨rfl, rfl⟩
  · rw [Function.update_of_ne hij, if_neg hij]
    exact ⟨rfl, rfl⟩

theorem delete_eq {data : UInt64} {block : Block} (hheap : pool.heap data = some block) :
    pool.delete data = { pool with heap := Function.update pool.heap data none } := by
  unfold delete
  rw [hheap]

/-- Blocks that stand on the heap, each deleted once. -/
theorem foldl_delete {blocks : List UInt64} (hnodup : blocks.Nodup)
    (hheap : ∀ data ∈ blocks, ∃ block, pool.heap data = some block) :
    blocks.foldl (fun pool data => pool.delete data) pool =
      { pool with heap := fun data => if data ∈ blocks then none else pool.heap data } := by
  induction blocks generalizing pool with
  | nil => simp only [List.foldl_nil, List.not_mem_nil, if_false]
  | cons first blocks ih =>
      obtain ⟨hfirst, hnodup'⟩ := List.nodup_cons.mp hnodup
      obtain ⟨block, hblock⟩ := hheap first List.mem_cons_self
      have hne {data : UInt64} (hmem : data ∈ blocks) : data ≠ first := fun h => hfirst (h ▸ hmem)
      rw [List.foldl_cons, delete_eq hblock, ih hnodup' fun data hmem => ?_]
      · congr 1
        funext data
        show (if data ∈ blocks then none else Function.update pool.heap first none data) = _
        by_cases hsame : data = first
        · subst hsame
          rw [if_neg hfirst, Function.update_self, if_pos List.mem_cons_self]
        · rw [Function.update_of_ne hsame]
          simp only [List.mem_cons, hsame, false_or]
      · show ∃ block, Function.update pool.heap first none data = some block
        rw [Function.update_of_ne (hne hmem)]
        exact hheap data (List.mem_cons_of_mem first hmem)

namespace Inv

/-- Only the heap, the block sizes, the free lists and the mark matter. -/
theorem congr (h : pool.Inv owners) {pool' : PacketBufferPool} (hheap : pool'.heap = pool.heap)
    (hdangling : pool'.dangling = pool.dangling)
    (hclasses : ∀ i, (pool'.classes i).blockSize = (pool.classes i).blockSize ∧
      (pool'.classes i).freeList = (pool.classes i).freeList) : pool'.Inv owners where
  sizes i := (hclasses i).1.trans (h.sizes i)
  null := hheap ▸ h.null
  dangling := hdangling.trans h.dangling
  blocks := hheap ▸ h.blocks
  freed := hheap ▸ h.freed
  nodup i := (hclasses i).2 ▸ h.nodup i
  cached i data := by rw [(hclasses i).2, hheap, h.cached i data]

/-- A bucket with the same blocks. -/
theorem modifyBucket (h : pool.Inv owners) (i : Fin kClassCount) {f : ClassBucket → ClassBucket}
    (hsize : ∀ bucket, (f bucket).blockSize = bucket.blockSize)
    (hlist : ∀ bucket, (f bucket).freeList = bucket.freeList) :
    (pool.modifyBucket i f).Inv owners := by
  refine h.congr rfl rfl fun j => ?_
  show (Function.update pool.classes i (f (pool.classes i)) j).blockSize = _ ∧
    (Function.update pool.classes i (f (pool.classes i)) j).freeList = _
  by_cases hij : j = i
  · subst hij
    rw [Function.update_self]
    exact ⟨hsize _, hlist _⟩
  · rw [Function.update_of_ne hij]
    exact ⟨rfl, rfl⟩

/-- A held block stands on the heap. -/
theorem heap_of_pos (h : pool.Inv owners) {data : UInt64} (hpos : 0 < owners data) :
    ∃ block, pool.heap data = some block := by
  cases hheap : pool.heap data with
  | none =>
      rw [h.freed data hheap] at hpos
      exact absurd hpos (Nat.lt_irrefl 0)
  | some block => exact ⟨block, rfl⟩

theorem ne_zero_of_heap (h : pool.Inv owners) {data : UInt64} {block : Block}
    (hheap : pool.heap data = some block) : data ≠ 0 := by
  rintro rfl
  rw [h.null] at hheap
  cases hheap

/-- Something has been put at one address, and the free lists follow. -/
theorem set (h : pool.Inv owners) {pool' : PacketBufferPool} {data : UInt64}
    {cell : Option Block} (hdata : data ≠ 0)
    (hheap : pool'.heap = Function.update pool.heap data cell)
    (hdangling : pool'.dangling = pool.dangling)
    (hsizes : ∀ i, (pool'.classes i).blockSize = (pool.classes i).blockSize)
    (howners : ∀ other, other ≠ data → owners' other = owners other)
    (hblock : ∀ block, cell = some block → BlockOk block (owners' data))
    (hfreed : cell = none → owners' data = 0)
    (hnodup : ∀ i, (pool'.classes i).freeList.Nodup)
    (hothers : ∀ i other, other ≠ data →
      (other ∈ (pool'.classes i).freeList ↔ other ∈ (pool.classes i).freeList))
    (hcached : ∀ i, data ∈ (pool'.classes i).freeList ↔
      ∃ block, cell = some block ∧ block.refCount = 0 ∧ block.sizeClassIndex = some i) :
    pool'.Inv owners' where
  sizes i := (hsizes i).trans (h.sizes i)
  null := by rw [hheap, Function.update_of_ne hdata.symm, h.null]
  dangling := hdangling.trans h.dangling
  blocks other block hother := by
    by_cases hsame : other = data
    -- at the address what is put there counts, elsewhere what was
    · subst hsame
      rw [hheap, Function.update_self] at hother
      exact hblock block hother
    · rw [hheap, Function.update_of_ne hsame] at hother
      rw [howners other hsame]
      exact h.blocks other block hother
  freed other hother := by
    by_cases hsame : other = data
    · subst hsame
      rw [hheap, Function.update_self] at hother
      exact hfreed hother
    · rw [hheap, Function.update_of_ne hsame] at hother
      rw [howners other hsame]
      exact h.freed other hother
  nodup := hnodup
  cached i other := by
    by_cases hsame : other = data
    · subst hsame
      rw [hcached i, hheap]
      unfold idle
      rw [Function.update_self]
    · rw [hothers i other hsame, hheap, idle_update i hsame, h.cached i other]

/-- A block with an owner is in no free list. -/
theorem notMem_of_pos (h : pool.Inv owners) {data : UInt64} (hpos : 0 < owners data)
    (i : Fin kClassCount) : data ∉ (pool.classes i).freeList := by
  intro hmem
  obtain ⟨block, hheap, hzero, -⟩ := (h.cached i data).mp hmem
  have hcount := (h.blocks data block hheap).count
  rw [hzero] at hcount
  rw [← hcount] at hpos
  exact absurd hpos (Nat.lt_irrefl 0)

/-! ### Retain and allocate -/

theorem retain (h : pool.Inv owners) {data : UInt64} (hpos : 0 < owners data)
    (hroom : owners data + 1 < 2 ^ 32) (hdata' : owners' data = owners data + 1)
    (howners : ∀ other, other ≠ data → owners' other = owners other) :
    (pool.retain data).Inv owners' := by
  obtain ⟨block, hheap⟩ := h.heap_of_pos hpos
  have hok := h.blocks data block hheap
  have hdata := h.ne_zero_of_heap hheap
  unfold PacketBufferPool.retain modifyBlock
  rw [if_neg hdata, hheap]
  have hcount : (block.refCount + 1).toNat = owners data + 1 := by
    rw [UInt32.toNat_add, hok.count]
    exact Nat.mod_eq_of_lt hroom
  have hne : block.refCount + 1 ≠ 0 := by
    intro hzero
    rw [hzero] at hcount
    exact absurd hcount.symm (Nat.succ_ne_zero _)
  refine h.set hdata rfl rfl (fun _ => rfl) howners ?_ (fun h => by cases h) h.nodup
    (fun _ _ _ => Iff.rfl) fun i => iff_of_false (h.notMem_of_pos hpos i) ?_
  · rintro _ ⟨⟩
    exact ⟨hcount.trans hdata'.symm, hok.class_, fun hzero => absurd hzero hne⟩
  · rintro ⟨_, ⟨⟩, hzero, -⟩
    exact hne hzero

/-- A new block, where none stands. -/
theorem allocateNewBlock (h : pool.Inv owners) {requestedSize : Nat} {classIndex : ClassIndex}
    {pooled : Bool} {address data : UInt64} {pool' : PacketBufferPool}
    (hpooled : ∀ i, classIndex = some i → pooled = true ∧ requestedSize ≤ kMinClassSize <<< i.val)
    (hdata' : owners' data = 1) (howners : ∀ other, other ≠ data → owners' other = owners other)
    (halloc : pool.allocateNewBlock requestedSize classIndex pooled address = some (data, pool')) :
    owners data = 0 ∧ pool'.Inv owners' ∧
      ∃ block, pool'.heap data = some block ∧ requestedSize ≤ block.capacity := by
  unfold PacketBufferPool.allocateNewBlock at halloc
  split at halloc
  · rename_i hfresh
    obtain ⟨hdata, hnone⟩ := hfresh
    obtain ⟨rfl, rfl⟩ := Prod.mk.inj (Option.some.inj halloc)
    have hheap : pool.heap address = none := Option.isNone_iff_eq_none.mp hnone
    have hnotMem (i : Fin kClassCount) : address ∉ (pool.classes i).freeList := by
      intro hmem
      obtain ⟨block, hblock, -⟩ := (h.cached i address).mp hmem
      rw [hheap] at hblock
      cases hblock
    refine ⟨h.freed address hheap, ?_, _, Function.update_self .., ?_⟩
    · refine h.set hdata rfl rfl (fun _ => rfl) howners ?_ (fun h => by cases h) h.nodup
        (fun _ _ _ => Iff.rfl) fun i => iff_of_false (hnotMem i) ?_
      · rintro _ ⟨⟩
        refine ⟨hdata'.symm, fun i hclass => ?_, fun hone =>
          absurd hone (show (1 : UInt32) ≠ 0 by decide)⟩
        obtain rfl : classIndex = some i := hclass
        exact ⟨(hpooled i rfl).1, h.sizes i⟩
      · rintro ⟨_, ⟨⟩, hone, -⟩
        exact absurd hone (show (1 : UInt32) ≠ 0 by decide)
    · cases classIndex with
      | none => exact le_refl requestedSize
      | some i =>
          show requestedSize ≤ (pool.classes i).blockSize
          rw [h.sizes i]
          exact (hpooled i rfl).2
  · cases halloc

/-- A block from the cache. -/
theorem reuse (h : pool.Inv owners) {requestedSize : Nat} {i : Fin kClassCount} {data : UInt64}
    {freeList : List UInt64} (hlist : (pool.classes i).freeList = data :: freeList)
    (hsize : requestedSize ≤ kMinClassSize <<< i.val) (hdata' : owners' data = 1)
    (howners : ∀ other, other ≠ data → owners' other = owners other) :
    owners data = 0 ∧
      ((pool.modifyBucket i fun bucket => { bucket with freeList }).modifyBlock data fun block =>
        { block with refCount := 1, requestedSize := UInt32.ofNat requestedSize }).Inv owners' ∧
      ∃ block, ((pool.modifyBucket i fun bucket => { bucket with freeList }).modifyBlock data
          fun block =>
            { block with refCount := 1, requestedSize := UInt32.ofNat requestedSize }).heap data =
              some block ∧ requestedSize ≤ block.capacity := by
  have hmem : data ∈ (pool.classes i).freeList := hlist ▸ List.mem_cons_self
  -- a cached block has no owner
  obtain ⟨block, hheap, hzero, hclass⟩ := (h.cached i data).mp hmem
  have hok := h.blocks data block hheap
  have hnodup := h.nodup i
  rw [hlist, List.nodup_cons] at hnodup
  have hheap' :
      (pool.modifyBucket i fun bucket => { bucket with freeList }).heap data = some block := hheap
  have hbucket := @classes_setFreeList pool i freeList
  unfold modifyBlock
  rw [hheap']
  refine ⟨?_, h.set (h.ne_zero_of_heap hheap) rfl rfl (fun j => ?_) howners ?_
    (fun h => by cases h) (fun j => ?_) (fun j other hother => ?_) fun j => iff_of_false ?_ ?_,
    _, Function.update_self .., ?_⟩
  -- its count becomes one, and it leaves the list it was in
  · rw [← hok.count, hzero]
    rfl
  · exact (hbucket j).1
  · rintro _ ⟨⟩
    exact ⟨hdata'.symm, hok.class_, fun hone =>
      absurd hone (show (1 : UInt32) ≠ 0 by decide)⟩
  · show (Function.update pool.classes i { pool.classes i with freeList } j).freeList.Nodup
    rw [(hbucket j).2]
    split
    · exact hnodup.2
    · exact h.nodup j
  · show other ∈ (Function.update pool.classes i { pool.classes i with freeList } j).freeList ↔ _
    rw [(hbucket j).2]
    split
    · rename_i hij
      subst hij
      rw [hlist, List.mem_cons]
      exact (or_iff_right hother).symm
    · exact Iff.rfl
  · show data ∉ (Function.update pool.classes i { pool.classes i with freeList } j).freeList
    rw [(hbucket j).2]
    split
    · exact hnodup.1
    · rename_i hij
      -- it was in the list of its own class alone
      intro hmem'
      obtain ⟨other, hother, -, hclass'⟩ := (h.cached j data).mp hmem'
      obtain rfl := Option.some.inj (hother.symm.trans hheap)
      exact hij (Option.some.inj (hclass'.symm.trans hclass))
  · rintro ⟨_, ⟨⟩, hone, -⟩
    exact absurd hone (show (1 : UInt32) ≠ 0 by decide)
  · show requestedSize ≤ block.capacity
    rw [(hok.class_ i hclass).2]
    exact hsize

/-- A block that is handed out had no owner, and there is room for the request. -/
theorem allocate (h : pool.Inv owners) {requestedSize : Nat} {address data : UInt64}
    {pool' : PacketBufferPool} (hpos : 0 < requestedSize) (hdata' : owners' data = 1)
    (howners : ∀ other, other ≠ data → owners' other = owners other)
    (halloc : pool.allocate requestedSize address = some (data, pool')) :
    owners data = 0 ∧ pool'.Inv owners' ∧
      ∃ block, pool'.heap data = some block ∧ requestedSize ≤ block.capacity := by
  unfold PacketBufferPool.allocate at halloc
  rw [if_neg (Nat.pos_iff_ne_zero.mp hpos)] at halloc
  have hrequests : ({ pool with totalRequests := pool.totalRequests + 1 }).Inv owners :=
    h.congr rfl rfl fun _ => ⟨rfl, rfl⟩
  cases hindex : sizeToClassIndex requestedSize with
  -- too large for every class
  | none =>
      rw [hindex] at halloc
      exact hrequests.allocateNewBlock (fun _ h => by cases h) hdata' howners halloc
  | some i =>
      rw [hindex] at halloc
      have hsize := le_blockSize hindex
      have hbucket := hrequests.modifyBucket i
        (f := fun bucket => { bucket with requests := bucket.requests + 1 })
        (fun _ => rfl) (fun _ => rfl)
      dsimp only at halloc
      split at halloc
      · rename_i hlist
        obtain ⟨rfl, rfl⟩ := Prod.mk.inj (Option.some.inj halloc)
        -- a cached block of the class
        exact hbucket.reuse hlist hsize hdata' howners
      · refine hbucket.allocateNewBlock (fun j hj => ?_) hdata' howners halloc
        obtain rfl := Option.some.inj hj
        exact ⟨rfl, hsize⟩

/-! ### Release, trimming and retuning -/

/-- Blocks leave the front of a free list and the heap. -/
theorem evict (h : pool.Inv owners) {i : Fin kClassCount} {overflow rest : List UInt64}
    (hlist : (pool.classes i).freeList = overflow ++ rest) :
    (overflow.foldl (fun pool data => pool.delete data)
      (pool.modifyBucket i fun bucket => { bucket with freeList := rest })).Inv owners := by
  have hnodup := h.nodup i
  rw [hlist] at hnodup
  obtain ⟨hoverflow, hrest, hdisjoint⟩ := List.nodup_append'.mp hnodup
  -- what leaves stood idle in this class
  have hidle {data : UInt64} (hmem : data ∈ overflow) : idle pool.heap i data :=
    (h.cached i data).mp (hlist ▸ List.mem_append_left rest hmem)
  have hstands : ∀ data ∈ overflow, ∃ block,
      (pool.modifyBucket i fun bucket => { bucket with freeList := rest }).heap data = some block :=
    fun data hmem => (hidle hmem).imp fun _ hblock => hblock.1
  rw [foldl_delete hoverflow hstands]
  have hbucket := @classes_setFreeList pool i rest
  -- the other idle blocks stay idle
  have hidle_iff (j : Fin kClassCount) (data : UInt64) :
      idle (fun data => if data ∈ overflow then none else pool.heap data) j data ↔
        data ∉ overflow ∧ idle pool.heap j data := by
    unfold idle
    dsimp only
    by_cases hmem : data ∈ overflow
    · rw [if_pos hmem]
      exact iff_of_false (fun ⟨_, hblock, _⟩ => by cases hblock) fun hnot => hnot.1 hmem
    · rw [if_neg hmem]
      exact (and_iff_right hmem).symm
  refine
    { sizes := fun j => (hbucket j).1.trans (h.sizes j)
      null := ?_
      dangling := h.dangling
      blocks := fun data block hblock => ?_
      freed := fun data hnone => ?_
      nodup := fun j => ?_
      cached := fun j data => ?_ }
  · show (if (0 : UInt64) ∈ overflow then none else pool.heap 0) = none
    rw [h.null, ite_self]
  · change (if data ∈ overflow then none else pool.heap data) = some block at hblock
    split at hblock
    · cases hblock
    · exact h.blocks data block hblock
  · change (if data ∈ overflow then none else pool.heap data) = none at hnone
    split at hnone
    · rename_i hmem
      obtain ⟨block, hblock, hzero, -⟩ := hidle hmem
      rw [← (h.blocks data block hblock).count, hzero]
      rfl
    · exact h.freed data hnone
  · show (Function.update pool.classes i { pool.classes i with freeList := rest } j).freeList.Nodup
    rw [(hbucket j).2]
    split
    · exact hrest
    · exact h.nodup j
  · show data ∈
        (Function.update pool.classes i { pool.classes i with freeList := rest } j).freeList ↔
      idle (fun data => if data ∈ overflow then none else pool.heap data) j data
    rw [(hbucket j).2, hidle_iff, ← h.cached j data]
    split
    · rename_i hij
      subst hij
      rw [hlist, List.mem_append]
      constructor
      · intro hmem
        exact ⟨fun hmem' => hdisjoint hmem' hmem, .inr hmem⟩
      · rintro ⟨hnot, hmem⟩
        exact hmem.resolve_left hnot
    · rename_i hij
      -- no block is cached in two classes
      refine (and_iff_right_of_imp fun hmem hmem' => hij ?_).symm
      obtain ⟨block, hblock, -, hclass⟩ := (h.cached j data).mp hmem
      obtain ⟨block', hblock', -, hclass'⟩ := hidle hmem'
      obtain rfl := Option.some.inj (hblock.symm.trans hblock')
      exact Option.some.inj (hclass.symm.trans hclass')

theorem trimClassCache (h : pool.Inv owners) (i : Fin kClassCount) (target : UInt64) :
    (pool.trimClassCache i target).Inv owners := by
  unfold PacketBufferPool.trimClassCache
  dsimp only
  split
  · exact h
  · exact h.evict (List.take_append_drop ..).symm

theorem retuneClass (h : pool.Inv owners) (demandSum : Float) (i : Fin kClassCount) :
    (pool.retuneClass demandSum i).Inv owners := by
  have htarget := h.modifyBucket i
    (f := fun bucket =>
      { bucket with targetCachedBlocks := retunedTarget demandSum (pool.classes i) })
    (fun _ => rfl) (fun _ => rfl)
  exact htarget.trimClassCache i _

theorem collectDemand (h : pool.Inv owners) (i : Fin kClassCount) :
    (pool.collectDemand i).Inv owners :=
  h.modifyBucket i
    (f := fun bucket => { bucket with requests := 0, ewmaDemand := updatedDemand bucket })
    (fun _ => rfl) (fun _ => rfl)

/-- A loop over the classes each of whose passes keeps the invariant. -/
theorem foldl {f : PacketBufferPool → Fin kClassCount → PacketBufferPool}
    (hf : ∀ pool i, pool.Inv owners → (f pool i).Inv owners) (indices : List (Fin kClassCount))
    (h : pool.Inv owners) : (indices.foldl f pool).Inv owners := by
  induction indices generalizing pool with
  | nil => exact h
  | cons i indices ih => exact ih (hf pool i h)

theorem retuneTargets (h : pool.Inv owners) : pool.retuneTargets.Inv owners := by
  have hdemands : ((List.finRange kClassCount).foldl
      (fun pool i => pool.collectDemand i) pool).Inv owners :=
    foldl (fun _ i h => h.collectDemand i) _ h
  unfold PacketBufferPool.retuneTargets
  dsimp only
  split
  · exact hdemands
  · exact foldl (fun _ i h => h.retuneClass _ i) _ hdemands

theorem maybeRetune (h : pool.Inv owners) : pool.maybeRetune.Inv owners := by
  unfold PacketBufferPool.maybeRetune
  split
  · exact h
  · exact h.retuneTargets

/-- A block without an owner that leaves the heap. -/
theorem drop (h : pool.Inv owners) {data : UInt64} (hdata : data ≠ 0) (hdata' : owners' data = 0)
    (howners : ∀ other, other ≠ data → owners' other = owners other)
    (hnotMem : ∀ i, data ∉ (pool.classes i).freeList) :
    ({ pool with heap := Function.update pool.heap data none }).Inv owners' := by
  refine h.set hdata rfl rfl (fun _ => rfl) howners (fun _ h => by cases h) (fun _ => hdata')
    h.nodup (fun _ _ _ => Iff.rfl) fun i => iff_of_false (hnotMem i) ?_
  rintro ⟨_, hnone, -⟩
  cases hnone

/-- A block without an owner that goes into the cache of its class. -/
theorem cache (h : pool.Inv owners) {data : UInt64} {block : Block} {i : Fin kClassCount}
    (hdata : data ≠ 0) (hzero : block.refCount = 0) (hclass : block.sizeClassIndex = some i)
    (hok : BlockOk block (owners' data))
    (howners : ∀ other, other ≠ data → owners' other = owners other)
    (hnotMem : ∀ i, data ∉ (pool.classes i).freeList) :
    (({ pool with heap := Function.update pool.heap data (some block) }).modifyBucket i
      fun bucket => { bucket with freeList := data :: bucket.freeList }).Inv owners' := by
  have hbucket := @classes_setFreeList pool i (data :: (pool.classes i).freeList)
  refine h.set hdata rfl rfl (fun j => (hbucket j).1) howners ?_ (fun h => by cases h)
    (fun j => ?_) (fun j other hother => ?_) fun j => ?_
  · rintro _ ⟨⟩
    exact hok
  · refine (hbucket j).2 ▸ ?_
    split
    · exact List.nodup_cons.mpr ⟨hnotMem i, h.nodup i⟩
    · exact h.nodup j
  · refine (hbucket j).2 ▸ ?_
    split
    · rename_i hij
      subst hij
      rw [List.mem_cons]
      exact or_iff_right hother
    · exact Iff.rfl
  · refine (hbucket j).2 ▸ ?_
    split
    · rename_i hij
      subst hij
      exact iff_of_true List.mem_cons_self ⟨block, rfl, hzero, hclass⟩
    · rename_i hij
      refine iff_of_false (hnotMem j) ?_
      rintro ⟨_, ⟨⟩, -, hclass'⟩
      exact hij (Option.some.inj (hclass'.symm.trans hclass))

/-- Only the last release of a block puts it away. -/
theorem release (h : pool.Inv owners) {data : UInt64} (hpos : 0 < owners data)
    (hdata' : owners' data = owners data - 1)
    (howners : ∀ other, other ≠ data → owners' other = owners other) :
    (pool.release data).Inv owners' := by
  obtain ⟨block, hheap⟩ := h.heap_of_pos hpos
  have hok := h.blocks data block hheap
  have hdata := h.ne_zero_of_heap hheap
  have hnotMem := h.notMem_of_pos hpos
  have hmodify :
      pool.modifyBlock data (fun other => { other with refCount := block.refCount - 1 }) =
      { pool with
        heap := Function.update pool.heap data
          (some { block with refCount := block.refCount - 1 }) } := by
    unfold modifyBlock
    rw [hheap]
  unfold PacketBufferPool.release
  rw [if_neg hdata, hheap]
  dsimp only
  rw [hmodify]
  -- the count is the number of owners, so it does not go below zero
  have hone : (1 : UInt32) ≤ block.refCount := by
    rw [UInt32.le_iff_toNat_le, hok.count]
    exact hpos
  have hcount : (block.refCount - 1).toNat = owners' data := by
    rw [UInt32.toNat_sub_of_le _ _ hone, hok.count, hdata']
    rfl
  split
  · rename_i hmore
    -- others remain
    have hne : block.refCount - 1 ≠ 0 := fun hzero =>
      hmore ((UInt32.sub_eq_iff_eq_add.mp hzero).trans (UInt32.zero_add 1))
    refine h.set hdata rfl rfl (fun _ => rfl) howners ?_ (fun h => by cases h) h.nodup
      (fun _ _ _ => Iff.rfl) fun i => iff_of_false (hnotMem i) ?_
    · rintro _ ⟨⟩
      exact ⟨hcount, hok.class_, fun hzero => absurd hzero hne⟩
    · rintro ⟨_, ⟨⟩, hzero, -⟩
      exact hne hzero
  · rename_i hlast
    -- the last owner: into the cache of its class, or back to the heap
    have hlast' : block.refCount = 1 := not_not.mp hlast
    have hzero : block.refCount - 1 = 0 := by rw [hlast', UInt32.sub_self]
    have hnone : owners' data = 0 := by
      rw [← hcount, hzero]
      rfl
    have hdrop (cell : Block) :
        ({ pool with heap := Function.update pool.heap data (some cell) }).delete data =
          { pool with heap := Function.update pool.heap data none } := by
      rw [delete_eq (Function.update_self ..), Function.update_idem]
    have hdropped := h.drop hdata hnone howners hnotMem
    split
    · rename_i i hpooled hclass
      refine Inv.maybeRetune ?_
      split
      · exact h.cache hdata hzero hclass
          ⟨hcount, hok.class_, fun _ => hclass ▸ Option.some_ne_none i⟩ howners hnotMem
      · rw [hdrop]
        exact hdropped
    · rw [hdrop]
      exact hdropped

/-! ### The other accesses -/

/-- A write behind a header. -/
theorem write (h : pool.Inv owners) {data : UInt64} {block : Block} (bytes : Bytes)
    (hheap : pool.heap data = some block) :
    (pool.modifyBlock data fun block => { block with bytes }).Inv owners := by
  have hok := h.blocks data block hheap
  unfold modifyBlock
  rw [hheap]
  refine h.set (h.ne_zero_of_heap hheap) rfl rfl (fun _ => rfl) (fun _ _ => rfl) ?_
    (fun h => by cases h) h.nodup (fun _ _ _ => Iff.rfl) fun i => ?_
  · rintro _ ⟨⟩
    exact ⟨hok.count, hok.class_, hok.kept⟩
  · rw [h.cached i data]
    unfold idle
    rw [hheap]
    constructor
    · rintro ⟨_, ⟨⟩, hblock⟩
      exact ⟨_, rfl, hblock⟩
    · rintro ⟨_, ⟨⟩, hblock⟩
      exact ⟨_, rfl, hblock⟩

theorem boostClassCacheForSize (h : pool.Inv owners) (requestedSize : Nat)
    (minTargetBlocks : UInt64) :
    (pool.boostClassCacheForSize requestedSize minTargetBlocks).Inv owners := by
  unfold PacketBufferPool.boostClassCacheForSize
  split
  · exact h
  · split
    · exact h
    · split
      · exact h.modifyBucket _
          (f := fun bucket => { bucket with targetCachedBlocks := minTargetBlocks })
          (fun _ => rfl) (fun _ => rfl)
      · exact h

end Inv

end PacketBufferPool

end ZetaNet
