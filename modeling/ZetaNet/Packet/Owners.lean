import ZetaNet.Lib.Machine
import ZetaNet.Lib.Totals
import ZetaNet.Packet.BufferPool

/-!
# Who holds a payload buffer

The special members of `OutgoingPacket` (`z_packets.h`) over the pool. The payload union is one
word, whether `payload.data` or `payload.scalar` was written last.
-/

namespace ZetaNet

/-- An `OutgoingPacket` as it lies in memory. -/
structure PacketObject where
  channel : PacketChannelType
  flags : PackageFlags
  type : PacketType
  heapDataSize : UInt32
  lastSendTime : UInt32
  destinationPeerId : UInt32
  payload : UInt64

namespace PacketObject

/-- The test before a payload is released or shared. -/
def HoldsHeapData (packet : PacketObject) : Prop := packet.heapDataSize > 0 ∧ packet.payload ≠ 0

instance (packet : PacketObject) : Decidable packet.HoldsHeapData :=
  inferInstanceAs (Decidable (_ ∧ _))

/-- The default constructor. -/
def default : PacketObject where
  channel := .data
  flags := ⟨false, false, false, .low, false, false, false⟩
  type := .invalid
  heapDataSize := 0
  lastSendTime := 0
  destinationPeerId := 0
  payload := 0

/-- The constructor without data. -/
def withoutData (peerId : UInt32) (type : PacketType) (channel : PacketChannelType)
    (flags : PackageFlags) : PacketObject where
  channel
  flags
  type
  heapDataSize := 0
  lastSendTime := 0
  destinationPeerId := peerId
  payload := 0

/-- The constructor with data; `::operator new` would choose the address. -/
def withData (peerId : UInt32) (type : PacketType) (channel : PacketChannelType)
    (flags : PackageFlags) (data : Bytes) (address : UInt64) (pool : PacketBufferPool) :
    Option (PacketObject × PacketBufferPool) :=
  let packet : PacketObject :=
    { channel
      flags
      type
      heapDataSize := UInt32.ofNat data.length
      lastSendTime := 0
      destinationPeerId := peerId
      payload := 0 }
  if packet.heapDataSize > 0 then
    match pool.allocate data.length address with
    | none => none
    | some (payload, pool) =>
        some ({ packet with payload }, pool.modifyBlock payload fun block =>
          { block with bytes := data })
  else some (packet, pool)

/-- `ReleasePayload`. -/
def releasePayload (packet : PacketObject) (pool : PacketBufferPool) :
    PacketObject × PacketBufferPool :=
  ({ packet with heapDataSize := 0, payload := 0 },
    if packet.HoldsHeapData then pool.release packet.payload else pool)

/-- `CopyPayloadFrom`. -/
def copyPayloadFrom (packet other : PacketObject) (pool : PacketBufferPool) :
    PacketObject × PacketBufferPool :=
  if other.HoldsHeapData then
    ({ packet with heapDataSize := other.heapDataSize, payload := other.payload },
      pool.retain other.payload)
  else ({ packet with heapDataSize := 0, payload := other.payload }, pool)

/-- The copy constructor. -/
def copy (other : PacketObject) (pool : PacketBufferPool) : PacketObject × PacketBufferPool :=
  copyPayloadFrom { other with heapDataSize := 0, payload := 0 } other pool

/-- What a move leaves of a packet. -/
def moved (other : PacketObject) : PacketObject := { other with payload := 0, heapDataSize := 0 }

/-- The copy assignment, of another packet. -/
def copyAssign (packet other : PacketObject) (pool : PacketBufferPool) :
    PacketObject × PacketBufferPool :=
  let (packet, pool) := packet.releasePayload pool
  copyPayloadFrom
    { packet with
      type := other.type
      flags := other.flags
      channel := other.channel
      lastSendTime := other.lastSendTime
      destinationPeerId := other.destinationPeerId } other pool

/-- The move assignment, of another packet. -/
def moveAssign (packet other : PacketObject) (pool : PacketBufferPool) :
    PacketObject × PacketBufferPool :=
  let (packet, pool) := packet.releasePayload pool
  ({ packet with
      type := other.type
      flags := other.flags
      channel := other.channel
      heapDataSize := other.heapDataSize
      lastSendTime := other.lastSendTime
      destinationPeerId := other.destinationPeerId
      payload := other.payload }, pool)

/-- How often a packet counts as an owner of a block. -/
def weight (data : UInt64) (packet : PacketObject) : Nat :=
  if packet.HoldsHeapData ∧ packet.payload = data then 1 else 0

end PacketObject

/-- The pool and the packets that live, each at the place it was constructed at. -/
structure PacketStore where
  pool : PacketBufferPool
  packets : AList fun _ : Nat => PacketObject

inductive PacketEvent
  | default (slot : Nat)
  | withData (slot : Nat) (peerId : UInt32) (type : PacketType) (channel : PacketChannelType)
      (flags : PackageFlags) (data : Bytes) (address : UInt64)
  | withoutData (slot : Nat) (peerId : UInt32) (type : PacketType) (channel : PacketChannelType)
      (flags : PackageFlags)
  | copy (slot other : Nat)
  | move (slot other : Nat)
  | copyAssign (slot other : Nat)
  | moveAssign (slot other : Nat)
  | destroy (slot : Nat)
  /-- a write of `payload.scalar`, to a packet without heap data -/
  | scalar (slot : Nat) (value : UInt64)
  | boost (requestedSize : Nat) (minTargetBlocks : UInt64)

namespace PacketStore

open PacketObject

def start : PacketStore := ⟨.start, ∅⟩

/-- How many packets hold a block. -/
def owners (s : PacketStore) (data : UInt64) : Nat := s.packets.total fun _ => weight data

/-- A packet is put at its place. -/
def put (slot : Nat) (result : PacketObject × PacketBufferPool) (s : PacketStore) : PacketStore :=
  ⟨result.2, s.packets.insert slot result.1⟩

/-- One special member. A constructor runs where no packet lives, the others where one does. -/
def machine : Machine PacketStore PacketEvent where
  step s
    | .default slot =>
        if slot ∈ s.packets then none else some (s.put slot (PacketObject.default, s.pool))
    | .withData slot peerId type channel flags data address =>
        if slot ∈ s.packets then none
        else (PacketObject.withData peerId type channel flags data address s.pool).map
          fun result => s.put slot result
    | .withoutData slot peerId type channel flags =>
        if slot ∈ s.packets then none
        else some (s.put slot (PacketObject.withoutData peerId type channel flags, s.pool))
    | .copy slot other =>
        if slot ∈ s.packets then none
        else (s.packets.lookup other).map fun source => s.put slot (source.copy s.pool)
    | .move slot other =>
        if slot ∈ s.packets then none
        else (s.packets.lookup other).map fun source =>
          (s.put slot (source, s.pool)).put other (source.moved, s.pool)
    | .copyAssign slot other =>
        (s.packets.lookup slot).bind fun target => (s.packets.lookup other).map fun source =>
          -- the guard against assignment to itself
          if slot = other then s else s.put slot (target.copyAssign source s.pool)
    | .moveAssign slot other =>
        (s.packets.lookup slot).bind fun target => (s.packets.lookup other).map fun source =>
          if slot = other then s
          else
            let result := target.moveAssign source s.pool
            (s.put slot result).put other (source.moved, result.2)
    | .destroy slot =>
        (s.packets.lookup slot).map fun packet =>
          ⟨(packet.releasePayload s.pool).2, s.packets.erase slot⟩
    | .scalar slot value =>
        (s.packets.lookup slot).bind fun packet =>
          -- the payload word of a packet without heap data may hold anything
          if packet.heapDataSize = 0 then
            some (s.put slot ({ packet with payload := value }, s.pool))
          else none
    | .boost requestedSize minTargetBlocks =>
        some { s with pool := s.pool.boostClassCacheForSize requestedSize minTargetBlocks }

/-! ## What a block can be -/

/-- Freed, cached in the one free list of its class, or owned. -/
inductive Standing (s : PacketStore) (data : UInt64) : Prop
  | freed (hheap : s.pool.heap data = none) (howners : s.owners data = 0)
      (hlists : ∀ i, data ∉ (s.pool.classes i).freeList)
  | cached (block : Block) (i : Fin PacketBufferPool.kClassCount)
      (hheap : s.pool.heap data = some block) (hclass : block.sizeClassIndex = some i)
      (hcount : block.refCount = 0) (howners : s.owners data = 0)
      (honce : (s.pool.classes i).freeList.count data = 1)
      (hothers : ∀ j, j ≠ i → data ∉ (s.pool.classes j).freeList)
  | owned (block : Block) (hheap : s.pool.heap data = some block) (hpos : 0 < s.owners data)
      (hcount : block.refCount.toNat = s.owners data)
      (hlists : ∀ i, data ∉ (s.pool.classes i).freeList)

/-- No header is touched once its block is freed, and each block is accounted for. -/
def Accounted (s : PacketStore) : Prop := s.pool.dangling = false ∧ ∀ data, Standing s data

/-- A copy is made only of a payload with less than 2^32 - 1 owners. -/
def Room (s : PacketStore) : PacketEvent → Prop
  | .copy _ other => ∀ source, s.packets.lookup other = some source →
      ∀ data, source.weight data = 1 → s.owners data + 1 < 2 ^ 32
  | .copyAssign slot other => slot ≠ other → ∀ target source,
      s.packets.lookup slot = some target → s.packets.lookup other = some source →
      ∀ data, source.weight data = 1 → target.weight data = 1 ∨ s.owners data + 1 < 2 ^ 32
  | _ => True

/-! ## The special members on packet and pool -/

end PacketStore

namespace PacketObject

variable {pool pool' : PacketBufferPool} {owners owners' : UInt64 → Nat}
  {packet packet' other : PacketObject} {data : UInt64}

theorem weight_eq_one : packet.weight data = 1 ↔ packet.HoldsHeapData ∧ packet.payload = data := by
  unfold weight
  split
  · rename_i hholds
    exact iff_of_true rfl hholds
  · rename_i hholds
    exact iff_of_false (by decide) hholds

theorem weight_of_ne (hne : data ≠ packet.payload) : packet.weight data = 0 :=
  if_neg fun hholds => hne hholds.2.symm

theorem weight_of_not_holds (hholds : ¬ packet.HoldsHeapData) (data : UInt64) :
    packet.weight data = 0 :=
  if_neg fun h => hholds h.1

theorem weight_payload (hholds : packet.HoldsHeapData) : packet.weight packet.payload = 1 :=
  if_pos ⟨hholds, rfl⟩

/-- Only the size and the payload count. -/
theorem weight_congr (hsize : packet'.heapDataSize = packet.heapDataSize)
    (hpayload : packet'.payload = packet.payload) (data : UInt64) :
    packet'.weight data = packet.weight data := by
  have hholds : packet'.HoldsHeapData ↔ packet.HoldsHeapData := by
    unfold HoldsHeapData
    rw [hsize, hpayload]
  unfold weight
  simp only [hholds, hpayload]

theorem weight_of_size_zero (hsize : packet.heapDataSize = 0) (data : UInt64) :
    packet.weight data = 0 :=
  weight_of_not_holds (fun hholds => absurd (hsize ▸ hholds.1) (by decide)) data

/-- A packet that lets go of its payload is one owner less. -/
theorem releasePayload_inv (h : pool.Inv owners)
    (hheld : ∀ data, packet.weight data ≤ owners data)
    (howners : ∀ data, owners' data + packet.weight data = owners data) :
    (packet.releasePayload pool).2.Inv owners' := by
  unfold releasePayload
  dsimp only
  split
  · rename_i hholds
    have hone := weight_payload hholds
    have hle := hheld packet.payload
    refine h.release (by omega) ?_ fun data hne => ?_
    · have hdata := howners packet.payload
      omega
    · have hdata := howners data
      rw [weight_of_ne hne] at hdata
      exact hdata
  · rename_i hholds
    have hsame : owners' = owners := funext fun data => by
      have hdata := howners data
      rw [weight_of_not_holds hholds] at hdata
      exact hdata
    rw [hsame]
    exact h

/-- A packet that shares another one's payload is one owner more. -/
theorem copyPayloadFrom_inv (h : pool.Inv owners)
    (hheld : ∀ data, other.weight data ≤ owners data)
    (hroom : ∀ data, other.weight data = 1 → owners data + 1 < 2 ^ 32)
    (howners : ∀ data, owners' data = owners data + other.weight data) :
    (packet.copyPayloadFrom other pool).2.Inv owners' := by
  unfold copyPayloadFrom
  split
  · rename_i hholds
    have hone := weight_payload hholds
    have hle := hheld other.payload
    refine h.retain (by omega) (hroom _ hone) ?_ fun data hne => ?_
    · rw [howners, hone]
    · rw [howners, weight_of_ne hne, Nat.add_zero]
  · rename_i hholds
    have hsame : owners' = owners := funext fun data => by
      rw [howners, weight_of_not_holds hholds, Nat.add_zero]
    rw [hsame]
    exact h

/-- The two packets then hold the same. -/
theorem weight_copyPayloadFrom (data : UInt64) :
    (packet.copyPayloadFrom other pool).1.weight data = other.weight data := by
  unfold copyPayloadFrom
  split
  · exact weight_congr rfl rfl data
  · rename_i hholds
    rw [weight_of_not_holds hholds]
    exact weight_of_size_zero rfl data

theorem weight_moved (data : UInt64) : other.moved.weight data = 0 := weight_of_size_zero rfl data

/-- A payload that is taken from the pool has room for the data and no other owner. -/
theorem withData_inv {peerId : UInt32} {type : PacketType} {channel : PacketChannelType}
    {flags : PackageFlags} {bytes : Bytes} {address : UInt64} (h : pool.Inv owners)
    (hresult : withData peerId type channel flags bytes address pool = some (packet, pool'))
    (howners : ∀ data, owners' data = owners data + packet.weight data) :
    pool'.Inv owners' ∧ (packet.HoldsHeapData → owners packet.payload = 0 ∧
      ∃ block, pool'.heap packet.payload = some block ∧ bytes.length ≤ block.capacity) := by
  unfold withData at hresult
  dsimp only at hresult
  split at hresult
  · rename_i hsize
    split at hresult
    · cases hresult
    · rename_i payload mid halloc
      obtain ⟨rfl, rfl⟩ := Prod.mk.inj (Option.some.inj hresult)
      have hpos : 0 < bytes.length := by
        by_contra hempty
        rw [Nat.eq_zero_of_not_pos hempty] at hsize
        exact absurd hsize (by decide)
      obtain ⟨hzero, hmid, block, hheap, hcapacity⟩ := @PacketBufferPool.Inv.allocate pool owners
        (fun data => if data = payload then 1 else owners data) h _ _ _ _ hpos (if_pos rfl)
        (fun _ hne => if_neg hne) halloc
      have hholds : HoldsHeapData ⟨channel, flags, type, UInt32.ofNat bytes.length, 0, peerId,
          payload⟩ := ⟨hsize, hmid.ne_zero_of_heap hheap⟩
      -- the new packet is the one owner of the block it was given
      have hsame : owners' = fun data => if data = payload then 1 else owners data :=
        funext fun data => by
          rw [howners]
          split
          · rename_i hdata
            rw [hdata, hzero, Nat.zero_add]
            exact weight_payload hholds
          · rename_i hne
            rw [weight_of_ne hne, Nat.add_zero]
      rw [hsame]
      refine ⟨hmid.write bytes hheap, fun _ => ⟨hzero, { block with bytes }, ?_, hcapacity⟩⟩
      unfold PacketBufferPool.modifyBlock
      rw [hheap]
      exact Function.update_self ..
  · rename_i hsize
    obtain ⟨rfl, rfl⟩ := Prod.mk.inj (Option.some.inj hresult)
    -- without a size no block is asked for
    have hholds : ¬ HoldsHeapData ⟨channel, flags, type, UInt32.ofNat bytes.length, 0, peerId,
        0⟩ := fun hholds => hsize hholds.1
    have hsame : owners' = owners := funext fun data => by
      rw [howners, weight_of_not_holds hholds, Nat.add_zero]
    rw [hsame]
    exact ⟨h, fun hholds' => absurd hholds' hholds⟩

end PacketObject

namespace PacketStore

open PacketObject

variable {s s' : PacketStore} {e : PacketEvent} {slot other : Nat} {data : UInt64}

/-! ## Owners of a block -/

theorem owners_put (h : slot ∉ s.packets) (packet : PacketObject) (pool : PacketBufferPool)
    (data : UInt64) :
    (s.put slot (packet, pool)).owners data = s.owners data + packet.weight data := by
  rw [Nat.add_comm]
  exact AList.total_insert_of_notMem _ h

theorem owners_put_add {old : PacketObject} (h : s.packets.lookup slot = some old)
    (packet : PacketObject) (pool : PacketBufferPool) (data : UInt64) :
    (s.put slot (packet, pool)).owners data + old.weight data =
      packet.weight data + s.owners data :=
  AList.total_insert _ h

theorem weight_le_owners {packet : PacketObject} (h : s.packets.lookup slot = some packet)
    (data : UInt64) : packet.weight data ≤ s.owners data :=
  AList.weight_le_total (fun _ => weight data) h

/-- Two packets are two owners. -/
theorem weight_add_le_owners {target source : PacketObject} (hne : slot ≠ other)
    (htarget : s.packets.lookup slot = some target)
    (hsource : s.packets.lookup other = some source) (data : UInt64) :
    target.weight data + source.weight data ≤ s.owners data := by
  have herase := AList.total_erase (fun _ => weight data) htarget
  have hother : (s.packets.erase slot).lookup other = some source := by
    rw [AList.lookup_erase_ne hne.symm]
    exact hsource
  have hle := AList.weight_le_total (fun _ => weight data) hother
  unfold owners
  rw [herase]
  exact Nat.add_le_add_left hle _

/-- What holds between any two special members. -/
def Inv (s : PacketStore) : Prop := s.pool.Inv s.owners

theorem inv_start : start.Inv := PacketBufferPool.inv_start

theorem Inv.accounted (h : s.Inv) : s.Accounted := by
  refine ⟨h.dangling, fun data => ?_⟩
  cases hheap : s.pool.heap data with
  | none =>
      refine .freed hheap (h.freed data hheap) fun i hmem => ?_
      obtain ⟨block, hblock, -⟩ := (h.cached i data).mp hmem
      rw [hheap] at hblock
      cases hblock
  | some block =>
      have hok := h.blocks data block hheap
      by_cases hzero : block.refCount = 0
      · obtain ⟨i, hclass⟩ := Option.ne_none_iff_exists'.mp (hok.kept hzero)
        have hmem := (h.cached i data).mpr ⟨block, hheap, hzero, hclass⟩
        refine .cached block i hheap hclass hzero ?_
          (List.count_eq_one_of_mem (h.nodup i) hmem) fun j hij hmem' => ?_
        · rw [← hok.count, hzero]
          rfl
        · obtain ⟨block', hheap', -, hclass'⟩ := (h.cached j data).mp hmem'
          obtain rfl := Option.some.inj (hheap.symm.trans hheap')
          exact hij (Option.some.inj (hclass'.symm.trans hclass))
      · have hpos : 0 < s.owners data := by
          rw [← hok.count]
          exact Nat.pos_of_ne_zero fun h => hzero (UInt32.toNat_inj.mp h)
        exact .owned block hheap hpos hok.count (PacketBufferPool.Inv.notMem_of_pos h hpos)

/-- A block that is accounted for has an exact count, which has 32 bits. -/
theorem Accounted.owners_lt (h : s.Accounted) (data : UInt64) : s.owners data < 2 ^ 32 := by
  cases h.2 data with
  | freed _ howners =>
      rw [howners]
      norm_num
  | cached _ _ _ _ _ howners =>
      rw [howners]
      norm_num
  | owned block _ _ hcount =>
      rw [← hcount]
      exact block.refCount.toNat_lt

/-! ## One special member -/

/-- A packet without heap data is put where none lives. -/
theorem Inv.putEmpty (h : s.Inv) (hslot : slot ∉ s.packets) {packet : PacketObject}
    (hsize : packet.heapDataSize = 0) : (s.put slot (packet, s.pool)).Inv := by
  have howners : (s.put slot (packet, s.pool)).owners = s.owners := funext fun data => by
    rw [owners_put hslot, weight_of_size_zero hsize, Nat.add_zero]
  unfold Inv
  rw [howners]
  exact h

theorem Inv.withData (h : s.Inv) (hslot : slot ∉ s.packets) {peerId : UInt32} {type : PacketType}
    {channel : PacketChannelType} {flags : PackageFlags} {bytes : Bytes} {address : UInt64}
    {packet : PacketObject} {pool : PacketBufferPool}
    (hresult : PacketObject.withData peerId type channel flags bytes address s.pool =
      some (packet, pool)) :
    (s.put slot (packet, pool)).Inv ∧ (packet.HoldsHeapData → s.owners packet.payload = 0 ∧
      ∃ block, pool.heap packet.payload = some block ∧ bytes.length ≤ block.capacity) :=
  withData_inv h hresult (owners_put hslot packet pool)

theorem Inv.copy (h : s.Inv) (hslot : slot ∉ s.packets) {source : PacketObject}
    (hother : s.packets.lookup other = some source)
    (hroom : ∀ data, source.weight data = 1 → s.owners data + 1 < 2 ^ 32) :
    (s.put slot (source.copy s.pool)).Inv :=
  copyPayloadFrom_inv h (weight_le_owners hother) hroom fun data => by
    rw [← weight_copyPayloadFrom data]
    exact owners_put hslot ..

/-- A move takes the payload along. -/
theorem Inv.move (h : s.Inv) (hslot : slot ∉ s.packets) {source : PacketObject}
    (hother : s.packets.lookup other = some source) :
    ((s.put slot (source, s.pool)).put other (source.moved, s.pool)).Inv := by
  have hne : other ≠ slot := by
    rintro rfl
    rw [AList.lookup_eq_none.mpr hslot] at hother
    cases hother
  have howners : ((s.put slot (source, s.pool)).put other (source.moved, s.pool)).owners =
      s.owners := funext fun data => by
    have hother' : (s.put slot (source, s.pool)).packets.lookup other = some source := by
      rw [← hother]
      exact AList.lookup_insert_ne hne
    have hmoved := owners_put_add hother' source.moved s.pool data
    rw [weight_moved, owners_put hslot] at hmoved
    omega
  unfold Inv
  rw [howners]
  exact h

theorem Inv.copyAssign (h : s.Inv) (hne : slot ≠ other) {target source : PacketObject}
    (hslot : s.packets.lookup slot = some target) (hother : s.packets.lookup other = some source)
    (hroom : ∀ data, source.weight data = 1 →
      target.weight data = 1 ∨ s.owners data + 1 < 2 ^ 32) :
    (s.put slot (target.copyAssign source s.pool)).Inv := by
  have hboth := weight_add_le_owners hne hslot hother
  -- between the release and the copy the target is no owner
  have hreleased : (target.releasePayload s.pool).2.Inv
      fun data => s.owners data - target.weight data :=
    releasePayload_inv h (weight_le_owners hslot) fun data =>
      Nat.sub_add_cancel (weight_le_owners hslot data)
  refine copyPayloadFrom_inv hreleased (fun data => ?_) (fun data hdata => ?_) fun data => ?_
  · exact Nat.le_sub_of_add_le (by rw [Nat.add_comm]; exact hboth data)
  · have hlt := h.accounted.owners_lt data
    rcases hroom data hdata with htarget | hroom
    · have hle := weight_le_owners hslot data
      omega
    · omega
  · have hput := owners_put_add hslot (target.copyAssign source s.pool).1
      (target.copyAssign source s.pool).2 data
    have hweight : (target.copyAssign source s.pool).1.weight data = source.weight data :=
      weight_copyPayloadFrom data
    have hle := weight_le_owners hslot data
    show (s.put slot ((target.copyAssign source s.pool).1,
      (target.copyAssign source s.pool).2)).owners data = _
    omega

theorem Inv.moveAssign (h : s.Inv) (hne : slot ≠ other) {target source : PacketObject}
    (hslot : s.packets.lookup slot = some target)
    (hother : s.packets.lookup other = some source) :
    ((s.put slot (target.moveAssign source s.pool)).put other
      (source.moved, (target.moveAssign source s.pool).2)).Inv := by
  refine releasePayload_inv h (weight_le_owners hslot) fun data => ?_
  have hput := owners_put_add hslot (target.moveAssign source s.pool).1
    (target.moveAssign source s.pool).2 data
  have hweight : (target.moveAssign source s.pool).1.weight data = source.weight data :=
    weight_congr rfl rfl data
  have hother' : (s.put slot (target.moveAssign source s.pool)).packets.lookup other =
      some source := by
    rw [← hother]
    exact AList.lookup_insert_ne hne.symm
  have hmoved := owners_put_add hother' source.moved (target.moveAssign source s.pool).2 data
  rw [weight_moved] at hmoved
  change _ = 0 + (s.put slot ((target.moveAssign source s.pool).1,
    (target.moveAssign source s.pool).2)).owners data at hmoved
  omega

theorem Inv.destroy (h : s.Inv) {packet : PacketObject}
    (hslot : s.packets.lookup slot = some packet) :
    Inv ⟨(packet.releasePayload s.pool).2, s.packets.erase slot⟩ := by
  refine releasePayload_inv h (weight_le_owners hslot) fun data => ?_
  have herase := AList.total_erase (fun _ => weight data) hslot
  rw [Nat.add_comm]
  exact herase.symm

theorem Inv.scalar (h : s.Inv) {packet : PacketObject} (hslot : s.packets.lookup slot = some packet)
    (hsize : packet.heapDataSize = 0) (value : UInt64) :
    (s.put slot ({ packet with payload := value }, s.pool)).Inv := by
  have howners : (s.put slot ({ packet with payload := value }, s.pool)).owners = s.owners :=
    funext fun data => by
      have hput := owners_put_add hslot { packet with payload := value } s.pool data
      rw [weight_of_size_zero hsize,
        @weight_of_size_zero { packet with payload := value } hsize] at hput
      omega
  unfold Inv
  rw [howners]
  exact h

/-- With room for one more owner a special member keeps the counts exact. -/
theorem Inv.step (h : s.Inv) (hroom : Room s e) (hstep : machine.step s e = some s') : s'.Inv := by
  cases e with
  | default slot =>
      simp only [machine] at hstep
      split at hstep
      · cases hstep
      · rename_i hslot
        obtain rfl := Option.some.inj hstep
        exact h.putEmpty hslot rfl
  | withData slot peerId type channel flags bytes address =>
      simp only [machine] at hstep
      split at hstep
      · cases hstep
      · rename_i hslot
        obtain ⟨⟨packet, pool⟩, hresult, rfl⟩ := Option.map_eq_some_iff.mp hstep
        exact (h.withData hslot hresult).1
  | withoutData slot peerId type channel flags =>
      simp only [machine] at hstep
      split at hstep
      · cases hstep
      · rename_i hslot
        obtain rfl := Option.some.inj hstep
        exact h.putEmpty hslot rfl
  | copy slot other =>
      simp only [machine] at hstep
      split at hstep
      · cases hstep
      · rename_i hslot
        obtain ⟨source, hother, rfl⟩ := Option.map_eq_some_iff.mp hstep
        -- the only constructor that shares a payload
        exact h.copy hslot hother (hroom source hother)
  | move slot other =>
      simp only [machine] at hstep
      split at hstep
      · cases hstep
      · rename_i hslot
        obtain ⟨source, hother, rfl⟩ := Option.map_eq_some_iff.mp hstep
        exact h.move hslot hother
  | copyAssign slot other =>
      obtain ⟨target, hslot, hstep⟩ := Option.bind_eq_some_iff.mp hstep
      obtain ⟨source, hother, rfl⟩ := Option.map_eq_some_iff.mp hstep
      split
      · exact h
      · rename_i hne
        -- assignment to itself is left above, so the two packets differ
        exact h.copyAssign hne hslot hother (hroom hne target source hslot hother)
  | moveAssign slot other =>
      obtain ⟨target, hslot, hstep⟩ := Option.bind_eq_some_iff.mp hstep
      obtain ⟨source, hother, rfl⟩ := Option.map_eq_some_iff.mp hstep
      split
      · exact h
      · rename_i hne
        exact h.moveAssign hne hslot hother
  | destroy slot =>
      obtain ⟨packet, hslot, rfl⟩ := Option.map_eq_some_iff.mp hstep
      exact h.destroy hslot
  | scalar slot value =>
      obtain ⟨packet, hslot, hstep⟩ := Option.bind_eq_some_iff.mp hstep
      split at hstep
      · rename_i hsize
        obtain rfl := Option.some.inj hstep
        exact h.scalar hslot hsize value
      · cases hstep
  | boost requestedSize minTargetBlocks =>
      obtain rfl := Option.some.inj hstep
      exact PacketBufferPool.Inv.boostClassCacheForSize h requestedSize minTargetBlocks

/-- Without it a payload gets more owners than its count can say. -/
theorem overflow_of_not_room (hroom : ¬ Room s e) (hstep : machine.step s e = some s') :
    ∃ data, 2 ^ 32 ≤ s'.owners data := by
  cases e with
  | copy slot other =>
      simp only [machine] at hstep
      split at hstep
      · cases hstep
      · rename_i hslot
        obtain ⟨source, hother, rfl⟩ := Option.map_eq_some_iff.mp hstep
        simp only [Room, not_forall] at hroom
        obtain ⟨source', hother', data, hdata, hfull⟩ := hroom
        obtain rfl := Option.some.inj (hother.symm.trans hother')
        have hweight : (source.copy s.pool).1.weight data = source.weight data :=
          weight_copyPayloadFrom data
        have hput := owners_put hslot (source.copy s.pool).1 (source.copy s.pool).2 data
        -- one owner more than the largest count
        refine ⟨data, ?_⟩
        show 2 ^ 32 ≤ (s.put slot ((source.copy s.pool).1, (source.copy s.pool).2)).owners data
        omega
  | copyAssign slot other =>
      obtain ⟨target, hslot, hstep⟩ := Option.bind_eq_some_iff.mp hstep
      obtain ⟨source, hother, rfl⟩ := Option.map_eq_some_iff.mp hstep
      simp only [Room, not_forall, not_or] at hroom
      obtain ⟨hne, target', source', hslot', hother', data, hdata, hshared, hfull⟩ := hroom
      obtain rfl := Option.some.inj (hslot.symm.trans hslot')
      obtain rfl := Option.some.inj (hother.symm.trans hother')
      rw [if_neg hne]
      have hzero : target.weight data = 0 :=
        if_neg fun hholds => hshared (weight_eq_one.mpr hholds)
      have hweight : (target.copyAssign source s.pool).1.weight data = source.weight data :=
        weight_copyPayloadFrom data
      have hput := owners_put_add hslot (target.copyAssign source s.pool).1
        (target.copyAssign source s.pool).2 data
      refine ⟨data, ?_⟩
      show 2 ^ 32 ≤ (s.put slot ((target.copyAssign source s.pool).1,
        (target.copyAssign source s.pool).2)).owners data
      omega
  | _ => exact absurd trivial hroom

/-! ## Exact owner counts -/

/-- A block that a packet takes from the pool had no owner, and the data fits in it. -/
def HandedOut (s s' : PacketStore) : PacketEvent → Prop
  | .withData slot _ _ _ _ bytes _ => ∀ packet, s'.packets.lookup slot = some packet →
      packet.HoldsHeapData → s.owners packet.payload = 0 ∧ s'.owners packet.payload = 1 ∧
        ∃ block, s'.pool.heap packet.payload = some block ∧ bytes.length ≤ block.capacity
  | _ => True

theorem Inv.handedOut (h : s.Inv) (hstep : machine.step s e = some s') : HandedOut s s' e := by
  cases e with
  | withData slot peerId type channel flags bytes address =>
      simp only [machine] at hstep
      split at hstep
      · cases hstep
      · rename_i hslot
        obtain ⟨⟨packet, pool⟩, hresult, rfl⟩ := Option.map_eq_some_iff.mp hstep
        intro packet' hpacket hholds
        obtain rfl : packet = packet' :=
          Option.some.inj ((AList.lookup_insert s.packets).symm.trans hpacket)
        obtain ⟨hzero, block, hheap, hcapacity⟩ := (h.withData hslot hresult).2 hholds
        refine ⟨hzero, ?_, block, hheap, hcapacity⟩
        rw [owners_put hslot, hzero, Nat.zero_add]
        exact weight_payload hholds
  | _ => trivial

/-- The owner counts are exact in all states of a run if and only if no payload is copied that
has 2^32 - 1 owners already. Then a block is freed or handed out only without an owner. -/
theorem owner_counts_exact {events : List PacketEvent} {s : PacketStore}
    (hexec : machine.exec start events = some s) :
    (machine.Always Accounted start events ↔ machine.Along Room start events) ∧
      (machine.Along Room start events → ∀ e s', Room s e → machine.step s e = some s' →
        (∀ data, s'.pool.heap data = none → s'.owners data = 0) ∧ HandedOut s s' e) := by
  constructor
  · have hpreserved (s : PacketStore) (e : PacketEvent) (s' : PacketStore)
        (hinv : s.Accounted → s.Inv) (haccounted : s.Accounted)
        (hstep : machine.step s e = some s') :
        (s'.Accounted → s'.Inv) ∧ (s'.Accounted ↔ Room s e) := by
      by_cases hroom : Room s e
      · have h := (hinv haccounted).step hroom hstep
        exact ⟨fun _ => h, iff_of_true h.accounted hroom⟩
      · obtain ⟨data, hfull⟩ := overflow_of_not_room hroom hstep
        have hnot : ¬ s'.Accounted := fun haccounted' =>
          absurd (haccounted'.owners_lt data) (Nat.not_lt.mpr hfull)
        exact ⟨fun haccounted' => absurd haccounted' hnot, iff_of_false hnot hroom⟩
    exact Machine.always_iff_along hpreserved (fun _ => inv_start) inv_start.accounted hexec
  · intro halong e s' hroom hstep
    have h : s.Inv := Machine.invariant_of_along (fun _ _ _ h hroom hstep => h.step hroom hstep)
      inv_start halong hexec
    exact ⟨(h.step hroom hstep).freed, h.handedOut hstep⟩

/-- While few packets live there is room. -/
theorem room_of_length_lt (h : s.packets.entries.length + 1 < 2 ^ 32) (e : PacketEvent) :
    Room s e := by
  have hlt (data : UInt64) : s.owners data + 1 < 2 ^ 32 := by
    have hle : s.owners data ≤ s.packets.entries.length := by
      refine (List.sum_le_card_nsmul _ 1 fun n hn => ?_).trans_eq ?_
      · obtain ⟨entry, -, rfl⟩ := List.mem_map.mp hn
        show weight data entry.2 ≤ 1
        unfold weight
        split
        · exact le_refl 1
        · exact Nat.zero_le 1
      · rw [List.length_map, smul_eq_mul, Nat.mul_one]
    omega
  cases e with
  | copy slot other => exact fun source _ data _ => hlt data
  | copyAssign slot other => exact fun _ target source _ _ data _ => .inr (hlt data)
  | _ => trivial

/-- A payload that is shared, assigned over itself and given back. -/
def sharedRun : List PacketEvent :=
  [.withData 0 2 .message .data ⟨true, false, false, .low, false, false, false⟩ [1, 2, 3] 4096,
    .copy 1 0, .copyAssign 0 1, .copyAssign 1 1, .move 2 0, .moveAssign 1 2, .destroy 1,
    .withData 1 2 .message .data ⟨true, false, false, .low, false, false, false⟩ [4] 8192]

theorem owner_counts_exact_shared :
    ∃ s, machine.exec start sharedRun = some s ∧ machine.Always Accounted start sharedRun := by
  have hfew : machine.Along (fun s _ => s.packets.entries.length + 1 < 2 ^ 32) start sharedRun := by
    decide
  have hroom : machine.Along Room start sharedRun :=
    Machine.Along.imp (fun _ _ _ (h : True) _ _ => h) (fun _ e _ h => room_of_length_lt h e) trivial
      hfew
  exact ⟨_, rfl, (@owner_counts_exact sharedRun _ rfl).1.mpr hroom⟩

/-! ## A count that wraps -/

/-- A payload of the smallest class with `n` owners, the packet at 0 among them, and `free` places
for copies. -/
structure Crowded (data : UInt64) (free n : Nat) (s : PacketStore) : Prop where
  source : ∃ packet, s.packets.lookup 0 = some packet ∧ packet.weight data = 1
  places : ∀ slot, 0 < slot → slot ≤ free → slot ∉ s.packets
  owners : s.owners data = n
  block : ∃ block, s.pool.heap data = some block ∧ block.refCount = UInt32.ofNat n ∧
    block.pooled = true ∧ block.sizeClassIndex = some 0
  cache : (s.pool.classes 0).freeList.length < (s.pool.classes 0).targetCachedBlocks.toNat
  requests : s.pool.totalRequests < PacketBufferPool.kRetunePeriod

/-- Copies of the packet at 0, the last place first. -/
def copies : Nat → List PacketEvent
  | 0 => []
  | n + 1 => .copy (n + 1) 0 :: copies n

theorem Crowded.copy {free n : Nat} (h : Crowded data (free + 1) n s) :
    ∃ s', machine.step s (.copy (free + 1) 0) = some s' ∧ Crowded data free (n + 1) s' := by
  obtain ⟨packet, hsource, hweight⟩ := h.source
  obtain ⟨hholds, hpayload⟩ := weight_eq_one.mp hweight
  obtain ⟨block, hheap, hcount, hpooled, hclass⟩ := h.block
  have hslot := h.places (free + 1) (Nat.succ_pos free) (le_refl _)
  have hdata : data ≠ 0 := hpayload ▸ hholds.2
  -- a copy only raises the count, and does not look at it
  have hpool : (packet.copy s.pool).2 = { s.pool with
      heap := Function.update s.pool.heap data
        (some { block with refCount := block.refCount + 1 }) } := by
    unfold PacketObject.copy copyPayloadFrom PacketBufferPool.retain PacketBufferPool.modifyBlock
    rw [if_pos hholds, hpayload, if_neg hdata, hheap]
  refine ⟨s.put (free + 1) (packet.copy s.pool), ?_, ?_⟩
  · show (if free + 1 ∈ s.packets then none
      else (s.packets.lookup 0).map fun source => s.put (free + 1) (source.copy s.pool)) = _
    rw [if_neg hslot, hsource]
    rfl
  · refine
      { source := ⟨packet, ?_, hweight⟩
        places := fun slot hpos hle hmem => ?_
        owners := ?_
        block := ⟨{ block with refCount := block.refCount + 1 }, ?_, ?_, hpooled, hclass⟩
        cache := ?_
        requests := ?_ }
    · rw [← hsource]
      exact AList.lookup_insert_ne (Nat.succ_ne_zero free).symm
    · rcases (AList.mem_insert _).mp hmem with hsame | hmem'
      · omega
      · exact h.places slot hpos (by omega) hmem'
    · have hcopy : (packet.copy s.pool).1.weight data = packet.weight data :=
        weight_copyPayloadFrom data
      have hput := owners_put hslot (packet.copy s.pool).1 (packet.copy s.pool).2 data
      rw [hcopy, hweight, h.owners] at hput
      exact hput
    · show (packet.copy s.pool).2.heap data = _
      rw [hpool]
      exact Function.update_self ..
    · show block.refCount + 1 = UInt32.ofNat (n + 1)
      rw [hcount, UInt32.ofNat_add]
      rfl
    · show ((packet.copy s.pool).2.classes 0).freeList.length <
        ((packet.copy s.pool).2.classes 0).targetCachedBlocks.toNat
      rw [hpool]
      exact h.cache
    · show (packet.copy s.pool).2.totalRequests < _
      rw [hpool]
      exact h.requests

theorem Crowded.copies {free n : Nat} (h : Crowded data free n s) :
    ∃ s', machine.exec s (copies free) = some s' ∧ Crowded data 0 (n + free) s' := by
  induction free generalizing s n with
  | zero => exact ⟨s, rfl, h⟩
  | succ free ih =>
      obtain ⟨mid, hstep, hmid⟩ := h.copy
      obtain ⟨s', hexec, hs'⟩ := ih hmid
      refine ⟨s', (machine.exec_cons_eq_some).mpr ⟨mid, hstep, hexec⟩, ?_⟩
      rw [show n + (free + 1) = n + 1 + free by omega]
      exact hs'

/-- With 2^32 + 1 owners the count is 1 again, and the first owner to go takes the block with
it. -/
theorem Crowded.destroy (h : Crowded data 0 (2 ^ 32 + 1) s) :
    ∃ s', machine.step s (.destroy 0) = some s' ∧ s'.owners data = 2 ^ 32 ∧
      data ∈ (s'.pool.classes 0).freeList := by
  obtain ⟨packet, hsource, hweight⟩ := h.source
  obtain ⟨hholds, hpayload⟩ := weight_eq_one.mp hweight
  obtain ⟨block, hheap, hcount, hpooled, hclass⟩ := h.block
  have hdata : data ≠ 0 := hpayload ▸ hholds.2
  have hone : block.refCount = 1 := hcount.trans (by decide)
  refine ⟨⟨(packet.releasePayload s.pool).2, s.packets.erase 0⟩, ?_, ?_, ?_⟩
  · show (s.packets.lookup 0).map _ = _
    rw [hsource]
    rfl
  · have herase := AList.total_erase (fun _ => weight data) hsource
    have howners : s.packets.total (fun _ => weight data) = 2 ^ 32 + 1 := h.owners
    rw [howners, hweight] at herase
    show (s.packets.erase 0).total (fun _ => weight data) = 2 ^ 32
    omega
  · show data ∈ ((packet.releasePayload s.pool).2.classes 0).freeList
    unfold releasePayload PacketBufferPool.release PacketBufferPool.modifyBlock
    dsimp only
    rw [if_pos hholds, hpayload, if_neg hdata, hheap]
    dsimp only
    rw [if_neg (not_not.mpr hone), hpooled, hclass]
    dsimp only
    rw [if_pos h.cache]
    unfold PacketBufferPool.maybeRetune
    rw [if_pos (.inl h.requests)]
    show data ∈ (Function.update s.pool.classes 0 _ 0).freeList
    rw [Function.update_self]
    exact List.mem_cons_self

/-- One packet, 2^32 copies of it, and the end of the first. -/
def crowdedRun : List PacketEvent :=
  .withData 0 2 .message .data ⟨true, false, false, .low, false, false, false⟩ [7] 4096 ::
    (copies (2 ^ 32) ++ [.destroy 0])

/-- Then 2^32 packets hold a block that waits in the cache to be handed out again. -/
theorem owner_count_wraps :
    ∃ s, machine.exec start crowdedRun = some s ∧ s.owners 4096 = 2 ^ 32 ∧
      4096 ∈ (s.pool.classes 0).freeList ∧ ¬ s.Accounted := by
  obtain ⟨first, hfirst, hcrowded⟩ : ∃ first, machine.step start (.withData 0 2 .message .data
      ⟨true, false, false, .low, false, false, false⟩ [7] 4096) = some first ∧
        Crowded 4096 (2 ^ 32) 1 first := by
    refine ⟨_, rfl, ⟨_, rfl, rfl⟩, fun slot hpos _ hmem => ?_, rfl, ⟨_, rfl, rfl, rfl, rfl⟩, ?_, ?_⟩
    · exact absurd ((AList.mem_insert _).mp hmem) (by
        rintro (hzero | hempty)
        · omega
        · exact AList.notMem_empty slot hempty)
    · decide
    · decide
  obtain ⟨mid, hcopies, hmid⟩ := hcrowded.copies
  rw [Nat.add_comm] at hmid
  obtain ⟨s, hdestroy, howners, hcached⟩ := hmid.destroy
  refine ⟨s, (machine.exec_cons_eq_some).mpr ⟨first, hfirst, ?_⟩, howners, hcached, fun h => ?_⟩
  · rw [machine.exec_append, hcopies]
    exact (machine.exec_cons_eq_some).mpr ⟨s, hdestroy, rfl⟩
  · have hlt := h.owners_lt 4096
    rw [howners] at hlt
    exact absurd hlt (Nat.lt_irrefl _)

end PacketStore

end ZetaNet
