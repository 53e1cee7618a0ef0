import ZetaNet.Wire.Scalars
import ZetaNet.Wire.SystemCommand

/-!
# `PacketWriter` over its allocations

The writer of `z_system_command.h` once more, with the buffer it allocates, the machine words
it counts in and the loop that doubles them. `none` is a run that does not come back: the loop
spins, or a store is outside the allocation. Neither happens to a writer that starts with at
least one byte and stays below half of the address space, and what such a writer holds is what
`PacketWriter` holds.
-/

namespace ZetaNet

open Wire

/-- What `new byte[size]` finds in the memory it takes, which it does not clear. The sizes that
one writer allocates grow, so the contents may depend on the size alone. -/
structure Allocator where
  fresh : Nat → Bytes
  length_fresh : ∀ size, (fresh size).length = size

/-- An allocator whose memory is full of one byte. -/
def Allocator.filled (byte : UInt8) : Allocator where
  fresh size := List.replicate size byte
  length_fresh _ := List.length_replicate

/-- `class PacketWriter`. -/
structure AllocatedWriter where
  buffer : Bytes
  capacity : UInt64
  offset : UInt64
  length_buffer : buffer.length = capacity.toNat
  fits : offset.toNat ≤ capacity.toNat

namespace AllocatedWriter

variable (allocator : Allocator)

/-- `PacketWriter(initial_size)`. -/
def new (initialSize : UInt64) : AllocatedWriter where
  buffer := allocator.fresh initialSize.toNat
  capacity := initialSize
  offset := 0
  length_buffer := allocator.length_fresh _
  fits := Nat.zero_le _

/-- `data()`. -/
def data (writer : AllocatedWriter) : Bytes := writer.buffer.take writer.offset.toNat

/-- `while (new_capacity < required) new_capacity *= 2`, for so many turns at most. -/
def doubled (required : UInt64) : Nat → UInt64 → Option UInt64
  | 0, newCapacity => if newCapacity < required then none else some newCapacity
  | turns + 1, newCapacity =>
      if newCapacity < required then doubled required turns (newCapacity * 2)
      else some newCapacity

theorem required_le_doubled {required newCapacity found : UInt64} {turns : Nat}
    (h : doubled required turns newCapacity = some found) : required ≤ found := by
  induction turns generalizing newCapacity with
  | zero =>
      unfold doubled at h
      split at h
      · cases h
      · next hdone =>
        rw [← Option.some.inj h]
        exact UInt64.not_lt.mp hdone
  | succ turns ih =>
      unfold doubled at h
      split at h
      · exact ih h
      · next hdone =>
        rw [← Option.some.inj h]
        exact UInt64.not_lt.mp hdone

theorem toNat_double (newCapacity : UInt64) :
    (newCapacity * 2).toNat = newCapacity.toNat * 2 % 2 ^ 64 := UInt64.toNat_mul ..

/-- The turns run out when every doubling up to the last one is still too small. -/
theorem doubled_eq_none_iff {required newCapacity : UInt64} {turns : Nat} :
    doubled required turns newCapacity = none ↔
      ∀ k ≤ turns, newCapacity.toNat * 2 ^ k % 2 ^ 64 < required.toNat := by
  induction turns generalizing newCapacity with
  | zero => simp [doubled, ← UInt64.lt_iff_toNat_lt, Nat.mod_eq_of_lt newCapacity.toNat_lt]
  | succ turns ih =>
      have hfirst : newCapacity.toNat * 2 ^ 0 % 2 ^ 64 = newCapacity.toNat := by
        rw [pow_zero, Nat.mul_one, Nat.mod_eq_of_lt newCapacity.toNat_lt]
      have hlater (k : Nat) : newCapacity.toNat * 2 ^ (k + 1) % 2 ^ 64 =
          (newCapacity * 2).toNat * 2 ^ k % 2 ^ 64 := by
        rw [toNat_double, Nat.mod_mul_mod, pow_succ', Nat.mul_assoc]
      unfold doubled
      split
      · next hless =>
        refine ih.trans ⟨fun h k hk => ?_, fun h k hk => ?_⟩
        · cases k with
          | zero => rwa [hfirst, ← UInt64.lt_iff_toNat_lt]
          | succ k => exact hlater k ▸ h k (by omega)
        · exact hlater k ▸ h (k + 1) (by omega)
      · next hdone =>
        refine ⟨nofun, fun h => absurd (h 0 (Nat.zero_le _)) ?_⟩
        rwa [hfirst, ← UInt64.lt_iff_toNat_lt]

/-- After 64 turns the word is zero and stays it, so a loop that has not ended never does. -/
theorem doubled_spins_iff {required newCapacity : UInt64} :
    doubled required 64 newCapacity = none ↔
      ∀ k, newCapacity.toNat * 2 ^ k % 2 ^ 64 < required.toNat := by
  refine doubled_eq_none_iff.trans ⟨fun h k => ?_, fun h k _ => h k⟩
  by_cases hk : k ≤ 64
  · exact h k hk
  · obtain ⟨more, rfl⟩ := Nat.exists_eq_add_of_le (Nat.le_of_not_le hk)
    have hzero (more : Nat) : newCapacity.toNat * 2 ^ (64 + more) % 2 ^ 64 = 0 := by
      rw [pow_add, Nat.mul_left_comm, Nat.mul_mod_right]
    have hlast := h 64 le_rfl
    rw [hzero]
    rwa [← Nat.add_zero 64, hzero] at hlast

/-- The loop ends from every capacity but zero when half of the address space is enough. -/
theorem exists_doubled {required newCapacity : UInt64} {turns : Nat}
    (hreach : required.toNat ≤ newCapacity.toNat * 2 ^ turns) (hhalf : required.toNat ≤ 2 ^ 63) :
    ∃ found, doubled required turns newCapacity = some found := by
  induction turns generalizing newCapacity with
  | zero =>
      refine ⟨newCapacity, if_neg ?_⟩
      rw [UInt64.lt_iff_toNat_lt]
      omega
  | succ turns ih =>
      unfold doubled
      split
      · next hless =>
        -- a word below 2^63 is doubled without a wrap
        rw [UInt64.lt_iff_toNat_lt] at hless
        refine ih ?_
        rw [toNat_double, Nat.mod_eq_of_lt (by omega), Nat.mul_assoc, ← pow_succ']
        exact hreach
      · exact ⟨newCapacity, rfl⟩

/-- The new allocation, with the bytes up to `offset_` copied over. -/
def reallocate (writer : AllocatedWriter) (newCapacity : UInt64)
    (h : writer.offset.toNat ≤ newCapacity.toNat) : AllocatedWriter where
  buffer := Buffer.store (allocator.fresh newCapacity.toNat) 0 writer.data
  capacity := newCapacity
  offset := writer.offset
  length_buffer := by
    rw [Buffer.length_store, allocator.length_fresh]
    rw [allocator.length_fresh, data, List.length_take]
    omega
  fits := h

theorem offset_le_doubled (writer : AllocatedWriter) {required found : UInt64}
    (hgrow : ¬ required ≤ writer.capacity)
    (h : doubled required 64 writer.capacity = some found) :
    writer.offset.toNat ≤ found.toNat := by
  have hrequired := required_le_doubled h
  have hfits := writer.fits
  rw [UInt64.le_iff_toNat_le] at hgrow hrequired
  omega

/-- `EnsureCapacity`; a loop that is not over after 64 turns never is (`doubled_spins_iff`). -/
def ensureCapacity (writer : AllocatedWriter) (required : UInt64) : Option AllocatedWriter :=
  if hgrow : required ≤ writer.capacity then some writer
  else
    match h : doubled required 64 writer.capacity with
    | none => none
    | some newCapacity =>
        some (writer.reallocate allocator newCapacity (writer.offset_le_doubled hgrow h))

/-- The bytes stored at `buffer_ + offset_`, with the step of the offset behind them. -/
def store (writer : AllocatedWriter) (bytes : Bytes) : Option AllocatedWriter :=
  if h : writer.offset.toNat + bytes.length ≤ writer.capacity.toNat then
    some {
      buffer := Buffer.store writer.buffer writer.offset.toNat bytes
      capacity := writer.capacity
      offset := writer.offset + UInt64.ofNat bytes.length
      length_buffer := by
        rw [Buffer.length_store (by rwa [writer.length_buffer]), writer.length_buffer]
      fits := le_trans (le_of_eq (toNat_add_ofNat (h.trans_lt writer.capacity.toNat_lt))) h }
  else none

/-- `Put` of a scalar. -/
def put {T : Type} [WireScalar T] (writer : AllocatedWriter) (value : T) :
    Option (Bool × AllocatedWriter) := do
  let writer ← writer.ensureCapacity allocator
    (writer.offset + UInt64.ofNat (WireScalar.width T).sizeOf)
  let writer ← writer.store (WireScalar.encode value)
  return (true, writer)

/-- `PutS`. -/
def putS (writer : AllocatedWriter) (bytes : Bytes) : Option (Bool × AllocatedWriter) := do
  let writer ← writer.ensureCapacity allocator (writer.offset + UInt64.ofNat bytes.length)
  let writer ← writer.store bytes
  return (true, writer)

/-- `PutList`, which makes room for the count and the bytes at once. -/
def putList (writer : AllocatedWriter) (bytes : Bytes) : Option (Bool × AllocatedWriter) :=
  if bytes.length > 65535 then some (false, writer)
  else do
    let writer ← writer.ensureCapacity allocator
      (writer.offset + 2 + UInt64.ofNat bytes.length)
    let writer ← writer.store (leU16 (UInt16.ofNat bytes.length))
    writer.putS allocator bytes

/-! ## What the writes leave -/

variable {writer : AllocatedWriter}

theorem length_data (writer : AllocatedWriter) : writer.data.length = writer.offset.toNat := by
  have hfits := writer.fits
  rw [data, List.length_take, writer.length_buffer]
  omega

theorem data_reallocate {newCapacity : UInt64} (h : writer.offset.toNat ≤ newCapacity.toNat) :
    (writer.reallocate allocator newCapacity h).data = writer.data := by
  change (Buffer.store (allocator.fresh newCapacity.toNat) 0 writer.data).take
    writer.offset.toNat = writer.data
  rw [Buffer.store_zero, ← writer.length_data, List.take_left]

/-- `EnsureCapacity` comes back with room for what is required, and the data is still there. -/
theorem ensureCapacity_spec {required : UInt64} (hpos : 1 ≤ writer.capacity)
    (hhalf : required.toNat ≤ 2 ^ 63) :
    ∃ next, writer.ensureCapacity allocator required = some next ∧ required ≤ next.capacity ∧
      writer.capacity ≤ next.capacity ∧ next.data = writer.data := by
  unfold ensureCapacity
  split
  · next hroom => exact ⟨writer, rfl, hroom, UInt64.le_refl _, rfl⟩
  · next hgrow =>
    have hreach : required.toNat ≤ writer.capacity.toNat * 2 ^ 64 := by
      rw [UInt64.le_iff_toNat_le] at hpos
      exact required.toNat_lt.le.trans (Nat.le_mul_of_pos_left _ hpos)
    obtain ⟨newCapacity, hfound⟩ := exists_doubled hreach hhalf
    have hrequired := required_le_doubled hfound
    have hlarger : writer.capacity ≤ newCapacity :=
      UInt64.le_of_lt (UInt64.lt_of_lt_of_le (UInt64.not_le.mp hgrow) hrequired)
    split
    · next hnone => cases hnone.symm.trans hfound
    · next found hsome =>
      obtain rfl := Option.some.inj (hsome.symm.trans hfound)
      exact ⟨_, rfl, hrequired, hlarger, data_reallocate allocator _⟩

/-- A store inside the capacity appends to the data. -/
theorem store_spec {bytes : Bytes}
    (h : writer.data.length + bytes.length ≤ writer.capacity.toNat) :
    ∃ next, writer.store bytes = some next ∧ next.capacity = writer.capacity ∧
      next.data = writer.data ++ bytes := by
  rw [length_data] at h
  refine ⟨_, dif_pos h, rfl, ?_⟩
  change (Buffer.store writer.buffer writer.offset.toNat bytes).take
    (writer.offset + UInt64.ofNat bytes.length).toNat = writer.data ++ bytes
  rw [toNat_add_ofNat (h.trans_lt writer.capacity.toNat_lt), Buffer.take_store, data]
  rw [writer.length_buffer]
  exact writer.fits

/-- The write returns true, and `bytes` stand behind what the writer held. -/
def Appends (result : Option (Bool × AllocatedWriter)) (writer : AllocatedWriter)
    (bytes : Bytes) : Prop :=
  ∃ next, result = some (true, next) ∧ writer.capacity ≤ next.capacity ∧
    next.data = writer.data ++ bytes

theorem putS_appends {bytes : Bytes} (hpos : 1 ≤ writer.capacity)
    (hhalf : writer.data.length + bytes.length ≤ 2 ^ 63) :
    Appends (writer.putS allocator bytes) writer bytes := by
  rw [length_data] at hhalf
  have hrequired : (writer.offset + UInt64.ofNat bytes.length).toNat =
      writer.offset.toNat + bytes.length := toNat_add_ofNat (by omega)
  obtain ⟨roomy, hroomy, hroom, hlarger, hdata⟩ :=
    ensureCapacity_spec allocator hpos (hrequired.le.trans hhalf)
  have hinside : roomy.data.length + bytes.length ≤ roomy.capacity.toNat := by
    rw [hdata, length_data, ← hrequired]
    exact UInt64.le_iff_toNat_le.mp hroom
  obtain ⟨next, hnext, hcapacity, hstored⟩ := store_spec hinside
  refine ⟨next, ?_, hcapacity ▸ hlarger, hdata ▸ hstored⟩
  rw [putS, hroomy, Option.bind_eq_bind, Option.bind_some, hnext]
  rfl

/-- `Put` of a scalar is `PutS` of its wire form. -/
theorem put_eq_putS {T : Type} [WireScalar T] (writer : AllocatedWriter) (value : T) :
    writer.put allocator value = writer.putS allocator (WireScalar.encode value) := by
  rw [put, putS, WireScalar.length_encode]

theorem putList_appends {bytes : Bytes} (hpos : 1 ≤ writer.capacity)
    (hlist : bytes.length ≤ 65535) (hhalf : writer.data.length + (2 + bytes.length) ≤ 2 ^ 63) :
    Appends (writer.putList allocator bytes) writer (PacketWriter.listBytes bytes) := by
  have hoffset := writer.length_data
  have hcount : (writer.offset + 2).toNat = writer.offset.toNat + 2 :=
    toNat_add_ofNat (n := 2) (by omega)
  have hrequired : (writer.offset + 2 + UInt64.ofNat bytes.length).toNat =
      writer.offset.toNat + 2 + bytes.length := by
    rw [toNat_add_ofNat (by omega), hcount]
  obtain ⟨roomy, hroomy, hroom, hlarger, hdata⟩ :=
    ensureCapacity_spec allocator hpos (hrequired.le.trans (by omega))
  rw [UInt64.le_iff_toNat_le, hrequired] at hroom
  have hinside : roomy.data.length + (leU16 (UInt16.ofNat bytes.length)).length ≤
      roomy.capacity.toNat := by
    rw [hdata, length_leU16]
    omega
  obtain ⟨counted, hcounted, hcapacity, hstored⟩ := store_spec hinside
  rw [hdata] at hstored
  have hlength : counted.data.length = writer.data.length + 2 := by
    rw [hstored, List.length_append, length_leU16]
  -- the bytes go behind the count, into room that is there already
  have hbehind : counted.data.length + bytes.length ≤ 2 ^ 63 := by omega
  obtain ⟨next, hnext, hlargest, hlast⟩ :=
    putS_appends allocator (hcapacity ▸ UInt64.le_trans hpos hlarger) hbehind
  refine ⟨next, ?_, ?_, ?_⟩
  · rw [putList, if_neg (Nat.not_lt.mpr hlist), hroomy, Option.bind_eq_bind, Option.bind_some,
      hcounted, Option.bind_some, hnext]
  · exact UInt64.le_trans hlarger (hcapacity ▸ hlargest)
  · rw [hlast, hstored, List.append_assoc, PacketWriter.listBytes]

end AllocatedWriter
end ZetaNet
