import ZetaNet.Lib.LittleEndian
import ZetaNet.Lib.Buffer

/-!
# `wire_le`: fixed-width integers on the wire

The stores, loads, appends and cursor reads of `z_wire_le.h`. A load or a
subscript past the end of its buffer is `none`: the code has no check of its own
there, so the callers must establish the bound.
-/

namespace ZetaNet

/-- A byte buffer (`base::Vector<byte>`, `base::String`, `base::Span<byte>`). -/
abbrev Bytes := List UInt8

namespace Wire

open LittleEndian

def leU16 (value : UInt16) : Bytes := toLE 2 value.toNat
def leU32 (value : UInt32) : Bytes := toLE 4 value.toNat
def leU64 (value : UInt64) : Bytes := toLE 8 value.toNat

@[simp] theorem length_leU16 (value : UInt16) : (leU16 value).length = 2 := length_toLE ..
@[simp] theorem length_leU32 (value : UInt32) : (leU32 value).length = 4 := length_toLE ..
@[simp] theorem length_leU64 (value : UInt64) : (leU64 value).length = 8 := length_toLE ..

/-- `buffer[off] = value`. -/
def storeU8 (buf : Bytes) (off : Nat) (value : UInt8) : Bytes := Buffer.store buf off [value]
def storeU16 (buf : Bytes) (off : Nat) (value : UInt16) : Bytes :=
  Buffer.store buf off (leU16 value)
def storeU32 (buf : Bytes) (off : Nat) (value : UInt32) : Bytes :=
  Buffer.store buf off (leU32 value)

/-- `buffer[off]`. -/
def loadU8 (buf : Bytes) (off : Nat) : Option UInt8 := buf[off]?
def loadU16 (buf : Bytes) (off : Nat) : Option UInt16 :=
  (Buffer.read? buf off 2).map fun window => UInt16.ofNat (ofLE window)
def loadU32 (buf : Bytes) (off : Nat) : Option UInt32 :=
  (Buffer.read? buf off 4).map fun window => UInt32.ofNat (ofLE window)
def loadU64 (buf : Bytes) (off : Nat) : Option UInt64 :=
  (Buffer.read? buf off 8).map fun window => UInt64.ofNat (ofLE window)

def appendU16 (out : Bytes) (value : UInt16) : Bytes := out ++ leU16 value
def appendU32 (out : Bytes) (value : UInt32) : Bytes := out ++ leU32 value
def appendU64 (out : Bytes) (value : UInt64) : Bytes := out ++ leU64 value

/-- `ReadU16`: the value at the cursor and the advanced cursor, `none` for `false`. -/
def readU16 (data : Bytes) (cursor : Nat) : Option (UInt16 × Nat) :=
  if cursor + 2 > data.length then none
  else (loadU16 data cursor).map fun value => (value, cursor + 2)
def readU32 (data : Bytes) (cursor : Nat) : Option (UInt32 × Nat) :=
  if cursor + 4 > data.length then none
  else (loadU32 data cursor).map fun value => (value, cursor + 4)
def readU64 (data : Bytes) (cursor : Nat) : Option (UInt64 × Nat) :=
  if cursor + 8 > data.length then none
  else (loadU64 data cursor).map fun value => (value, cursor + 8)

/-! ## Accesses inside the buffer -/

theorem isSome_read? {buf : Bytes} {off n : Nat} (h : off + n ≤ buf.length) :
    (Buffer.read? buf off n).isSome := by
  rw [Buffer.read?, if_pos h]
  rfl

theorem isSome_loadU8 {buf : Bytes} {off : Nat} (h : off + 1 ≤ buf.length) :
    (loadU8 buf off).isSome := by
  rw [loadU8, List.getElem?_eq_getElem h]
  rfl

theorem isSome_loadU16 {buf : Bytes} {off : Nat} (h : off + 2 ≤ buf.length) :
    (loadU16 buf off).isSome := by
  rw [loadU16, Option.isSome_map]
  exact isSome_read? h

theorem isSome_loadU32 {buf : Bytes} {off : Nat} (h : off + 4 ≤ buf.length) :
    (loadU32 buf off).isSome := by
  rw [loadU32, Option.isSome_map]
  exact isSome_read? h

/-! ## What a load finds in a buffer laid out field by field -/

theorem ofNat_ofLE_leU16 (value : UInt16) : UInt16.ofNat (ofLE (leU16 value)) = value := by
  have hv : value.toNat < 256 ^ 2 := value.toNat_lt
  rw [leU16, ofLE_toLE, Nat.mod_eq_of_lt hv, UInt16.ofNat_toNat]

theorem ofNat_ofLE_leU32 (value : UInt32) : UInt32.ofNat (ofLE (leU32 value)) = value := by
  have hv : value.toNat < 256 ^ 4 := value.toNat_lt
  rw [leU32, ofLE_toLE, Nat.mod_eq_of_lt hv, UInt32.ofNat_toNat]

theorem ofNat_ofLE_leU64 (value : UInt64) : UInt64.ofNat (ofLE (leU64 value)) = value := by
  have hv : value.toNat < 256 ^ 8 := value.toNat_lt
  rw [leU64, ofLE_toLE, Nat.mod_eq_of_lt hv, UInt64.ofNat_toNat]

theorem leU16_inj {value value' : UInt16} (h : leU16 value = leU16 value') : value = value' := by
  rw [← ofNat_ofLE_leU16 value, h, ofNat_ofLE_leU16]

theorem leU32_inj {value value' : UInt32} (h : leU32 value = leU32 value') : value = value' := by
  rw [← ofNat_ofLE_leU32 value, h, ofNat_ofLE_leU32]

theorem loadU8_skip {front back : Bytes} {off : Nat} (h : front.length ≤ off) :
    loadU8 (front ++ back) off = loadU8 back (off - front.length) := by
  simp [loadU8, List.getElem?_append_right h]

theorem loadU16_skip {front back : Bytes} {off : Nat} (h : front.length ≤ off) :
    loadU16 (front ++ back) off = loadU16 back (off - front.length) := by
  rw [loadU16, Buffer.read?_append_right h, loadU16]

theorem loadU32_skip {front back : Bytes} {off : Nat} (h : front.length ≤ off) :
    loadU32 (front ++ back) off = loadU32 back (off - front.length) := by
  rw [loadU32, Buffer.read?_append_right h, loadU32]

theorem loadU8_front (back : Bytes) (value : UInt8) :
    loadU8 ([value] ++ back) 0 = some value := rfl

theorem loadU16_front (back : Bytes) (value : UInt16) :
    loadU16 (leU16 value ++ back) 0 = some value := by
  simp [loadU16, Buffer.read?_front, ofNat_ofLE_leU16]

theorem loadU32_front (back : Bytes) (value : UInt32) :
    loadU32 (leU32 value ++ back) 0 = some value := by
  simp [loadU32, Buffer.read?_front, ofNat_ofLE_leU32]

theorem loadU8_field (front back : Bytes) (value : UInt8) {off : Nat}
    (h : off = front.length) : loadU8 (front ++ value :: back) off = some value := by
  subst h
  simp [loadU8]

theorem loadU16_field (front back : Bytes) (value : UInt16) {off : Nat}
    (h : off = front.length) : loadU16 (front ++ (leU16 value ++ back)) off = some value := by
  simp [loadU16, Buffer.read?_field h (length_leU16 value).symm, ofNat_ofLE_leU16]

theorem loadU32_field (front back : Bytes) (value : UInt32) {off : Nat}
    (h : off = front.length) : loadU32 (front ++ (leU32 value ++ back)) off = some value := by
  simp [loadU32, Buffer.read?_field h (length_leU32 value).symm, ofNat_ofLE_leU32]

theorem loadU64_field (front back : Bytes) (value : UInt64) {off : Nat}
    (h : off = front.length) : loadU64 (front ++ (leU64 value ++ back)) off = some value := by
  simp [loadU64, Buffer.read?_field h (length_leU64 value).symm, ofNat_ofLE_leU64]

/-! ## What a load depends on -/

theorem loadU8_congr {xs ys : Bytes} {off : Nat} (h : Buffer.Agree off (off + 1) xs ys) :
    loadU8 xs off = loadU8 ys off :=
  h.same off (Nat.le_refl off) (Nat.lt_succ_self off)

theorem loadU16_congr {xs ys : Bytes} {off : Nat} (h : Buffer.Agree off (off + 2) xs ys) :
    loadU16 xs off = loadU16 ys off := by
  rw [loadU16, Buffer.read?_congr h, loadU16]

theorem loadU32_congr {xs ys : Bytes} {off : Nat} (h : Buffer.Agree off (off + 4) xs ys) :
    loadU32 xs off = loadU32 ys off := by
  rw [loadU32, Buffer.read?_congr h, loadU32]

theorem leU16_ofNat_ofLE {window : Bytes} (h : window.length = 2) :
    leU16 (UInt16.ofNat (ofLE window)) = window := by
  rw [leU16, UInt16.toNat_ofNat']
  exact toLE_ofLE_mod h

theorem leU32_ofNat_ofLE {window : Bytes} (h : window.length = 4) :
    leU32 (UInt32.ofNat (ofLE window)) = window := by
  rw [leU32, UInt32.toNat_ofNat']
  exact toLE_ofLE_mod h

/-- A loaded value is the one its bytes spell. -/
theorem read?_of_loadU16 {xs : Bytes} {off : Nat} {value : UInt16}
    (h : loadU16 xs off = some value) : Buffer.read? xs off 2 = some (leU16 value) := by
  obtain ⟨window, hread, rfl⟩ := Option.map_eq_some_iff.mp h
  rw [leU16_ofNat_ofLE (Buffer.length_of_read? hread), hread]

theorem read?_of_loadU32 {xs : Bytes} {off : Nat} {value : UInt32}
    (h : loadU32 xs off = some value) : Buffer.read? xs off 4 = some (leU32 value) := by
  obtain ⟨window, hread, rfl⟩ := Option.map_eq_some_iff.mp h
  rw [leU32_ofNat_ofLE (Buffer.length_of_read? hread), hread]

theorem leU64_ofNat_ofLE {window : Bytes} (h : window.length = 8) :
    leU64 (UInt64.ofNat (ofLE window)) = window := by
  rw [leU64, UInt64.toNat_ofNat']
  exact toLE_ofLE_mod h

theorem read?_of_loadU64 {xs : Bytes} {off : Nat} {value : UInt64}
    (h : loadU64 xs off = some value) : Buffer.read? xs off 8 = some (leU64 value) := by
  obtain ⟨window, hread, rfl⟩ := Option.map_eq_some_iff.mp h
  rw [leU64_ofNat_ofLE (Buffer.length_of_read? hread), hread]

theorem getElem?_eq_of_loadU16 {xs ys : Bytes} {off i : Nat} {value : UInt16}
    (hx : loadU16 xs off = some value) (hy : loadU16 ys off = some value) (hlo : off ≤ i)
    (hhi : i < off + 2) : xs[i]? = ys[i]? :=
  Buffer.getElem?_eq_of_read? (read?_of_loadU16 hx) (read?_of_loadU16 hy) hlo hhi

theorem getElem?_eq_of_loadU32 {xs ys : Bytes} {off i : Nat} {value : UInt32}
    (hx : loadU32 xs off = some value) (hy : loadU32 ys off = some value) (hlo : off ≤ i)
    (hhi : i < off + 4) : xs[i]? = ys[i]? :=
  Buffer.getElem?_eq_of_read? (read?_of_loadU32 hx) (read?_of_loadU32 hy) hlo hhi

/-- A cursor read takes the field the cursor stands at and steps over it. -/
theorem readU16_field (front back : Bytes) (value : UInt16) {cursor : Nat}
    (h : cursor = front.length) :
    readU16 (front ++ (leU16 value ++ back)) cursor = some (value, cursor + 2) := by
  have hin : ¬ cursor + 2 > (front ++ (leU16 value ++ back)).length := by simp; omega
  rw [readU16, if_neg hin, loadU16_field front back value h, Option.map_some]

theorem readU32_field (front back : Bytes) (value : UInt32) {cursor : Nat}
    (h : cursor = front.length) :
    readU32 (front ++ (leU32 value ++ back)) cursor = some (value, cursor + 4) := by
  have hin : ¬ cursor + 4 > (front ++ (leU32 value ++ back)).length := by simp; omega
  rw [readU32, if_neg hin, loadU32_field front back value h, Option.map_some]

theorem readU64_field (front back : Bytes) (value : UInt64) {cursor : Nat}
    (h : cursor = front.length) :
    readU64 (front ++ (leU64 value ++ back)) cursor = some (value, cursor + 8) := by
  have hin : ¬ cursor + 8 > (front ++ (leU64 value ++ back)).length := by simp; omega
  rw [readU64, if_neg hin, loadU64_field front back value h, Option.map_some]

/-! ## Reading on from a cursor -/

theorem cursor_le {data field back : Bytes} {cursor : Nat} (h : data.drop cursor = field ++ back)
    (hfield : field ≠ []) : cursor ≤ data.length := by
  by_contra hlt
  rw [List.drop_eq_nil_of_le (by omega)] at h
  exact hfield (List.append_eq_nil_iff.mp h.symm).1

/-- Behind the field a cursor stands at. -/
theorem drop_field {data field back : Bytes} {cursor : Nat}
    (h : data.drop cursor = field ++ back) : data.drop (cursor + field.length) = back := by
  rw [← List.drop_drop, h, List.drop_left]

/-- What stands before the field a cursor stands at. -/
theorem exists_front {data field back : Bytes} {cursor : Nat}
    (h : data.drop cursor = field ++ back) (hfield : field ≠ []) :
    ∃ front, data = front ++ (field ++ back) ∧ cursor = front.length := by
  refine ⟨data.take cursor, ?_, ?_⟩
  · rw [← h, List.take_append_drop]
  · rw [List.length_take, Nat.min_eq_left (cursor_le h hfield)]

theorem loadU8_of_drop {data back : Bytes} {cursor : Nat} {value : UInt8}
    (h : data.drop cursor = value :: back) : loadU8 data cursor = some value := by
  have hfield : data.drop cursor = [value] ++ back := h
  obtain ⟨front, rfl, hcursor⟩ := exists_front hfield (List.cons_ne_nil value [])
  exact loadU8_field front back value hcursor

theorem readU16_of_drop {data back : Bytes} {cursor : Nat} {value : UInt16}
    (h : data.drop cursor = leU16 value ++ back) :
    readU16 data cursor = some (value, cursor + 2) := by
  obtain ⟨front, rfl, hcursor⟩ := exists_front h (List.ne_nil_of_length_pos (by simp))
  exact readU16_field front back value hcursor

theorem readU32_of_drop {data back : Bytes} {cursor : Nat} {value : UInt32}
    (h : data.drop cursor = leU32 value ++ back) :
    readU32 data cursor = some (value, cursor + 4) := by
  obtain ⟨front, rfl, hcursor⟩ := exists_front h (List.ne_nil_of_length_pos (by simp))
  exact readU32_field front back value hcursor

theorem readU64_of_drop {data back : Bytes} {cursor : Nat} {value : UInt64}
    (h : data.drop cursor = leU64 value ++ back) :
    readU64 data cursor = some (value, cursor + 8) := by
  obtain ⟨front, rfl, hcursor⟩ := exists_front h (List.ne_nil_of_length_pos (by simp))
  exact readU64_field front back value hcursor

theorem drop_of_read? {data window : Bytes} {off n : Nat}
    (h : Buffer.read? data off n = some window) :
    data.drop off = window ++ data.drop (off + n) := by
  unfold Buffer.read? at h
  split at h
  · rw [← Option.some.inj h, ← List.drop_drop, List.take_append_drop]
  · cases h

/-- A cursor read of any width that succeeds stands at the bytes of its value. -/
theorem drop_of_cursorRead {α : Type} {load : Option α} {bytes : α → Bytes} {data : Bytes}
    {size cursor cursor' : Nat} {value : α}
    (hbytes : ∀ value, load = some value → Buffer.read? data cursor size = some (bytes value))
    (h : (if cursor + size > data.length then none
      else load.map fun value => (value, cursor + size)) = some (value, cursor')) :
    cursor' = cursor + size ∧ data.drop cursor = bytes value ++ data.drop cursor' := by
  split at h
  · cases h
  · obtain ⟨found, hload, heq⟩ := Option.map_eq_some_iff.mp h
    obtain ⟨rfl, rfl⟩ := Prod.mk.inj heq
    exact ⟨rfl, drop_of_read? (hbytes found hload)⟩

theorem drop_of_readU16 {data : Bytes} {cursor cursor' : Nat} {value : UInt16}
    (h : readU16 data cursor = some (value, cursor')) :
    cursor' = cursor + 2 ∧ data.drop cursor = leU16 value ++ data.drop cursor' :=
  drop_of_cursorRead (fun _ => read?_of_loadU16) h

theorem drop_of_readU32 {data : Bytes} {cursor cursor' : Nat} {value : UInt32}
    (h : readU32 data cursor = some (value, cursor')) :
    cursor' = cursor + 4 ∧ data.drop cursor = leU32 value ++ data.drop cursor' :=
  drop_of_cursorRead (fun _ => read?_of_loadU32) h

theorem drop_of_readU64 {data : Bytes} {cursor cursor' : Nat} {value : UInt64}
    (h : readU64 data cursor = some (value, cursor')) :
    cursor' = cursor + 8 ∧ data.drop cursor = leU64 value ++ data.drop cursor' :=
  drop_of_cursorRead (fun _ => read?_of_loadU64) h

end Wire
end ZetaNet
