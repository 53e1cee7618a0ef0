import ZetaNet.Lib.Faults
import ZetaNet.P2P.Roster

/-!
# Reading a control payload

The reads of `ProcessControlPacket` and `DeserializeAddress` with each access apart from the test
before it; the copy of a text into the 46 bytes of an address counts as an access too. They
compute what the reads of the model compute, without a fault, and no cursor passes the end.
-/

namespace ZetaNet

open Wire Checks

/-! ## Single reads -/

section Single

variable {ε : Type} (data : Bytes) (cursor : Nat) (error : ε)

/-- `ReadU16` and `ReadU32`, and what the caller does when they return `false`. -/
def readU16OrExit : Except (Stop ε) (UInt16 × Nat) := do
  require (cursor + 2 ≤ data.length) (.exit error)
  let value ← fetch (loadU16 data cursor)
  return (value, cursor + 2)

def readU32OrExit : Except (Stop ε) (UInt32 × Nat) := do
  require (cursor + 4 ≤ data.length) (.exit error)
  let value ← fetch (loadU32 data cursor)
  return (value, cursor + 4)

theorem readU16OrExit_eq :
    readU16OrExit data cursor error = safely (succeed (readU16 data cursor) error) := by
  rw [safely_succeed]
  unfold readU16OrExit readU16
  by_cases hroom : cursor + 2 ≤ data.length
  · obtain ⟨value, hvalue⟩ := Option.isSome_iff_exists.mp (isSome_loadU16 hroom)
    rw [require_true (decide_eq_true hroom), ok_bind, hvalue, fetch_some, ok_bind,
      if_neg (Nat.not_lt.mpr hroom)]
    rfl
  · rw [require, if_neg (by simpa using hroom), error_bind, if_pos (Nat.lt_of_not_le hroom),
      succeed_none]

theorem readU32OrExit_eq :
    readU32OrExit data cursor error = safely (succeed (readU32 data cursor) error) := by
  rw [safely_succeed]
  unfold readU32OrExit readU32
  by_cases hroom : cursor + 4 ≤ data.length
  · obtain ⟨value, hvalue⟩ := Option.isSome_iff_exists.mp (isSome_loadU32 hroom)
    rw [require_true (decide_eq_true hroom), ok_bind, hvalue, fetch_some, ok_bind,
      if_neg (Nat.not_lt.mpr hroom)]
    rfl
  · rw [require, if_neg (by simpa using hroom), error_bind, if_pos (Nat.lt_of_not_le hroom),
      succeed_none]

end Single

/-- `if (cursor >= size) return; data[cursor++]`. -/
def scanControlByte (data : Bytes) (cursor : Nat) : Except (Stop ControlError) (UInt8 × Nat) := do
  require (cursor < data.length) (.exit .truncated)
  let byte ← fetch (loadU8 data cursor)
  return (byte, cursor + 1)

theorem scanControlByte_eq (data : Bytes) (cursor : Nat) :
    scanControlByte data cursor = safely (readControlByte data cursor) := by
  unfold scanControlByte readControlByte
  by_cases hroom : cursor < data.length
  · obtain ⟨byte, hbyte⟩ := Option.isSome_iff_exists.mp (isSome_loadU8 hroom)
    rw [require_true (decide_eq_true hroom), require_true (decide_eq_true hroom), ok_bind,
      ok_bind, hbyte, fetch_some, succeed_some, ok_bind, ok_bind]
    rfl
  · rw [require, require, if_neg (by simpa using hroom), if_neg (by simpa using hroom),
      error_bind, error_bind]
    rfl

/-! ## Headers and addresses -/

/-- The head of `ProcessControlPacket`. -/
def scanControlHeader (data : Bytes) : Except (Stop ControlError) (ControlKind × Nat) := do
  let (magic, cursor) ← readU32OrExit data 0 .truncated
  require (magic = kControlMagic) (.exit .badMagic)
  let (version, cursor) ← scanControlByte data cursor
  require (version = kControlVersion) (.exit .badVersion)
  let (kind, cursor) ← scanControlByte data cursor
  return (ControlKind.ofU8 kind, cursor)

/-- `memcpy` of a text into a cleared address; it faults on a text that does not fit. -/
def copyText (text : Bytes) (port : UInt16) (family : UInt8) : Option Address :=
  if h : text.length ≤ kAddressTextSize then
    some
      { ip := Buffer.store (List.replicate kAddressTextSize 0) 0 text
        port
        addressFamily := family
        length_ip := by
          rw [Buffer.length_store (by simpa using h), List.length_replicate] }
  else none

/-- `DeserializeAddress`. -/
def scanAddress (data : Bytes) (cursor : Nat) : Except (Stop ControlError) (Address × Nat) := do
  let (family, cursor) ← scanControlByte data cursor
  let (ipLen, cursor) ← scanControlByte data cursor
  require (ipLen ≠ 0 ∧ ipLen.toNat < kAddressTextSize) (.exit .invalidAddress)
  require (cursor + ipLen.toNat + 2 ≤ data.length) (.exit .truncated)
  let text ← fetch (Buffer.read? data cursor ipLen.toNat)
  let address ← fetch (copyText text 0 family)
  let (port, cursor) ← readU16OrExit data (cursor + ipLen.toNat) .truncated
  return ({ address with port }, cursor)

theorem scanControlHeader_eq (data : Bytes) :
    scanControlHeader data = safely (readControlHeader data) := by
  unfold scanControlHeader readControlHeader
  simp only [readU32OrExit_eq, scanControlByte_eq, safely_bind, safely_require]
  rfl

/-- A text that fits is copied, and the rest of the address stays zero. -/
theorem copyText_eq {text : Bytes} (h : text.length ≤ kAddressTextSize) (port : UInt16)
    (family : UInt8) : copyText text port family = some (Address.ofText text port family) := by
  have hip : Buffer.store (List.replicate kAddressTextSize 0) 0 text =
      (text ++ List.replicate kAddressTextSize 0).take kAddressTextSize := by
    rw [Buffer.store_zero, List.take_append, List.take_of_length_le h, List.drop_replicate,
      List.take_replicate, Nat.min_eq_left (Nat.sub_le ..)]
  rw [copyText, dif_pos h]
  simp only [Address.ofText, hip]

theorem scanAddress_eq (data : Bytes) (cursor : Nat) :
    scanAddress data cursor = safely (deserializeAddress data cursor) := by
  unfold scanAddress deserializeAddress
  rw [scanControlByte_eq, safely_bind]
  congr 1
  funext (family, cursor)
  dsimp only
  rw [scanControlByte_eq, safely_bind]
  congr 1
  funext (ipLen, cursor)
  dsimp only
  rw [safely_bind, safely_require]
  refine require_bind_congr fun hlength => ?_
  rw [safely_bind, safely_require]
  refine require_bind_congr fun hroom => ?_
  have hlength : ipLen.toNat < kAddressTextSize := (of_decide_eq_true hlength).2
  have hroom : cursor + ipLen.toNat + 2 ≤ data.length := of_decide_eq_true hroom
  -- the text lies in the payload and fits its buffer
  obtain ⟨text, htext⟩ := Option.isSome_iff_exists.mp
    (isSome_read? (show cursor + ipLen.toNat ≤ data.length by omega))
  have hfits : text.length ≤ kAddressTextSize := by
    rw [Buffer.length_of_read? htext]
    exact Nat.le_of_lt hlength
  rw [htext, fetch_some, ok_bind, succeed_some, ok_bind, copyText_eq hfits, fetch_some, ok_bind,
    readU16OrExit_eq, safely_bind]
  congr 1

/-! ## Cursors and entries -/

theorem readU16_cursor {data : Bytes} {cursor next : Nat} {value : UInt16}
    (h : readU16 data cursor = some (value, next)) :
    next = cursor + 2 ∧ next ≤ data.length := by
  unfold readU16 at h
  split at h
  · cases h
  · obtain ⟨found, -, heq⟩ := Option.map_eq_some_iff.mp h
    obtain ⟨-, rfl⟩ := Prod.mk.inj heq
    exact ⟨rfl, Nat.not_lt.mp ‹_›⟩

theorem readU32_cursor {data : Bytes} {cursor next : Nat} {value : UInt32}
    (h : readU32 data cursor = some (value, next)) :
    next = cursor + 4 ∧ next ≤ data.length := by
  unfold readU32 at h
  split at h
  · cases h
  · obtain ⟨found, -, heq⟩ := Option.map_eq_some_iff.mp h
    obtain ⟨-, rfl⟩ := Prod.mk.inj heq
    exact ⟨rfl, Nat.not_lt.mp ‹_›⟩

theorem readControlByte_cursor {data : Bytes} {cursor next : Nat} {byte : UInt8}
    (h : readControlByte data cursor = .ok (byte, next)) :
    next = cursor + 1 ∧ next ≤ data.length := by
  unfold readControlByte at h
  obtain ⟨hroom, h⟩ := require_bind_eq_ok h
  obtain ⟨found, -, h⟩ := succeed_bind_eq_ok h
  obtain ⟨-, rfl⟩ := Prod.mk.inj (Except.ok.inj h)
  exact ⟨rfl, of_decide_eq_true hroom⟩

theorem readControlHeader_cursor {data : Bytes} {cursor : Nat} {kind : ControlKind}
    (h : readControlHeader data = .ok (kind, cursor)) : cursor = 6 ∧ cursor ≤ data.length := by
  unfold readControlHeader at h
  obtain ⟨⟨magic, behindMagic⟩, hmagic, h⟩ := succeed_bind_eq_ok h
  obtain ⟨-, h⟩ := require_bind_eq_ok h
  obtain ⟨⟨version, behindVersion⟩, hversion, h⟩ := except_bind_eq_ok h
  obtain ⟨-, h⟩ := require_bind_eq_ok h
  obtain ⟨⟨byte, behindKind⟩, hkind, h⟩ := except_bind_eq_ok h
  obtain ⟨-, rfl⟩ := Prod.mk.inj (Except.ok.inj h)
  have hbehindMagic := (readU32_cursor hmagic).1
  have hbehindVersion := (readControlByte_cursor hversion).1
  obtain ⟨hbehindKind, hle⟩ := readControlByte_cursor hkind
  exact ⟨by omega, hle⟩

/-- What `DeserializeAddress` makes of its bytes: it consumes at least five of them, and the text
ends before the 46 bytes do. -/
structure AddressRead (data : Bytes) (cursor : Nat) (address : Address) (next : Nat) : Prop where
  consumed : cursor + 5 ≤ next
  next_le : next ≤ data.length
  terminated : ∃ i < kAddressTextSize, address.ip[i]? = some 0

theorem addressRead {data : Bytes} {cursor next : Nat} {address : Address}
    (h : deserializeAddress data cursor = .ok (address, next)) :
    AddressRead data cursor address next := by
  unfold deserializeAddress at h
  obtain ⟨⟨family, behindFamily⟩, hfamily, h⟩ := except_bind_eq_ok h
  obtain ⟨⟨ipLen, behindLength⟩, hipLen, h⟩ := except_bind_eq_ok h
  obtain ⟨hlength, h⟩ := require_bind_eq_ok h
  obtain ⟨-, h⟩ := require_bind_eq_ok h
  obtain ⟨text, htext, h⟩ := succeed_bind_eq_ok h
  obtain ⟨⟨port, behindPort⟩, hport, h⟩ := succeed_bind_eq_ok h
  obtain ⟨haddress, hnext⟩ := Prod.mk.inj (Except.ok.inj h)
  have hlength := of_decide_eq_true hlength
  have hpos : 0 < ipLen.toNat :=
    Nat.pos_of_ne_zero fun hzero => hlength.1 (UInt8.toNat_inj.mp hzero)
  have hbehindFamily := (readControlByte_cursor hfamily).1
  have hbehindLength := (readControlByte_cursor hipLen).1
  obtain ⟨hbehindPort, hle⟩ := readU16_cursor hport
  refine ⟨by omega, hnext ▸ hle, text.length, ?_, ?_⟩
  · rw [Buffer.length_of_read? htext]
    exact hlength.2
  · have htextLength := Buffer.length_of_read? htext
    rw [← haddress, Address.ofText, List.getElem?_take_of_lt (by omega),
      List.getElem?_append_right (Nat.le_refl _), Nat.sub_self]
    rfl

/-- Every entry takes five bytes of what is left. -/
theorem length_rosterEntries_le (data : Bytes) (count : Nat) {cursor : Nat}
    (h : cursor ≤ data.length) :
    (rosterEntries data count cursor).length ≤ count ∧
      cursor + 5 * (rosterEntries data count cursor).length ≤ data.length := by
  induction count generalizing cursor with
  | zero => exact ⟨Nat.le_refl _, h⟩
  | succ count ih =>
      rw [rosterEntries]
      split
      · exact ⟨Nat.zero_le _, h⟩
      · rename_i address next haddress
        have hread := addressRead haddress
        obtain ⟨hcount, hbytes⟩ := ih hread.next_le
        have hconsumed := hread.consumed
        rw [List.length_cons]
        exact ⟨by omega, by omega⟩

end ZetaNet
