import ZetaNet.Lib.Checks
import ZetaNet.Peer.Address
import Mathlib.Data.List.TakeWhile

/-!
# Control payloads of a peer-to-peer node

How `z_p2p_node.cc` writes and reads the payloads of its control packets: magic, version and
kind, then address records of family, text length, text and port.
-/

namespace ZetaNet

open Wire Checks

namespace Address

/-- The text of an address, up to its NUL (`strnlen`). -/
def text (address : Address) : Bytes := address.ip.takeWhile (· ≠ 0)

/-- A cleared address after `memcpy` of the text. -/
def ofText (text : Bytes) (port : UInt16) (family : UInt8) : Address where
  ip := (text ++ List.replicate kAddressTextSize 0).take kAddressTextSize
  port
  addressFamily := family
  length_ip := by simp

/-- Nothing stands behind the text, and the text fits a record. -/
structure Clean (address : Address) : Prop where
  ofText_text : ofText address.text address.port address.addressFamily = address
  nonempty : address.text ≠ []
  length_lt : address.text.length < kAddressTextSize

theorem text_ofText {text : Bytes} (hnul : 0 ∉ text) (hlength : text.length < kAddressTextSize)
    (port : UInt16) (family : UInt8) : (ofText text port family).text = text := by
  have htext : ∀ b ∈ text, decide (b ≠ 0) = true :=
    fun b hb => decide_eq_true fun h => hnul (h ▸ hb)
  obtain ⟨rest, hrest⟩ := Nat.exists_eq_add_of_lt hlength
  have hip : (ofText text port family).ip =
      text ++ (0 :: List.replicate rest (0 : UInt8)) := by
    show (text ++ List.replicate kAddressTextSize 0).take kAddressTextSize = _
    rw [List.take_append, List.take_of_length_le (by omega), List.take_replicate,
      ← List.replicate_succ]
    congr 2
    omega
  rw [Address.text, hip, List.takeWhile_append_of_pos htext]
  simp

end Address

/-- `enum class ControlKind`. -/
inductive ControlKind
  | invalid
  | joinHello
  | peerRoster
  | hostTransition
  | keepAlive
  | punchProbe
  | punchAck
  | welcome
  deriving DecidableEq, Repr

namespace ControlKind

def toU8 : ControlKind → UInt8
  | .invalid => 0
  | .joinHello => 1
  | .peerRoster => 2
  | .hostTransition => 3
  | .keepAlive => 4
  | .punchProbe => 5
  | .punchAck => 6
  | .welcome => 7

/-- The kind of a byte; a byte outside the enumeration takes the `default` branch, as `Invalid`
does. -/
def ofU8 (byte : UInt8) : ControlKind :=
  if byte = 1 then .joinHello
  else if byte = 2 then .peerRoster
  else if byte = 3 then .hostTransition
  else if byte = 4 then .keepAlive
  else if byte = 5 then .punchProbe
  else if byte = 6 then .punchAck
  else if byte = 7 then .welcome
  else .invalid

@[simp] theorem ofU8_toU8 (kind : ControlKind) : ofU8 kind.toU8 = kind := by
  cases kind <;> rfl

end ControlKind

def kControlMagic : UInt32 := 0x5A503250
def kControlVersion : UInt8 := 1

/-- Why the reading of a control payload stops. -/
inductive ControlError
  | truncated
  | badMagic
  | badVersion
  | invalidAddress
  /-- not an exit of the code: a read outside the payload -/
  | outOfBounds
  deriving DecidableEq, Repr

/-! ## Writing -/

/-- The six bytes every control payload begins with. -/
def controlHeader (kind : ControlKind) : Bytes :=
  leU32 kControlMagic ++ [kControlVersion, kind.toU8]

/-- `SerializeAddress`, `none` for `false`. -/
def serializeAddress (buffer : Bytes) (address : Address) : Option Bytes :=
  let ipLen := address.text.length
  if ipLen = 0 ∨ ipLen > 0xFF then none
  else
    some (appendU16 (buffer ++ [address.addressFamily, UInt8.ofNat ipLen] ++ address.text)
      address.port)

/-- The roster loop of `BroadcastPeerRoster`. -/
def serializeAddresses (buffer : Bytes) : List Address → Option Bytes
  | [] => some buffer
  | address :: addresses =>
      (serializeAddress buffer address).bind fun buffer => serializeAddresses buffer addresses

/-! ## Reading -/

/-- `if (cursor >= size) return; data[cursor++]`. -/
def readControlByte (data : Bytes) (cursor : Nat) : Except ControlError (UInt8 × Nat) := do
  require (cursor < data.length) .truncated
  let byte ← succeed (loadU8 data cursor) .outOfBounds
  .ok (byte, cursor + 1)

/-- The head of `ProcessControlPacket`: the kind and the cursor behind it. -/
def readControlHeader (data : Bytes) : Except ControlError (ControlKind × Nat) := do
  let (magic, cursor) ← succeed (readU32 data 0) .truncated
  require (magic = kControlMagic) .badMagic
  let (version, cursor) ← readControlByte data cursor
  require (version = kControlVersion) .badVersion
  let (kind, cursor) ← readControlByte data cursor
  .ok (ControlKind.ofU8 kind, cursor)

/-- `DeserializeAddress`. -/
def deserializeAddress (data : Bytes) (cursor : Nat) : Except ControlError (Address × Nat) := do
  let (family, cursor) ← readControlByte data cursor
  let (ipLen, cursor) ← readControlByte data cursor
  require (ipLen ≠ 0 ∧ ipLen.toNat < kAddressTextSize) .invalidAddress
  require (cursor + ipLen.toNat + 2 ≤ data.length) .truncated
  let text ← succeed (Buffer.read? data cursor ipLen.toNat) .outOfBounds
  let (port, cursor) ← succeed (readU16 data (cursor + ipLen.toNat)) .truncated
  .ok (Address.ofText text port family, cursor)

/-! ## What is read of what was written -/

theorem readControlByte_field (front back : Bytes) (byte : UInt8) {cursor : Nat}
    (h : cursor = front.length) :
    readControlByte (front ++ (byte :: back)) cursor = .ok (byte, cursor + 1) := by
  have hin : decide (cursor < (front ++ (byte :: back)).length) = true := by
    simp
    omega
  rw [readControlByte, require_true hin, ok_bind, loadU8_field front back byte h, succeed_some,
    ok_bind]

@[simp] theorem length_controlHeader (kind : ControlKind) : (controlHeader kind).length = 6 := by
  simp [controlHeader]

/-- A payload that begins with a header. -/
theorem readControlHeader_controlHeader (kind : ControlKind) (back : Bytes) :
    readControlHeader (controlHeader kind ++ back) = .ok (kind, 6) := by
  have hmagic : readU32 (controlHeader kind ++ back) 0 = some (kControlMagic, 4) := by
    have hfield := readU32_field [] ([kControlVersion, kind.toU8] ++ back) kControlMagic rfl
    simpa [controlHeader] using hfield
  have hversion : readControlByte (controlHeader kind ++ back) 4 = .ok (kControlVersion, 5) := by
    have hfield := readControlByte_field (leU32 kControlMagic) (kind.toU8 :: back)
      kControlVersion (length_leU32 _).symm
    simpa [controlHeader] using hfield
  have hkind : readControlByte (controlHeader kind ++ back) 5 = .ok (kind.toU8, 6) := by
    have hfield := readControlByte_field (leU32 kControlMagic ++ [kControlVersion]) back
      kind.toU8 (by simp : 5 = _)
    simpa [controlHeader] using hfield
  simp only [readControlHeader, hmagic, succeed_some, ok_bind, hversion, hkind,
    ControlKind.ofU8_toU8, decide_true, require_true]

/-- The record of an address whose text fits. -/
theorem serializeAddress_eq {address : Address} (hnonempty : address.text ≠ [])
    (hlength : address.text.length < kAddressTextSize) (buffer : Bytes) :
    serializeAddress buffer address =
      some (buffer ++ (address.addressFamily :: UInt8.ofNat address.text.length ::
        (address.text ++ leU16 address.port))) := by
  have hpos : address.text.length ≠ 0 := fun h => hnonempty (List.length_eq_zero_iff.mp h)
  have hsize : ¬ address.text.length > 0xFF := by
    unfold kAddressTextSize at hlength
    omega
  unfold serializeAddress
  rw [if_neg (not_or.mpr ⟨hpos, hsize⟩)]
  simp [appendU16]

/-- What is read of an address record: its text in a cleared address. -/
theorem deserializeAddress_record {address : Address} (hnonempty : address.text ≠ [])
    (hlength : address.text.length < kAddressTextSize) (front back : Bytes) :
    deserializeAddress (front ++ (address.addressFamily :: UInt8.ofNat address.text.length ::
        (address.text ++ (leU16 address.port ++ back)))) front.length =
      .ok (Address.ofText address.text address.port address.addressFamily,
        front.length + 4 + address.text.length) := by
  have hpos : 0 < address.text.length := List.length_pos_iff.mpr hnonempty
  -- the length byte holds the length
  have hmod : (UInt8.ofNat address.text.length).toNat = address.text.length := by
    rw [UInt8.toNat_ofNat', Nat.mod_eq_of_lt]
    unfold kAddressTextSize at hlength
    omega
  have hsize : UInt8.ofNat address.text.length ≠ 0 := by
    intro h
    have hzero := congrArg UInt8.toNat h
    rw [hmod] at hzero
    exact absurd hzero (by simp; omega)
  set data := front ++ (address.addressFamily :: UInt8.ofNat address.text.length ::
    (address.text ++ (leU16 address.port ++ back))) with hdata
  -- family, length, text and port, each where the one before ends
  have hfamily : readControlByte data front.length =
      .ok (address.addressFamily, front.length + 1) :=
    readControlByte_field front _ _ rfl
  have hlen : readControlByte data (front.length + 1) =
      .ok (UInt8.ofNat address.text.length, front.length + 2) := by
    have hfield := readControlByte_field (front ++ [address.addressFamily])
      (address.text ++ (leU16 address.port ++ back)) (UInt8.ofNat address.text.length)
      (by simp : front.length + 1 = _)
    simpa [hdata] using hfield
  have hroom : front.length + 2 + address.text.length + 2 ≤ data.length := by
    simp [hdata]
    omega
  have htext : Buffer.read? data (front.length + 2) address.text.length = some address.text := by
    have hfront : data = (front ++ [address.addressFamily, UInt8.ofNat address.text.length]) ++
        (address.text ++ (leU16 address.port ++ back)) := by simp [hdata]
    rw [hfront]
    exact Buffer.read?_field (by simp) rfl
  have hport : readU16 data (front.length + 2 + address.text.length) =
      some (address.port, front.length + 2 + address.text.length + 2) := by
    have hfront : data = (front ++ [address.addressFamily, UInt8.ofNat address.text.length] ++
        address.text) ++ (leU16 address.port ++ back) := by simp [hdata]
    rw [hfront]
    exact readU16_field _ back address.port (by simp; omega)
  unfold deserializeAddress
  simp only [hfamily, ok_bind, hlen]
  rw [require_true (decide_eq_true ⟨hsize, by rwa [hmod]⟩), ok_bind, hmod,
    require_true (decide_eq_true hroom), ok_bind, htext, succeed_some, ok_bind, hport,
    succeed_some, ok_bind]
  congr 2
  omega

end ZetaNet
