import ZetaNet.Lib.Buffer
import ZetaNet.Wire.Le
import Mathlib.Data.List.GetD

/-!
# `ZSocket::Address` and `ZSocket::Receive`

The address record of `z_socket.h` and how `Receive` of `z_socket.cc` writes it.
`inet_ntop` stores the address text and its NUL and leaves the rest of the 46 bytes as it
was, so what stands behind the NUL comes from the texts written before (`remnant`).
-/

namespace ZetaNet

/-- The families of a socket: `AF_INET` and `AF_INET6`. -/
inductive AddressFamily
  | inet
  | inet6
  deriving DecidableEq, Repr

def AddressFamily.toU8 : AddressFamily → UInt8
  | .inet => 2
  | .inet6 => 10

theorem AddressFamily.toU8_inj {family family' : AddressFamily}
    (h : family.toU8 = family'.toU8) : family = family' := by
  cases family <;> cases family' <;> first | rfl | (exact absurd h (by decide))

/-- `INET6_ADDRSTRLEN`. -/
def kAddressTextSize : Nat := 46

/-- `struct ZSocket::Address`; the family is whatever byte was put there. -/
structure Address where
  ip : Bytes
  port : UInt16
  addressFamily : UInt8
  length_ip : ip.length = kAddressTextSize

namespace Address

/-- `Address{}`. -/
def init : Address where
  ip := List.replicate kAddressTextSize 0
  port := 0
  addressFamily := AddressFamily.inet.toU8
  length_ip := by simp

/-- `operator==`, which compares the whole text buffer. -/
def isEqual (a b : Address) : Bool :=
  if a.port = b.port ∧ a.addressFamily = b.addressFamily then a.ip == b.ip else false

theorem isEqual_iff {a b : Address} : a.isEqual b = true ↔ a = b := by
  obtain ⟨ip, port, family, hlength⟩ := a
  obtain ⟨ip', port', family', hlength'⟩ := b
  unfold isEqual
  split
  · rename_i h
    obtain ⟨rfl, rfl⟩ : port = port' ∧ family = family' := h
    simp
  · rename_i h
    constructor
    · intro hfalse
      cases hfalse
    · intro heq
      obtain ⟨-, rfl, rfl⟩ := Address.mk.inj heq
      exact absurd ⟨rfl, rfl⟩ h

instance : DecidableEq Address := fun _ _ => decidable_of_iff _ isEqual_iff

end Address

/-- The sender of a datagram as `recvfrom` reports it, with its address already in the text
form `inet_ntop` gives it. -/
structure Endpoint where
  text : Bytes
  port : UInt16
  family : AddressFamily
  text_lt : text.length < kAddressTextSize
  noNul : 0 ∉ text
  deriving DecidableEq

/-- `inet_ntop` into a buffer that is large enough. -/
def inetNtop (ip text : Bytes) : Bytes := Buffer.store ip 0 (text ++ [0])

theorem length_inetNtop {ip text : Bytes} (h : text.length < ip.length) :
    (inetNtop ip text).length = ip.length :=
  Buffer.length_store (by simp; omega)

/-- `sender` as `Receive` leaves it after a datagram from `source`. -/
def Address.receive (sender : Address) (source : Endpoint) : Address where
  ip := inetNtop sender.ip source.text
  port := source.port
  addressFamily := source.family.toU8
  length_ip := by
    have htext : source.text.length < sender.ip.length := by
      rw [sender.length_ip]
      exact source.text_lt
    rw [length_inetNtop htext, sender.length_ip]

/-! ## What stands behind the NUL -/

/-- The byte at `p` that these texts leave in a zeroed buffer, the latest text first: the
latest one long enough to reach `p` decides. -/
def remnant : List Bytes → Nat → UInt8
  | [], _ => 0
  | text :: earlier, p => if p ≤ text.length then text.getD p 0 else remnant earlier p

theorem getD_inetNtop (ip text : Bytes) (p : Nat) :
    (inetNtop ip text).getD p 0 = if p ≤ text.length then text.getD p 0 else ip.getD p 0 := by
  unfold inetNtop
  rw [Buffer.store_zero, List.append_assoc, List.length_append, List.length_singleton]
  split
  · rename_i hle
    rcases Nat.lt_or_eq_of_le hle with hlt | rfl
    · rw [List.getD_append _ _ _ _ hlt]
    · rw [List.getD_append_right _ _ _ _ le_rfl, Nat.sub_self]
      simp
  · rename_i hgt
    rw [List.getD_append_right _ _ _ _ (by omega),
      List.getD_append_right _ _ _ _ (by simp; omega)]
    simp only [List.getD_eq_getElem?_getD, List.getElem?_drop, List.length_singleton]
    congr 3
    omega

/-- The address object after a run of datagrams. -/
def Address.receiveAll (sources : List Endpoint) : Address :=
  sources.foldl Address.receive Address.init

theorem getD_receiveAll (sources : List Endpoint) (p : Nat) :
    (Address.receiveAll sources).ip.getD p 0 =
      remnant (sources.map Endpoint.text).reverse p := by
  induction sources using List.reverseRecOn with
  | nil =>
      show (List.replicate kAddressTextSize (0 : UInt8)).getD p 0 = 0
      rw [List.getD_eq_getElem?_getD, List.getElem?_replicate]
      split <;> rfl
  | append_singleton sources source ih =>
      have hstep : (Address.receiveAll (sources ++ [source])).ip =
          inetNtop (Address.receiveAll sources).ip source.text := by
        rw [Address.receiveAll, List.foldl_append]
        rfl
      rw [hstep, getD_inetNtop, ih, List.map_append, List.reverse_append]
      rfl

/-- The text before the first NUL. -/
theorem takeWhile_inetNtop (ip : Bytes) {text : Bytes} (hnul : 0 ∉ text) :
    (inetNtop ip text).takeWhile (· ≠ 0) = text := by
  have htext : ∀ b ∈ text, decide (b ≠ 0) = true := by
    intro b hb
    exact decide_eq_true fun h => hnul (h ▸ hb)
  rw [inetNtop, Buffer.store_zero, List.append_assoc, List.takeWhile_append_of_pos htext]
  simp

/-- Two address objects written by a datagram each are the same exactly when the senders are
and what stood behind the text was. -/
theorem Address.receive_eq_iff {a b : Address} {source source' : Endpoint} :
    a.receive source = b.receive source' ↔
      source = source' ∧
        ∀ p, source.text.length < p → p < kAddressTextSize → a.ip.getD p 0 = b.ip.getD p 0 := by
  constructor
  · intro h
    obtain ⟨hip, hport, hfamily⟩ := Address.mk.inj h
    have htext : source.text = source'.text := by
      rw [← takeWhile_inetNtop a.ip source.noNul, hip, takeWhile_inetNtop b.ip source'.noNul]
    refine ⟨?_, ?_⟩
    · obtain ⟨text, port, family, hlt, hnul⟩ := source
      obtain ⟨text', port', family', hlt', hnul'⟩ := source'
      obtain rfl : text = text' := htext
      obtain rfl : port = port' := hport
      obtain rfl : family = family' := AddressFamily.toU8_inj hfamily
      rfl
    · intro p hp _
      have hbyte := congrArg (·.getD p 0) hip
      simp only [getD_inetNtop] at hbyte
      rwa [if_neg (by omega), if_neg (by rw [← htext]; omega)] at hbyte
  · rintro ⟨rfl, htail⟩
    have hlength : (inetNtop a.ip source.text).length = (inetNtop b.ip source.text).length :=
      (a.receive source).length_ip.trans (b.receive source).length_ip.symm
    have hip : inetNtop a.ip source.text = inetNtop b.ip source.text := by
      refine List.ext_getElem hlength fun p hp hp' => ?_
      have hsize : p < kAddressTextSize := (a.receive source).length_ip ▸ hp
      have hbyte : (inetNtop a.ip source.text).getD p 0 =
          (inetNtop b.ip source.text).getD p 0 := by
        rw [getD_inetNtop, getD_inetNtop]
        split
        · rfl
        · exact htail p (by omega) hsize
      rwa [List.getD_eq_getElem _ _ hp, List.getD_eq_getElem _ _ hp'] at hbyte
    simp only [Address.receive, hip]

end ZetaNet
