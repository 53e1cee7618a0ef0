import Mathlib.Tactic

/-!
# Little-endian numerals

`toLE k n` is the `k`-byte little-endian numeral of `n`, `ofLE` reads a
numeral of any length. The two are inverse up to the modulus `256 ^ k`, which is
all a fixed-width store and load need.
-/

namespace LittleEndian

/-- The `k` low-order bytes of `n`, least significant first. -/
def toLE : Nat → Nat → List UInt8
  | 0, _ => []
  | k + 1, n => UInt8.ofNat n :: toLE k (n / 256)

/-- The number a little-endian byte string denotes. -/
def ofLE : List UInt8 → Nat
  | [] => 0
  | b :: rest => b.toNat + 256 * ofLE rest

@[simp] theorem length_toLE (k n : Nat) : (toLE k n).length = k := by
  induction k generalizing n with
  | zero => rfl
  | succ k ih => simp [toLE, ih]

theorem ofLE_lt (bytes : List UInt8) : ofLE bytes < 256 ^ bytes.length := by
  induction bytes with
  | nil => simp [ofLE]
  | cons b rest ih =>
      have hb := b.toNat_lt
      simp only [ofLE, List.length_cons, Nat.pow_succ]
      omega

/-- Decoding an encoded number keeps its residue. -/
theorem ofLE_toLE (k n : Nat) : ofLE (toLE k n) = n % 256 ^ k := by
  induction k generalizing n with
  | zero => simp [toLE, ofLE, Nat.mod_one]
  | succ k ih =>
      have hbyte : (UInt8.ofNat n).toNat = n % 256 := by simp
      rw [toLE, ofLE, ih, hbyte, Nat.pow_succ, Nat.mul_comm (256 ^ k),
        Nat.mod_mul]

/-- Every byte string is the numeral of its value. -/
theorem toLE_ofLE (bytes : List UInt8) :
    toLE bytes.length (ofLE bytes) = bytes := by
  induction bytes with
  | nil => rfl
  | cons b rest ih =>
      have hb := b.toNat_lt
      have hquot : (b.toNat + 256 * ofLE rest) / 256 = ofLE rest := by omega
      have hbyte : UInt8.ofNat (b.toNat + 256 * ofLE rest) = b := by
        apply UInt8.toNat_inj.mp
        simp
      rw [List.length_cons, ofLE, toLE, hquot, ih, hbyte]

/-- A byte string is also the numeral of its value taken modulo its width. -/
theorem toLE_ofLE_mod {bytes : List UInt8} {k : Nat} (h : bytes.length = k) :
    toLE k (ofLE bytes % 256 ^ k) = bytes := by
  subst h
  rw [Nat.mod_eq_of_lt (ofLE_lt bytes), toLE_ofLE]

end LittleEndian
