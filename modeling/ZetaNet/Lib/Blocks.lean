import ZetaNet.Lib.Buffer
import Mathlib.Order.CompletePartialOrder

/-!
# Lists cut into blocks

A list cut into blocks of one size, and a buffer the blocks are written to at their offsets.
The blocks may come in any order and more than once: a buffer that holds every block and
nothing beyond the end is the list.
-/

namespace Blocks

variable {α : Type*}

/-- The `i`-th block of `size` cells; the last one may be shorter. -/
def block (size : Nat) (xs : List α) (i : Nat) : List α := (xs.drop (i * size)).take size

theorem length_block (size : Nat) (xs : List α) (i : Nat) :
    (block size xs i).length = min (xs.length - i * size) size := by
  rw [block, List.length_take, List.length_drop, Nat.min_comm]

/-- The blocks up to the `i`-th are the front of the list. -/
theorem take_append_block (size : Nat) (xs : List α) (i : Nat) :
    xs.take (i * size) ++ block size xs i = xs.take ((i + 1) * size) := by
  rw [block, Nat.succ_mul, List.take_add]

theorem getElem?_block {size : Nat} {xs : List α} {i j : Nat} (hlo : i * size ≤ j)
    (hhi : j < i * size + size) : (block size xs i)[j - i * size]? = xs[j]? := by
  rw [block, List.getElem?_take, if_pos (by omega), List.getElem?_drop, Nat.add_sub_cancel' hlo]

/-! ## The ranges of the blocks -/

/-- The places of the `i`-th block in a list of length `n`. -/
def range (size n i : Nat) : Set Nat := Set.Ico (i * size) (i * size + min size (n - i * size))

theorem mem_range {size n i j : Nat} :
    j ∈ range size n i ↔ j < n ∧ i * size ≤ j ∧ j < (i + 1) * size := by
  rw [range, Set.mem_Ico, Nat.succ_mul]
  omega

theorem disjoint_range (size n : Nat) :
    Pairwise fun i j => Disjoint (range size n i) (range size n j) := by
  -- a place in two ranges has one quotient by the size
  intro i j hne
  refine Set.disjoint_left.mpr fun k hi hj => hne ?_
  obtain ⟨-, hilo, hihi⟩ := mem_range.mp hi
  obtain ⟨-, hjlo, hjhi⟩ := mem_range.mp hj
  exact (Nat.div_eq_of_lt_le hilo hihi).symm.trans (Nat.div_eq_of_lt_le hjlo hjhi)

/-- Enough blocks cover the list. -/
theorem iUnion_range {size n total : Nat} (hsize : 0 < size) (h : n ≤ total * size) :
    ⋃ i < total, range size n i = Set.Iio n := by
  ext j
  simp only [Set.mem_iUnion, exists_prop, mem_range, Set.mem_Iio]
  constructor
  · rintro ⟨i, -, hj, -⟩
    exact hj
  · intro hj
    have hquotient : j / size < total := (Nat.div_lt_iff_lt_mul hsize).mpr (hj.trans_le h)
    exact ⟨j / size, hquotient, hj, Nat.div_mul_le_self j size,
      Nat.lt_mul_of_div_lt (Nat.lt_succ_self _) hsize⟩

/-! ## Writing at an offset -/

/-- Write `xs` from `off` on; a gap between the end and `off` is filled up with `fill`. -/
def writeAt (fill : α) (buf : List α) (off : Nat) (xs : List α) : List α :=
  Buffer.store (buf ++ List.replicate (off - buf.length) fill) off xs

theorem length_writeAt (fill : α) (buf : List α) (off : Nat) (xs : List α) :
    (writeAt fill buf off xs).length = max buf.length (off + xs.length) := by
  simp only [writeAt, Buffer.store, List.length_append, List.length_take, List.length_drop,
    List.length_replicate]
  omega

/-- Writing where the buffer ends appends. -/
theorem writeAt_length (fill : α) (buf xs : List α) :
    writeAt fill buf buf.length xs = buf ++ xs := by
  simp [writeAt, Buffer.store]

/-- The cells of the buffer outside the write stay, those inside are the ones written. -/
theorem getElem?_writeAt (fill : α) (buf : List α) (off : Nat) (xs : List α) {j : Nat} :
    (off ≤ j → j < off + xs.length → (writeAt fill buf off xs)[j]? = xs[j - off]?) ∧
      (j < buf.length → (j < off ∨ off + xs.length ≤ j) →
        (writeAt fill buf off xs)[j]? = buf[j]?) := by
  set padded := buf ++ List.replicate (off - buf.length) fill with hpadded
  have hlength : padded.length = buf.length + (off - buf.length) := by simp [hpadded]
  have htake : (padded.take off).length = off := by
    rw [List.length_take]
    omega
  unfold writeAt Buffer.store
  rw [← hpadded, List.append_assoc]
  constructor
  · intro hlo hhi
    rw [List.getElem?_append_right (by omega), htake, List.getElem?_append_left (by omega)]
  · intro hj hout
    have hback : padded[j]? = buf[j]? := List.getElem?_append_left hj
    rcases hout with hlt | hge
    · rw [List.getElem?_append_left (by omega), List.getElem?_take, if_pos hlt, hback]
    · rw [List.getElem?_append_right (by omega), htake, List.getElem?_append_right (by omega),
        List.getElem?_drop, show off + xs.length + (j - off - xs.length) = j by omega, hback]

/-! ## Buffers that hold blocks -/

/-- The buffer reaches no further than the list and has the blocks of `held` in their places. -/
structure Holds (size : Nat) (xs : List α) (held : Set Nat) (buf : List α) : Prop where
  length_le : buf.length ≤ xs.length
  same : ∀ i ∈ held, ∀ j, i * size ≤ j → j < i * size + size → buf[j]? = xs[j]?

variable {size : Nat} {xs buf : List α} {held : Set Nat}

theorem holds_empty (h : buf.length ≤ xs.length) : Holds size xs ∅ buf :=
  ⟨h, fun _ hi => absurd hi (Set.notMem_empty _)⟩

/-- Writing a block adds it to those that are held. -/
theorem Holds.writeAt (h : Holds size xs held buf) (fill : α) {i : Nat}
    (hi : i * size ≤ xs.length) :
    Holds size xs (insert i held) (Blocks.writeAt fill buf (i * size) (block size xs i)) := by
  have hblock := length_block size xs i
  have hbuf := h.length_le
  have hlength := length_writeAt fill buf (i * size) (block size xs i)
  refine ⟨by omega, fun i' hi' j hlo hhi => ?_⟩
  obtain ⟨hin, hout⟩ := getElem?_writeAt fill buf (i * size) (block size xs i) (j := j)
  by_cases hbeyond : xs.length ≤ j
  · rw [List.getElem?_eq_none hbeyond, List.getElem?_eq_none (by omega)]
  by_cases hj : i * size ≤ j ∧ j < i * size + size
  · rw [hin hj.1 (by omega), getElem?_block hj.1 hj.2]
  · rcases Set.mem_insert_iff.mp hi' with rfl | hold
    · exact absurd ⟨hlo, hhi⟩ hj
    · -- an old block in its place, which the write does not touch
      have hsame := h.same i' hold j hlo hhi
      have hinside : j < buf.length := by
        by_contra hge
        rw [List.getElem?_eq_none (by omega)] at hsame
        have := List.getElem?_eq_none_iff.mp hsame.symm
        omega
      rw [hout hinside (by omega), hsame]

/-- A block beyond the end has no cells. -/
theorem Holds.insert_of_length_le (h : Holds size xs held buf) {i : Nat}
    (hi : xs.length ≤ i * size) : Holds size xs (insert i held) buf := by
  have hlength := h.length_le
  refine ⟨hlength, fun i' hi' j hlo hhi => ?_⟩
  rcases Set.mem_insert_iff.mp hi' with rfl | hold
  · rw [List.getElem?_eq_none (by omega), List.getElem?_eq_none (by omega)]
  · exact h.same i' hold j hlo hhi

/-- A buffer with all blocks is the list. -/
theorem Holds.eq_of_all (h : Holds size xs held buf) (hsize : 0 < size)
    (hall : ∀ i, i * size < xs.length → i ∈ held) : buf = xs := by
  refine List.ext_getElem? fun j => ?_
  by_cases hj : j < xs.length
  · have hdiv := Nat.div_add_mod' j size
    have hmod := Nat.mod_lt j hsize
    exact h.same (j / size) (hall _ (by omega)) j (by omega) (by omega)
  · have hlength := h.length_le
    rw [List.getElem?_eq_none (by omega), List.getElem?_eq_none (by omega)]

end Blocks
