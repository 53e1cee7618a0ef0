import Mathlib.Tactic

/-!
# Buffers addressed by offset

A buffer is a list; `store` overwrites a run of cells in place and `read?` reads
one, returning `none` for an access past the end. The lemmas say how both act on
a buffer that is written as a concatenation, which is how a header layout is
proved field by field.
-/

namespace Buffer

variable {α : Type*}

/-- Overwrite the cells from `off` on with `xs`. -/
def store (buf : List α) (off : Nat) (xs : List α) : List α :=
  buf.take off ++ xs ++ buf.drop (off + xs.length)

/-- The `n` cells from `off` on; `none` when they do not all lie in the buffer. -/
def read? (buf : List α) (off n : Nat) : Option (List α) :=
  if off + n ≤ buf.length then some ((buf.drop off).take n) else none

theorem length_store {buf : List α} {off : Nat} {xs : List α}
    (h : off + xs.length ≤ buf.length) : (store buf off xs).length = buf.length := by
  simp [store]
  omega

theorem getElem?_store {buf : List α} {off : Nat} {xs : List α} (h : off + xs.length ≤ buf.length)
    (j : Nat) :
    (store buf off xs)[j]? =
      if off ≤ j ∧ j < off + xs.length then xs[j - off]? else buf[j]? := by
  have htake : (buf.take off).length = off := by
    rw [List.length_take]
    omega
  unfold store
  rw [List.append_assoc]
  by_cases hfront : j < off
  · rw [List.getElem?_append_left (by omega), List.getElem?_take, if_pos hfront,
      if_neg (by omega)]
  · rw [List.getElem?_append_right (by omega), htake]
    by_cases hmid : j < off + xs.length
    · rw [List.getElem?_append_left (by omega), if_pos (by omega)]
    · rw [List.getElem?_append_right (by omega), List.getElem?_drop, if_neg (by omega)]
      congr 1
      omega

theorem store_zero (buf xs : List α) : store buf 0 xs = xs ++ buf.drop xs.length := by
  simp [store]

/-- A store that starts where the known prefix ends extends the prefix. -/
theorem store_append (front back xs : List α) {off : Nat} (h : off = front.length) :
    store (front ++ back) off xs = front ++ (xs ++ back.drop xs.length) := by
  subst h
  simp [store, List.append_assoc]

/-- Up to the end of a store the buffer is what stood before it and what it stored. -/
theorem take_store (buf xs : List α) {off : Nat} (h : off ≤ buf.length) :
    (store buf off xs).take (off + xs.length) = buf.take off ++ xs := by
  refine List.take_left' ?_
  rw [List.length_append, List.length_take, Nat.min_eq_left h]

/-- A store inside the back part leaves the front alone. -/
theorem store_append_right (front back xs : List α) {off : Nat} (h : front.length ≤ off) :
    store (front ++ back) off xs = front ++ store back (off - front.length) xs := by
  obtain ⟨d, rfl⟩ := Nat.exists_eq_add_of_le h
  simp [store, List.take_append, List.drop_append, List.take_of_length_le,
    List.append_assoc, Nat.add_assoc]

/-- Filling a constant buffer front to back. -/
theorem store_fill (front xs : List α) (z : α) (n : Nat) {off : Nat} (h : off = front.length) :
    store (front ++ List.replicate n z) off xs =
      (front ++ xs) ++ List.replicate (n - xs.length) z := by
  rw [store_append _ _ _ h, List.drop_replicate, List.append_assoc]

/-- A store of the length of the field it covers replaces that field. -/
theorem store_field (front old back xs : List α) {off : Nat} (h : off = front.length)
    (hlen : xs.length = old.length) :
    store (front ++ (old ++ back)) off xs = front ++ (xs ++ back) := by
  rw [store_append _ _ _ h, hlen, List.drop_left]

theorem read?_append_left {front back : List α} {off n : Nat}
    (h : off + n ≤ front.length) : read? (front ++ back) off n = read? front off n := by
  have hle : off + n ≤ (front ++ back).length := by simp; omega
  have hoff : off ≤ front.length := by omega
  simp only [read?, if_pos hle, if_pos h]
  rw [List.drop_append_of_le_length hoff, List.take_append_of_le_length (by simp; omega)]

theorem read?_append_right {front back : List α} {off n : Nat}
    (h : front.length ≤ off) :
    read? (front ++ back) off n = read? back (off - front.length) n := by
  obtain ⟨d, rfl⟩ := Nat.exists_eq_add_of_le h
  have hdrop : (front ++ back).drop (front.length + d) = back.drop d := by
    simp [List.drop_append, List.drop_of_length_le]
  simp only [read?, hdrop, List.length_append, Nat.add_sub_cancel_left, Nat.add_assoc,
    Nat.add_le_add_iff_left]

/-- Reading exactly the front field. -/
theorem read?_front {front back : List α} {n : Nat} (h : n = front.length) :
    read? (front ++ back) 0 n = some front := by
  subst h
  simp [read?]

/-- Reading exactly a field in the middle. -/
theorem read?_field {front field back : List α} {off n : Nat} (hoff : off = front.length)
    (hn : n = field.length) : read? (front ++ (field ++ back)) off n = some field := by
  rw [read?_append_right (by omega), hoff, Nat.sub_self, read?_front hn]

/-- The buffers have one length and the same cells from `lo` up to `hi`. -/
structure Agree (lo hi : Nat) (xs ys : List α) : Prop where
  length_eq : xs.length = ys.length
  same : ∀ i, lo ≤ i → i < hi → xs[i]? = ys[i]?

theorem Agree.mono {lo hi lo' hi' : Nat} {xs ys : List α} (h : Agree lo hi xs ys) (hlo : lo ≤ lo')
    (hhi : hi' ≤ hi) : Agree lo' hi' xs ys :=
  ⟨h.length_eq, fun i hi hi' => h.same i (Nat.le_trans hlo hi) (Nat.lt_of_lt_of_le hi' hhi)⟩

theorem Agree.take_eq {hi : Nat} {xs ys : List α} (h : Agree 0 hi xs ys) :
    xs.take hi = ys.take hi := by
  refine List.ext_getElem? fun j => ?_
  rw [List.getElem?_take, List.getElem?_take]
  split
  · exact h.same j (Nat.zero_le j) (by assumption)
  · rfl

theorem Agree.drop_eq {lo : Nat} {xs ys : List α} (h : Agree lo xs.length xs ys) :
    xs.drop lo = ys.drop lo := by
  refine List.ext_getElem? fun j => ?_
  rw [List.getElem?_drop, List.getElem?_drop]
  by_cases hj : lo + j < xs.length
  · exact h.same _ (Nat.le_add_right ..) hj
  · have hlength := h.length_eq
    rw [List.getElem?_eq_none (by omega), List.getElem?_eq_none (by omega)]

/-- A read only looks at its cells. -/
theorem read?_congr {xs ys : List α} {off n : Nat} (h : Agree off (off + n) xs ys) :
    read? xs off n = read? ys off n := by
  have hwindow : (xs.drop off).take n = (ys.drop off).take n := by
    refine List.ext_getElem? fun j => ?_
    rw [List.getElem?_take, List.getElem?_take]
    split
    · rw [List.getElem?_drop, List.getElem?_drop]
      exact h.same _ (Nat.le_add_right ..) (by omega)
    · rfl
  unfold read?
  rw [h.length_eq, hwindow]

/-- Equal reads come from equal cells. -/
theorem getElem?_eq_of_read? {xs ys window : List α} {off n i : Nat}
    (hx : read? xs off n = some window) (hy : read? ys off n = some window) (hlo : off ≤ i)
    (hhi : i < off + n) : xs[i]? = ys[i]? := by
  have hcell {zs : List α} (hz : read? zs off n = some window) : zs[i]? = window[i - off]? := by
    unfold read? at hz
    split at hz
    · obtain rfl := Option.some.inj hz
      rw [List.getElem?_take, if_pos (by omega), List.getElem?_drop, Nat.add_sub_cancel' hlo]
    · cases hz
  rw [hcell hx, hcell hy]

theorem length_of_read? {buf xs : List α} {off n : Nat} (h : read? buf off n = some xs) :
    xs.length = n := by
  unfold read? at h
  split at h
  · injection h with h
    subst h
    simp
    omega
  · cases h

end Buffer
