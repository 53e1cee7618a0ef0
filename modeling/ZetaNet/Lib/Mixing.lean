import Mathlib.Logic.Function.Basic
import Mathlib.Data.List.Basic

/-!
# Folds that mix

Lists that differ in one place, and steps that lose neither their state nor their input: a
fold of such a step tells the two lists apart.
-/

/-! ## One place of difference -/

/-- Two lists of one length that differ in the place `i` and nowhere else. -/
structure DiffersAt {α : Type*} (i : Nat) (xs ys : List α) : Prop where
  length_eq : xs.length = ys.length
  ne : xs[i]? ≠ ys[i]?
  same : ∀ j, j ≠ i → xs[j]? = ys[j]?

namespace DiffersAt

variable {α : Type*} {i : Nat} {xs ys : List α}

theorem lt_length (h : DiffersAt i xs ys) : i < xs.length := by
  by_contra hi
  apply h.ne
  rw [List.getElem?_eq_none (by omega), List.getElem?_eq_none (by rw [← h.length_eq]; omega)]

/-- The lists are alike in front of the place. -/
theorem take_eq (h : DiffersAt i xs ys) {n : Nat} (hn : n ≤ i) : xs.take n = ys.take n := by
  refine List.ext_getElem? fun j => ?_
  rw [List.getElem?_take, List.getElem?_take]
  split
  · exact h.same j (by omega)
  · rfl

/-- They are alike behind it. -/
theorem drop_eq (h : DiffersAt i xs ys) {n : Nat} (hn : i < n) : xs.drop n = ys.drop n := by
  refine List.ext_getElem? fun j => ?_
  rw [List.getElem?_drop, List.getElem?_drop]
  exact h.same (n + j) (by omega)

theorem take (h : DiffersAt i xs ys) {n : Nat} (hn : i < n) :
    DiffersAt i (xs.take n) (ys.take n) where
  length_eq := by rw [List.length_take, List.length_take, h.length_eq]
  ne := by
    rw [List.getElem?_take, List.getElem?_take, if_pos hn, if_pos hn]
    exact h.ne
  same j hj := by
    rw [List.getElem?_take, List.getElem?_take, h.same j hj]

theorem drop (h : DiffersAt i xs ys) {n : Nat} (hn : n ≤ i) :
    DiffersAt (i - n) (xs.drop n) (ys.drop n) where
  length_eq := by rw [List.length_drop, List.length_drop, h.length_eq]
  ne := by
    rw [List.getElem?_drop, List.getElem?_drop, Nat.add_sub_cancel' hn]
    exact h.ne
  same j hj := by
    rw [List.getElem?_drop, List.getElem?_drop]
    exact h.same (n + j) (by omega)

/-- The common front and back. -/
theorem exists_split (h : DiffersAt i xs ys) :
    ∃ front x y back, xs = front ++ x :: back ∧ ys = front ++ y :: back ∧ x ≠ y := by
  have hx := h.lt_length
  have hy : i < ys.length := h.length_eq ▸ hx
  refine ⟨xs.take i, xs[i], ys[i], xs.drop (i + 1), ?_, ?_, ?_⟩
  · rw [← List.drop_eq_getElem_cons hx, List.take_append_drop]
  · rw [h.take_eq (Nat.le_refl i), h.drop_eq (Nat.lt_succ_self i), ← List.drop_eq_getElem_cons hy,
      List.take_append_drop]
  · intro heq
    apply h.ne
    rw [List.getElem?_eq_getElem hx, List.getElem?_eq_getElem hy, heq]

end DiffersAt

/-! ## Mixing steps -/

/-- For each input the step is injective in the state, for each state in the input. -/
structure Mixing {σ α : Type*} (step : σ → α → σ) : Prop where
  state : ∀ a, Function.Injective fun s => step s a
  input : ∀ s, Function.Injective (step s)

namespace Mixing

variable {σ α : Type*} {step : σ → α → σ}

theorem foldl_injective (h : Mixing step) (xs : List α) :
    Function.Injective fun s => xs.foldl step s := by
  induction xs with
  | nil => exact fun _ _ heq => heq
  | cons x xs ih => exact fun s t heq => h.state x (ih heq)

/-- One different input is never lost again. -/
theorem foldl_ne (h : Mixing step) {i : Nat} {xs ys : List α} (hdiff : DiffersAt i xs ys) (s : σ) :
    xs.foldl step s ≠ ys.foldl step s := by
  obtain ⟨front, x, y, back, rfl, rfl, hne⟩ := hdiff.exists_split
  intro heq
  rw [List.foldl_append, List.foldl_append] at heq
  exact hne (h.input _ (h.foldl_injective back heq))

end Mixing
