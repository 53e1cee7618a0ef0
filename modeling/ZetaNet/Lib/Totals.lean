import Mathlib.Algebra.BigOperators.Group.Finset.Basic
import Mathlib.Algebra.BigOperators.Group.List.Basic
import Mathlib.Algebra.GroupWithZero.Nat
import Mathlib.Data.List.AList

/-!
# Totals over association lists and tables

Each entry of an association list has a weight. How the total moves when an entry is added,
removed or replaced; with weight 1 the total is the number of entries. The same for a table with
an entry for each index.
-/

/-- Replacing an entry of a table replaces its weight. -/
theorem Finset.sum_update_add {ι β M : Type*} [Fintype ι] [DecidableEq ι] [AddCommMonoid M]
    (weight : β → M) (table : ι → β) (i : ι) (entry : β) :
    ∑ j, weight (Function.update table i entry j) + weight (table i) =
      ∑ j, weight (table j) + weight entry := by
  have hothers : ∑ j ∈ univ.erase i, weight (Function.update table i entry j) =
      ∑ j ∈ univ.erase i, weight (table j) := by
    refine sum_congr rfl fun j hj => ?_
    rw [Function.update_of_ne (ne_of_mem_erase hj)]
  rw [← sum_erase_add univ _ (mem_univ i), hothers, Function.update_self,
    ← sum_erase_add univ (fun j => weight (table j)) (mem_univ i), add_right_comm]

namespace AList

variable {α : Type*} {β : α → Type*} (weight : ∀ a, β a → ℕ)

/-- The weights of all entries added up. -/
def total (s : AList β) : ℕ := (s.entries.map fun entry => weight entry.1 entry.2).sum

@[simp] theorem total_empty : (∅ : AList β).total weight = 0 := rfl

theorem total_one (s : AList β) : s.total (fun _ _ => 1) = s.entries.length := by
  simp [total]

variable [DecidableEq α] {s : AList β} {a : α} {b b' : β a}

/-- An entry that is found, set apart from the others. -/
theorem entries_perm_of_lookup (h : s.lookup a = some b) :
    s.entries.Perm (⟨a, b⟩ :: (s.erase a).entries) := by
  have hmem : a ∈ s.entries.keys := lookup_isSome.mp (by rw [h]; rfl)
  obtain ⟨b', front, back, -, hsplit, herase⟩ := List.exists_of_kerase hmem
  have hentry : ⟨a, b'⟩ ∈ s.entries := by rw [hsplit]; simp
  obtain rfl : b' = b := by
    have hlookup : s.lookup a = some b' := mem_lookup_iff.mpr hentry
    exact Option.some.inj (hlookup.symm.trans h)
  show s.entries.Perm (⟨a, b'⟩ :: s.entries.kerase a)
  rw [herase, hsplit]
  exact List.perm_middle

theorem total_erase (h : s.lookup a = some b) :
    s.total weight = weight a b + (s.erase a).total weight := by
  unfold total
  rw [((entries_perm_of_lookup h).map _).sum_eq]
  rfl

theorem total_insert_of_notMem (h : a ∉ s) :
    (s.insert a b).total weight = weight a b + s.total weight := by
  unfold total
  rw [entries_insert_of_notMem h]
  rfl

/-- Replacing an entry replaces its weight. -/
theorem total_insert (h : s.lookup a = some b) :
    (s.insert a b').total weight + weight a b = weight a b' + s.total weight := by
  have hinsert : (s.insert a b').total weight = weight a b' + (s.erase a).total weight := by
    unfold total
    rw [entries_insert]
    rfl
  rw [hinsert, total_erase weight h]
  omega

theorem weight_le_total (h : s.lookup a = some b) : weight a b ≤ s.total weight :=
  (total_erase weight h).symm ▸ Nat.le_add_right ..

end AList
