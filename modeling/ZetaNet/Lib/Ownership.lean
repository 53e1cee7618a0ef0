import Mathlib.Logic.Function.Basic
import Mathlib.Tactic

/-!
# Ownership of fresh identifiers

Parties take fresh identifiers, one party each, and give them away or throw them away. What was
given out and is neither owned nor thrown away is shared. `own` reads the identifier that a party
owns off its place.
-/

/-- Identifiers below `fresh` were given out, those marked `gone` thrown away. -/
structure Ownership {ι τ : Type*} (own : τ → Option ℕ) (fresh : ℕ) (gone : ℕ → Bool)
    (place : ι → τ) (Shared : ℕ → Prop) : Prop where
  lt : ∀ t id, own (place t) = some id → id < fresh
  unique : ∀ t u id, own (place t) = some id → own (place u) = some id → t = u
  kept : ∀ t id, own (place t) = some id → gone id = false
  unborn : ∀ id, fresh ≤ id → gone id = false
  shared_iff : ∀ id, Shared id ↔ id < fresh ∧ gone id = false ∧ ∀ t, own (place t) ≠ some id

namespace Ownership

variable {ι τ : Type*} {own : τ → Option ℕ} {fresh : ℕ} {gone : ℕ → Bool} {place : ι → τ}
  {Shared : ℕ → Prop} {t : ι} {id : ℕ} {p : τ}

theorem start (hnone : ∀ t, own (place t) = none) (hgone : ∀ id, gone id = false)
    (hshared : ∀ id, ¬ Shared id) : Ownership own 0 gone place Shared where
  lt t id h := by
    rw [hnone t] at h
    cases h
  unique t u id h := by
    rw [hnone t] at h
    cases h
  kept _ id _ := hgone id
  unborn id _ := hgone id
  shared_iff id := iff_of_false (hshared id) fun h => absurd h.1 (Nat.not_lt_zero id)

/-- What a party owns is not shared. -/
theorem not_shared (h : Ownership own fresh gone place Shared) (hown : own (place t) = some id) :
    ¬ Shared id :=
  fun hshared => ((h.shared_iff id).mp hshared).2.2 t hown

theorem lt_of_shared (h : Ownership own fresh gone place Shared) (hshared : Shared id) :
    id < fresh :=
  ((h.shared_iff id).mp hshared).1

theorem congr {Shared' : ℕ → Prop} (h : Ownership own fresh gone place Shared)
    (hshared : ∀ id, Shared' id ↔ Shared id) : Ownership own fresh gone place Shared' :=
  { h with shared_iff := fun id => (hshared id).trans (h.shared_iff id) }

variable [DecidableEq ι]

/-- A party moves and keeps what it owns. -/
theorem move (h : Ownership own fresh gone place Shared) (hown : own p = own (place t)) :
    Ownership own fresh gone (Function.update place t p) Shared := by
  have hsame (u : ι) : own (Function.update place t p u) = own (place u) := by
    by_cases hu : u = t
    · rw [hu, Function.update_self, hown]
    · rw [Function.update_of_ne hu]
  exact {
    lt := fun u id hid => h.lt u id (hsame u ▸ hid)
    unique := fun u v id hu hv => h.unique u v id (hsame u ▸ hu) (hsame v ▸ hv)
    kept := fun u id hid => h.kept u id (hsame u ▸ hid)
    unborn := h.unborn
    shared_iff := fun id => by
      rw [h.shared_iff id, forall_congr' fun u => not_congr (by rw [← hsame u])] }

/-- A party takes a fresh identifier. -/
theorem take (h : Ownership own fresh gone place Shared) (hnone : own (place t) = none)
    (hown : own p = some fresh) :
    Ownership own (fresh + 1) gone (Function.update place t p) Shared := by
  have hafter (u : ι) (id : ℕ) : own (Function.update place t p u) = some id ↔
      (u = t ∧ id = fresh) ∨ (u ≠ t ∧ own (place u) = some id) := by
    by_cases hu : u = t
    · rw [hu, Function.update_self, hown]
      simp [eq_comm]
    · rw [Function.update_of_ne hu]
      simp [hu]
  exact {
    lt := fun u id hid => by
      rcases (hafter u id).mp hid with ⟨-, rfl⟩ | ⟨-, hid⟩
      · exact Nat.lt_succ_self _
      · exact Nat.lt_succ_of_lt (h.lt u id hid)
    unique := fun u v id hu hv => by
      rcases (hafter u id).mp hu with ⟨rfl, rfl⟩ | ⟨-, hu⟩
      · rcases (hafter v _).mp hv with ⟨rfl, -⟩ | ⟨-, hv⟩
        · rfl
        · exact absurd (h.lt v _ hv) (Nat.lt_irrefl _)
      · rcases (hafter v id).mp hv with ⟨-, rfl⟩ | ⟨-, hv⟩
        · exact absurd (h.lt u _ hu) (Nat.lt_irrefl _)
        · exact h.unique u v id hu hv
    kept := fun u id hid => by
      rcases (hafter u id).mp hid with ⟨-, rfl⟩ | ⟨-, hid⟩
      · exact h.unborn _ le_rfl
      · exact h.kept u id hid
    unborn := fun id hid => h.unborn id (Nat.le_of_succ_le hid)
    shared_iff := fun id => by
      rw [h.shared_iff id]
      constructor
      · rintro ⟨hlt, hkept, hno⟩
        refine ⟨Nat.lt_succ_of_lt hlt, hkept, fun u hu => ?_⟩
        rcases (hafter u id).mp hu with ⟨-, rfl⟩ | ⟨-, hu⟩
        · exact Nat.lt_irrefl _ hlt
        · exact hno u hu
      · rintro ⟨hlt, hkept, hno⟩
        have hid : id ≠ fresh := by
          rintro rfl
          exact hno t ((hafter t _).mpr (.inl ⟨rfl, rfl⟩))
        refine ⟨lt_of_le_of_ne (Nat.lt_succ_iff.mp hlt) hid, hkept, fun u hu => ?_⟩
        by_cases hut : u = t
        · rw [hut, hnone] at hu
          cases hu
        · exact hno u ((hafter u id).mpr (.inr ⟨hut, hu⟩)) }

section Release

variable (h : Ownership own fresh gone place Shared) (hown : own (place t) = some id)
  (hnone : own p = none)

include h hown hnone

/-- Who owns something after a party let go of `id`. -/
theorem own_of_release {u : ι} {j : ℕ} :
    own (Function.update place t p u) = some j ↔ j ≠ id ∧ own (place u) = some j := by
  by_cases hu : u = t
  · subst hu
    rw [Function.update_self, hnone, hown]
    simp [eq_comm]
  · rw [Function.update_of_ne hu]
    refine ⟨fun hj => ⟨?_, hj⟩, And.right⟩
    rintro rfl
    exact hu (h.unique u t j hj hown)

/-- A party shares what it owns. -/
theorem share : Ownership own fresh gone (Function.update place t p)
    (fun j => Shared j ∨ j = id) where
  lt u j hj := h.lt u j ((own_of_release h hown hnone).mp hj).2
  unique u v j hu hv :=
    h.unique u v j ((own_of_release h hown hnone).mp hu).2 ((own_of_release h hown hnone).mp hv).2
  kept u j hj := h.kept u j ((own_of_release h hown hnone).mp hj).2
  unborn := h.unborn
  shared_iff j := by
    rw [h.shared_iff j, forall_congr' fun u => not_congr (own_of_release h hown hnone)]
    by_cases hj : j = id
    · subst hj
      exact iff_of_true (.inr rfl) ⟨h.lt t j hown, h.kept t j hown, fun u hu => hu.1 rfl⟩
    · simp [hj]

/-- A party throws away what it owns. -/
theorem drop : Ownership own fresh (Function.update gone id true) (Function.update place t p)
    Shared := by
  have hsame {j : ℕ} (hj : j ≠ id) : Function.update gone id true j = gone j :=
    Function.update_of_ne hj ..
  exact {
    lt := fun u j hj => h.lt u j ((own_of_release h hown hnone).mp hj).2
    unique := fun u v j hu hv => h.unique u v j ((own_of_release h hown hnone).mp hu).2
      ((own_of_release h hown hnone).mp hv).2
    kept := fun u j hj => by
      obtain ⟨hne, hj⟩ := (own_of_release h hown hnone).mp hj
      exact (hsame hne).trans (h.kept u j hj)
    unborn := fun j hj =>
      (hsame (lt_of_lt_of_le (h.lt t id hown) hj).ne').trans (h.unborn j hj)
    shared_iff := fun j => by
      rw [h.shared_iff j, forall_congr' fun u => not_congr (own_of_release h hown hnone)]
      by_cases hj : j = id
      · subst hj
        refine iff_of_false (fun hshared => hshared.2.2 t hown) fun hshared => ?_
        rw [Function.update_self] at hshared
        cases hshared.2.1
      · rw [hsame hj]
        simp [hj] }

end Release

end Ownership
