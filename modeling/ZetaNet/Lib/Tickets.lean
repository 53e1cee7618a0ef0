import Mathlib.Tactic
import ZetaNet.Lib.Totals

/-!
# Tickets

Parties share a limit that is looked at in one step and charged in a later one. A party that
finds room for what it is about to spend holds a ticket for it until it spends it or gives it
back. Others may find the same room meanwhile, so the limit can be overrun, by at most one ticket
of each other party. A refill sets the counter back and begins the next round; a grant allows an
amount beyond the limit.
-/

namespace Tickets

variable {ι β : Type*} [Fintype ι]

/-- What a round can cost. -/
def share (ι : Type*) [Fintype ι] (limit most : ℕ) : ℕ := limit + (Fintype.card ι - 1) * most

/-- `used` is everything spent so far, `shown` what the counter shows, `granted` what was allowed
beyond the limit; a party at `entry` holds a ticket of `weight entry`. -/
structure Within (limit most rounds granted used shown : ℕ) (weight : β → ℕ) (table : ι → β) :
    Prop where
  weight_le : ∀ i, weight (table i) ≤ most
  /-- the rounds before this one, and what the counter shows of this one -/
  used_le : used ≤ rounds * share ι limit most + granted + shown
  total_le : used + ∑ i, weight (table i) ≤ (rounds + 1) * share ι limit most + granted

section Parties

variable {limit most rounds granted used shown : ℕ} {weight : β → ℕ} {table : ι → β}

/-- Nothing spent and no ticket held. -/
theorem within_start (limit most shown : ℕ) (h : ∀ i, weight (table i) = 0) :
    Within limit most 0 0 0 shown weight table where
  weight_le i := (h i).le.trans (Nat.zero_le _)
  used_le := Nat.zero_le _
  total_le := by
    rw [Finset.sum_eq_zero fun i _ => h i]
    exact Nat.zero_le _

theorem Within.refill (h : Within limit most rounds granted used shown weight table) :
    Within limit most (rounds + 1) granted used 0 weight table where
  weight_le := h.weight_le
  used_le := (Nat.le_add_right _ _).trans h.total_le
  total_le := h.total_le.trans (Nat.add_le_add_right
    (Nat.mul_le_mul_right _ (Nat.le_succ _)) _)

variable [DecidableEq ι] {i : ι} {entry : β}

omit [Fintype ι] in
theorem weight_update_le (h : ∀ i, weight (table i) ≤ most) (hentry : weight entry ≤ most)
    (j : ι) : weight (Function.update table i entry j) ≤ most := by
  by_cases hj : j = i
  · rw [hj, Function.update_self]
    exact hentry
  · rw [Function.update_of_ne hj]
    exact h j

/-- A party keeps its ticket or gives some of it back. -/
theorem Within.move (h : Within limit most rounds granted used shown weight table)
    (hentry : weight entry ≤ weight (table i)) :
    Within limit most rounds granted used shown weight (Function.update table i entry) where
  weight_le := weight_update_le h.weight_le (hentry.trans (h.weight_le i))
  used_le := h.used_le
  total_le := by
    have hsum := Finset.sum_update_add weight table i entry
    have htotal := h.total_le
    omega

/-- The tickets of the other parties. -/
theorem Within.others_le (h : Within limit most rounds granted used shown weight table) (i : ι) :
    ∑ j, weight (table j) ≤ weight (table i) + (Fintype.card ι - 1) * most := by
  rw [← Finset.add_sum_erase _ _ (Finset.mem_univ i)]
  refine Nat.add_le_add_left ?_ _
  have hsum := Finset.sum_le_card_nsmul (Finset.univ.erase i) (fun j => weight (table j)) most
    fun j _ => h.weight_le j
  rwa [Finset.card_erase_of_mem (Finset.mem_univ i), Finset.card_univ, smul_eq_mul] at hsum

/-- A party finds room under the limit. -/
theorem Within.take (h : Within limit most rounds granted used shown weight table)
    (hmost : weight entry ≤ most) (hroom : shown + weight entry ≤ limit) :
    Within limit most rounds granted used shown weight (Function.update table i entry) where
  weight_le := weight_update_le h.weight_le hmost
  used_le := h.used_le
  total_le := by
    have hsum := Finset.sum_update_add weight table i entry
    have hothers := h.others_le i
    have hused := h.used_le
    have hround : (rounds + 1) * share ι limit most =
        rounds * share ι limit most + (limit + (Fintype.card ι - 1) * most) := Nat.succ_mul _ _
    omega

/-- A party is allowed an amount beyond the limit. -/
theorem Within.grant (h : Within limit most rounds granted used shown weight table)
    (amount : ℕ) (hmost : weight entry ≤ most)
    (hentry : weight entry ≤ weight (table i) + amount) :
    Within limit most rounds (granted + amount) used shown weight
      (Function.update table i entry) where
  weight_le := weight_update_le h.weight_le hmost
  used_le := by
    have hused := h.used_le
    omega
  total_le := by
    have hsum := Finset.sum_update_add weight table i entry
    have htotal := h.total_le
    omega

/-- A party spends from its ticket. -/
theorem Within.spend (h : Within limit most rounds granted used shown weight table) (amount : ℕ)
    (hentry : weight entry + amount ≤ weight (table i)) :
    Within limit most rounds granted (used + amount) (shown + amount) weight
      (Function.update table i entry) where
  weight_le := weight_update_le h.weight_le
    ((Nat.le_of_add_right_le hentry).trans (h.weight_le i))
  used_le := by
    have hused := h.used_le
    omega
  total_le := by
    have hsum := Finset.sum_update_add weight table i entry
    have htotal := h.total_le
    omega

end Parties

end Tickets
