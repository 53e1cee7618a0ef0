import Mathlib.Data.Set.Insert
import Mathlib.Data.List.Nodup
import Mathlib.Logic.Function.Basic

/-!
# At-most-once delivery

Hosts send messages as numbered copies, each to one target; a receiver keeps the numbers
it has seen from every sender and hands a message on when its number is new. A network that
loses, repeats and reorders copies adds nothing to this: a copy may arrive whenever it was
sent. If a sender gives every copy its own number and a message goes to a target in one
copy, no message is handed on twice.
-/

namespace Delivery

/-- `copy a n` is the target and the message of the copy that `a` numbered `n`, `seen b a`
are the numbers `b` has taken from `a`, `delivered b` is what `b` has handed on. -/
structure State (H M N : Type*) where
  copy : H → N → Option (H × M)
  seen : H → H → Set N
  delivered : H → List (H × M)

variable {H M N : Type*} [DecidableEq H] [DecidableEq N]

namespace State

def init : State H M N where
  copy _ _ := none
  seen _ _ := ∅
  delivered _ := []

/-- `a` sends `m` to `b` under the number `n`. -/
def send (s : State H M N) (a : H) (n : N) (b : H) (m : M) : State H M N :=
  { s with copy := Function.update s.copy a (Function.update (s.copy a) n (some (b, m))) }

/-- `b` takes the copy `n` of `a` and hands on its message. -/
def accept (s : State H M N) (a : H) (n : N) (b : H) (m : M) : State H M N :=
  { s with
    seen := Function.update s.seen b (Function.update (s.seen b) a (insert n (s.seen b a)))
    delivered := Function.update s.delivered b (s.delivered b ++ [(a, m)]) }

/-- Copies and seen numbers only grow. -/
structure Le (s s' : State H M N) : Prop where
  copy : ∀ {a n x}, s.copy a n = some x → s'.copy a n = some x
  seen : ∀ {b a n}, n ∈ s.seen b a → n ∈ s'.seen b a

end State

/-- What holds of every run in which numbers are fresh and no message is sent twice to one
target. -/
structure Safe (s : State H M N) : Prop where
  /-- one copy for each target and message -/
  copy_inj : ∀ {a n n' x}, s.copy a n = some x → s.copy a n' = some x → n = n'
  /-- a number taken is the number of a copy to this receiver, and its message handed on -/
  seen_delivered : ∀ {b a n}, n ∈ s.seen b a →
    ∃ m, s.copy a n = some (b, m) ∧ (a, m) ∈ s.delivered b
  /-- a message handed on came in a copy whose number was taken -/
  delivered_seen : ∀ {b a m}, (a, m) ∈ s.delivered b →
    ∃ n, s.copy a n = some (b, m) ∧ n ∈ s.seen b a
  delivered_nodup : ∀ b, (s.delivered b).Nodup

namespace State

@[simp] theorem copy_send {s : State H M N} {a : H} {n : N} {b : H} {m : M} (a' : H) (n' : N) :
    (s.send a n b m).copy a' n' =
      if a' = a ∧ n' = n then some (b, m) else s.copy a' n' := by
  simp only [send, Function.update_apply]
  by_cases ha : a' = a
  · subst ha
    by_cases hn : n' = n <;> simp [hn]
  · simp [ha]

omit [DecidableEq N] in
@[simp] theorem mem_seen_accept {s : State H M N} {a : H} {n : N} {b : H} {m : M} (b' a' : H)
    (n' : N) :
    n' ∈ (s.accept a n b m).seen b' a' ↔ (b' = b ∧ a' = a ∧ n' = n) ∨ n' ∈ s.seen b' a' := by
  simp only [accept, Function.update_apply]
  by_cases hb : b' = b
  · subst hb
    by_cases ha : a' = a
    · subst ha
      simp
    · simp [ha]
  · simp [hb]

omit [DecidableEq N] in
@[simp] theorem delivered_accept {s : State H M N} {a : H} {n : N} {b : H} {m : M} (b' : H) :
    (s.accept a n b m).delivered b' =
      if b' = b then s.delivered b ++ [(a, m)] else s.delivered b' := by
  simp only [accept, Function.update_apply]

omit [DecidableEq H] [DecidableEq N] in
theorem Le.refl (s : State H M N) : s.Le s := ⟨id, id⟩

theorem le_send {s : State H M N} {a : H} {n : N} {b : H} {m : M} (hfresh : s.copy a n = none) :
    s.Le (s.send a n b m) where
  copy {a' n' x} h := by
    rw [copy_send, if_neg]
    · exact h
    · rintro ⟨rfl, rfl⟩
      rw [hfresh] at h
      cases h
  seen h := h

omit [DecidableEq N] in
theorem le_accept (s : State H M N) (a : H) (n : N) (b : H) (m : M) :
    s.Le (s.accept a n b m) where
  copy h := h
  seen h := (mem_seen_accept ..).mpr (.inr h)

end State

open State

omit [DecidableEq H] [DecidableEq N] in
theorem safe_init : Safe (init : State H M N) where
  copy_inj h := by cases h
  seen_delivered h := h.elim
  delivered_seen h := by cases h
  delivered_nodup _ := List.nodup_nil

omit [DecidableEq H] [DecidableEq N] in
/-- A number taken by `b` confirms the copy it was given to: the copy was for `b`, and `b` has
handed on its message. -/
theorem Safe.confirmed {s : State H M N} (hs : Safe s) {a b b' : H} {n : N} {m : M}
    (hseen : n ∈ s.seen b a) (hcopy : s.copy a n = some (b', m)) :
    b' = b ∧ (a, m) ∈ s.delivered b := by
  obtain ⟨m', hcopy', hmem⟩ := hs.seen_delivered hseen
  obtain ⟨rfl, rfl⟩ := Prod.mk.inj (Option.some.inj (hcopy.symm.trans hcopy'))
  exact ⟨rfl, hmem⟩

/-- A fresh number for a message that has no copy to this target yet. -/
theorem Safe.send {s : State H M N} (hs : Safe s) {a : H} {n : N} {b : H} {m : M}
    (hfresh : s.copy a n = none) (hnew : ∀ n', s.copy a n' ≠ some (b, m)) :
    Safe (s.send a n b m) where
  copy_inj {a' n₁ n₂ x} h₁ h₂ := by
    rw [copy_send] at h₁ h₂
    split at h₁ <;> split at h₂
    · rename_i e₁ e₂
      exact e₁.2.trans e₂.2.symm
    · rename_i e₁ e₂
      obtain ⟨rfl, rfl⟩ := e₁
      exact absurd (h₂.trans h₁.symm) (hnew n₂)
    · rename_i e₁ e₂
      obtain ⟨rfl, rfl⟩ := e₂
      exact absurd (h₁.trans h₂.symm) (hnew n₁)
    · exact hs.copy_inj h₁ h₂
  seen_delivered h := by
    obtain ⟨m', hcopy, hmem⟩ := hs.seen_delivered h
    exact ⟨m', (le_send hfresh).copy hcopy, hmem⟩
  delivered_seen h := by
    obtain ⟨n', hcopy, hmem⟩ := hs.delivered_seen h
    exact ⟨n', (le_send hfresh).copy hcopy, hmem⟩
  delivered_nodup := hs.delivered_nodup

omit [DecidableEq N] in
/-- The first arrival of a copy. -/
theorem Safe.accept {s : State H M N} (hs : Safe s) {a : H} {n : N} {b : H} {m : M}
    (hcopy : s.copy a n = some (b, m)) (hnew : n ∉ s.seen b a) : Safe (s.accept a n b m) where
  copy_inj := hs.copy_inj
  seen_delivered {b' a' n'} h := by
    rw [delivered_accept]
    rcases (mem_seen_accept ..).mp h with ⟨rfl, rfl, rfl⟩ | hold
    · rw [if_pos rfl]
      exact ⟨m, hcopy, List.mem_append_right _ (List.mem_singleton.mpr rfl)⟩
    · obtain ⟨m', hcopy', hmem⟩ := hs.seen_delivered hold
      refine ⟨m', hcopy', ?_⟩
      split
      · rename_i hb
        rw [← hb]
        exact List.mem_append_left _ hmem
      · exact hmem
  delivered_seen {b' a' m'} h := by
    have hold (h : (a', m') ∈ s.delivered b') :
        ∃ n', s.copy a' n' = some (b', m') ∧ n' ∈ (s.accept a n b m).seen b' a' := by
      obtain ⟨n', hcopy', hmem⟩ := hs.delivered_seen h
      exact ⟨n', hcopy', (le_accept s a n b m).seen hmem⟩
    rw [delivered_accept] at h
    split at h
    · rename_i hb
      subst hb
      rcases List.mem_append.mp h with hmem | hmem
      · exact hold hmem
      · obtain ⟨rfl, rfl⟩ := Prod.mk.inj (List.mem_singleton.mp hmem)
        exact ⟨n, hcopy, (mem_seen_accept ..).mpr (.inl ⟨rfl, rfl, rfl⟩)⟩
    · exact hold h
  delivered_nodup b' := by
    rw [delivered_accept]
    split
    · -- the message is new: its one copy to `b` carries the number `n`
      refine List.Nodup.append (hs.delivered_nodup b) (List.nodup_singleton _) ?_
      intro x hx hsingle
      rw [List.mem_singleton] at hsingle
      subst hsingle
      obtain ⟨n', hcopy', hmem⟩ := hs.delivered_seen hx
      rw [hs.copy_inj hcopy hcopy'] at hnew
      exact hnew hmem
    · exact hs.delivered_nodup b'

end Delivery
