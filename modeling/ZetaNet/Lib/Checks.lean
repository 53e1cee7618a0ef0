import Mathlib.Tactic

/-!
# Checks that stop with an error

The two shapes of an early exit, over any error type, and how a do block goes on after a
check that passed.
-/

namespace Checks

variable {ε α β : Type}

/-- Stop with `error` unless the test holds. -/
def require (test : Bool) (error : ε) : Except ε Unit :=
  if test then .ok () else .error error

/-- The output of a callee that succeeded, or `error`. -/
def succeed (value : Option α) (error : ε) : Except ε α :=
  match value with
  | some value => .ok value
  | none => .error error

theorem require_true {test : Bool} {error : ε} (h : test = true) :
    require test error = .ok () := if_pos h

@[simp] theorem succeed_some (value : α) (error : ε) :
    succeed (some value) error = .ok value := rfl

@[simp] theorem succeed_none (error : ε) :
    succeed (none : Option α) error = .error error := rfl

@[simp] theorem ok_bind (value : α) (next : α → Except ε β) :
    (Except.ok value >>= next) = next value := by
  simp only [bind, Except.bind]

@[simp] theorem error_bind (error : ε) (next : α → Except ε β) :
    (Except.error error >>= next) = .error error := by
  simp only [bind, Except.bind]

theorem succeed_eq_ok {value : Option α} {error : ε} {found : α}
    (h : succeed value error = .ok found) : value = some found := by
  cases value with
  | none => cases h
  | some _ => rw [Except.ok.inj h]

/-- A check followed by the rest succeeds only through both. -/
theorem require_bind_eq_ok {test : Bool} {error : ε} {next : Unit → Except ε β} {result : β}
    (h : (require test error >>= next) = .ok result) : test = true ∧ next () = .ok result := by
  cases test with
  | false =>
      rw [require, if_neg Bool.false_ne_true, error_bind] at h
      cases h
  | true =>
      rw [require_true rfl, ok_bind] at h
      exact ⟨rfl, h⟩

/-- A sequence succeeds only through its first part. -/
theorem except_bind_eq_ok {computation : Except ε α} {next : α → Except ε β} {result : β}
    (h : (computation >>= next) = .ok result) :
    ∃ value, computation = .ok value ∧ next value = .ok result := by
  cases computation with
  | error error =>
      rw [error_bind] at h
      cases h
  | ok value => exact ⟨value, rfl, by rwa [ok_bind] at h⟩

theorem succeed_bind_eq_ok {value : Option α} {error : ε} {next : α → Except ε β} {result : β}
    (h : (succeed value error >>= next) = .ok result) :
    ∃ found, value = some found ∧ next found = .ok result := by
  cases value with
  | none =>
      rw [succeed_none, error_bind] at h
      cases h
  | some found => exact ⟨found, rfl, by rwa [succeed_some, ok_bind] at h⟩

/-- What comes behind a check may rely on it. -/
theorem require_bind_congr {test : Bool} {error : ε} {next next' : Unit → Except ε β}
    (h : test = true → next () = next' ()) :
    (require test error >>= next) = (require test error >>= next') := by
  cases test with
  | false => rfl
  | true => exact h rfl

/-! ## An error that does not occur -/

/-- The computation does not stop with `error`. -/
def Avoids (error : ε) (computation : Except ε α) : Prop := computation ≠ .error error

variable {error error' : ε}

theorem avoids_ok (value : α) : Avoids error (.ok value : Except ε α) := nofun

theorem avoids_require (h : error' ≠ error) (test : Bool) : Avoids error (require test error') := by
  cases test with
  | false => exact fun heq => h (Except.error.inj heq)
  | true => exact avoids_ok ()

theorem avoids_succeed (h : error' ≠ error) (value : Option α) :
    Avoids error (succeed value error') := by
  cases value with
  | none => exact fun heq => h (Except.error.inj heq)
  | some value => exact avoids_ok value

/-- Two computations in sequence: the second one may rely on the result of the first. -/
theorem Avoids.bind {computation : Except ε α} {next : α → Except ε β}
    (hfirst : Avoids error computation)
    (hnext : ∀ value, computation = .ok value → Avoids error (next value)) :
    Avoids error (computation >>= next) := by
  cases computation with
  | error other =>
      rw [error_bind]
      exact fun heq => hfirst (congrArg _ (Except.error.inj heq))
  | ok value =>
      rw [ok_bind]
      exact hnext value rfl

/-- Behind a check its test holds. -/
theorem avoids_require_bind {test : Bool} {next : Unit → Except ε β} (h : error' ≠ error)
    (hnext : test = true → Avoids error (next ())) :
    Avoids error (require test error' >>= next) := by
  refine (avoids_require h test).bind fun _ hpassed => hnext ?_
  cases test with
  | false => cases hpassed
  | true => rfl

end Checks
