import ZetaNet.Lib.Checks

/-!
# Faults and early exits

A computation over memory stops in one of two ways: at an exit of its own, or in an access
outside its buffer. `Stop` keeps the two apart, and `safely` marks a computation that has no
faults. A `Handler` runs such computations over a state that stays as it was changed when an
exit is taken; `KeepsOnExit` says that no exit comes after a change.
-/

namespace Checks

variable {ε α β σ : Type}

/-- Why a computation over memory stops. -/
inductive Stop (ε : Type)
  | exit (error : ε)
  | fault
  deriving DecidableEq, Repr

/-- The value of an access; outside the buffer there is none. -/
def fetch (value : Option α) : Except (Stop ε) α := succeed value .fault

/-- A computation that stops at exits only. -/
def safely : Except ε α → Except (Stop ε) α
  | .ok value => .ok value
  | .error error => .error (.exit error)

@[simp] theorem fetch_some (value : α) : fetch (some value) = (.ok value : Except (Stop ε) α) :=
  rfl

@[simp] theorem safely_ok (value : α) : safely (.ok value : Except ε α) = .ok value := rfl

@[simp] theorem safely_error (error : ε) :
    safely (.error error : Except ε α) = .error (.exit error) := rfl

@[simp] theorem safely_succeed (value : Option α) (error : ε) :
    safely (succeed value error) = succeed value (.exit error) := by
  cases value <;> rfl

@[simp] theorem safely_require (test : Bool) (error : ε) :
    safely (require test error) = require test (.exit error) := by
  cases test <;> rfl

theorem safely_bind (computation : Except ε α) (next : α → Except ε β) :
    safely (computation >>= next) = safely computation >>= fun value => safely (next value) := by
  cases computation with
  | error error => rw [error_bind, safely_error, safely_error, error_bind]
  | ok value => rw [ok_bind, safely_ok, ok_bind]

theorem safely_eq_ok {computation : Except ε α} {value : α}
    (h : safely computation = .ok value) : computation = .ok value := by
  cases computation with
  | error error => cases h
  | ok _ => rw [Except.ok.inj h]

/-! ## Handlers -/

/-- A handler of messages: it may stop, and keeps the state as it is then. -/
abbrev Handler (σ ε α : Type) := ExceptT (Stop ε) (StateM σ) α

namespace Handler

/-- Run a computation that does not look at the state. -/
def check (computation : Except (Stop ε) α) : Handler σ ε α := ExceptT.mk (pure computation)

/-- The outcome and the state left behind. -/
def outcome (handler : Handler σ ε α) (s : σ) : Except (Stop ε) α × σ := handler.run.run s

/-- No exit comes after a change of the state. -/
def KeepsOnExit (handler : Handler σ ε α) : Prop :=
  ∀ s stop s', handler.outcome s = (.error stop, s') → s' = s

@[simp] theorem outcome_pure (value : α) (s : σ) :
    (pure value : Handler σ ε α).outcome s = (.ok value, s) := rfl

@[simp] theorem outcome_get (s : σ) : (get : Handler σ ε σ).outcome s = (.ok s, s) := rfl

@[simp] theorem outcome_modify (f : σ → σ) (s : σ) :
    (modify f : Handler σ ε PUnit).outcome s = (.ok ⟨⟩, f s) := rfl

@[simp] theorem outcome_check (computation : Except (Stop ε) α) (s : σ) :
    (check computation : Handler σ ε α).outcome s = (computation, s) := rfl

theorem outcome_bind (handler : Handler σ ε α) (next : α → Handler σ ε β) (s : σ) :
    (handler >>= next).outcome s =
      match handler.outcome s with
      | (.ok value, s') => (next value).outcome s'
      | (.error stop, s') => (.error stop, s') := by
  obtain ⟨result, s', hresult⟩ : ∃ result s', handler.outcome s = (result, s') :=
    ⟨_, _, rfl⟩
  have hrun : StateT.run (ExceptT.run handler) s = (result, s') := hresult
  rw [hresult, outcome, ExceptT.run_bind, StateT.run_bind, hrun]
  cases result with
  | ok value => rfl
  | error stop => rfl

@[simp] theorem outcome_get_bind (next : σ → Handler σ ε β) (s : σ) :
    (get >>= next : Handler σ ε β).outcome s = (next s).outcome s := by
  rw [outcome_bind, outcome_get]

@[simp] theorem outcome_modify_bind (f : σ → σ) (next : PUnit → Handler σ ε β) (s : σ) :
    (modify f >>= next : Handler σ ε β).outcome s = (next ⟨⟩).outcome (f s) := by
  rw [outcome_bind, outcome_modify]

@[simp] theorem outcome_check_ok_bind (value : α) (next : α → Handler σ ε β) (s : σ) :
    (check (.ok value) >>= next : Handler σ ε β).outcome s = (next value).outcome s := by
  rw [outcome_bind, outcome_check]

@[simp] theorem outcome_check_error_bind (stop : Stop ε) (next : α → Handler σ ε β) (s : σ) :
    (check (.error stop) >>= next : Handler σ ε β).outcome s = (.error stop, s) := by
  rw [outcome_bind, outcome_check]

/-- The handler runs without a fault, to whatever end, and leaves this state. -/
def Leaves (handler : Handler σ ε α) (s s' : σ) : Prop :=
  ∃ result, result ≠ .error .fault ∧ handler.outcome s = (result, s')

theorem leaves_pure (value : α) (s : σ) : (pure value : Handler σ ε α).Leaves s s :=
  ⟨.ok value, nofun, rfl⟩

theorem leaves_modify (f : σ → σ) (s : σ) : (modify f : Handler σ ε PUnit).Leaves s (f s) :=
  ⟨.ok ⟨⟩, nofun, rfl⟩

theorem leaves_check_error (error : ε) (next : α → Handler σ ε β) (s : σ) :
    (check (safely (.error error)) >>= next : Handler σ ε β).Leaves s s :=
  ⟨.error (.exit error), nofun, outcome_check_error_bind ..⟩

theorem Leaves.check_ok {value : α} {next : α → Handler σ ε β} {s s' : σ}
    (h : (next value).Leaves s s') :
    (check (safely (.ok value)) >>= next : Handler σ ε β).Leaves s s' := by
  obtain ⟨result, hfault, houtcome⟩ := h
  exact ⟨result, hfault, (outcome_check_ok_bind ..).trans houtcome⟩

theorem Leaves.modify_bind {f : σ → σ} {next : PUnit → Handler σ ε β} {s s' : σ}
    (h : (next ⟨⟩).Leaves (f s) s') : (modify f >>= next : Handler σ ε β).Leaves s s' := by
  obtain ⟨result, hfault, houtcome⟩ := h
  exact ⟨result, hfault, (outcome_modify_bind ..).trans houtcome⟩

theorem Leaves.get_bind {next : σ → Handler σ ε β} {s s' : σ} (h : (next s).Leaves s s') :
    (get >>= next : Handler σ ε β).Leaves s s' := by
  obtain ⟨result, hfault, houtcome⟩ := h
  exact ⟨result, hfault, (outcome_get_bind ..).trans houtcome⟩

/-! ## Exits before changes -/

/-- A handler without exits. -/
def NeverExits (handler : Handler σ ε α) : Prop :=
  ∀ s, ∃ value s', handler.outcome s = (.ok value, s')

theorem neverExits_pure (value : α) : (pure value : Handler σ ε α).NeverExits :=
  fun s => ⟨value, s, rfl⟩

theorem neverExits_modify (f : σ → σ) : (modify f : Handler σ ε PUnit).NeverExits :=
  fun s => ⟨⟨⟩, f s, rfl⟩

theorem NeverExits.bind {handler : Handler σ ε α} {next : α → Handler σ ε β}
    (hfirst : handler.NeverExits) (hnext : ∀ value, (next value).NeverExits) :
    (handler >>= next).NeverExits := by
  intro s
  obtain ⟨value, s₁, hvalue⟩ := hfirst s
  rw [outcome_bind, hvalue]
  exact hnext value s₁

theorem NeverExits.keepsOnExit {handler : Handler σ ε α} (h : handler.NeverExits) :
    handler.KeepsOnExit := by
  intro s stop s' hexit
  obtain ⟨value, s'', hok⟩ := h s
  rw [hok] at hexit
  cases hexit

/-- Looking at the state comes before everything. -/
theorem keepsOnExit_get_bind {next : σ → Handler σ ε β} (h : ∀ s, (next s).KeepsOnExit) :
    (get >>= next : Handler σ ε β).KeepsOnExit := by
  intro s stop s' hexit
  rw [outcome_get_bind] at hexit
  exact h s s stop s' hexit

/-- After a computation that does not touch the state. -/
theorem keepsOnExit_check_bind {computation : Except (Stop ε) α} {next : α → Handler σ ε β}
    (h : ∀ value, computation = .ok value → (next value).KeepsOnExit) :
    (check computation >>= next : Handler σ ε β).KeepsOnExit := by
  intro s stop s' hexit
  cases hresult : computation with
  | error error =>
      rw [hresult, outcome_check_error_bind] at hexit
      exact (Prod.mk.inj hexit).2.symm
  | ok value =>
      rw [hresult, outcome_check_ok_bind] at hexit
      exact h value hresult s stop s' hexit

/-- Before a handler without exits. -/
theorem KeepsOnExit.bind {handler : Handler σ ε α} {next : α → Handler σ ε β}
    (hfirst : handler.KeepsOnExit) (hnext : ∀ value, (next value).NeverExits) :
    (handler >>= next).KeepsOnExit := by
  intro s stop s' hexit
  rw [outcome_bind] at hexit
  obtain ⟨result, s₁, hresult⟩ : ∃ result s₁, handler.outcome s = (result, s₁) := ⟨_, _, rfl⟩
  rw [hresult] at hexit
  cases result with
  | ok value =>
      obtain ⟨value', s₂, hok⟩ := hnext value s₁
      simp only [hok] at hexit
      cases hexit
  | error stop' =>
      rw [← (Prod.mk.inj hexit).2]
      exact hfirst s stop' s₁ hresult

end Handler

end Checks
