import ZetaNet.Lib.Machine

/-!
# Waiting for the dispatch tasks

`StopThreads` ends in `WaitForPendingDispatchTasks`, which waits on a condition variable for the
counter of pending tasks. `TrackDispatchTaskCompletion` takes the counter down and notifies
without the mutex of the waiter, so its notification can fall between the waiter's look at the
counter and its block. A waiter is left behind exactly if it does.
-/

namespace ZetaNet

/-- Where the thread in `WaitForPendingDispatchTasks` stands. -/
inductive WaiterPc
  /-- before `dispatch_wait_mutex_` is locked -/
  | arriving
  /-- with the mutex, before the predicate -/
  | checking
  /-- with the mutex, the predicate was false -/
  | parking
  /-- in `wait`, the mutex is released -/
  | blocked
  /-- woken, before the mutex is locked again -/
  | waking
  | returned
  deriving DecidableEq

/-- Where a call of `TrackDispatchTaskCompletion` stands. -/
inductive CompletionPc
  | ready
  /-- it took the counter to 0 and has not notified yet -/
  | notifying
  | done
  deriving DecidableEq

/-- The wait at the end of `StopThreads` with the completions of the tasks that are pending. -/
structure Shutdown where
  pendingDispatchTasks : Nat
  waiter : WaiterPc
  completions : Nat → CompletionPc

inductive ShutdownEvent
  | lock
  | check
  | block
  /-- `wait` returns although nobody notified -/
  | wake
  | decrement (i : Nat)
  | notify (i : Nat)
  deriving DecidableEq

namespace Shutdown

/-- The call begins with `n` tasks pending, none of which has got to its completion. -/
def start (n : Nat) : Shutdown := ⟨n, .arriving, fun i => if i < n then .ready else .done⟩

def setCompletion (i : Nat) (pc : CompletionPc) (s : Shutdown) : Shutdown :=
  { s with completions := Function.update s.completions i pc }

/-- One step of one thread. -/
def machine : Machine Shutdown ShutdownEvent where
  step s
    | .lock =>
        if s.waiter = .arriving ∨ s.waiter = .waking then some { s with waiter := .checking }
        else none
    | .check =>
        if s.waiter = .checking then
          some { s with waiter := if s.pendingDispatchTasks = 0 then .returned else .parking }
        else none
    | .block => if s.waiter = .parking then some { s with waiter := .blocked } else none
    | .wake => if s.waiter = .blocked then some { s with waiter := .waking } else none
    | .decrement i =>
        if s.completions i = .ready then
          let remaining := s.pendingDispatchTasks - 1
          some ({ s with pendingDispatchTasks := remaining }.setCompletion i
            (if remaining = 0 then .notifying else .done))
        else none
    | .notify i =>
        if s.completions i = .notifying then
          let waiter := if s.waiter = WaiterPc.blocked then .waking else s.waiter
          some ({ s with waiter }.setCompletion i .done)
        else none

/-- The counter is 0, no completion is left to run, and the waiter still waits. -/
def Stranded (s : Shutdown) : Prop :=
  s.pendingDispatchTasks = 0 ∧ (∀ i, s.completions i = .done) ∧ s.waiter = .blocked

/-- No notification between the waiter's look at the counter and its block. -/
def OutsideGap (s : Shutdown) : ShutdownEvent → Prop
  | .notify _ => s.waiter ≠ .parking
  | _ => True

variable {s s' : Shutdown} {e : ShutdownEvent} {n : Nat}

/-! ## The waiter is not left behind -/

/-- A waiter that has seen the counter above 0 has a notification to come once it is 0. -/
def Awaited (s : Shutdown) : Prop :=
  s.waiter = .parking ∨ s.waiter = .blocked → s.pendingDispatchTasks = 0 →
    ∃ i, s.completions i = .notifying

theorem awaited_step (h : Awaited s) (hgap : OutsideGap s e) (hstep : machine.step s e = some s') :
    Awaited s' := by
  cases e with
  | lock =>
      simp only [machine] at hstep
      split at hstep
      · obtain rfl := Option.some.inj hstep
        exact fun hwaiter => hwaiter.elim (fun h => by cases h) (fun h => by cases h)
      · cases hstep
  | check =>
      simp only [machine] at hstep
      split at hstep
      · obtain rfl := Option.some.inj hstep
        intro hwaiter hzero
        -- it does not park with the counter at 0
        rw [show (if s.pendingDispatchTasks = 0 then WaiterPc.returned else .parking) = .returned
          from if_pos hzero] at hwaiter
        exact hwaiter.elim (fun h => by cases h) (fun h => by cases h)
      · cases hstep
  | block =>
      simp only [machine] at hstep
      split at hstep
      · rename_i hparking
        obtain rfl := Option.some.inj hstep
        exact fun _ hzero => h (.inl hparking) hzero
      · cases hstep
  | wake =>
      simp only [machine] at hstep
      split at hstep
      · obtain rfl := Option.some.inj hstep
        exact fun hwaiter => hwaiter.elim (fun h => by cases h) (fun h => by cases h)
      · cases hstep
  | decrement i =>
      simp only [machine] at hstep
      split at hstep
      · obtain rfl := Option.some.inj hstep
        intro _ hzero
        refine ⟨i, ?_⟩
        show Function.update s.completions i _ i = _
        rw [Function.update_self]
        exact if_pos hzero
      · cases hstep
  | notify i =>
      simp only [machine] at hstep
      split at hstep
      · obtain rfl := Option.some.inj hstep
        -- a blocked waiter is woken, and none is parking
        intro hwaiter
        have hnot : s.waiter ≠ .parking := hgap
        simp only [setCompletion] at hwaiter
        split at hwaiter
        · exact hwaiter.elim (fun h => by cases h) (fun h => by cases h)
        · rename_i hblocked
          exact absurd hwaiter (not_or.mpr ⟨hnot, hblocked⟩)
      · cases hstep

theorem Awaited.not_stranded (h : Awaited s) : ¬ Stranded s := by
  rintro ⟨hzero, hdone, hblocked⟩
  obtain ⟨i, hnotifying⟩ := h (.inr hblocked) hzero
  rw [hdone i] at hnotifying
  cases hnotifying

/-! ## A notification in the gap leaves it behind -/

/-- The counter counts the completions that have not begun, and one of them at most takes it to
0. -/
structure Counted (s : Shutdown) : Prop where
  ready : ∃ calls : Finset Nat, (∀ i, s.completions i = .ready ↔ i ∈ calls) ∧
    calls.card = s.pendingDispatchTasks
  zero : ∀ i, s.completions i = .notifying → s.pendingDispatchTasks = 0
  unique : ∀ i j, s.completions i = .notifying → s.completions j = .notifying → i = j

theorem counted_start (n : Nat) : Counted (start n) where
  ready := by
    refine ⟨Finset.range n, fun i => ?_, Finset.card_range n⟩
    show (if i < n then CompletionPc.ready else .done) = .ready ↔ _
    rw [Finset.mem_range]
    split
    · rename_i hlt
      exact iff_of_true rfl hlt
    · rename_i hge
      exact iff_of_false (by decide) hge
  zero i h := by
    simp only [start] at h
    split at h <;> cases h
  unique i j h := by
    simp only [start] at h
    split at h <;> cases h

/-- Steps of the waiter leave the completions alone. -/
theorem Counted.congr (h : Counted s) (hpending : s'.pendingDispatchTasks = s.pendingDispatchTasks)
    (hcompletions : s'.completions = s.completions) : Counted s' where
  ready := by
    rw [hpending, hcompletions]
    exact h.ready
  zero := by
    rw [hpending, hcompletions]
    exact h.zero
  unique := by
    rw [hcompletions]
    exact h.unique

theorem Counted.decrement {i : Nat} (h : Counted s) (hready : s.completions i = .ready) :
    let remaining := s.pendingDispatchTasks - 1
    Counted ({ s with pendingDispatchTasks := remaining }.setCompletion i
      (if remaining = 0 then .notifying else .done)) := by
  intro remaining
  obtain ⟨calls, hcalls, hcard⟩ := h.ready
  have hmem : i ∈ calls := (hcalls i).mp hready
  have hpos : 0 < calls.card := Finset.card_pos.mpr ⟨i, hmem⟩
  -- nobody else is notifying, for the counter is above 0
  have hnobody (j : Nat) : s.completions j ≠ .notifying := by
    intro hnotifying
    have hzero := h.zero j hnotifying
    omega
  have honly {j : Nat} (hnotifying : Function.update s.completions i
      (if remaining = 0 then .notifying else .done) j = .notifying) : j = i ∧ remaining = 0 := by
    by_cases hij : j = i
    · subst hij
      rw [Function.update_self] at hnotifying
      refine ⟨rfl, ?_⟩
      by_contra hne
      rw [if_neg hne] at hnotifying
      cases hnotifying
    · rw [Function.update_of_ne hij] at hnotifying
      exact absurd hnotifying (hnobody j)
  refine
    { ready := ⟨calls.erase i, fun j => ?_, ?_⟩
      zero := fun j hnotifying => (honly hnotifying).2
      unique := fun j k hj hk => (honly hj).1.trans (honly hk).1.symm }
  · show Function.update s.completions i _ j = .ready ↔ _
    by_cases hij : j = i
    · subst hij
      rw [Function.update_self]
      refine iff_of_false ?_ (Finset.notMem_erase j calls)
      split
      · decide
      · decide
    · rw [Function.update_of_ne hij, hcalls, Finset.mem_erase]
      exact (and_iff_right hij).symm
  · show (calls.erase i).card = s.pendingDispatchTasks - 1
    rw [Finset.card_erase_of_mem hmem, hcard]

theorem Counted.notify {i : Nat} (h : Counted s) (hnotifying : s.completions i = .notifying)
    (waiter : WaiterPc) : Counted ({ s with waiter }.setCompletion i .done) := by
  obtain ⟨calls, hcalls, hcard⟩ := h.ready
  have hnobody (j : Nat) : Function.update s.completions i .done j ≠ .notifying := by
    intro hother
    by_cases hij : j = i
    · subst hij
      rw [Function.update_self] at hother
      cases hother
    · rw [Function.update_of_ne hij] at hother
      exact hij (h.unique j i hother hnotifying)
  refine
    { ready := ⟨calls, fun j => ?_, hcard⟩
      zero := fun j hother => absurd hother (hnobody j)
      unique := fun j k hother => absurd hother (hnobody j) }
  show Function.update s.completions i .done j = .ready ↔ _
  by_cases hij : j = i
  · subst hij
    rw [Function.update_self, ← hcalls, hnotifying]
    decide
  · rw [Function.update_of_ne hij, hcalls]

theorem Counted.step (h : Counted s) (hstep : machine.step s e = some s') : Counted s' := by
  cases e with
  | decrement i =>
      simp only [machine] at hstep
      split at hstep
      · rename_i hready
        obtain rfl := Option.some.inj hstep
        exact h.decrement hready
      · cases hstep
  | notify i =>
      simp only [machine] at hstep
      split at hstep
      · rename_i hnotifying
        obtain rfl := Option.some.inj hstep
        exact h.notify hnotifying _
      · cases hstep
  | _ =>
      simp only [machine] at hstep
      split at hstep
      · obtain rfl := Option.some.inj hstep
        exact h.congr rfl rfl
      · cases hstep

theorem Counted.stranded {i : Nat} (h : Counted s) (hparking : s.waiter = .parking)
    (hstep : machine.step s (.notify i) = some s') :
    ∃ final, machine.step s' .block = some final ∧ Stranded final := by
  simp only [machine] at hstep
  split at hstep
  · rename_i hnotifying
    obtain rfl := Option.some.inj hstep
    rw [hparking, if_neg (by decide)]
    refine ⟨⟨s.pendingDispatchTasks, .blocked, Function.update s.completions i .done⟩,
      rfl, h.zero i hnotifying, fun j => ?_, rfl⟩
    show Function.update s.completions i .done j = .done
    by_cases hij : j = i
    · subst hij
      exact Function.update_self ..
    · rw [Function.update_of_ne hij]
      obtain ⟨calls, hcalls, hcard⟩ := h.ready
      rw [h.zero i hnotifying, Finset.card_eq_zero] at hcard
      cases hj : s.completions j with
      | ready =>
          have hmem := (hcalls j).mp hj
          rw [hcard] at hmem
          exact absurd hmem (Finset.notMem_empty j)
      | notifying => exact absurd (h.unique j i hj hnotifying) hij
      | done => rfl
  · cases hstep

/-! ## Both together -/

/-- In a run whose notifications all fall outside the gap the waiter is never left behind; one in
the gap leaves it behind with the waiter's next step. -/
theorem stranded_only_by_gap {n : Nat} {events : List ShutdownEvent} {s : Shutdown}
    (hexec : machine.exec (start n) events = some s) :
    (machine.Along OutsideGap (start n) events → ¬ Stranded s) ∧
      ∀ i mid, ¬ OutsideGap s (.notify i) → machine.step s (.notify i) = some mid →
        ∃ final, machine.step mid .block = some final ∧ Stranded final := by
  constructor
  · intro halong
    have hstart : Awaited (start n) := fun hwaiter =>
      hwaiter.elim (fun h => by cases h) (fun h => by cases h)
    exact (Machine.invariant_of_along (fun _ _ _ h hgap hstep => awaited_step h hgap hstep) hstart
      halong hexec).not_stranded
  · intro i mid hgap hstep
    exact (Machine.invariant_of_exec (fun _ _ _ h hstep => h.step hstep) (counted_start n)
      hexec).stranded (not_not.mp hgap) hstep

instance (s : Shutdown) : ∀ e, Decidable (OutsideGap s e)
  | .notify _ => inferInstanceAs (Decidable (s.waiter ≠ .parking))
  | .lock | .check | .block | .wake | .decrement _ => isTrue trivial

theorem stranded_only_by_gap_one :
    ∃ s, machine.exec (start 1) [.lock, .check, .block, .decrement 0, .notify 0] = some s ∧
      ¬ Stranded s :=
  ⟨_, rfl, (@stranded_only_by_gap 1 [.lock, .check, .block, .decrement 0, .notify 0] _ rfl).1
    (by decide)⟩

/-- The waiter sees one task pending, the task completes and notifies nobody, and the waiter goes
to sleep. -/
theorem waiter_stranded :
    ∃ s, machine.exec (start 1) [.lock, .check, .decrement 0, .notify 0, .block] = some s ∧
      Stranded s := by
  refine ⟨_, rfl, rfl, fun i => ?_, rfl⟩
  show Function.update (Function.update (start 1).completions 0 .notifying) 0 .done i = .done
  by_cases hzero : i = 0
  · subst hzero
    rw [Function.update_self]
  · rw [Function.update_of_ne hzero, Function.update_of_ne hzero]
    exact if_neg (by omega)

end Shutdown

end ZetaNet
