import ZetaNet.Lib.Machine
import ZetaNet.Lib.Totals

/-!
# The thread pool

`ZThreadPoolTaskExecutor` of `z_task_executor.cc`. A step is one section of a thread under the
mutex, or the run of a task, which no mutex protects. A thread that waits on a condition variable
looks at its predicate again whenever it is woken, notified or not.
-/

namespace ZetaNet

/-- `ResolveWorkerCount`. -/
def resolveWorkerCount (requested hardwareThreads : Nat) : Nat :=
  if requested > 0 then requested
  else if hardwareThreads ≤ 1 then 1
  else hardwareThreads - 1

theorem resolveWorkerCount_pos (requested hardwareThreads : Nat) :
    0 < resolveWorkerCount requested hardwareThreads := by
  unfold resolveWorkerCount
  split
  · assumption
  · split
    · exact Nat.one_pos
    · omega

/-- Where a worker stands in `WorkerLoop`. -/
inductive WorkerPc (τ : Type)
  /-- at the head of the loop, or in `task_cv_.wait` -/
  | waiting
  /-- it has taken the task and runs it -/
  | running (task : τ)
  /-- the task has returned or thrown -/
  | ended
  | exited

/-- A thread in `Submit` waits for space, or it is elsewhere. -/
inductive SubmitPc (τ : Type)
  | outside
  | waiting (task : τ)

/-- A call of `Drain`. -/
inductive DrainPc
  | ahead
  | waiting
  | returned
  deriving DecidableEq

/-- Where the destructor stands. -/
inductive DestructorPc
  | alive
  /-- in `Drain` -/
  | draining
  /-- back from `Drain`, before `stopping_` is set -/
  | drained
  | joining
  | joined
  deriving DecidableEq

/-- The pool with `workerCount` workers and the threads that call it. -/
structure ThreadPool (τ : Type) (workerCount : Nat) where
  maxQueuedTasks : Nat
  tasks : List τ
  activeWorkers : Nat
  stopping : Bool
  workers : Fin workerCount → WorkerPc τ
  submitters : Nat → SubmitPc τ
  drains : Nat → DrainPc
  destructor : DestructorPc
  /-- the tasks pushed so far, in their order -/
  accepted : List τ
  /-- the tasks taken by a worker so far, in their order -/
  started : List τ
  /-- the tasks that have returned or thrown so far -/
  finished : List τ

inductive PoolEvent (τ : Type) (workerCount : Nat)
  | submit (thread : Nat) (task : Option τ)
  /-- the thread looks for space again -/
  | space (thread : Nat)
  | drain (call : Nat)
  /-- the call looks again whether all is idle -/
  | idle (call : Nat)
  | take (worker : Fin workerCount)
  | run (worker : Fin workerCount) (throws : Bool)
  | finish (worker : Fin workerCount)
  | destroy
  | destroyDrained
  | stop
  | join

namespace ThreadPool

variable {τ : Type} {workerCount : Nat}

/-- A pool with its workers started. -/
def start (τ : Type) (workerCount maxQueuedTasks : Nat) : ThreadPool τ workerCount where
  maxQueuedTasks
  tasks := []
  activeWorkers := 0
  stopping := false
  workers _ := .waiting
  submitters _ := .outside
  drains _ := .ahead
  destructor := .alive
  accepted := []
  started := []
  finished := []

def setWorker (worker : Fin workerCount) (pc : WorkerPc τ) (s : ThreadPool τ workerCount) :
    ThreadPool τ workerCount :=
  { s with workers := Function.update s.workers worker pc }

def setSubmitter (thread : Nat) (pc : SubmitPc τ) (s : ThreadPool τ workerCount) :
    ThreadPool τ workerCount :=
  { s with submitters := Function.update s.submitters thread pc }

def setDrain (call : Nat) (pc : DrainPc) (s : ThreadPool τ workerCount) :
    ThreadPool τ workerCount :=
  { s with drains := Function.update s.drains call pc }

/-- `tasks_.push`. -/
def push (task : τ) (s : ThreadPool τ workerCount) : ThreadPool τ workerCount :=
  { s with tasks := s.tasks ++ [task], accepted := s.accepted ++ [task] }

/-- The section of `Submit` from the look for space on. -/
def submitSection (thread : Nat) (task : τ) (s : ThreadPool τ workerCount) :
    ThreadPool τ workerCount :=
  if s.maxQueuedTasks > 0 then
    if s.stopping ∨ s.tasks.length < s.maxQueuedTasks then
      if s.stopping then s.setSubmitter thread .outside
      else (s.push task).setSubmitter thread .outside
    else s.setSubmitter thread (.waiting task)
  else (s.push task).setSubmitter thread .outside

/-- The predicate of `Drain`. -/
def isIdle (s : ThreadPool τ workerCount) : Bool := s.tasks.isEmpty ∧ s.activeWorkers = 0

/-- One step of one thread. -/
def machine : Machine (ThreadPool τ workerCount) (PoolEvent τ workerCount) where
  step s
    | .submit thread task =>
        match s.submitters thread, task with
        -- a submitter that waits for room has not returned yet
        | .waiting _, _ => none
        | .outside, none => some s
        | .outside, some task => if s.stopping then some s else some (s.submitSection thread task)
    | .space thread =>
        match s.submitters thread with
        | .waiting task => some (s.submitSection thread task)
        | .outside => none
    -- `Drain` looks once on its way in
    | .drain call =>
        if s.drains call = .ahead then
          some (s.setDrain call (if s.isIdle then .returned else .waiting))
        else none
    | .idle call =>
        if s.drains call = .waiting then
          some (if s.isIdle then s.setDrain call .returned else s)
        else none
    | .take worker =>
        match s.workers worker with
        | .waiting =>
            match s.tasks with
            -- woken without a task: it leaves, or waits on
            | [] => some (if s.stopping then s.setWorker worker .exited else s)
            | task :: tasks =>
                some ({ s with tasks, activeWorkers := s.activeWorkers + 1,
                               started := s.started ++ [task] }.setWorker worker (.running task))
        | _ => none
    -- whether the task throws is caught and makes no difference
    | .run worker _ =>
        match s.workers worker with
        | .running task =>
            some ({ s with finished := s.finished ++ [task] }.setWorker worker .ended)
        | _ => none
    | .finish worker =>
        match s.workers worker with
        | .ended =>
            some ({ s with activeWorkers := s.activeWorkers - 1 }.setWorker worker .waiting)
        | _ => none
    -- the destructor: drain, stop, join
    | .destroy =>
        if s.destructor = .alive then some { s with destructor := .draining } else none
    | .destroyDrained =>
        if s.destructor = .draining then
          some (if s.isIdle then { s with destructor := .drained } else s)
        else none
    | .stop =>
        if s.destructor = .drained then some { s with stopping := true, destructor := .joining }
        else none
    | .join =>
        if s.destructor = .joining ∧ ∀ worker, s.workers worker matches .exited then
          some { s with destructor := .joined }
        else none

/-! ## What the threads have in their hands -/

/-- The task a worker runs. -/
def held : WorkerPc τ → Multiset τ
  | .running task => {task}
  | _ => 0

/-- A worker between its two sections counts as active. -/
def busy : WorkerPc τ → Nat
  | .running _ | .ended => 1
  | _ => 0

/-- The tasks that run. -/
def running (s : ThreadPool τ workerCount) : Multiset τ := ∑ worker, held (s.workers worker)

/-- What holds between any two steps. -/
structure Inv (s : ThreadPool τ workerCount) : Prop where
  order : s.started ++ s.tasks = s.accepted
  once : (s.finished : Multiset τ) + s.running = s.started
  active : s.activeWorkers = ∑ worker, busy (s.workers worker)
  bounded : 0 < s.maxQueuedTasks → s.tasks.length ≤ s.maxQueuedTasks
  exited : ∀ worker, s.workers worker = .exited → s.stopping = true ∧ s.tasks = []
  stopped : s.destructor = .joining ∨ s.destructor = .joined → s.stopping = true
  joined : s.destructor = .joined → ∀ worker, s.workers worker = .exited
  waits : ∀ thread task, s.submitters thread = .waiting task → 0 < s.maxQueuedTasks

variable {s s' : ThreadPool τ workerCount} {e : PoolEvent τ workerCount} {maxQueuedTasks : Nat}

theorem inv_start : (start τ workerCount maxQueuedTasks).Inv where
  order := rfl
  once := by
    show (0 : Multiset τ) + ∑ _worker : Fin workerCount, (0 : Multiset τ) = 0
    rw [Finset.sum_const_zero, add_zero]
  active := by
    show 0 = ∑ _worker : Fin workerCount, 0
    rw [Finset.sum_const_zero]
  bounded _ := Nat.zero_le _
  exited worker h := by cases h
  stopped h := by rcases h with h | h <;> cases h
  joined h := by cases h
  waits _ _ h := by cases h

/-- What a step of a thread leads to. -/
inductive Steps (s : ThreadPool τ workerCount) : ThreadPool τ workerCount → Prop
  | stays : Steps s s
  | submits (thread : Nat) (task : τ)
      (hopen : s.stopping = true → s.submitters thread = .waiting task) :
      Steps s (s.submitSection thread task)
  | looks (call : Nat) (pc : DrainPc) (hidle : pc = .returned → s.isIdle = true) :
      Steps s (s.setDrain call pc)
  | leaves {worker : Fin workerCount} (hwaiting : s.workers worker = .waiting)
      (hstopping : s.stopping = true) (htasks : s.tasks = []) : Steps s (s.setWorker worker .exited)
  | takes {worker : Fin workerCount} (hwaiting : s.workers worker = .waiting) {task : τ}
      {tasks : List τ} (htasks : s.tasks = task :: tasks) :
      Steps s ({ s with tasks, activeWorkers := s.activeWorkers + 1,
                        started := s.started ++ [task] }.setWorker worker (.running task))
  | runs {worker : Fin workerCount} {task : τ} (hrunning : s.workers worker = .running task) :
      Steps s ({ s with finished := s.finished ++ [task] }.setWorker worker .ended)
  | finishes {worker : Fin workerCount} (hended : s.workers worker = .ended) :
      Steps s ({ s with activeWorkers := s.activeWorkers - 1 }.setWorker worker .waiting)
  | destroys : Steps s { s with destructor := .draining }
  | drained (hidle : s.isIdle = true) : Steps s { s with destructor := .drained }
  | stops : Steps s { s with stopping := true, destructor := .joining }
  | joins (hjoining : s.destructor = .joining) (hall : ∀ worker, s.workers worker = .exited) :
      Steps s { s with destructor := .joined }

theorem steps_of_step (hstep : machine.step s e = some s') : Steps s s' := by
  cases e with
  | submit thread task =>
      simp only [machine] at hstep
      split at hstep
      · cases hstep
      · obtain rfl := Option.some.inj hstep
        exact .stays
      · split at hstep
        · obtain rfl := Option.some.inj hstep
          exact .stays
        · rename_i hrunning
          obtain rfl := Option.some.inj hstep
          -- a pool that stops is not submitted to
          exact .submits thread _ fun hstop => absurd hstop hrunning
  | space thread =>
      simp only [machine] at hstep
      split at hstep
      · rename_i task hwaiting
        obtain rfl := Option.some.inj hstep
        exact .submits thread task fun _ => hwaiting
      · cases hstep
  | drain call =>
      simp only [machine] at hstep
      split at hstep
      · obtain rfl := Option.some.inj hstep
        refine .looks call _ fun hreturned => ?_
        -- a call that finds work left goes to wait
        by_contra hbusy
        rw [if_neg hbusy] at hreturned
        cases hreturned
      · cases hstep
  | idle call =>
      simp only [machine] at hstep
      split at hstep
      · split at hstep
        · rename_i hidle
          obtain rfl := Option.some.inj hstep
          exact .looks call _ fun _ => hidle
        · obtain rfl := Option.some.inj hstep
          exact .stays
      · cases hstep
  | take worker =>
      simp only [machine] at hstep
      split at hstep
      · rename_i hwaiting
        split at hstep
        · rename_i hempty
          split at hstep
          · rename_i hstopping
            obtain rfl := Option.some.inj hstep
            -- the queue is empty before a worker leaves
            exact .leaves hwaiting hstopping hempty
          · obtain rfl := Option.some.inj hstep
            exact .stays
        · rename_i task tasks htasks
          obtain rfl := Option.some.inj hstep
          exact .takes hwaiting htasks
      · cases hstep
  | run worker throws =>
      simp only [machine] at hstep
      split at hstep
      · rename_i task hrunning
        obtain rfl := Option.some.inj hstep
        exact .runs hrunning
      · cases hstep
  | finish worker =>
      simp only [machine] at hstep
      split at hstep
      · rename_i hended
        obtain rfl := Option.some.inj hstep
        exact .finishes hended
      · cases hstep
  | destroy =>
      obtain ⟨-, hs'⟩ := Option.ite_none_right_eq_some.mp hstep
      obtain rfl := Option.some.inj hs'
      exact .destroys
  | destroyDrained =>
      simp only [machine] at hstep
      split at hstep
      · split at hstep
        · rename_i hidle
          obtain rfl := Option.some.inj hstep
          exact .drained hidle
        · obtain rfl := Option.some.inj hstep
          exact .stays
      · cases hstep
  | stop =>
      obtain ⟨-, hs'⟩ := Option.ite_none_right_eq_some.mp hstep
      obtain rfl := Option.some.inj hs'
      exact .stops
  | join =>
      obtain ⟨⟨hjoining, hall⟩, hs'⟩ := Option.ite_none_right_eq_some.mp hstep
      obtain rfl := Option.some.inj hs'
      refine .joins hjoining fun worker => ?_
      have hmatch := hall worker
      cases hpc : s.workers worker with
      | exited => rfl
      | _ => rw [hpc] at hmatch; cases hmatch

/-- A worker that has left is another one than a worker that goes on. -/
theorem exited_of_setWorker {worker other : Fin workerCount} {pc : WorkerPc τ} (hpc : pc ≠ .exited)
    (hother : (s.setWorker worker pc).workers other = .exited) : s.workers other = .exited := by
  by_cases hsame : other = worker
  · subst hsame
    rw [show (s.setWorker other pc).workers other = pc from Function.update_self ..] at hother
    exact absurd hother hpc
  · rwa [show (s.setWorker worker pc).workers other = s.workers other from
      Function.update_of_ne hsame ..] at hother

namespace Inv

theorem setSubmitter (h : s.Inv) (thread : Nat) {pc : SubmitPc τ}
    (hpc : ∀ task, pc = .waiting task → 0 < s.maxQueuedTasks) :
    (s.setSubmitter thread pc).Inv :=
  { h with
    waits := fun other task hwaiting => by
      by_cases hsame : other = thread
      · subst hsame
        rw [show (s.setSubmitter other pc).submitters other = pc from Function.update_self ..]
          at hwaiting
        exact hpc task hwaiting
      · rw [show (s.setSubmitter thread pc).submitters other = s.submitters other from
          Function.update_of_ne hsame ..] at hwaiting
        exact h.waits other task hwaiting }

theorem setOutside (h : s.Inv) (thread : Nat) : (s.setSubmitter thread .outside).Inv :=
  h.setSubmitter thread fun _ hpc => by cases hpc

theorem setDrain (h : s.Inv) (call : Nat) (pc : DrainPc) : (s.setDrain call pc).Inv :=
  { h with }

theorem push (h : s.Inv) (task : τ) (hstopping : s.stopping = false)
    (hspace : 0 < s.maxQueuedTasks → s.tasks.length < s.maxQueuedTasks) : (s.push task).Inv :=
  { h with
    order := by
      show s.started ++ (s.tasks ++ [task]) = s.accepted ++ [task]
      rw [← List.append_assoc, h.order]
    bounded := fun hbound => by
      show (s.tasks ++ [task]).length ≤ s.maxQueuedTasks
      rw [List.length_append]
      exact hspace hbound
    exited := fun worker hexited =>
      absurd ((h.exited worker hexited).1.symm.trans hstopping) (by decide) }

theorem submitSection (h : s.Inv) (thread : Nat) (task : τ)
    (hstopping : s.stopping = true → 0 < s.maxQueuedTasks) :
    (s.submitSection thread task).Inv := by
  unfold ThreadPool.submitSection
  split
  · rename_i hbounded
    split
    · rename_i hwoken
      split
      · exact h.setOutside thread
      · rename_i hrunning
        exact (h.push task (Bool.eq_false_of_not_eq_true hrunning) fun _ =>
          hwoken.resolve_left hrunning).setOutside thread
    · exact h.setSubmitter thread fun _ _ => hbounded
  · rename_i hunbounded
    have hrunning : s.stopping = false :=
      Bool.eq_false_of_not_eq_true fun hstop => hunbounded (hstopping hstop)
    exact (h.push task hrunning fun hbound => absurd hbound hunbounded).setOutside thread

/-- A worker that is still there goes on or leaves. -/
theorem move (h : s.Inv) {worker : Fin workerCount} {pc pc' : WorkerPc τ}
    (hpc : s.workers worker = pc) (hthere : pc ≠ .exited) {tasks started finished : List τ}
    {activeWorkers : Nat} (horder : started ++ tasks = s.accepted)
    (hfewer : tasks.length ≤ s.tasks.length)
    (honce : (finished : Multiset τ) + held pc' + s.started = s.finished + held pc + started)
    (hactive : activeWorkers + busy pc = s.activeWorkers + busy pc')
    (hleave : pc' = .exited → s.stopping = true ∧ tasks = []) :
    ({ s with tasks, activeWorkers, started, finished }.setWorker worker pc').Inv := by
  have hheld := Finset.sum_update_add held s.workers worker pc'
  have hbusy := Finset.sum_update_add busy s.workers worker pc'
  rw [hpc] at hheld hbusy
  exact
    { order := horder
      once := by
        show (finished : Multiset τ) + ∑ j, held (Function.update s.workers worker pc' j) = started
        refine add_right_cancel (b := s.finished + held pc) ?_
        -- both sides are completed by what the worker had in hand, and cancel
        calc (finished : Multiset τ) + ∑ j, held (Function.update s.workers worker pc' j) +
              (s.finished + held pc)
            = finished + s.finished +
                (∑ j, held (Function.update s.workers worker pc' j) + held pc) := by abel
          _ = finished + held pc' + (s.finished + s.running) := by
              rw [hheld, running]
              abel
          _ = started + (s.finished + held pc) := by
              rw [h.once, honce]
              abel
      active := by
        show activeWorkers = ∑ j, busy (Function.update s.workers worker pc' j)
        have hcount := h.active
        omega
      bounded := fun hbound => hfewer.trans (h.bounded hbound)
      exited := fun other hother => by
        -- another worker that has left found the queue empty
        by_cases hleaves : pc' = .exited
        · exact hleave hleaves
        · obtain ⟨hstopping, hempty⟩ := h.exited other (exited_of_setWorker hleaves hother)
          rw [hempty, List.length_nil] at hfewer
          exact ⟨hstopping, List.length_eq_zero_iff.mp (Nat.le_zero.mp hfewer)⟩
      stopped := h.stopped
      joined := fun hjoined => absurd (hpc.symm.trans (h.joined hjoined worker)) hthere
      waits := h.waits }

/-- A worker that takes the first task. -/
theorem take (h : s.Inv) {worker : Fin workerCount} (hwaiting : s.workers worker = .waiting)
    {task : τ} {tasks : List τ} (htasks : s.tasks = task :: tasks) :
    ({ s with tasks, activeWorkers := s.activeWorkers + 1,
              started := s.started ++ [task] }.setWorker worker (.running task)).Inv := by
  refine h.move hwaiting (by simp) ?_ ?_ ?_ rfl (by simp)
  · rw [← h.order, htasks, List.append_assoc]
    rfl
  · rw [htasks, List.length_cons]
    exact Nat.le_succ _
  · show (s.finished : Multiset τ) + {task} + s.started = s.finished + 0 + ↑(s.started ++ [task])
    rw [← Multiset.coe_add, Multiset.coe_singleton]
    abel

/-- A task that has been run. -/
theorem run (h : s.Inv) {worker : Fin workerCount} {task : τ}
    (hrunning : s.workers worker = .running task) :
    ({ s with finished := s.finished ++ [task] }.setWorker worker .ended).Inv := by
  refine h.move hrunning (by simp) h.order le_rfl ?_ rfl (by simp)
  show ↑(s.finished ++ [task]) + 0 + (s.started : Multiset τ) = s.finished + {task} + s.started
  rw [← Multiset.coe_add, Multiset.coe_singleton, add_zero]

/-- A worker that goes back to the head of its loop. -/
theorem finish (h : s.Inv) {worker : Fin workerCount} (hended : s.workers worker = .ended) :
    ({ s with activeWorkers := s.activeWorkers - 1 }.setWorker worker .waiting).Inv := by
  refine h.move hended (by simp) h.order le_rfl rfl ?_ (by simp)
  have hcounted : busy (s.workers worker) ≤ s.activeWorkers := by
    rw [h.active]
    exact Finset.single_le_sum (f := fun j => busy (s.workers j)) (fun _ _ => Nat.zero_le _)
      (Finset.mem_univ worker)
  rw [hended] at hcounted
  exact Nat.sub_add_cancel hcounted

/-- A worker that leaves. -/
theorem leave (h : s.Inv) {worker : Fin workerCount} (hwaiting : s.workers worker = .waiting)
    (hstopping : s.stopping = true) (htasks : s.tasks = []) :
    (s.setWorker worker .exited).Inv :=
  h.move hwaiting (by simp) h.order le_rfl rfl rfl fun _ => ⟨hstopping, htasks⟩

theorem step (h : s.Inv) (hstep : machine.step s e = some s') : s'.Inv := by
  cases steps_of_step hstep with
  | stays => exact h
  | submits thread task hopen =>
      exact h.submitSection thread task fun hstop => h.waits thread task (hopen hstop)
  | looks call pc hidle => exact h.setDrain call pc
  | leaves hwaiting hstopping htasks => exact h.leave hwaiting hstopping htasks
  | takes hwaiting htasks => exact h.take hwaiting htasks
  | runs hrunning => exact h.run hrunning
  | finishes hended => exact h.finish hended
  | destroys | drained _ =>
      exact { h with
        stopped := fun hd => by rcases hd with hd | hd <;> cases hd
        joined := fun hd => by cases hd }
  | stops =>
      exact { h with
        exited := fun worker hexited => ⟨rfl, (h.exited worker hexited).2⟩
        stopped := fun _ => rfl
        joined := fun hd => by cases hd }
  | joins hjoining hall =>
      exact { h with
        stopped := fun _ => h.stopped (.inl hjoining)
        joined := fun _ => hall }

/-- A pool without active workers runs nothing. -/
theorem finished_of_not_running (h : s.Inv) (hrunning : s.running = 0) (htasks : s.tasks = []) :
    (s.finished : Multiset τ) = s.accepted := by
  have honce := h.once
  rw [hrunning, add_zero] at honce
  rw [honce, ← h.order, htasks, List.append_nil]

theorem finished_of_isIdle (h : s.Inv) (hidle : s.isIdle = true) :
    s.tasks = [] ∧ (s.finished : Multiset τ) = s.accepted := by
  obtain ⟨hempty, hactive⟩ := of_decide_eq_true hidle
  have htasks : s.tasks = [] := List.isEmpty_iff.mp hempty
  rw [h.active, Finset.sum_eq_zero_iff] at hactive
  refine ⟨htasks, h.finished_of_not_running (Finset.sum_eq_zero fun worker hmem => ?_) htasks⟩
  have hnot := hactive worker hmem
  cases hpc : s.workers worker with
  | running task => rw [hpc] at hnot; cases hnot
  | _ => rfl

theorem finished_of_joined (h : s.Inv) (hpos : 0 < workerCount) (hjoined : s.destructor = .joined) :
    (s.finished : Multiset τ) = s.accepted := by
  have hall := h.joined hjoined
  refine h.finished_of_not_running (Finset.sum_eq_zero fun worker _ => ?_)
    (h.exited ⟨0, hpos⟩ (hall _)).2
  rw [hall worker]
  rfl

end Inv

/-! ## Every accepted task once -/

/-- A call of `Drain` returns in this step, the destructor's among them. -/
def DrainReturns (s s' : ThreadPool τ workerCount) : Prop :=
  (∃ call, s.drains call ≠ .returned ∧ s'.drains call = .returned) ∨
    s.destructor = .draining ∧ s'.destructor = .drained

/-- A step that leaves the calls of `Drain` alone lets none of them return. -/
theorem not_drainReturns (hdrains : s'.drains = s.drains)
    (hdestructor : s'.destructor = .drained → s.destructor = .drained) :
    ¬ DrainReturns s s' := by
  rintro (⟨call, hahead, hreturned⟩ | ⟨hdraining, hdrained⟩)
  · rw [hdrains] at hreturned
    exact hahead hreturned
  · rw [hdestructor hdrained] at hdraining
    cases hdraining

theorem submitSection_drains (thread : Nat) (task : τ) (s : ThreadPool τ workerCount) :
    (s.submitSection thread task).drains = s.drains ∧
      (s.submitSection thread task).destructor = s.destructor := by
  unfold submitSection
  split
  · split
    · split
      · exact ⟨rfl, rfl⟩
      · exact ⟨rfl, rfl⟩
    · exact ⟨rfl, rfl⟩
  · exact ⟨rfl, rfl⟩

theorem not_drainReturns_submitSection (thread : Nat) (task : τ) :
    ¬ DrainReturns s (s.submitSection thread task) := by
  obtain ⟨hdrains, hdestructor⟩ := submitSection_drains thread task s
  exact not_drainReturns hdrains fun hdrained => hdestructor ▸ hdrained

/-- A call that has just looked returns only if it has seen all idle. -/
theorem drainReturns_setDrain {call : Nat} {pc : DrainPc}
    (hreturns : DrainReturns s (s.setDrain call pc)) : pc = .returned := by
  obtain ⟨other, hahead, hreturned⟩ | ⟨hdraining, hdrained⟩ := hreturns
  · by_cases hsame : other = call
    · subst hsame
      rwa [show (s.setDrain other pc).drains other = pc from Function.update_self ..]
        at hreturned
    · rw [show (s.setDrain call pc).drains other = s.drains other from
        Function.update_of_ne hsame ..] at hreturned
      exact absurd hreturned hahead
  · rw [show s.destructor = .drained from hdrained] at hdraining
    cases hdraining

/-- `Drain` returns where its predicate holds, and leaves the tasks alone. -/
theorem isIdle_of_drainReturns (hstep : machine.step s e = some s') (hreturns : DrainReturns s s') :
    s'.isIdle = true := by
  cases steps_of_step hstep with
  | submits thread task _ => exact absurd hreturns (not_drainReturns_submitSection thread task)
  | looks call pc hidle => exact hidle (drainReturns_setDrain hreturns)
  | drained hidle => exact hidle
  | stays | leaves | takes | runs | finishes => exact absurd hreturns (not_drainReturns rfl id)
  | destroys | stops | joins =>
      exact absurd hreturns (not_drainReturns rfl fun h => by cases h)

theorem maxQueuedTasks_submitSection (thread : Nat) (task : τ) :
    (s.submitSection thread task).maxQueuedTasks = s.maxQueuedTasks := by
  unfold submitSection
  split
  · split
    · split
      · rfl
      · rfl
    · rfl
  · rfl

/-- No section writes `max_queued_tasks_`. -/
theorem maxQueuedTasks_step (hstep : machine.step s e = some s') :
    s'.maxQueuedTasks = s.maxQueuedTasks := by
  cases steps_of_step hstep with
  | submits thread task _ => exact maxQueuedTasks_submitSection thread task
  | _ => rfl

theorem maxQueuedTasks_exec {events : List (PoolEvent τ workerCount)}
    (hexec : machine.exec s events = some s') : s'.maxQueuedTasks = s.maxQueuedTasks := by
  induction events generalizing s with
  | nil =>
      obtain rfl := Option.some.inj hexec
      rfl
  | cons e events ih =>
      obtain ⟨mid, hstep, hrest⟩ := (machine.exec_cons_eq_some).mp hexec
      rw [ih hrest, maxQueuedTasks_step hstep]

/-- At any point of any interleaving. -/
theorem every_task_once {requested hardwareThreads maxQueuedTasks : Nat}
    {events : List (PoolEvent τ (resolveWorkerCount requested hardwareThreads))}
    {s : ThreadPool τ (resolveWorkerCount requested hardwareThreads)}
    (hexec : machine.exec (start τ _ maxQueuedTasks) events = some s) :
    -- queued, running or finished
    ((s.tasks : Multiset τ) + s.running + s.finished = s.accepted ∧
      s.started ++ s.tasks = s.accepted) ∧
      (0 < maxQueuedTasks → s.tasks.length ≤ maxQueuedTasks) ∧
      (∀ e s', machine.step s e = some s' → DrainReturns s s' →
        s'.tasks = [] ∧ (s'.finished : Multiset τ) = s'.accepted) ∧
      (s.destructor = .joined → (s.finished : Multiset τ) = s.accepted) := by
  have h : s.Inv := Machine.invariant_of_exec (fun _ _ _ h hstep => h.step hstep) inv_start hexec
  have hmax : s.maxQueuedTasks = maxQueuedTasks := maxQueuedTasks_exec hexec
  refine ⟨⟨?_, h.order⟩, hmax ▸ h.bounded, ?_, ?_⟩
  · rw [← h.order, ← Multiset.coe_add, ← h.once, add_assoc, add_comm s.running, add_comm]
  · intro e s' hstep hreturns
    exact (h.step hstep).finished_of_isIdle (isIdle_of_drainReturns hstep hreturns)
  · intro hjoined
    exact h.finished_of_joined (resolveWorkerCount_pos requested hardwareThreads) hjoined

/-- One worker, room for one task, and a second submitter that waits for the room. -/
def oneWorkerRun : List (PoolEvent Nat 1) :=
  [.submit 0 (some 7), .submit 1 (some 8), .take 0, .space 1, .destroy, .run 0 true, .finish 0,
    .drain 0, .take 0, .run 0 false, .finish 0, .idle 0, .destroyDrained, .stop, .take 0, .join]

theorem every_task_once_two :
    ∃ s, machine.exec (start Nat 1 1) oneWorkerRun = some s ∧ s.accepted = [7, 8] ∧
      s.destructor = .joined ∧ (s.finished : Multiset Nat) = s.accepted :=
  ⟨_, rfl, rfl, rfl, (@every_task_once Nat 1 8 1 oneWorkerRun _ rfl).2.2.2 rfl⟩

end ThreadPool

end ZetaNet
