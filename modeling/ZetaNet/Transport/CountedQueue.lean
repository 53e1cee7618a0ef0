import ZetaNet.Lib.PriorityQueue
import ZetaNet.Transport.PriorityQueue

/-!
# The queues under `PriorityMPSCQueue`

`MPSCQueue` of `z_stl_compat.h` with its size counter, and the four of them that a
`PriorityMPSCQueue` holds. Over any calls they are one priority queue: what comes out is the
oldest item of the highest priority, nothing is lost or comes out twice, and the counters add up
to the number of items.
-/

namespace ZetaNet

open PriorityQueue

/-! ## `MPSCQueue` -/

/-- `base::MPSCQueue`: `queue_` and `approx_size_`, a `size_t`. -/
structure MPSCQueue (α : Type) where
  queue : List α
  approxSize : UInt64
  approxSize_eq : approxSize = UInt64.ofNat queue.length

namespace MPSCQueue

variable {α : Type}

def init : MPSCQueue α := ⟨[], 0, rfl⟩

/-- `enqueue`. -/
def enqueue (item : α) (queue : MPSCQueue α) : MPSCQueue α where
  queue := queue.queue ++ [item]
  approxSize := queue.approxSize + 1
  approxSize_eq := by
    rw [queue.approxSize_eq, List.length_append, UInt64.ofNat_add]
    rfl

/-- `dequeue`, `none` for `false`. -/
def dequeue (queue : MPSCQueue α) : Option (α × MPSCQueue α) :=
  match h : queue.queue with
  | [] => none
  | item :: rest =>
      some (item,
        { queue := rest
          approxSize := queue.approxSize - 1
          approxSize_eq := by
            rw [queue.approxSize_eq, h, List.length_cons, UInt64.ofNat_add]
            exact UInt64.add_sub_cancel _ _ })

/-- `empty`. -/
def empty (queue : MPSCQueue α) : Bool := queue.queue.isEmpty

/-- `size_approx`. -/
def sizeApprox (queue : MPSCQueue α) : UInt64 := queue.approxSize

theorem empty_of_nil {queue : MPSCQueue α} (h : queue.queue = []) : queue.empty = true :=
  List.isEmpty_iff.mpr h

theorem dequeue_of_cons {queue : MPSCQueue α} {item : α} {rest : List α}
    (h : queue.queue = item :: rest) :
    queue.empty = false ∧ ∃ queue', queue.dequeue = some (item, queue') ∧ queue'.queue = rest := by
  obtain ⟨items, approxSize, hsize⟩ := queue
  obtain rfl : items = item :: rest := h
  exact ⟨rfl, _, rfl, rfl⟩

end MPSCQueue

/-! ## Four queues -/

instance : Fintype PacketPriority where
  elems := {.low, .medium, .high, .critical}
  complete priority := by cases priority <;> decide

/-- `Low < Medium < High < Critical`. -/
instance : LinearOrder PacketPriority where
  le first second := first.toU8.toNat ≤ second.toU8.toNat
  lt first second := first.toU8.toNat < second.toU8.toNat
  le_refl _ := Nat.le_refl _
  le_trans _ _ _ := Nat.le_trans
  lt_iff_le_not_ge _ _ := Nat.lt_iff_le_and_not_ge
  le_antisymm := by decide
  le_total _ _ := Nat.le_total _ _
  toDecidableLE _ _ := Nat.decLe _ _
  toDecidableLT _ _ := Nat.decLt _ _
  toDecidableEq := inferInstance

namespace PriorityMPSCQueue

variable {α : Type}

/-- The queue of a priority. -/
def bucket (queue : PriorityMPSCQueue α) : PacketPriority → List α
  | .critical => queue.critical
  | .high => queue.high
  | .medium => queue.medium
  | .low => queue.low

/-- The queue of a priority replaced. -/
def setBucket (priority : PacketPriority) (items : List α) (queue : PriorityMPSCQueue α) :
    PriorityMPSCQueue α :=
  match priority with
  | .critical => { queue with critical := items }
  | .high => { queue with high := items }
  | .medium => { queue with medium := items }
  | .low => { queue with low := items }

theorem bucket_setBucket (priority : PacketPriority) (items : List α)
    (queue : PriorityMPSCQueue α) :
    (queue.setBucket priority items).bucket = Function.update queue.bucket priority items := by
  funext other
  cases priority <;> cases other <;> rfl

theorem enqueue_eq (item : α) (priority : PacketPriority) (queue : PriorityMPSCQueue α) :
    queue.enqueue item priority =
      queue.setBucket priority (queue.bucket priority ++ [item]) := by
  cases priority <;> rfl

theorem bucket_eq_nil {queue : PriorityMPSCQueue α} (h : queue.toList = [])
    (priority : PacketPriority) : queue.bucket priority = [] := by
  simp only [toList, List.append_eq_nil_iff] at h
  obtain ⟨⟨⟨hcritical, hhigh⟩, hmedium⟩, hlow⟩ := h
  cases priority <;> assumption

/-- `dequeue` finds nothing, or takes the first item of the highest queue that holds one. -/
theorem dequeue_cases (queue : PriorityMPSCQueue α) :
    (queue.dequeue = none ∧ ∀ priority, queue.bucket priority = []) ∨
      ∃ priority item rest, queue.dequeue = some (item, queue.setBucket priority rest) ∧
        queue.bucket priority = item :: rest ∧
        ∀ other, priority < other → queue.bucket other = [] := by
  obtain ⟨critical, high, medium, low⟩ := queue
  rcases critical with _ | ⟨item, rest⟩
  · rcases high with _ | ⟨item, rest⟩
    · rcases medium with _ | ⟨item, rest⟩
      · rcases low with _ | ⟨item, rest⟩
        · refine .inl ⟨rfl, fun priority => ?_⟩
          cases priority <;> rfl
        · refine .inr ⟨.low, item, rest, rfl, rfl, fun other habove => ?_⟩
          cases other <;> first | rfl | exact absurd habove (by decide)
      · refine .inr ⟨.medium, item, rest, rfl, rfl, fun other habove => ?_⟩
        cases other <;> first | rfl | exact absurd habove (by decide)
    · refine .inr ⟨.high, item, rest, rfl, rfl, fun other habove => ?_⟩
      cases other <;> first | rfl | exact absurd habove (by decide)
  · refine .inr ⟨.critical, item, rest, rfl, rfl, fun other habove => ?_⟩
    cases other <;> exact absurd habove (by decide)

theorem sizeApprox_eq_sum (queue : PriorityMPSCQueue α) :
    queue.sizeApprox = ∑ priority, (queue.bucket priority).length := by
  have huniv : (Finset.univ : Finset PacketPriority) = {.low, .medium, .high, .critical} := rfl
  rw [huniv, Finset.sum_insert (by decide), Finset.sum_insert (by decide),
    Finset.sum_insert (by decide), Finset.sum_singleton]
  simp only [sizeApprox, bucket]
  omega

end PriorityMPSCQueue

/-- The members of `PriorityMPSCQueue`. -/
structure CountedPriorityQueue (α : Type) where
  critical : MPSCQueue α
  high : MPSCQueue α
  medium : MPSCQueue α
  low : MPSCQueue α

namespace CountedPriorityQueue

variable {α : Type}

def init : CountedPriorityQueue α := ⟨.init, .init, .init, .init⟩

/-- `enqueue`. -/
def enqueue (item : α) (priority : PacketPriority) (queue : CountedPriorityQueue α) :
    CountedPriorityQueue α :=
  match priority with
  | .critical => { queue with critical := queue.critical.enqueue item }
  | .high => { queue with high := queue.high.enqueue item }
  | .medium => { queue with medium := queue.medium.enqueue item }
  | .low => { queue with low := queue.low.enqueue item }

/-- `dequeue`, `none` for `false`. -/
def dequeue (queue : CountedPriorityQueue α) : Option (α × CountedPriorityQueue α) :=
  if !queue.critical.empty then
    queue.critical.dequeue.map fun (item, critical) => (item, { queue with critical })
  else if !queue.high.empty then
    queue.high.dequeue.map fun (item, high) => (item, { queue with high })
  else if !queue.medium.empty then
    queue.medium.dequeue.map fun (item, medium) => (item, { queue with medium })
  else if !queue.low.empty then
    queue.low.dequeue.map fun (item, low) => (item, { queue with low })
  else none

/-- `empty`. -/
def empty (queue : CountedPriorityQueue α) : Bool :=
  queue.critical.empty && queue.high.empty && queue.medium.empty && queue.low.empty

/-- `size_approx`. -/
def sizeApprox (queue : CountedPriorityQueue α) : UInt64 :=
  queue.critical.sizeApprox + queue.high.sizeApprox + queue.medium.sizeApprox +
    queue.low.sizeApprox

/-- The queue without its counters. -/
def uncounted (queue : CountedPriorityQueue α) : PriorityMPSCQueue α :=
  ⟨queue.critical.queue, queue.high.queue, queue.medium.queue, queue.low.queue⟩

theorem uncounted_enqueue (item : α) (priority : PacketPriority)
    (queue : CountedPriorityQueue α) :
    (queue.enqueue item priority).uncounted = queue.uncounted.enqueue item priority := by
  cases priority <;> rfl

theorem uncounted_dequeue (queue : CountedPriorityQueue α) :
    queue.uncounted.dequeue =
      queue.dequeue.map fun (item, queue) => (item, queue.uncounted) := by
  unfold PriorityMPSCQueue.dequeue dequeue uncounted
  dsimp only
  cases hcritical : queue.critical.queue with
  | cons item rest =>
      obtain ⟨hempty, left, hdequeue, hleft⟩ := MPSCQueue.dequeue_of_cons hcritical
      simp [hempty, hdequeue, hleft]
  | nil =>
      rw [MPSCQueue.empty_of_nil hcritical]
      cases hhigh : queue.high.queue with
      | cons item rest =>
          obtain ⟨hempty, left, hdequeue, hleft⟩ := MPSCQueue.dequeue_of_cons hhigh
          simp [hempty, hdequeue, hleft, hcritical]
      | nil =>
          rw [MPSCQueue.empty_of_nil hhigh]
          cases hmedium : queue.medium.queue with
          | cons item rest =>
              obtain ⟨hempty, left, hdequeue, hleft⟩ := MPSCQueue.dequeue_of_cons hmedium
              simp [hempty, hdequeue, hleft, hcritical, hhigh]
          | nil =>
              rw [MPSCQueue.empty_of_nil hmedium]
              cases hlow : queue.low.queue with
              | cons item rest =>
                  obtain ⟨hempty, left, hdequeue, hleft⟩ := MPSCQueue.dequeue_of_cons hlow
                  simp [hempty, hdequeue, hleft, hcritical, hhigh, hmedium]
              | nil => simp [MPSCQueue.empty_of_nil hlow]

theorem sizeApprox_eq (queue : CountedPriorityQueue α) :
    queue.sizeApprox = UInt64.ofNat queue.uncounted.sizeApprox := by
  unfold sizeApprox MPSCQueue.sizeApprox
  rw [queue.critical.approxSize_eq, queue.high.approxSize_eq, queue.medium.approxSize_eq,
    queue.low.approxSize_eq, ← UInt64.ofNat_add, ← UInt64.ofNat_add, ← UInt64.ofNat_add]
  rfl

/-! ## Runs -/

/-- One call: what it returns, and the queue it leaves. -/
def serve (call : Call PacketPriority α) (queue : CountedPriorityQueue α) :
    Option α × CountedPriorityQueue α :=
  match call with
  | .enqueue item priority => (none, queue.enqueue item priority)
  | .dequeue =>
      match queue.dequeue with
      | none => (none, queue)
      | some (item, queue) => (some item, queue)

/-- Calls one after the other. -/
def run : List (Call PacketPriority α) → CountedPriorityQueue α →
    List (Option α) × CountedPriorityQueue α
  | [], queue => ([], queue)
  | call :: calls, queue =>
      let (result, queue) := queue.serve call
      let (results, queue) := run calls queue
      (result :: results, queue)

/-- The four queues hold these items, oldest first. -/
def Holds (queue : CountedPriorityQueue α) (pending : List (PacketPriority × α)) : Prop :=
  Represents queue.uncounted.bucket pending

theorem holds_init : (init : CountedPriorityQueue α).Holds [] := by
  intro priority
  cases priority <;> rfl

/-- `dequeue` fails on an empty queue only, and takes what a priority queue takes. -/
theorem dequeue_holds {queue : CountedPriorityQueue α} {pending : List (PacketPriority × α)}
    (h : queue.Holds pending) :
    (queue.dequeue = none ∧ pending = []) ∨
      ∃ item queue' after, queue.dequeue = some (item, queue') ∧ Takes pending item after ∧
        queue'.Holds after := by
  have huncounted := queue.uncounted_dequeue
  rcases queue.uncounted.dequeue_cases with
    ⟨hnone, hempty⟩ | ⟨priority, item, rest, hsome, hbucket, habove⟩
  · refine .inl ⟨?_, h.eq_nil hempty⟩
    rw [hnone] at huncounted
    exact Option.map_eq_none_iff.mp huncounted.symm
  · rw [hsome] at huncounted
    obtain ⟨⟨found, queue'⟩, hdequeue, heq⟩ := Option.map_eq_some_iff.mp huncounted.symm
    obtain ⟨rfl, hleft⟩ := Prod.mk.inj heq
    obtain ⟨after, htakes, hafter⟩ := Represents.dequeue h hbucket habove
    refine .inr ⟨found, queue', after, hdequeue, htakes, ?_⟩
    rwa [Holds, hleft, PriorityMPSCQueue.bucket_setBucket]

/-- A call does what the same call of a priority queue does. -/
theorem serve_holds {queue : CountedPriorityQueue α} {pending : List (PacketPriority × α)}
    (h : queue.Holds pending) (call : Call PacketPriority α) :
    ∃ after, Step pending call (queue.serve call).1 after ∧ (queue.serve call).2.Holds after := by
  cases call with
  | enqueue item priority =>
      refine ⟨_, .enqueue pending item priority, ?_⟩
      show Represents (queue.enqueue item priority).uncounted.bucket _
      rw [uncounted_enqueue, PriorityMPSCQueue.enqueue_eq, PriorityMPSCQueue.bucket_setBucket]
      exact Represents.enqueue h item priority
  | dequeue =>
      rcases dequeue_holds h with ⟨hnone, rfl⟩ | ⟨item, queue', after, hsome, htakes, hafter⟩
      · refine ⟨[], ?_, ?_⟩
        · rw [serve, hnone]
          exact .fail
        · rw [serve, hnone]
          exact h
      · refine ⟨after, ?_, ?_⟩
        · rw [serve, hsome]
          exact .take htakes
        · rw [serve, hsome]
          exact hafter

theorem run_holds {queue : CountedPriorityQueue α} {pending : List (PacketPriority × α)}
    (h : queue.Holds pending) (calls : List (Call PacketPriority α)) :
    ∃ after, Run pending calls (queue.run calls).1 after ∧ (queue.run calls).2.Holds after := by
  induction calls generalizing queue pending with
  | nil => exact ⟨pending, .nil pending, h⟩
  | cons call calls ih =>
      obtain ⟨mid, hstep, hmid⟩ := serve_holds h call
      obtain ⟨after, hrun, hafter⟩ := ih hmid
      exact ⟨after, .cons hstep hrun, hafter⟩

/-- After any calls the results are those of one priority queue: `dequeue` fails exactly on an
empty queue and takes the oldest item of the highest priority, every item brought is returned
once or still there, and `size_approx` counts the items there. -/
theorem priority_queue_order (calls : List (Call PacketPriority α)) :
    ∃ pending, Run [] calls (init.run calls).1 pending ∧
      ((init.run calls).2.dequeue = none ↔ pending = []) ∧
      (∀ item queue, (init.run calls).2.dequeue = some (item, queue) →
        ∃ rest, Takes pending item rest) ∧
      ((init.run calls).1.reduceOption ++ pending.map Prod.snd).Perm
        (calls.filterMap Call.item?) ∧
      (init.run calls).2.sizeApprox = UInt64.ofNat pending.length ∧
      (pending.length < 2 ^ 64 → (init.run calls).2.sizeApprox.toNat = pending.length) := by
  obtain ⟨pending, hrun, hholds⟩ := run_holds holds_init calls
  have hsize : (init.run calls).2.sizeApprox = UInt64.ofNat pending.length := by
    rw [sizeApprox_eq, PriorityMPSCQueue.sizeApprox_eq_sum, Represents.length hholds]
  refine ⟨pending, hrun, ?_, ?_, hrun.perm, hsize, fun hlength => ?_⟩
  · rcases dequeue_holds hholds with ⟨hnone, hempty⟩ | ⟨item, queue, after, hsome, htakes, -⟩
    · exact iff_of_true hnone hempty
    · exact iff_of_false (by rw [hsome]; exact nofun) htakes.ne_nil
  · intro item queue hdequeue
    rcases dequeue_holds hholds with ⟨hnone, -⟩ | ⟨item', queue', after, hsome, htakes, -⟩
    · rw [hdequeue] at hnone
      cases hnone
    · rw [hdequeue] at hsome
      obtain ⟨rfl, -⟩ := Prod.mk.inj (Option.some.inj hsome)
      exact ⟨after, htakes⟩
  · rw [hsize]
    exact UInt64.toNat_ofNat_of_lt' hlength

example : (init.run [.enqueue 1 .low, .enqueue 2 .high, .enqueue 3 .high, .dequeue, .dequeue,
    .dequeue]).1 = [none, none, none, some 2, some 3, some 1] := rfl

end CountedPriorityQueue

end ZetaNet
