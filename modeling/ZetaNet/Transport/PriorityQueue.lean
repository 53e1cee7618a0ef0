import ZetaNet.Packet.Types
import Mathlib.Data.List.Perm.Basic

/-!
# `PriorityMPSCQueue`

Four first-in first-out queues behind one interface (`z_packet_priority_queue.h`).
`toList` is the order in which the items come out again.
-/

namespace ZetaNet

structure PriorityMPSCQueue (α : Type) where
  critical : List α
  high : List α
  medium : List α
  low : List α
  deriving DecidableEq

namespace PriorityMPSCQueue

variable {α : Type}

def init : PriorityMPSCQueue α := ⟨[], [], [], []⟩

/-- `enqueue`. -/
def enqueue (item : α) (priority : PacketPriority) (queue : PriorityMPSCQueue α) :
    PriorityMPSCQueue α :=
  match priority with
  | .critical => { queue with critical := queue.critical ++ [item] }
  | .high => { queue with high := queue.high ++ [item] }
  | .medium => { queue with medium := queue.medium ++ [item] }
  | .low => { queue with low := queue.low ++ [item] }

/-- `dequeue`: highest priority first; `none` when all four queues are empty. -/
def dequeue (queue : PriorityMPSCQueue α) : Option (α × PriorityMPSCQueue α) :=
  match queue.critical, queue.high, queue.medium, queue.low with
  | item :: critical, _, _, _ => some (item, { queue with critical })
  | [], item :: high, _, _ => some (item, { queue with high })
  | [], [], item :: medium, _ => some (item, { queue with medium })
  | [], [], [], item :: low => some (item, { queue with low })
  | [], [], [], [] => none

/-- `size_approx`. -/
def sizeApprox (queue : PriorityMPSCQueue α) : Nat :=
  queue.critical.length + queue.high.length + queue.medium.length + queue.low.length

/-- The queued items, next one first. -/
def toList (queue : PriorityMPSCQueue α) : List α :=
  queue.critical ++ queue.high ++ queue.medium ++ queue.low

@[simp] theorem toList_init : (init : PriorityMPSCQueue α).toList = [] := rfl

theorem toList_enqueue_perm (item : α) (priority : PacketPriority)
    (queue : PriorityMPSCQueue α) : (queue.enqueue item priority).toList.Perm
      (item :: queue.toList) := by
  obtain ⟨critical, high, medium, low⟩ := queue
  cases priority with
  | critical => simp [enqueue, toList]
  | high =>
      simpa [enqueue, toList] using @List.perm_middle _ item (critical ++ high) (medium ++ low)
  | medium =>
      simpa [enqueue, toList] using @List.perm_middle _ item (critical ++ (high ++ medium)) low
  | low =>
      simpa [enqueue, toList] using
        @List.perm_middle _ item (critical ++ (high ++ (medium ++ low))) []

/-- `dequeue` takes the first item. -/
theorem dequeue_eq_some {item : α} {queue queue' : PriorityMPSCQueue α}
    (h : queue.dequeue = some (item, queue')) : queue.toList = item :: queue'.toList := by
  obtain ⟨critical, high, medium, low⟩ := queue
  unfold dequeue at h
  split at h <;> simp_all [toList] <;> (obtain ⟨rfl, rfl⟩ := h; simp)

end PriorityMPSCQueue

end ZetaNet
