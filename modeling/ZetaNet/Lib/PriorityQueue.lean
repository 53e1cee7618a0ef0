import Mathlib.Algebra.BigOperators.Group.Finset.Piecewise
import Mathlib.Data.Fintype.Basic
import Mathlib.Data.List.Perm.Basic
import Mathlib.Data.List.ReduceOption
import Mathlib.Logic.Function.Basic
import Mathlib.Order.Basic

/-!
# Priority queues

A priority queue is a list of items with their priorities in the order of their arrival; a call
takes the oldest item of the highest priority. `Run` relates calls, their results and the items
left, and every item is returned or left once. A first-in first-out bucket for each priority
represents such a queue.
-/

namespace PriorityQueue

variable {P α : Type*}

/-- The calls of a priority queue. -/
inductive Call (P α : Type*)
  | enqueue (item : α) (priority : P)
  | dequeue

/-- The item a call brings. -/
def Call.item? : Call P α → Option α
  | .enqueue item _ => some item
  | .dequeue => none

variable [LinearOrder P]

/-- The oldest item of the highest priority is taken. -/
def Takes (pending : List (P × α)) (item : α) (rest : List (P × α)) : Prop :=
  ∃ priority older newer, pending = older ++ (priority, item) :: newer ∧
    rest = older ++ newer ∧ (∀ entry ∈ older, entry.1 < priority) ∧
    ∀ entry ∈ newer, entry.1 ≤ priority

/-- A call, its result, and the items before and after it. -/
inductive Step : List (P × α) → Call P α → Option α → List (P × α) → Prop
  | enqueue (pending item priority) :
      Step pending (.enqueue item priority) none (pending ++ [(priority, item)])
  | fail : Step [] .dequeue none []
  | take {pending item rest} : Takes pending item rest →
      Step pending .dequeue (some item) rest

/-- Calls one after the other. -/
inductive Run : List (P × α) → List (Call P α) → List (Option α) → List (P × α) → Prop
  | nil (pending) : Run pending [] [] pending
  | cons {pending mid after call result calls results} : Step pending call result mid →
      Run mid calls results after →
      Run pending (call :: calls) (result :: results) after

theorem Takes.perm {pending rest : List (P × α)} {item : α} (h : Takes pending item rest) :
    (item :: rest.map Prod.snd).Perm (pending.map Prod.snd) := by
  obtain ⟨priority, older, newer, rfl, rfl, -, -⟩ := h
  rw [List.map_append, List.map_append, List.map_cons]
  exact List.perm_middle.symm

theorem Takes.ne_nil {pending rest : List (P × α)} {item : α} (h : Takes pending item rest) :
    pending ≠ [] := by
  obtain ⟨priority, older, newer, rfl, -⟩ := h
  exact List.append_ne_nil_of_right_ne_nil older (List.cons_ne_nil _ _)

/-- A call returns an item or keeps it. -/
theorem Step.perm {pending after : List (P × α)} {call : Call P α} {result : Option α}
    (h : Step pending call result after) :
    (result.toList ++ after.map Prod.snd).Perm (pending.map Prod.snd ++ call.item?.toList) := by
  cases h with
  | enqueue pending item priority =>
      rw [List.map_append]
      exact .refl _
  | fail => exact .refl _
  | take htakes => exact htakes.perm.trans (.of_eq (List.append_nil _).symm)

/-- Every item that was queued is returned once or still there. -/
theorem Run.perm {pending after : List (P × α)} {calls : List (Call P α)}
    {results : List (Option α)} (h : Run pending calls results after) :
    (results.reduceOption ++ after.map Prod.snd).Perm
      (pending.map Prod.snd ++ calls.filterMap Call.item?) := by
  induction h with
  | nil pending => exact .of_eq (List.append_nil _).symm
  | @cons pending mid after call result calls results hstep _ ih =>
      have hresults : (result :: results).reduceOption =
          result.toList ++ results.reduceOption := by cases result <;> rfl
      have hcalls : (call :: calls).filterMap Call.item? =
          call.item?.toList ++ calls.filterMap Call.item? := by
        rw [List.filterMap_cons]
        cases call.item? <;> rfl
      rw [hresults, hcalls, List.append_assoc, ← List.append_assoc (pending.map Prod.snd)]
      refine (ih.append_left _).trans ?_
      rw [← List.append_assoc]
      exact hstep.perm.append_right _

/-! ## Buckets -/

/-- The items of one priority, oldest first. -/
def ofPriority (pending : List (P × α)) (priority : P) : List α :=
  (pending.filter (·.1 = priority)).map Prod.snd

/-- A bucket for each priority holds the items of the queue. -/
def Represents (buckets : P → List α) (pending : List (P × α)) : Prop :=
  ∀ priority, buckets priority = ofPriority pending priority

theorem ofPriority_append (first second : List (P × α)) (priority : P) :
    ofPriority (first ++ second) priority =
      ofPriority first priority ++ ofPriority second priority := by
  unfold ofPriority
  rw [List.filter_append, List.map_append]

theorem ofPriority_cons (entry : P × α) (pending : List (P × α)) (priority : P) :
    ofPriority (entry :: pending) priority =
      if entry.1 = priority then entry.2 :: ofPriority pending priority
      else ofPriority pending priority := by
  unfold ofPriority
  rw [List.filter_cons]
  by_cases h : entry.1 = priority
  · rw [if_pos (decide_eq_true h), if_pos h, List.map_cons]
  · rw [if_neg (by simpa using h), if_neg h]

/-- The buckets hold as many items as the queue. -/
theorem Represents.length [Fintype P] {buckets : P → List α} {pending : List (P × α)}
    (h : Represents buckets pending) : ∑ priority, (buckets priority).length = pending.length := by
  rw [Finset.sum_congr rfl fun priority _ => congrArg List.length (h priority)]
  clear h
  induction pending with
  | nil => exact Finset.sum_const_zero
  | cons entry pending ih =>
      have hentry : ∀ priority, (ofPriority (entry :: pending) priority).length =
          (ofPriority pending priority).length + if entry.1 = priority then 1 else 0 := by
        intro priority
        rw [ofPriority_cons]
        split <;> rfl
      rw [Finset.sum_congr rfl fun priority _ => hentry priority, Finset.sum_add_distrib, ih,
        Finset.sum_ite_eq, if_pos (Finset.mem_univ _), List.length_cons]

/-- Empty buckets represent the empty queue only. -/
theorem Represents.eq_nil {buckets : P → List α} {pending : List (P × α)}
    (h : Represents buckets pending) (hempty : ∀ priority, buckets priority = []) :
    pending = [] := by
  cases pending with
  | nil => rfl
  | cons entry pending =>
      have hentry := h entry.1
      rw [hempty, ofPriority_cons, if_pos rfl] at hentry
      cases hentry

/-- An item goes to the end of the bucket of its priority. -/
theorem Represents.enqueue {buckets : P → List α} {pending : List (P × α)}
    (h : Represents buckets pending) (item : α) (priority : P) :
    Represents (Function.update buckets priority (buckets priority ++ [item]))
      (pending ++ [(priority, item)]) := by
  intro other
  rw [ofPriority_append, ofPriority_cons]
  by_cases hother : other = priority
  · subst hother
    rw [Function.update_self, if_pos rfl, h]
    rfl
  · rw [Function.update_of_ne hother, if_neg (Ne.symm hother), h]
    exact (List.append_nil _).symm

/-- The first item of the highest bucket that is not empty is the one to take. -/
theorem Represents.dequeue {buckets : P → List α} {pending : List (P × α)}
    (h : Represents buckets pending) {priority : P} {item : α} {rest : List α}
    (hbucket : buckets priority = item :: rest)
    (habove : ∀ other, priority < other → buckets other = []) :
    ∃ after, Takes pending item after ∧
      Represents (Function.update buckets priority rest) after := by
  -- no entry has a higher priority
  have hle : ∀ entry ∈ pending, entry.1 ≤ priority := by
    intro entry hentry
    by_contra hlt
    have hnone := (h entry.1).symm.trans (habove entry.1 (not_le.mp hlt))
    have hmem : entry.2 ∈ ofPriority pending entry.1 :=
      List.mem_map_of_mem (List.mem_filter.mpr ⟨hentry, decide_eq_true rfl⟩)
    rw [hnone] at hmem
    cases hmem
  -- the first entry of this priority, apart from what is older and newer
  obtain ⟨⟨found, foundItem⟩, tail, hfilter, hitem, htail⟩ :=
    List.map_eq_cons_iff.mp ((h priority).symm.trans hbucket)
  obtain ⟨older, newer, rfl, holder, hfound, hnewer⟩ := List.filter_eq_cons_iff.mp hfilter
  obtain rfl : found = priority := of_decide_eq_true hfound
  obtain rfl : foundItem = item := hitem
  have hne : ∀ entry ∈ older, entry.1 ≠ found := by
    intro entry hentry
    simpa using holder entry hentry
  refine ⟨older ++ newer, ⟨found, older, newer, rfl, rfl, ?_, ?_⟩, ?_⟩
  · exact fun entry hentry =>
      lt_of_le_of_ne (hle entry (List.mem_append_left _ hentry)) (hne entry hentry)
  · exact fun entry hentry =>
      hle entry (List.mem_append_right _ (List.mem_cons_of_mem _ hentry))
  · intro other
    by_cases hother : other = found
    · subst hother
      have holderNone : ofPriority older other = [] := by
        unfold ofPriority
        rw [List.filter_eq_nil_iff.mpr (by simpa using hne), List.map_nil]
      rw [Function.update_self, ofPriority_append, holderNone, List.nil_append, ← htail, ← hnewer]
      rfl
    · rw [Function.update_of_ne hother, h, ofPriority_append, ofPriority_append, ofPriority_cons,
        if_neg (Ne.symm hother)]

end PriorityQueue
