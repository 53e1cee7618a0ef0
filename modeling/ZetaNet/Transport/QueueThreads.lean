import ZetaNet.Lib.Machine
import ZetaNet.Transport.CountedQueue

/-!
# `PriorityMPSCQueue` under many producers

`dequeue` and `empty` of a `PriorityMPSCQueue` lock each of the four queues on its own, from the
critical one down, and `ZPacketQueue::Pop` calls the one after the other. Any number of producers
can enqueue between any two of these steps; one thread consumes.

A call is not atomic: a packet that comes to a queue the call has passed stays behind a less
urgent one that comes later. What a call keeps is its order against everything that waited when
it began.
-/

namespace ZetaNet

open PriorityQueue

/-- The queue that is looked at next. -/
def PacketPriority.below : PacketPriority → Option PacketPriority
  | .critical => some .high
  | .high => some .medium
  | .medium => some .low
  | .low => none

/-- Where the consumer stands. `pop` says whether the call is one of `Pop`, which has seen a
packet when it calls `dequeue` and returns `true` whatever `dequeue` says. -/
inductive ConsumerPc
  | idle
  /-- `empty` is about to look at the queue of `level` -/
  | empty (level : PacketPriority)
  /-- `dequeue` is about to look at the queue of `level` -/
  | dequeue (pop : Bool) (level : PacketPriority)
  /-- the queue of `level` was not empty, its `dequeue` is called -/
  | take (pop : Bool) (level : PacketPriority)
  deriving DecidableEq

/-- A call that ended: what waited when it began, what came while it ran, its answer and the
item it handed out. -/
structure QueueOutcome (α : Type) where
  before : PriorityMPSCQueue α
  during : List (PacketPriority × α)
  answer : Bool
  item : Option (PacketPriority × α)

/-- The queue and its consumer. The other members are a history: what waited when the call of the
consumer began and what has come since, everything that came, and the calls that ended. -/
structure SharedQueue (α : Type) where
  queue : PriorityMPSCQueue α
  pc : ConsumerPc
  before : PriorityMPSCQueue α
  during : List (PacketPriority × α)
  enqueued : List (PacketPriority × α)
  outcomes : List (QueueOutcome α)

/-- A producer enqueues an item, the consumer calls `Pop` or `dequeue`, or takes a step. -/
inductive QueueEvent (α : Type)
  | enqueue (item : α) (priority : PacketPriority)
  | pop
  | dequeue
  | step

namespace SharedQueue

variable {α : Type}

def init : SharedQueue α := ⟨.init, .idle, .init, [], [], []⟩

/-- The consumer gets to `pc`. -/
def goto (pc : ConsumerPc) (s : SharedQueue α) : SharedQueue α := { s with pc := pc }

/-- The call of the consumer begins. -/
def begin (pc : ConsumerPc) (s : SharedQueue α) : SharedQueue α :=
  { s with pc := pc, before := s.queue, during := [] }

/-- The call of the consumer ends. -/
def finish (answer : Bool) (item : Option (PacketPriority × α)) (s : SharedQueue α) :
    SharedQueue α :=
  { s with pc := .idle, outcomes := s.outcomes ++ [⟨s.before, s.during, answer, item⟩] }

/-- A step of `empty` or `dequeue`. -/
def stepConsumer (s : SharedQueue α) : Option (SharedQueue α) :=
  match s.pc with
  | .idle => none
  | .empty level =>
      if (s.queue.bucket level).isEmpty then
        match level.below with
        | some next => some (s.goto (.empty next))
        | none => some (s.finish false none)
      else some (s.goto (.dequeue true .critical))
  | .dequeue pop level =>
      if (s.queue.bucket level).isEmpty then
        match level.below with
        | some next => some (s.goto (.dequeue pop next))
        | none => some (s.finish pop none)
      else some (s.goto (.take pop level))
  | .take pop level =>
      match s.queue.bucket level with
      | item :: rest =>
          some ({ s with queue := s.queue.setBucket level rest }.finish true
            (some (level, item)))
      | [] => some (s.finish pop none)

/-- The producers and the consumer. -/
def machine : Machine (SharedQueue α) (QueueEvent α) where
  step s e :=
    match e with
    | .enqueue item priority =>
        some { s with
          queue := s.queue.enqueue item priority
          during := s.during ++ [(priority, item)]
          enqueued := s.enqueued ++ [(priority, item)] }
    | .pop => if s.pc = .idle then some (s.begin (.empty .critical)) else none
    | .dequeue => if s.pc = .idle then some (s.begin (.dequeue false .critical)) else none
    | .step => s.stepConsumer

/-- The items handed out, in their order. -/
def taken (s : SharedQueue α) : List (PacketPriority × α) := s.outcomes.filterMap (·.item)

theorem taken_finish (answer : Bool) (item : Option (PacketPriority × α)) (s : SharedQueue α) :
    (s.finish answer item).taken = s.taken ++ item.toList := by
  unfold taken finish
  rw [List.filterMap_append]
  cases item <;> rfl

/-- A call of `dequeue` in which nothing comes is the `dequeue` of a `PriorityMPSCQueue`. -/
theorem dequeue_alone (s : SharedQueue α) (hidle : s.pc = .idle) :
    ∃ n s', machine.exec s (.dequeue :: List.replicate n .step) = some s' ∧ s'.pc = .idle ∧
      ((s.queue.dequeue = none ∧ s'.taken = s.taken ∧ s'.queue = s.queue) ∨
        ∃ priority item, s.queue.dequeue = some (item, s'.queue) ∧
          s'.taken = s.taken ++ [(priority, item)]) := by
  obtain ⟨⟨critical, high, medium, low⟩, pc, before, during, enqueued, outcomes⟩ := s
  obtain rfl : pc = .idle := hidle
  have htaken (item : PacketPriority × α) (outcome : QueueOutcome α)
      (hitem : outcome.item = some item) :
      (outcomes ++ [outcome]).filterMap (·.item) = outcomes.filterMap (·.item) ++ [item] := by
    rw [List.filterMap_append, List.filterMap_cons_some hitem]
    rfl
  -- one step for each queue that is empty, and two for the one that is not
  rcases critical with _ | ⟨item, rest⟩
  · rcases high with _ | ⟨item, rest⟩
    · rcases medium with _ | ⟨item, rest⟩
      · rcases low with _ | ⟨item, rest⟩
        · refine ⟨4, _, rfl, rfl, .inl ⟨rfl, ?_, rfl⟩⟩
          exact (List.filterMap_append ..).trans (List.append_nil _)
        · exact ⟨5, _, rfl, rfl, .inr ⟨.low, item, rfl, htaken _ _ rfl⟩⟩
      · exact ⟨4, _, rfl, rfl, .inr ⟨.medium, item, rfl, htaken _ _ rfl⟩⟩
    · exact ⟨3, _, rfl, rfl, .inr ⟨.high, item, rfl, htaken _ _ rfl⟩⟩
  · exact ⟨2, _, rfl, rfl, .inr ⟨.critical, item, rfl, htaken _ _ rfl⟩⟩

/-! ## The invariant -/

/-- What a call keeps: it answers `true` exactly with an item; nothing more urgent waited when it
began, and the item is the first of its priority; without an item nothing at all waited. -/
structure Kept (outcome : QueueOutcome α) : Prop where
  answer : outcome.answer = outcome.item.isSome
  first : ∀ priority item, outcome.item = some (priority, item) →
    (∀ other, priority < other → outcome.before.bucket other = []) ∧
      ∃ rest, outcome.before.bucket priority ++ ofPriority outcome.during priority = item :: rest
  nothing : outcome.item = none → ∀ priority, outcome.before.bucket priority = []

/-- The queues above the one that is looked at were empty when the call began. -/
def Passed (before : PriorityMPSCQueue α) : ConsumerPc → Prop
  | .idle => True
  | .empty level | .dequeue _ level | .take _ level =>
      ∀ other, level < other → before.bucket other = []

/-- What the call has seen is still there. -/
def Seen (queue : PriorityMPSCQueue α) : ConsumerPc → Prop
  | .idle | .empty _ | .dequeue false _ => True
  | .dequeue true level => ∃ other ≤ level, queue.bucket other ≠ []
  | .take _ level => queue.bucket level ≠ []

structure Serving (s : SharedQueue α) : Prop where
  /-- for each priority, what was handed out and what waits is what came, in this order -/
  conserved : ∀ priority,
    ofPriority s.taken priority ++ s.queue.bucket priority = ofPriority s.enqueued priority
  waiting : s.pc ≠ .idle → ∀ priority,
    s.queue.bucket priority = s.before.bucket priority ++ ofPriority s.during priority
  passed : Passed s.before s.pc
  seen : Seen s.queue s.pc
  outcomes : ∀ outcome ∈ s.outcomes, Kept outcome

theorem serving_init : (init : SharedQueue α).Serving where
  conserved priority := by cases priority <;> rfl
  waiting h := absurd rfl h
  passed := trivial
  seen := trivial
  outcomes _ h := absurd h List.not_mem_nil

theorem below_eq_some {level next : PacketPriority} (h : level.below = some next)
    (other : PacketPriority) (hlt : next < other) : other = level ∨ level < other := by
  revert hlt h
  cases level <;> cases next <;> cases other <;> decide

theorem below_eq_none {level : PacketPriority} (h : level.below = none)
    (other : PacketPriority) : other = level ∨ level < other := by
  revert h
  cases level <;> cases other <;> decide

theorem bucket_enqueue (item : α) (priority : PacketPriority) (queue : PriorityMPSCQueue α)
    (other : PacketPriority) :
    (queue.enqueue item priority).bucket other =
      queue.bucket other ++ ofPriority [(priority, item)] other := by
  rw [PriorityMPSCQueue.enqueue_eq, PriorityMPSCQueue.bucket_setBucket, ofPriority_cons]
  by_cases h : other = priority
  · rw [h, Function.update_self, if_pos rfl]
    rfl
  · rw [Function.update_of_ne h, if_neg (Ne.symm h)]
    exact (List.append_nil _).symm

variable {s s' : SharedQueue α}

/-- Items that come take nothing away from what the call has seen. -/
theorem Seen.enqueue {queue : PriorityMPSCQueue α} {pc : ConsumerPc} (h : Seen queue pc)
    (item : α) (priority : PacketPriority) : Seen (queue.enqueue item priority) pc := by
  have hgrows : ∀ other, queue.bucket other ≠ [] →
      (queue.enqueue item priority).bucket other ≠ [] := by
    intro other hother
    rw [bucket_enqueue]
    exact List.append_ne_nil_of_left_ne_nil hother _
  cases pc with
  | idle | empty => trivial
  | dequeue pop level =>
      cases pop with
      | false => trivial
      | true =>
          obtain ⟨other, hle, hother⟩ := h
          exact ⟨other, hle, hgrows other hother⟩
  | take pop level => exact hgrows level h

theorem Serving.enqueue (h : s.Serving) (item : α) (priority : PacketPriority) :
    Serving { s with
      queue := s.queue.enqueue item priority
      during := s.during ++ [(priority, item)]
      enqueued := s.enqueued ++ [(priority, item)] } where
  conserved other := by
    rw [bucket_enqueue, ofPriority_append, ← h.conserved other, List.append_assoc]
    rfl
  waiting hcall other := by
    rw [bucket_enqueue, ofPriority_append, h.waiting hcall other, List.append_assoc]
  passed := h.passed
  seen := h.seen.enqueue item priority
  outcomes := h.outcomes

theorem Serving.begin (h : s.Serving) {pc : ConsumerPc}
    (hpassed : Passed s.queue pc) (hseen : Seen s.queue pc) : (s.begin pc).Serving where
  conserved := h.conserved
  waiting _ _ := (List.append_nil _).symm
  passed := hpassed
  seen := hseen
  outcomes := h.outcomes

theorem Serving.goto (h : s.Serving) {pc : ConsumerPc} (hcall : s.pc ≠ .idle)
    (hpassed : Passed s.before pc) (hseen : Seen s.queue pc) : (s.goto pc).Serving where
  conserved := h.conserved
  waiting _ := h.waiting hcall
  passed := hpassed
  seen := hseen
  outcomes := h.outcomes

/-- A call that found nothing. -/
theorem Serving.finish_none (h : s.Serving) (hnone : ∀ priority, s.before.bucket priority = []) :
    (s.finish false none).Serving where
  conserved priority := by
    rw [taken_finish]
    exact (congrArg (fun items => ofPriority items priority ++ _) (List.append_nil _)).trans
      (h.conserved priority)
  waiting hcall := absurd rfl hcall
  passed := trivial
  seen := trivial
  outcomes outcome hmem := by
    rcases List.mem_append.mp hmem with hmem | hmem
    · exact h.outcomes outcome hmem
    · obtain rfl := List.mem_singleton.mp hmem
      exact ⟨rfl, nofun, fun _ => hnone⟩

/-- A call that takes the first item of a queue. -/
theorem Serving.finish_some (h : s.Serving) (hcall : s.pc ≠ .idle) {level : PacketPriority}
    {item : α} {rest : List α} (hbucket : s.queue.bucket level = item :: rest)
    (hpassed : ∀ other, level < other → s.before.bucket other = []) :
    ({ s with queue := s.queue.setBucket level rest }.finish true
      (some (level, item))).Serving where
  conserved priority := by
    rw [taken_finish, ofPriority_append, List.append_assoc]
    show ofPriority s.taken priority ++ (ofPriority [(level, item)] priority ++
      (s.queue.setBucket level rest).bucket priority) = ofPriority s.enqueued priority
    rw [← h.conserved priority, PriorityMPSCQueue.bucket_setBucket]
    refine congrArg _ ?_
    rw [ofPriority_cons]
    by_cases hpriority : priority = level
    · rw [hpriority, Function.update_self, if_pos rfl, hbucket]
      rfl
    · rw [Function.update_of_ne hpriority, if_neg (Ne.symm hpriority)]
      rfl
  waiting hcall := absurd rfl hcall
  passed := trivial
  seen := trivial
  outcomes outcome hmem := by
    rcases List.mem_append.mp hmem with hmem | hmem
    · exact h.outcomes outcome hmem
    · obtain rfl := List.mem_singleton.mp hmem
      refine ⟨rfl, fun priority item' hitem => ?_, fun hnone => by cases hnone⟩
      obtain ⟨rfl, rfl⟩ := Prod.mk.inj (Option.some.inj hitem)
      exact ⟨hpassed, rest, (h.waiting hcall level).symm.trans hbucket⟩

/-! ## Runs -/

/-- An empty queue was empty when the call began. -/
theorem Serving.before_nil (h : s.Serving) (hcall : s.pc ≠ .idle) {level : PacketPriority}
    (hempty : s.queue.bucket level = []) : s.before.bucket level = [] := by
  have hwaiting := h.waiting hcall level
  rw [hempty] at hwaiting
  exact (List.append_eq_nil_iff.mp hwaiting.symm).1

theorem Serving.stepConsumer (h : s.Serving) (hstep : s.stepConsumer = some s') : s'.Serving := by
  have hpassed := h.passed
  have hseen := h.seen
  unfold SharedQueue.stepConsumer at hstep
  cases hpc : s.pc with
  | idle =>
      rw [hpc] at hstep
      cases hstep
  | empty level =>
      have hcall : s.pc ≠ .idle := by rw [hpc]; nofun
      rw [hpc] at hstep hpassed
      dsimp only at hstep
      split at hstep
      · rename_i hempty
        have hbefore := h.before_nil hcall (List.isEmpty_iff.mp hempty)
        cases hbelow : level.below with
        | some next =>
            rw [hbelow] at hstep
            cases hstep
            refine h.goto hcall (fun other hlt => ?_) trivial
            rcases below_eq_some hbelow other hlt with rfl | habove
            · exact hbefore
            · exact hpassed other habove
        | none =>
            rw [hbelow] at hstep
            cases hstep
            refine h.finish_none fun other => ?_
            rcases below_eq_none hbelow other with rfl | habove
            · exact hbefore
            · exact hpassed other habove
      · -- something is seen: `dequeue` starts over from the critical queue
        rename_i hfull
        cases hstep
        refine h.goto hcall (fun other hlt => ?_) ⟨level, ?_, fun hnil => hfull ?_⟩
        · exact absurd hlt (by cases other <;> decide)
        · cases level <;> decide
        · rw [hnil]
          rfl
  | dequeue pop level =>
      have hcall : s.pc ≠ .idle := by rw [hpc]; nofun
      rw [hpc] at hstep hpassed hseen
      dsimp only at hstep
      split at hstep
      · rename_i hempty
        have hnil := List.isEmpty_iff.mp hempty
        have hbefore := h.before_nil hcall hnil
        have hstill : pop = true → ∃ other ≤ level, other ≠ level ∧ s.queue.bucket other ≠ [] := by
          rintro rfl
          obtain ⟨other, hle, hother⟩ := hseen
          exact ⟨other, hle, fun heq => hother (heq ▸ hnil), hother⟩
        cases hbelow : level.below with
        | some next =>
            rw [hbelow] at hstep
            cases hstep
            refine h.goto hcall (fun other hlt => ?_) ?_
            · rcases below_eq_some hbelow other hlt with rfl | habove
              · exact hbefore
              · exact hpassed other habove
            · cases pop with
              | false => trivial
              | true =>
                  obtain ⟨other, hle, hne, hother⟩ := hstill rfl
                  refine ⟨other, not_lt.mp fun hlt => ?_, hother⟩
                  rcases below_eq_some hbelow other hlt with heq | habove
                  · exact hne heq
                  · exact absurd hle (not_le.mpr habove)
        | none =>
            rw [hbelow] at hstep
            cases hstep
            cases pop with
            | false =>
                refine h.finish_none fun other => ?_
                rcases below_eq_none hbelow other with rfl | habove
                · exact hbefore
                · exact hpassed other habove
            | true =>
                -- what `Pop` has seen is in none of the queues any more: this cannot be
                obtain ⟨other, hle, hne, -⟩ := hstill rfl
                rcases below_eq_none hbelow other with heq | habove
                · exact absurd heq hne
                · exact absurd hle (not_le.mpr habove)
      · rename_i hfull
        cases hstep
        exact h.goto hcall hpassed fun hnil => hfull (by rw [hnil]; rfl)
  | take pop level =>
      have hcall : s.pc ≠ .idle := by rw [hpc]; nofun
      rw [hpc] at hstep hpassed hseen
      dsimp only at hstep
      cases hbucket : s.queue.bucket level with
      | nil => exact absurd hbucket hseen
      | cons item rest =>
          rw [hbucket] at hstep
          cases hstep
          exact h.finish_some hcall hbucket hpassed

theorem Serving.step (h : s.Serving) {e : QueueEvent α} (hstep : machine.step s e = some s') :
    s'.Serving := by
  have hnone (level other : PacketPriority) (hlevel : level = .critical) (hlt : level < other) :
      s.queue.bucket other = [] := by
    subst hlevel
    exact absurd hlt (by cases other <;> decide)
  cases e with
  | enqueue item priority =>
      obtain rfl := Option.some.inj hstep
      exact h.enqueue item priority
  | pop =>
      unfold machine at hstep
      dsimp only at hstep
      split at hstep <;> cases hstep
      exact h.begin (fun other => hnone _ other rfl) trivial
  | dequeue =>
      unfold machine at hstep
      dsimp only at hstep
      split at hstep <;> cases hstep
      exact h.begin (fun other => hnone _ other rfl) trivial
  | step => exact h.stepConsumer hstep

/-- In every run of any number of producers and one consumer: for each priority the items are
handed out in the order in which they came, and what came was handed out or waits; every call
that ended hands out the first item of a priority such that nothing more urgent waited when it
began, or nothing, if nothing waited when it began; and it answers `true` exactly with an item,
`Pop` too. -/
theorem many_producers {events : List (QueueEvent α)} (hexec : machine.exec init events = some s) :
    (∀ priority,
      ofPriority s.taken priority ++ s.queue.bucket priority = ofPriority s.enqueued priority) ∧
      ∀ outcome ∈ s.outcomes, Kept outcome := by
  have h : s.Serving := machine.invariant_of_exec
    (fun _ _ _ hs hstep => hs.step hstep) serving_init hexec
  exact ⟨h.conserved, h.outcomes⟩

/-- An urgent packet comes to a queue that the call has passed, then a less urgent one. -/
def overtaken : List (QueueEvent Nat) :=
  [.dequeue, .step, .enqueue 1 .critical, .enqueue 2 .high, .step, .step]

/-- The one that came later is handed out first, which no order of whole calls does. -/
theorem many_producers_overtaken :
    ∃ s, machine.exec init overtaken = some s ∧ s.taken = [(.high, 2)] ∧
      s.queue.toList = [1] ∧ ∀ outcome ∈ s.outcomes, Kept outcome := by
  refine ⟨_, rfl, rfl, rfl, ?_⟩
  have hexec : machine.exec init overtaken = some _ := rfl
  exact (many_producers hexec).2

end SharedQueue

end ZetaNet
