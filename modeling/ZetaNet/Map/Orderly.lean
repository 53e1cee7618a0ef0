import ZetaNet.Map.Reclaim

/-!
# Runs that reclaim what is unlinked

Every step keeps the invariant if it is orderly: a `remove` gives up no node that is still linked
unless another one is at work on it, the successor it writes is up to date, `collect_garbage`
frees no linked node that a `remove` is about to unlink, and no `insert` deletes the node it has
tracked. Two runs in which a step is not orderly end with freed nodes linked and tracked.
-/

namespace ZetaNet

open Links

namespace SharedMap

variable {K V : Type} {s s' : SharedMap K V} {t : Nat} {spurious : Bool}

/-- The next step of thread `t`, which stands at `pc`, does not go wrong. -/
def OrderlyAt (t : Nat) (pc : MapPc K V) (s : SharedMap K V) : Prop :=
  match pc with
  | .insert (.found newNode _) => newNode = none
  | .remove (.loadPrev prev node) =>
      s.Linked node → s.map.linkValue prev = some node ∨ s.Helped t node
  | .remove (.swapPrev prev node next) =>
      (s.InPlace prev node → next = s.map.bucketNext node) ∧
        (s.Linked node → s.InPlace prev node ∨ s.Helped t node)
  | .collect (.sweep _ readIdx) =>
      ∀ id, s.map.allNodes[readIdx]? = some id → s.map.isDeleted id = true → s.Linked id →
        ∀ u, (s.pc u).unlinking ≠ some id
  | _ => True

/-- The event does not go wrong. -/
def Orderly (s : SharedMap K V) (e : ThreadEvent K V) : Prop :=
  match e with
  | .call _ _ => True
  | .step t _ => s.OrderlyAt t (s.pc t)

theorem quiet_idle {pc : MapPc K V} (hunlinking : ∀ id, pc.unlinking = some id → s.Linked id →
    s.Helped t id) (hkept : ∀ nodes, pc.kept nodes = nodes) : s.Quiet t pc .idle where
  newNode := fun _ hid => nomatch hid
  holds := fun _ hid => hid.elim
  ready := trivial
  unlinking := fun id hid hlinked => Or.inr (hunlinking id hid hlinked)
  collects := fun hc => hc.elim
  kept := fun nodes => (hkept nodes).symm
  ordered := trivial

/-! ## Phase 2 of `insert_internal` -/

theorem Ok.stepOrder {pc : OrderPc} (h : s.Ok) (hpc : s.pc t = .order pc) :
    (s.stepOrder t spurious pc).Ok := by
  -- the insertion order is written, the buckets and marks are not
  have hgoto {map : LockFreeOrderedHashMap K V} (hmap : (s.write map).Ok) (pc' : OrderPc) :
      ((s.write map).goto t (.order pc')).Ok :=
    hmap.goto hpc ⟨fun _ hid => (nomatch hid), fun _ hid => hid.elim, trivial,
      fun _ hid => (nomatch hid), fun hc => hc.elim, fun _ => rfl, trivial⟩
  have hidle {map : LockFreeOrderedHashMap K V} (hmap : (s.write map).Ok) :
      ((s.write map).goto t .idle).Ok :=
    hmap.goto hpc (quiet_idle (fun _ hid => (nomatch hid)) fun _ => rfl)
  cases pc with
  | storeOrderNext newNode => exact hgoto (h.writeOrder _ _ _) _
  | loadTail newNode expectedTail =>
      unfold SharedMap.stepOrder
      dsimp only
      split
      · exact hgoto h _
      · exact hgoto h _
  | swapOrderHead newNode expectedTail =>
      unfold SharedMap.stepOrder
      dsimp only
      split
      · exact hgoto (h.writeOrder _ _ _) _
      · exact hgoto h _
  | swapFirstTail newNode expectedTail =>
      unfold SharedMap.stepOrder
      dsimp only
      split
      · exact hidle (h.writeOrder _ _ _)
      · exact hidle h
  | loadOrderNext newNode currentTail => exact hgoto h _
  | checkTail newNode currentTail currentTailOrderNext =>
      unfold SharedMap.stepOrder
      dsimp only
      split
      · cases currentTailOrderNext with
        | some next => exact hgoto h _
        | none => exact hgoto h _
      · exact hgoto h _
  -- another thread has appended but not moved the tail
  | helpTail newNode currentTail next =>
      unfold SharedMap.stepOrder
      dsimp only
      split
      · exact hgoto (h.writeOrder _ _ _) _
      · exact hgoto h _
  | swapOrderNext newNode currentTail =>
      unfold SharedMap.stepOrder
      dsimp only
      split
      · exact hgoto (h.writeOrder _ _ _) _
      · exact hgoto h _
  | swapTail newNode currentTail =>
      unfold SharedMap.stepOrder
      dsimp only
      split
      · exact hidle (h.writeOrder _ _ _)
      · exact hidle h

/-! ## `collect_garbage` -/

theorem Ok.stepCollect {pc : CollectPc} (h : s.Ok) (hpc : s.pc t = .collect pc)
    (horderly : s.OrderlyAt t (.collect pc)) (hstep : s.stepCollect t pc = some s') :
    s'.Ok := by
  have hgoto {map : LockFreeOrderedHashMap K V} (hmap : (s.write map).Ok) (pc' : CollectPc)
      (hcollects : (MapPc.collect pc' : MapPc K V).Collects →
        (MapPc.collect pc : MapPc K V).Collects)
      (hkept : ∀ nodes, (MapPc.collect pc' : MapPc K V).kept nodes =
        (MapPc.collect pc : MapPc K V).kept nodes)
      (hordered : (MapPc.collect pc' : MapPc K V).Ordered) :
      ((s.write map).goto t (.collect pc')).Ok :=
    hmap.goto hpc ⟨fun _ hid => (nomatch hid), fun _ hid => hid.elim, trivial,
      fun _ hid => (nomatch hid), hcollects, hkept, hordered⟩
  cases pc with
  | lock =>
      unfold SharedMap.stepCollect at hstep
      dsimp only at hstep
      split at hstep
      · obtain rfl := Option.some.inj hstep
        exact h.lock hpc ‹_›
      · cases hstep
  | loadOrderHead =>
      obtain rfl := Option.some.inj hstep
      exact hgoto h _ id (fun _ => rfl) trivial
  | loadOrderNext prev curr =>
      cases curr with
      | none =>
          obtain rfl := Option.some.inj hstep
          exact hgoto h _ id (fun _ => rfl) (Nat.le_refl 0)
      | some curr =>
          obtain rfl := Option.some.inj hstep
          exact hgoto h _ id (fun _ => rfl) trivial
  | testDeleted prev curr next =>
      unfold SharedMap.stepCollect at hstep
      dsimp only at hstep
      split at hstep
      · obtain rfl := Option.some.inj hstep
        exact hgoto h _ id (fun _ => rfl) trivial
      · obtain rfl := Option.some.inj hstep
        exact hgoto h _ id (fun _ => rfl) trivial
  | unlinkOrder prev curr next =>
      cases prev with
      | none =>
          obtain rfl := Option.some.inj hstep
          exact hgoto (h.writeOrder _ _ _) _ id (fun _ => rfl) trivial
      | some prev =>
          obtain rfl := Option.some.inj hstep
          exact hgoto (h.writeOrder _ _ _) _ id (fun _ => rfl) trivial
  | swapTail prev curr next =>
      unfold SharedMap.stepCollect at hstep
      dsimp only at hstep
      split at hstep
      · obtain rfl := Option.some.inj hstep
        exact hgoto (h.writeOrder _ _ _) _ id (fun _ => rfl) trivial
      · obtain rfl := Option.some.inj hstep
        exact hgoto h _ id (fun _ => rfl) trivial
  | sweep writeIdx readIdx =>
      unfold SharedMap.stepCollect at hstep
      dsimp only at hstep
      split at hstep
      · rename_i id hid
        split at hstep
        · rename_i hdeleted
          obtain rfl := Option.some.inj hstep
          refine h.sweepFree hpc hid hdeleted fun hlinked => ?_
          -- a marked node that is linked is being unlinked
          obtain ⟨u, hu⟩ := h.reclaiming.marked id hlinked hdeleted
          exact horderly id hid hdeleted hlinked u hu
        · obtain rfl := Option.some.inj hstep
          exact h.sweepKeep hpc hid
      · rename_i hend
        obtain rfl := Option.some.inj hstep
        exact h.sweepEnd hpc hend

/-! ## Calls -/

theorem Ok.begin {operation : ThreadCall K V} (h : s.Ok) (hpc : s.pc t = .idle) :
    (s.goto t (begin operation)).Ok := by
  cases operation with
  | _ =>
      exact h.goto hpc ⟨fun _ hid => (nomatch hid), fun _ hid => hid.elim, trivial,
        fun _ hid => (nomatch hid), fun hc => hc.elim, fun _ => rfl, trivial⟩

section Keys

variable [DecidableEq K] {hash : K → Nat}

/-! ## Phase 1 of `insert_internal` -/

omit [DecidableEq K] in
/-- A move within `insert`, which collects nothing and gives nothing up. -/
theorem quiet_insert {pc pc' : InsertPc K V}
    (hnew : ∀ id, (MapPc.insert pc').newNode = some id → (MapPc.insert pc).newNode = some id)
    (hholds : ∀ id, (MapPc.insert pc').Holds id → Shared s.map.nextNode s.pc id)
    (hready : (MapPc.insert pc').Ready s.map.bucketNext) :
    s.Quiet t (.insert pc) (.insert pc') where
  newNode := hnew
  holds := hholds
  ready := hready
  unlinking := fun _ hid => nomatch hid
  collects := fun hc => hc.elim
  kept := fun _ => rfl
  ordered := trivial

theorem Ok.stepInsert {pc : InsertPc K V} (h : s.Ok) (hpc : s.pc t = .insert pc)
    (horderly : s.OrderlyAt t (.insert pc))
    (hstep : s.stepInsert hash t spurious pc = some s') : s'.Ok := by
  have hnew {newNode : Nat} (hid : (MapPc.insert pc).newNode = some newNode) :
      (s.pc t).newNode = some newNode := by
    rw [hpc]
    exact hid
  cases pc with
  | loadHead key value newNode =>
      obtain rfl := Option.some.inj hstep
      exact h.goto hpc (quiet_insert (fun _ hid => hid) (fun _ hid => hid.elim) trivial)
  | find key value newNode curr =>
      cases curr with
      | none =>
          cases newNode with
          | none =>
              obtain rfl := Option.some.inj hstep
              exact h.goto hpc (quiet_insert (fun _ hid => hid) (fun _ hid => hid.elim) trivial)
          | some newNode =>
              obtain rfl := Option.some.inj hstep
              exact h.goto hpc (quiet_insert (fun _ hid => hid) (fun _ hid => hid.elim) trivial)
      | some curr =>
          unfold SharedMap.stepInsert at hstep
          dsimp only at hstep
          split at hstep
          · obtain rfl := Option.some.inj hstep
            exact h.goto hpc (quiet_insert (fun _ hid => hid) (fun _ hid => hid.elim) trivial)
          · obtain rfl := Option.some.inj hstep
            exact h.goto hpc (quiet_insert (fun _ hid => hid) (fun _ hid => hid.elim) trivial)
  | found newNode existingNode =>
      -- an orderly thread finds the key before it has made a node
      obtain rfl : newNode = none := horderly
      obtain rfl := Option.some.inj hstep
      exact h.goto hpc (quiet_idle (fun _ hid => (nomatch hid)) fun _ => rfl)
  | allocate key value =>
      unfold SharedMap.stepInsert at hstep
      dsimp only at hstep
      split at hstep
      · obtain rfl := Option.some.inj hstep
        exact h.allocate hpc ‹_›
      · cases hstep
  | loadOldHead key value newNode =>
      obtain rfl := Option.some.inj hstep
      exact h.goto hpc (quiet_insert (fun _ hid => hid) (h.sharing.head _) trivial)
  | storeBucketNext key value newNode oldHead =>
      obtain rfl := Option.some.inj hstep
      have hown := hnew rfl
      have hunlinked : ¬ s.Linked newNode :=
        fun hlinked => (h.shared_of_linked hlinked).2 t hown
      have hold (id : Nat) (hid : oldHead = some id) : Shared s.map.nextNode s.pc id :=
        h.sharing.holds t id (by rw [hpc]; exact hid)
      -- nobody else has the node, so no other thread's expectation is broken
      have hready (u : Nat) :
          (s.pc u).Ready (Function.update s.map.bucketNext newNode oldHead) := by
        by_cases hu : u = t
        · rw [hu, hpc]
          trivial
        · exact (h.sharing.ready u).update
            (fun heq => hu (h.sharing.newNode_unique u t newNode heq hown)) _
      refine (h.storeUnlinked hunlinked hold hready).1.goto hpc
        (quiet_insert (fun _ hid => hid) (fun _ hid => hid.elim) ?_)
      exact Function.update_self ..
  | swapHead key value newNode oldHead =>
      have hown := hnew rfl
      -- the node points at the head that was read when it is published
      have hlinked : s.map.bucketNext newNode = oldHead := by
        have hready := h.sharing.ready t
        rw [hpc] at hready
        exact hready
      unfold SharedMap.stepInsert at hstep
      dsimp only at hstep
      split at hstep
      · rename_i hswap
        -- the head is still the one that was read: the node becomes shared
        obtain rfl := Option.some.inj hstep
        have hmoved : (s.goto t (.order (.storeOrderNext newNode))).Ok :=
          h.goto hpc ⟨fun _ hid => (nomatch hid), fun _ hid => hid.elim, trivial,
            fun _ hid => (nomatch hid), fun hc => hc.elim, fun _ => rfl, trivial⟩
        have hclean := h.reclaiming.newNode_clean t newNode hown
        exact hmoved.push (h.sharing.shared_of_release hown rfl)
          (fun hlinked => (h.shared_of_linked hlinked).2 t hown) hclean.1 hclean.2
          (hlinked.trans hswap.1.symm)
      · obtain rfl := Option.some.inj hstep
        exact h.goto hpc (quiet_insert (fun _ hid => hid) (fun _ hid => hid.elim) trivial)

/-! ## `remove` -/

theorem Ok.stepRemove {pc : RemovePc K} (h : s.Ok) (hpc : s.pc t = .remove pc)
    (horderly : s.OrderlyAt t (.remove pc)) : (s.stepRemove hash t spurious pc).Ok := by
  have hheld {id : Nat} (hid : (MapPc.remove pc : MapPc K V).Holds id) :
      Shared s.map.nextNode s.pc id := by
    refine h.sharing.holds t id ?_
    rw [hpc]
    exact hid
  have hgoto {pc' : RemovePc K} (hholds : ∀ id, (MapPc.remove pc' : MapPc K V).Holds id →
        Shared s.map.nextNode s.pc id)
      (hunlinking : ∀ id, (MapPc.remove pc : MapPc K V).unlinking = some id →
        (MapPc.remove pc' : MapPc K V).unlinking = some id) : (s.goto t (.remove pc')).Ok :=
    h.goto hpc ⟨fun _ hid => (nomatch hid), hholds, trivial,
      fun id hid _ => Or.inl (hunlinking id hid), fun hc => hc.elim, fun _ => rfl, trivial⟩
  cases pc with
  | loadHead key =>
      refine hgoto ?_ fun _ hid => (nomatch hid)
      rintro id (hid | hid)
      · cases hid
      · exact h.sharing.head _ id hid
  | find key prev curr =>
      cases curr with
      | none => exact h.goto hpc (quiet_idle (fun _ hid => (nomatch hid)) fun _ => rfl)
      | some curr =>
          unfold SharedMap.stepRemove
          dsimp only
          split
          · refine hgoto (fun id hid => hheld ?_) fun _ hid => (nomatch hid)
            exact hid.imp_right (congrArg some)
          · refine hgoto ?_ fun _ hid => (nomatch hid)
            rintro id (hid | hid)
            · cases hid
              exact hheld (Or.inr rfl)
            · exact h.sharing.next curr id hid
  | mark key prev node =>
      unfold SharedMap.stepRemove
      dsimp only
      split
      · exact hgoto (fun _ hid => hheld hid) fun _ hid => (nomatch hid)
      · split
        · refine hgoto ?_ fun _ hid => (nomatch hid)
          exact fun _ hid => hid.elim
        · -- the thread is at work on the node from the mark on
          have hmoved : (s.goto t (.remove (.loadPrev prev node))).Ok :=
            hgoto (fun _ hid => hheld hid) fun _ hid => (nomatch hid)
          refine hmoved.mark ?_ ⟨t, ?_⟩
          · exact (hheld (Or.inr rfl)).update fun hid => (nomatch hid)
          · exact congrArg MapPc.unlinking (Function.update_self t _ s.pc)
  | loadPrev prev node =>
      unfold SharedMap.stepRemove
      dsimp only
      split
      · exact hgoto (fun _ hid => hheld hid) fun _ hid => hid
      · rename_i hprev
        refine h.goto hpc (quiet_idle (fun id hid hlinked => ?_) fun _ => rfl)
        obtain rfl := Option.some.inj hid
        exact (horderly hlinked).resolve_left hprev
  | loadNext prev node =>
      refine hgoto ?_ fun _ hid => hid
      rintro id (hid | hid)
      · exact hheld hid
      · exact h.sharing.next node id hid
  | swapPrev prev node next =>
      obtain ⟨hcurrent, hgiven⟩ := horderly
      unfold SharedMap.stepRemove
      dsimp only
      split
      · rename_i hprev
        by_cases hplace : s.InPlace prev node
        · obtain rfl := hcurrent hplace
          obtain ⟨hunlinked, hgone⟩ := h.unlink hplace
          refine hunlinked.goto hpc (quiet_idle (fun id hid hlinked => ?_) fun _ => rfl)
          obtain rfl := Option.some.inj hid
          exact absurd hlinked hgone
        · cases prev with
          | bucket index => exact absurd ⟨hprev, fun _ hid => (nomatch hid)⟩ hplace
          | next p =>
              -- the predecessor has been taken out: what it holds does not matter
              have hp : ¬ s.Linked p := fun hlinked => hplace ⟨hprev, fun id hid => by
                cases hid
                exact hlinked⟩
              have hshared := hheld (Or.inl (Or.inl rfl))
              obtain ⟨hstored, hsame⟩ := h.storeUnlinked hp
                (fun id hid => hheld (Or.inr hid))
                fun u => (h.sharing.ready u).update (hshared.2 u) next
              refine hstored.goto hpc (quiet_idle (fun id hid hlinked => ?_) fun _ => rfl)
              obtain rfl := Option.some.inj hid
              exact (hgiven ((hsame node).mp hlinked)).resolve_left hplace
      · rename_i hprev
        refine h.goto hpc (quiet_idle (fun id hid hlinked => ?_) fun _ => rfl)
        obtain rfl := Option.some.inj hid
        exact (hgiven hlinked).resolve_left fun hplace => hprev hplace.1

/-! ## Runs -/

theorem Ok.step {e : ThreadEvent K V} (h : s.Ok) (horderly : s.Orderly e)
    (hstep : (machine hash).step s e = some s') : s'.Ok := by
  cases e with
  | call t operation =>
      unfold machine at hstep
      dsimp only at hstep
      split at hstep
      · rename_i hpc
        obtain rfl := Option.some.inj hstep
        exact h.begin hpc
      · cases hstep
  | step t spurious =>
      replace horderly : s.OrderlyAt t (s.pc t) := horderly
      replace hstep : s.next hash t spurious = some s' := hstep
      unfold next at hstep
      cases hpc : s.pc t with
      | idle =>
          rw [hpc] at hstep
          cases hstep
      | insert pc =>
          rw [hpc] at hstep horderly
          exact h.stepInsert hpc horderly hstep
      | order pc =>
          rw [hpc] at hstep
          obtain rfl := Option.some.inj hstep
          exact h.stepOrder hpc
      | remove pc =>
          rw [hpc] at hstep horderly
          obtain rfl := Option.some.inj hstep
          exact h.stepRemove hpc horderly
      | collect pc =>
          rw [hpc] at hstep horderly
          exact h.stepCollect hpc horderly hstep

/-- In a run of orderly steps no freed node is linked or tracked. -/
theorem orderly_reclaims {count : Nat} {events : List (ThreadEvent K V)}
    (horderly : (machine hash).Along Orderly (init K V count) events)
    (hexec : (machine hash).exec (init K V count) events = some s) : s.Reclaimed :=
  (Machine.invariant_of_along (fun _ _ _ h horderly hstep => Ok.step h horderly hstep)
    (ok_init K V count) horderly hexec).reclaimed

/-- What `Orderly` asks of a step, as far as the state shows it, while none but the first `threads`
threads run. -/
def checkStep (threads : Nat) (s : SharedMap K V) (e : ThreadEvent K V) : Bool :=
  match e with
  | .call _ _ => true
  | .step t _ =>
      match s.pc t with
      | .insert (.found newNode _) => newNode.isNone
      | .remove (.loadPrev prev node) => s.map.linkValue prev = some node
      | .remove (.swapPrev (.bucket index) node next) =>
          s.map.buckets index = some node ∧ next = s.map.bucketNext node
      | .remove (.swapPrev (.next _) _ _) => false
      | .collect (.sweep _ readIdx) =>
          decide (∀ u < threads, (s.pc u).unlinking = none ∨
            (s.pc u).unlinking ≠ s.map.allNodes[readIdx]?)
      | _ => true

omit [DecidableEq K] in
theorem orderly_of_checkStep {threads : Nat} {e : ThreadEvent K V}
    (hidle : ∀ u, threads ≤ u → s.pc u = .idle) (hcheck : s.checkStep threads e = true) :
    s.Orderly e := by
  cases e with
  | call t operation => trivial
  | step t spurious =>
      show s.OrderlyAt t (s.pc t)
      unfold checkStep at hcheck
      dsimp only at hcheck
      unfold OrderlyAt
      split
      · rename_i newNode existingNode hpc
        rw [hpc] at hcheck
        exact Option.isNone_iff_eq_none.mp hcheck
      · rename_i prev node hpc
        rw [hpc] at hcheck
        exact fun _ => Or.inl (of_decide_eq_true hcheck)
      · rename_i prev node next hpc
        rw [hpc] at hcheck
        cases prev with
        | bucket index =>
            obtain ⟨hhead, hnext⟩ := of_decide_eq_true hcheck
            exact ⟨fun _ => hnext, fun _ => Or.inl ⟨hhead, fun _ hid => (nomatch hid)⟩⟩
        | next p => cases hcheck
      · rename_i writeIdx readIdx hpc
        rw [hpc] at hcheck
        intro id hid _ _ u hu
        by_cases hut : u < threads
        · rcases of_decide_eq_true hcheck u hut with hnone | hother
          · cases hnone.symm.trans hu
          · exact hother (hu.trans hid.symm)
        · rw [hidle u (Nat.le_of_not_lt hut)] at hu
          cases hu
      · trivial

theorem orderly_of_checked {count threads : Nat} {events : List (ThreadEvent K V)}
    (h : (machine hash).Along (fun s e => e.thread < threads ∧ s.checkStep threads e = true)
      (init K V count) events) : (machine hash).Along Orderly (init K V count) events :=
  Machine.Along.imp
    (fun s _ _ (hidle : ∀ u, threads ≤ u → s.pc u = .idle) hevent hstep u hu =>
      (step_pc (hevent.1.trans_le hu).ne' hstep).trans (hidle u hu))
    (fun s _ (hidle : ∀ u, threads ≤ u → s.pc u = .idle) hevent =>
      orderly_of_checkStep hidle hevent.2)
    (fun _ _ => rfl) h

end Keys

/-! ## Three runs -/

/-- `count` steps of thread `t`. -/
def steps (t count : Nat) : List (ThreadEvent Nat Unit) := List.replicate count (.step t false)

/-- `count` steps of thread 0 and thread 1 in turn. -/
def alternating (count : Nat) : List (ThreadEvent Nat Unit) :=
  (List.replicate count [.step 0 false, .step 1 false]).flatten

/-- Two threads insert turn by turn, and thread 1 does not find the head it has read; then
thread 0 removes key 2 between the steps in which thread 1 collects. -/
def removedWhileCollecting : List (ThreadEvent Nat Unit) :=
  .call 0 (.insert 1 ()) :: .call 1 (.insert 2 ()) :: alternating 10 ++ steps 1 8 ++
    .call 0 (.remove 2) :: .call 1 .collectGarbage :: alternating 6 ++ steps 1 6

theorem orderly_reclaims_removed :
    ∃ s, (machine id).exec (init Nat Unit 1) removedWhileCollecting = some s ∧
      s.map.freed 1 = true ∧ s.map.buckets 0 = some 0 ∧ s.map.allNodes = [0] ∧
      s.Reclaimed := by
  have hrun : ((machine id).exec (init Nat Unit 1) removedWhileCollecting).map (fun s =>
      (s.map.freed 1, s.map.buckets 0, s.map.allNodes)) = some (true, some 0, [0]) := by
    decide +kernel
  have hchecked : (machine id).Along (fun s e => e.thread < 2 ∧ s.checkStep 2 e = true)
      (init Nat Unit 1) removedWhileCollecting := by decide +kernel
  obtain ⟨s, hexec, hs⟩ := Option.map_eq_some_iff.mp hrun
  obtain ⟨hfreed, hs⟩ := Prod.mk.inj hs
  obtain ⟨hhead, hnodes⟩ := Prod.mk.inj hs
  exact ⟨s, hexec, hfreed, hhead, hnodes, orderly_reclaims (orderly_of_checked hchecked) hexec⟩

/-- Thread 0 removes key 1 and is at the mark when thread 1 inserts key 2 in front of the node.
Thread 1 then collects. -/
def overtakenRemove : List (ThreadEvent Nat Unit) :=
  .call 0 (.insert 1 ()) :: steps 0 10 ++ .call 0 (.remove 1) :: steps 0 2 ++
    .call 1 (.insert 2 ()) :: steps 1 13 ++ steps 0 2 ++ .call 1 .collectGarbage :: steps 1 12

/-- Both threads insert key 1; thread 0 has its node in `allNodes` when thread 1 links its own. -/
def losingInsert : List (ThreadEvent Nat Unit) :=
  .call 0 (.insert 1 ()) :: steps 0 5 ++ .call 1 (.insert 1 ()) :: steps 1 10 ++ steps 0 4

/-- A freed node in a bucket, and a freed node in `allNodes`. -/
theorem freed_linked_or_tracked :
    (∃ s, (machine id).exec (init Nat Unit 1) overtakenRemove = some s ∧
      Reaches s.map.bucketNext (s.map.buckets 0) 0 ∧ s.map.freed 0 = true) ∧
    ∃ s, (machine id).exec (init Nat Unit 1) losingInsert = some s ∧
      s.allNodesMutex = none ∧ 0 ∈ s.map.allNodes ∧ s.map.freed 0 = true := by
  constructor
  · have hrun : ((machine id).exec (init Nat Unit 1) overtakenRemove).map (fun s =>
        (s.map.buckets 0, s.map.bucketNext 1, s.map.freed 0)) = some (some 1, some 0, true) := by
      decide +kernel
    obtain ⟨s, hexec, hs⟩ := Option.map_eq_some_iff.mp hrun
    injection hs with hhead hs
    injection hs with hnext hfreed
    refine ⟨s, hexec, ?_, hfreed⟩
    rw [hhead]
    exact Reaches.there (hnext ▸ Reaches.here 0)
  · have hrun : ((machine id).exec (init Nat Unit 1) losingInsert).map (fun s =>
        (s.allNodesMutex, s.map.allNodes, s.map.freed 0)) = some (none, [0, 1], true) := by
      decide +kernel
    obtain ⟨s, hexec, hs⟩ := Option.map_eq_some_iff.mp hrun
    injection hs with hmutex hs
    injection hs with hnodes hfreed
    refine ⟨s, hexec, hmutex, ?_, hfreed⟩
    rw [hnodes]
    exact List.mem_cons_self

end SharedMap

end ZetaNet
