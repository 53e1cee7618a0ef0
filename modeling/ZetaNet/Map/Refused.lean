import ZetaNet.Map.Visible

/-!
# Inserts of a key that is in the map

An insert whose key has an item that nobody removes meanwhile comes back with nothing done,
whatever the other threads insert and remove: its search stays in front of the item, or stops at
another one of the same key, and each of its steps takes it further into the bucket and writes
nothing.
-/

namespace ZetaNet

open Links

namespace MapPc

variable {K V : Type}

/-- The insert of `key` has allocated nothing, or has come back. -/
def Refused (key : K) : MapPc K V → Prop
  | .insert (.loadHead key' _ none) | .insert (.find key' _ none _) => key' = key
  | .insert (.found none _) | .idle => True
  | _ => False

/-- After `steps` steps the insert of `key` has not got past `node`, which is one of `cells`. -/
def Searches (key : K) (node : Nat) (cells : List Nat) (steps : Nat) : MapPc K V → Prop
  | .insert (.loadHead key' _ none) => key' = key ∧ steps = 0
  | .insert (.find key' _ none curr) =>
      key' = key ∧ ∃ passed, steps ≤ passed + 1 ∧ Ahead cells passed curr node
  | .insert (.found none _) => steps ≤ cells.length + 1
  | .idle => steps ≤ cells.length + 2
  | _ => False

theorem Searches.refused {key : K} {node steps : Nat} {cells : List Nat} {pc : MapPc K V}
    (h : pc.Searches key node cells steps) : pc.Refused key ∧ steps ≤ cells.length + 2 := by
  cases pc with
  | idle => exact ⟨trivial, h⟩
  | insert pc =>
      cases pc with
      | loadHead key' value newNode =>
          cases newNode with
          | none => exact ⟨h.1, h.2 ▸ Nat.zero_le _⟩
          | some => exact h.elim
      | find key' value newNode curr =>
          cases newNode with
          | none =>
              obtain ⟨hkey, passed, hsteps, i, front, back, -, hcells, hpassed, -⟩ := h
              refine ⟨hkey, ?_⟩
              rw [hcells, List.length_append, List.length_cons]
              omega
          | some => exact h.elim
      | found newNode existingNode =>
          cases newNode with
          | none => exact ⟨trivial, Nat.le_succ_of_le h⟩
          | some => exact h.elim
      | _ => exact h.elim
  | _ => exact h.elim

theorem Searches.mono {key : K} {node steps : Nat} {cells cells' : List Nat} {pc : MapPc K V}
    (h : pc.Searches key node cells steps) (hcells : cells <:+ cells') :
    pc.Searches key node cells' steps := by
  have hlength := hcells.length_le
  cases pc with
  | idle => exact h.trans (Nat.add_le_add_right hlength 2)
  | insert pc =>
      cases pc with
      | loadHead key' value newNode =>
          cases newNode with
          | none => exact h
          | some => exact h.elim
      | find key' value newNode curr =>
          cases newNode with
          | none =>
              obtain ⟨hkey, passed, hsteps, hahead⟩ := h
              obtain ⟨front, rfl⟩ := hcells
              exact ⟨hkey, passed, hsteps, hahead.append front⟩
          | some => exact h.elim
      | found newNode existingNode =>
          cases newNode with
          | none => exact h.trans (Nat.add_le_add_right hlength 1)
          | some => exact h.elim
      | _ => exact h.elim
  | _ => exact h.elim

end MapPc

namespace SharedMap

variable {K V : Type} [DecidableEq K] {hash : K → Nat} {s s' : SharedMap K V}
  {cells : Nat → List Nat}

/-- If the event is one of thread `t`, it changes neither the map nor `allNodesMutex`. -/
def ReadsOnly (hash : K → Nat) (t : Nat) (s : SharedMap K V) (e : ThreadEvent K V) : Prop :=
  e.thread = t → ∀ s', (machine hash).step s e = some s' →
    s'.map = s.map ∧ s'.allNodesMutex = s.allNodesMutex

omit [DecidableEq K] in
/-- Where a thread stands is nothing of the map. -/
theorem goto_writes_nothing (t : Nat) (pc : MapPc K V) (s : SharedMap K V) :
    (s.goto t pc).map = s.map ∧ (s.goto t pc).allNodesMutex = s.allNodesMutex :=
  ⟨rfl, rfl⟩

/-- A call alone touches nothing. -/
theorem readsOnly_call (t : Nat) (operation : ThreadCall K V) (s : SharedMap K V) :
    s.ReadsOnly hash t (.call t operation) := by
  intro _ s' hcall
  unfold machine at hcall
  dsimp only at hcall
  split at hcall
  · obtain rfl := Option.some.inj hcall
    exact goto_writes_nothing ..
  · cases hcall

/-- Each step of the search is a load. -/
theorem readsOnly_of_searches {t : Nat} {spurious : Bool} {key : K} {node steps : Nat}
    {cells : List Nat} (hsearch : (s.pc t).Searches key node cells steps) :
    s.ReadsOnly hash t (.step t spurious) := by
  intro _ s' hstep
  replace hstep : s.next hash t spurious = some s' := hstep
  unfold SharedMap.next at hstep
  cases hpc : s.pc t with
  | idle =>
      rw [hpc] at hstep
      cases hstep
  | insert pc =>
      rw [hpc] at hstep hsearch
      replace hstep : s.stepInsert hash t spurious pc = some s' := hstep
      cases pc with
      | loadHead key' value newNode =>
          cases newNode with
          | some => exact hsearch.elim
          | none =>
              cases hstep
              exact goto_writes_nothing ..
      | find key' value newNode curr =>
          cases newNode with
          | some => exact hsearch.elim
          | none =>
              obtain ⟨-, -, -, i, -, -, rfl, -⟩ := hsearch
              rw [SharedMap.stepInsert] at hstep
              split at hstep <;> cases hstep <;> exact goto_writes_nothing ..
      | found newNode existingNode =>
          cases newNode with
          | some => exact hsearch.elim
          | none =>
              cases hstep
              exact goto_writes_nothing ..
      | _ => exact hsearch.elim
  | _ =>
      rw [hpc] at hsearch
      exact hsearch.elim

/-- The thread gets nearer to the node, or stops at one in front of it. -/
theorem Visible.search (h : Visible hash s cells) {t : Nat} {spurious : Bool} {key : K}
    {node steps : Nat} (hnode : node ∈ cells (s.map.hashKey hash key))
    (hkey : s.map.HasKey key node) (hunmarked : ¬ s.Dead node)
    (hsearch : (s.pc t).Searches key node (cells (s.map.hashKey hash key)) steps)
    (hstep : s.next hash t spurious = some s') :
    (s'.pc t).Searches key node (cells (s.map.hashKey hash key)) (steps + 1) := by
  have hgoto (pc : MapPc K V) : (s.goto t pc).pc t = pc := Function.update_self ..
  unfold SharedMap.next at hstep
  cases hpc : s.pc t with
  | idle =>
      rw [hpc] at hstep
      cases hstep
  | insert pc =>
      rw [hpc] at hstep hsearch
      replace hstep : s.stepInsert hash t spurious pc = some s' := hstep
      cases pc with
      | loadHead key' value newNode =>
          cases newNode with
          | some => exact hsearch.elim
          | none =>
              obtain ⟨rfl, rfl⟩ := hsearch
              cases hstep
              rw [hgoto]
              exact ⟨rfl, 0, le_rfl, (h.head _).ahead hnode hunmarked⟩
      | find key' value newNode curr =>
          cases newNode with
          | some => exact hsearch.elim
          | none =>
              obtain ⟨rfl, passed, hsteps, i, front, back, rfl, hcells, hpassed, hi⟩ := hsearch
              rw [SharedMap.stepInsert] at hstep
              split at hstep <;> cases hstep
              · rw [hgoto]
                show steps + 1 ≤ (cells (s.map.hashKey hash key')).length + 1
                rw [hcells, List.length_append, List.length_cons]
                omega
              · -- the node has the key, so it stands further back
                rename_i hother
                have hback : node ∈ back := by
                  refine hi.resolve_left ?_
                  rintro rfl
                  exact hother hkey
                rw [hgoto]
                exact ⟨rfl, front.length + 1, by omega, (h.next _).ahead hcells hback hunmarked⟩
      | found newNode existingNode =>
          cases newNode with
          | some => exact hsearch.elim
          | none =>
              cases hstep
              rw [hgoto]
              exact Nat.succ_le_succ hsearch
      | _ => exact hsearch.elim
  | _ =>
      rw [hpc] at hsearch
      exact hsearch.elim

/-- The steps of the others do not lead the thread past the node, and its own write nothing. -/
theorem Visible.search_run {events : List (ThreadEvent K V)} {t : Nat} {key : K}
    {node steps : Nat} (h : Visible hash s cells) (hcollect : ∀ e ∈ events, Collectless e)
    (hcalls : ∀ operation, .call t operation ∉ events)
    (hnode : node ∈ cells (s.map.hashKey hash key)) (hkey : s.map.HasKey key node)
    (hsearch : (s.pc t).Searches key node (cells (s.map.hashKey hash key)) steps)
    (hexec : (machine hash).exec s events = some s') (hunmarked : ¬ s'.Dead node) :
    (machine hash).Along (ReadsOnly hash t) s events ∧
    ∃ cells', Visible hash s' cells' ∧
      (s'.pc t).Searches key node (cells' (s'.map.hashKey hash key))
        (steps + events.countP fun e => e.thread = t) := by
  induction events generalizing s cells steps with
  | nil =>
      obtain rfl := Option.some.inj hexec
      exact ⟨trivial, cells, h, hsearch⟩
  | cons e events ih =>
      have hrun := h.run hcollect hexec
      obtain ⟨mid, hstep, hrest⟩ := ((machine hash).exec_cons_eq_some).mp hexec
      obtain ⟨cells', hmid, hgrows⟩ := h.step (hcollect e List.mem_cons_self) hstep
      have hcollect' : ∀ e ∈ events, Collectless e := fun e he =>
        hcollect e (List.mem_cons_of_mem _ he)
      have hcalls' : ∀ operation, .call t operation ∉ events := fun operation hcall =>
        hcalls operation (List.mem_cons_of_mem _ hcall)
      have hnode' : node ∈ cells' (mid.map.hashKey hash key) := by
        rw [hgrows.hashKey]
        exact (hgrows.front _).mem hnode
      have hkey' := hgrows.hasKey hnode hkey
      -- what is not marked at the end was never marked
      have hbefore : ¬ s.Dead node := by
        obtain ⟨_, -, hgrows⟩ := hrun
        exact fun hdead => hunmarked (hgrows.dead _ node hnode hdead)
      by_cases he : e.thread = t
      · rw [List.countP_cons_of_pos (by simpa using he), ← Nat.succ_add_eq_add_succ]
        cases e with
        | call u operation =>
            obtain rfl : u = t := he
            exact absurd List.mem_cons_self (hcalls operation)
        | step u spurious =>
            obtain rfl : u = t := he
            have hsearch' :
                (mid.pc u).Searches key node (cells' (mid.map.hashKey hash key)) (steps + 1) := by
              rw [hgrows.hashKey]
              exact (h.search hnode hkey hbefore hsearch hstep).mono (hgrows.front _)
            obtain ⟨halong, hlast⟩ := ih hmid hcollect' hcalls' hnode' hkey' hsearch' hrest
            exact ⟨Machine.along_cons hstep (readsOnly_of_searches hsearch) halong, hlast⟩
      · rw [List.countP_cons_of_neg (by simpa using he)]
        have hsearch' :
            (mid.pc t).Searches key node (cells' (mid.map.hashKey hash key)) steps := by
          rw [hgrows.hashKey, step_pc (Ne.symm he) hstep]
          exact hsearch.mono (hgrows.front _)
        obtain ⟨halong, hlast⟩ := ih hmid hcollect' hcalls' hnode' hkey' hsearch' hrest
        exact ⟨Machine.along_cons hstep (fun he' => absurd he' he) halong, hlast⟩

omit [DecidableEq K] in
/-- A bucket holds each node once. -/
theorem Visible.length_le (h : Visible hash s cells) (i : Nat) :
    (cells i).length ≤ s.map.nextNode := by
  have hsub : cells i ⊆ List.range s.map.nextNode := fun node hnode =>
    List.mem_range.mpr (h.ownership.lt_of_shared ⟨i, hnode⟩)
  have hlength := (List.subperm_of_subset (h.nodup i) hsub).length_le
  rwa [List.length_range] at hlength

/-- While the key has an item that no remove marks, no step of `insert` changes the map or takes
the mutex, and it comes back within two steps more than there are nodes, whatever the other
threads insert and remove. -/
theorem insert_refused {count : Nat} {before after : List (ThreadEvent K V)} {t node : Nat}
    {key : K} {value : V} (hcollect : ∀ e ∈ before ++ after, Collectless e)
    (hcalls : ∀ operation, .call t operation ∉ after)
    (hbefore : (machine hash).exec (init K V count) before = some s) (hlive : s.Live key node)
    (hafter : (machine hash).exec s (.call t (.insert key value) :: after) = some s')
    (hunmarked : s'.map.isDeleted node = false) :
    (machine hash).Along (ReadsOnly hash t) s (.call t (.insert key value) :: after) ∧
    (s'.pc t).Refused key ∧ (after.countP fun e => e.thread = t) ≤ s'.map.nextNode + 2 := by
  obtain ⟨cells, h, -⟩ := (visible_init hash count).run
    (fun e he => hcollect e (List.mem_append_left _ he)) hbefore
  obtain ⟨begun, hcall, hrest⟩ := ((machine hash).exec_cons_eq_some).mp hafter
  obtain ⟨cells', hbegun, hgrows⟩ := h.step (e := .call t (.insert key value)) trivial hcall
  have hnode := (h.mem_iff hlive.hasKey).mpr ⟨hlive.allocated, hlive.kept, hlive.linked⟩
  have hpc : begun.pc t = .insert (.loadHead key value none) := by
    unfold machine at hcall
    dsimp only at hcall
    split at hcall
    · obtain rfl := Option.some.inj hcall
      exact Function.update_self ..
    · cases hcall
  have hsearch : (begun.pc t).Searches key node (cells' (begun.map.hashKey hash key)) 0 := by
    rw [hpc]
    exact ⟨rfl, rfl⟩
  have hdead : ¬ s'.Dead node := by
    unfold Dead
    rw [hunmarked]
    exact Bool.false_ne_true
  obtain ⟨halong, cells'', hlast, hsearch⟩ := hbegun.search_run
    (fun e he => hcollect e (List.mem_append_right _ he)) hcalls
    (by rw [hgrows.hashKey]; exact (hgrows.front _).mem hnode)
    (hgrows.hasKey hnode hlive.hasKey) hsearch hrest hdead
  obtain ⟨hrefused, hsteps⟩ := hsearch.refused
  have hlength := hlast.length_le (s'.map.hashKey hash key)
  rw [Nat.zero_add] at hsteps
  exact ⟨Machine.along_cons hcall (readsOnly_call t _ s) halong, hrefused, by omega⟩

/-- Key 1 is in the map. -/
def present : List (ThreadEvent Nat Unit) := .call 0 (.insert 1 ()) :: turns 0 9

/-- Thread 2 links key 2 in front of key 1 after thread 1 has read the head. -/
def linkedInFront : List (ThreadEvent Nat Unit) :=
  turns 1 1 ++ .call 2 (.insert 2 ()) :: turns 2 7 ++ turns 1 2

theorem insert_refused_linkedInFront :
    ∃ s s', (machine fun key => key).exec (init Nat Unit 1) present = some s ∧ s.Live 1 0 ∧
      (machine fun key => key).exec s (.call 1 (.insert 1 ()) :: linkedInFront) = some s' ∧
      s'.map.buckets 0 = some 1 ∧
      (machine fun key => key).Along (ReadsOnly (fun key => key) 1) s
        (.call 1 (.insert 1 ()) :: linkedInFront) ∧
      (s'.pc 1).Refused 1 ∧
      (linkedInFront.countP fun e => e.thread = 1) ≤ s'.map.nextNode + 2 := by
  have hrun : ((machine fun key => key).exec (init Nat Unit 1)
      (present ++ .call 1 (.insert 1 ()) :: linkedInFront)).map (fun s =>
        (s.map.buckets 0, s.map.isDeleted 0)) = some (some 1, false) := by decide +kernel
  have hpresent : ((machine fun key => key).exec (init Nat Unit 1) present).map (fun s =>
      (s.map.buckets 0, s.map.keyValue 0, s.map.isDeleted 0, s.map.bucketCount)) =
        some (some 0, some (1, ()), false, 1) := by decide +kernel
  obtain ⟨s', hexec, hafter⟩ := Option.map_eq_some_iff.mp hrun
  rw [Machine.exec_append] at hexec
  obtain ⟨s, hfirst, hsecond⟩ := Option.bind_eq_some_iff.mp hexec
  rw [hfirst] at hpresent
  simp only [Option.map_some, Option.some.injEq, Prod.mk.injEq] at hpresent hafter
  obtain ⟨hhead, hkey, hunmarked, hcount⟩ := hpresent
  have hcollect : ∀ e ∈ present ++ linkedInFront, Collectless e := by
    simp [present, linkedInFront, turns, Collectless]
  have hlive : s.Live 1 0 := by
    obtain ⟨cells, h, -⟩ := (visible_init (fun key => key) 1).run
      (fun e he => hcollect e (List.mem_append_left _ he)) hfirst
    refine h.live_iff.mpr ⟨?_, ?_, hunmarked⟩
    · rw [LockFreeOrderedHashMap.hashKey, hcount, hhead]
      exact Reaches.here 0
    · rw [LockFreeOrderedHashMap.HasKey, hkey]
      rfl
  exact ⟨s, s', hfirst, hlive, hsecond, hafter.1, insert_refused hcollect
    (by simp [linkedInFront, turns]) hfirst hlive hsecond hafter.2⟩

end SharedMap

end ZetaNet
