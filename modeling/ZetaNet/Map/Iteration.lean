import ZetaNet.Map.Update

/-!
# Iteration

A loop from `begin()` to `end()` goes through the buckets in order and through the nodes of each
along its chain, also if its body removes the node it visits: the removed node keeps its link.
-/

namespace ZetaNet

open Links

namespace LockFreeOrderedHashMap

variable {K V : Type} {hash : K → Nat} {map : LockFreeOrderedHashMap K V}
  {chains : Nat → List Nat} {contents : K → Option V} {id i : Nat}

/-! ## Where an iterator stands -/

/-- The nodes of the buckets from `i` on. -/
def walk (chains : Nat → List Nat) (bucketCount i : Nat) : List Nat :=
  (List.range' i (bucketCount - i)).flatMap chains

theorem walk_end (chains : Nat → List Nat) (bucketCount : Nat) :
    walk chains bucketCount bucketCount = [] := by
  simp [walk]

theorem walk_succ {bucketCount : Nat} (hi : i < bucketCount) :
    walk chains bucketCount i = chains i ++ walk chains bucketCount (i + 1) := by
  rw [walk, walk, show bucketCount - i = bucketCount - (i + 1) + 1 by omega, List.range'_succ,
    List.flatMap_cons]

/-- Only the buckets from `i` on matter. -/
theorem walk_update {bucketCount j : Nat} (hij : j < i) (cells : List Nat) :
    walk (Function.update chains j cells) bucketCount i = walk chains bucketCount i := by
  refine List.flatMap_congr fun k hk => Function.update_of_ne (fun heq : k = j => ?_) ..
  have := (List.mem_range'_1.mp hk).1
  omega

theorem mem_walk {bucketCount : Nat} :
    id ∈ walk chains bucketCount i ↔ ∃ j, i ≤ j ∧ j < bucketCount ∧ id ∈ chains j := by
  simp only [walk, List.mem_flatMap, List.mem_range'_1]
  constructor
  · rintro ⟨j, ⟨hle, hlt⟩, hmem⟩
    exact ⟨j, hle, by omega, hmem⟩
  · rintro ⟨j, hle, hlt, hmem⟩
    exact ⟨j, ⟨hle, by omega⟩, hmem⟩

/-- The iterator has the nodes `ids` still to visit. -/
def Stands (map : LockFreeOrderedHashMap K V) (chains : Nat → List Nat) (it : BucketIterator)
    (ids : List Nat) : Prop :=
  match ids with
  | [] => it = map.endIterator
  | id :: rest =>
      it.currentNode = some id ∧ it.bucketIndex < map.bucketCount ∧
        ∃ front behind, chains it.bucketIndex = front ++ id :: behind ∧
          rest = behind ++ walk chains map.bucketCount (it.bucketIndex + 1)

/-- At the head of a bucket stands its first node. -/
theorem Shape.stands_head (h : Shape hash map chains) (hi : i < map.bucketCount)
    (hhead : map.buckets i = some id) :
    map.Stands chains ⟨some id, i⟩ (walk chains map.bucketCount i) := by
  have hchain := h.chain i hi
  rw [walk_succ hi]
  cases hcells : chains i with
  | nil =>
      rw [hcells, hhead] at hchain
      cases chain_nil.mp hchain
  | cons first behind =>
      rw [hcells, hhead] at hchain
      obtain rfl := Option.some.inj (chain_cons.mp hchain).1
      exact ⟨rfl, hi, [], behind, hcells, rfl⟩

/-- A bucket without a head has no nodes. -/
theorem Shape.walk_of_none (h : Shape hash map chains) (hi : i < map.bucketCount)
    (hhead : map.buckets i = none) :
    walk chains map.bucketCount i = walk chains map.bucketCount (i + 1) := by
  have hcells : chains i = [] := by
    have hchain := h.chain i hi
    rw [hhead] at hchain
    exact hchain.unique rfl
  rw [walk_succ hi, hcells, List.nil_append]

/-- The loop over the buckets behind `i` finds the first one that is not empty. -/
theorem Shape.nextBucket_cases (h : Shape hash map chains) {todo : Nat}
    (htodo : i + todo + 1 = map.bucketCount) :
    (∃ id j, map.nextBucket todo i = ⟨some id, j⟩ ∧
        map.Stands chains ⟨some id, j⟩ (walk chains map.bucketCount (i + 1))) ∨
      (map.nextBucket todo i).currentNode = none ∧ walk chains map.bucketCount (i + 1) = [] := by
  induction todo generalizing i with
  | zero =>
      refine Or.inr ⟨rfl, ?_⟩
      rw [show i + 1 = map.bucketCount from htodo, walk_end]
  | succ todo ih =>
      have hlt : i + 1 < map.bucketCount := by omega
      rw [nextBucket]
      cases hhead : map.buckets (i + 1) with
      | some id => exact Or.inl ⟨id, i + 1, rfl, h.stands_head hlt hhead⟩
      | none =>
          rw [h.walk_of_none hlt hhead]
          exact ih (by omega)

/-- `advance_to_next_valid` follows the chain and then the buckets. -/
theorem Shape.advanceToNextValid_stands (h : Shape hash map chains) {front behind : List Nat}
    {keyValue : K × V} (hi : i < map.bucketCount) (hnode : map.node id = some keyValue)
    (hbehind : Chain map.bucketNext (map.bucketNext id) behind)
    (hcells : chains i = front ++ behind) :
    ∃ it, map.advanceToNextValid ⟨some id, i⟩ = some it ∧
      map.Stands chains it (behind ++ walk chains map.bucketCount (i + 1)) := by
  simp only [advanceToNextValid, hnode, Option.bind_eq_bind, Option.bind_some]
  cases behind with
  | cons next behind =>
      rw [(chain_cons.mp hbehind).1]
      exact ⟨⟨some next, i⟩, rfl, rfl, hi, front, behind, hcells, rfl⟩
  | nil =>
      rw [chain_nil.mp hbehind, List.nil_append]
      rcases @Shape.nextBucket_cases K V hash map chains i h (map.bucketCount - 1 - i) (by omega)
        with ⟨id', j, hnext, hstands⟩ | ⟨hnone, hwalk⟩
      · exact ⟨⟨some id', j⟩, by rw [hnext]; rfl, hstands⟩
      · refine ⟨map.endIterator, by simp only [hnone]; rfl, ?_⟩
        rw [hwalk]
        rfl

/-- A node that is not deleted is not skipped. -/
theorem Shape.skipDeleted_eq (h : Shape hash map chains) {it : BucketIterator} {ids : List Nat}
    (hstands : map.Stands chains it ids) (hlive : ∀ id ∈ ids, map.Live id) (rounds : Nat) :
    map.skipDeleted (rounds + 1) it = some it := by
  cases ids with
  | nil =>
      rw [show it = map.endIterator from hstands]
      rfl
  | cons id rest =>
      obtain ⟨hcurrent, -⟩ := hstands
      have hid := hlive id List.mem_cons_self
      obtain ⟨keyValue, hnode, -⟩ := h.exists_node hid.1
      simp [skipDeleted, hcurrent, hnode, hid.2]

/-- `operator++`. -/
theorem Shape.increment_stands (h : Shape hash map chains) {front behind : List Nat}
    {keyValue : K × V} (hi : i < map.bucketCount) (hnode : map.node id = some keyValue)
    (hbehind : Chain map.bucketNext (map.bucketNext id) behind)
    (hcells : chains i = front ++ behind)
    (hlive : ∀ id ∈ behind ++ walk chains map.bucketCount (i + 1), map.Live id) :
    ∃ it, map.increment ⟨some id, i⟩ = some it ∧
      map.Stands chains it (behind ++ walk chains map.bucketCount (i + 1)) := by
  obtain ⟨it, hadvance, hstands⟩ := h.advanceToNextValid_stands hi hnode hbehind hcells
  refine ⟨it, ?_, hstands⟩
  simp only [increment, hadvance, Option.bind_eq_bind, Option.bind_some]
  exact h.skipDeleted_eq hstands hlive map.allNodes.length

/-- The loop of `begin` looks for the first bucket that is not empty. -/
theorem Shape.beginLoop_stands (h : Shape hash map chains) {todo : Nat}
    (htodo : i + todo = map.bucketCount) :
    ∃ it, map.beginLoop todo i = some it ∧
      map.Stands chains it (walk chains map.bucketCount i) := by
  induction todo generalizing i with
  | zero =>
      refine ⟨map.endIterator, rfl, ?_⟩
      rw [show i = map.bucketCount from htodo, walk_end]
      rfl
  | succ todo ih =>
      have hlt : i < map.bucketCount := by omega
      rw [beginLoop]
      cases hhead : map.buckets i with
      | some id =>
          have hstands := h.stands_head hlt hhead
          have hmem : id ∈ chains i := by
            have hchain := (h.chain i hlt).head_eq
            rw [hhead] at hchain
            exact List.mem_of_mem_head? hchain.symm
          have hlive := ((h.mem_chain i hlt id).mp hmem).1
          obtain ⟨keyValue, hnode, -⟩ := h.exists_node hlive.1
          refine ⟨⟨some id, i⟩, ?_, hstands⟩
          simp [rounds, firstInBucket, hnode, hlive.2]
      | none =>
          rw [h.walk_of_none hlt hhead]
          obtain ⟨it, hbegin, hstands⟩ := @ih (i + 1) (by omega)
          refine ⟨it, ?_, hstands⟩
          simpa [rounds, firstInBucket] using hbegin

theorem Shape.beginIterator_stands (h : Shape hash map chains) :
    ∃ it, map.beginIterator = some it ∧
      map.Stands chains it (walk chains map.bucketCount 0) :=
  h.beginLoop_stands (Nat.zero_add _)

/-! ## The loop -/

/-- What the bodies of a loop leave of a finite map, from one visit on. -/
def afterVisits [DecidableEq K] (removes : Nat → Bool) :
    Nat → List (K × V) → (K → Option V) → (K → Option V)
  | _, [], contents => contents
  | visit, keyValue :: visited, contents =>
      afterVisits removes (visit + 1) visited
        (if removes visit then Function.update contents keyValue.1 none else contents)

/-- A removal leaves the links of the nodes that are not before the removed one. -/
theorem bucketNext_removed {front : List Nat} {other : Nat} (hother : other ∉ front) :
    (map.removed id (linkBehind front i)).bucketNext other = map.bucketNext other := by
  rcases List.eq_nil_or_concat front with rfl | ⟨front, prev, hconcat⟩
  · rfl
  · rw [List.concat_eq_append] at hconcat
    subst hconcat
    have hne : other ≠ prev := fun heq =>
      hother (heq ▸ List.mem_append_right _ List.mem_cons_self)
    rw [removed, linkBehind_concat]
    exact Function.update_of_ne hne ..

variable [DecidableEq K]

/-- The body of the loop at a node: the rest of the nodes is still there, and the iterator goes
on to it. -/
theorem Shape.visit (h : Shape hash map chains) (hcontents : map.Represents contents)
    {it : BucketIterator} {rest : List Nat} {keyValue : K × V}
    (hstands : map.Stands chains it (id :: rest)) (hnodup : (id :: rest).Nodup)
    (hlive : ∀ id' ∈ id :: rest, map.Live id') (hkey : map.keyValue id = some keyValue)
    (removes : Bool) :
    ∃ ok map' chains' it',
      (if removes then map.remove hash keyValue.1 else some (false, map)) = some (ok, map') ∧
        map'.increment it = some it' ∧ Shape hash map' chains' ∧
        map'.Represents
          (if removes then Function.update contents keyValue.1 none else contents) ∧
        map'.Stands chains' it' rest ∧ (∀ id' ∈ rest, map'.Live id') ∧
        map'.keyValue = map.keyValue ∧ map'.bucketCount = map.bucketCount := by
  obtain ⟨current, bucket⟩ := it
  obtain ⟨hcurrent, hbucket, front, behind, hcells, hrest⟩ := hstands
  simp only at hcurrent hbucket hcells hrest
  subst hcurrent hrest
  have hid := hlive id List.mem_cons_self
  have hnode := (h.node_eq hid.1).trans hkey
  have hchain := h.chain bucket hbucket
  rw [hcells] at hchain
  have hbehind := hchain.of_append
  have hlater (id' : Nat) (hid' : id' ∈ behind ++ walk chains map.bucketCount (bucket + 1)) :
      map.Live id' := hlive id' (List.mem_cons_of_mem _ hid')
  cases removes with
  | false =>
      have hsplit : chains bucket = (front ++ [id]) ++ behind := by simp [hcells]
      obtain ⟨it', hincrement, hstands⟩ :=
        h.increment_stands hbucket hnode hbehind hsplit hlater
      exact ⟨false, map, chains, it', rfl, hincrement, h, hcontents, hstands, hlater, rfl, rfl⟩
  | true =>
      -- the removal finds the node where the iterator stands
      have hhash : map.hashKey hash keyValue.1 = bucket := by
        obtain ⟨-, keyValue', hkey', hhash⟩ :=
          (h.mem_chain bucket hbucket id).mp (by simp [hcells])
        rwa [Option.some.inj (hkey.symm.trans hkey')]
      obtain ⟨front', rest', hcells', hremove⟩ :=
        @Shape.remove_eq K V hash map chains id keyValue.1 keyValue.2 _ h hid hkey
      rw [hhash] at hcells' hremove
      have hchain' := h.chain bucket hbucket
      rw [hcells'] at hchain'
      obtain rfl := hchain'.of_append.unique hbehind
      obtain rfl : front' = front := List.append_cancel_right (hcells'.symm.trans hcells)
      have hshape := h.removed hbucket hcells
      set chains' := Function.update chains bucket (front' ++ rest') with hchains'
      set map' := map.removed id (linkBehind front' bucket) with hmap'
      have hcount : map'.bucketCount = map.bucketCount := bucketCount_storeLink ..
      have hwalk : walk chains' map'.bucketCount (bucket + 1) =
          walk chains map.bucketCount (bucket + 1) := by
        rw [hcount, hchains', walk_update (Nat.lt_succ_self _)]
      have hdisjoint := List.nodup_append.mp hchain.nodup
      have hfront (id' : Nat) (hid' : id' ∈ id :: rest') : id' ∉ front' :=
        fun hmem => hdisjoint.2.2 id' hmem id' hid' rfl
      have hnext : Chain map'.bucketNext (map'.bucketNext id) rest' := by
        rw [hmap', bucketNext_removed (hfront id List.mem_cons_self)]
        exact (segment_congr fun id' hid' =>
          bucketNext_removed (hfront id' (List.mem_cons_of_mem _ hid'))).mpr hbehind
      have hlive' (id' : Nat) (hid' : id' ∈ rest' ++ walk chains map.bucketCount (bucket + 1)) :
          map'.Live id' :=
        live_removed.mpr ⟨hlater id' hid', fun heq =>
          (List.nodup_cons.mp hnodup).1 (heq ▸ hid')⟩
      obtain ⟨it', hincrement, hstands⟩ := hshape.increment_stands (hbucket.trans_eq hcount.symm)
        ((node_removed id).trans hnode) hnext (Function.update_self ..)
        (by rw [hwalk]; exact hlive')
      rw [hwalk] at hstands
      exact ⟨true, map', chains', it', hremove, hincrement, hshape,
        hcontents.removed h hid hkey, hstands, hlive', keyValue_removed, hcount⟩

/-- The loop visits the nodes that are left, each once and with its value. -/
theorem Shape.iterateFrom_eq (h : Shape hash map chains) (hcontents : map.Represents contents)
    {it : BucketIterator} {ids : List Nat} (hstands : map.Stands chains it ids)
    (hnodup : ids.Nodup) (hlive : ∀ id ∈ ids, map.Live id) (removes : Nat → Bool) (visit : Nat)
    {rounds : Nat} (hrounds : ids.length < rounds) :
    ∃ visited map' chains',
      iterateFrom hash removes rounds visit it map = some (visited, map') ∧
        visited.map some = ids.map map.keyValue ∧ Shape hash map' chains' ∧
        map'.Represents (afterVisits removes visit visited contents) := by
  induction ids generalizing map chains contents it visit rounds with
  | nil =>
      obtain ⟨rounds, rfl⟩ := Nat.exists_eq_succ_of_ne_zero (Nat.pos_iff_ne_zero.mp hrounds)
      refine ⟨[], map, chains, ?_, rfl, h, hcontents⟩
      exact if_pos hstands
  | cons id rest ih =>
      cases rounds with
      | zero => cases hrounds
      | succ rounds =>
          obtain ⟨keyValue, hnode, hkey⟩ := h.exists_node (hlive id List.mem_cons_self).1
          obtain ⟨ok, map', chains', it', hbody, hincrement, hshape, hcontents', hstands', hlive',
            hkeys, -⟩ := h.visit hcontents hstands hnodup hlive hkey (removes visit)
          obtain ⟨visited, map'', chains'', hloop, hvisited, hshape', hafter⟩ :=
            ih hshape hcontents' hstands' (List.nodup_cons.mp hnodup).2 hlive' (visit + 1)
              (Nat.lt_of_succ_lt_succ hrounds)
          refine ⟨keyValue :: visited, map'', chains'', ?_, ?_, hshape', hafter⟩
          · have hne : it ≠ map.endIterator := by
              intro heq
              rw [heq] at hstands
              cases hstands.1
            rw [iterateFrom, if_neg hne, hstands.1]
            simp only [hnode, Option.bind_eq_bind, Option.bind_some, hbody, hincrement, hloop]
            rfl
          · rw [List.map_cons, List.map_cons, hvisited, hkeys, hkey]

end LockFreeOrderedHashMap

end ZetaNet
