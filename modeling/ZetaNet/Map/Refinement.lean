import ZetaNet.Map.Garbage
import ZetaNet.Map.Iteration

/-!
# The map as a finite map

Any calls that one thread makes have the results a finite map has, the chains come to an end
after each of them, and a collection frees what was removed and nothing that is linked.
-/

namespace ZetaNet

open Links

/-! ## The calls -/

/-- The calls of one thread; `iterate` is a loop from `begin()` to `end()` that removes some of
the nodes it visits. -/
inductive MapCall (K V : Type)
  | insert (key : K) (value : V)
  | remove (key : K)
  | find (key : K)
  | withValue (key : K) (callback : V → V)
  | collectGarbage
  | iterate (removes : Nat → Bool)

/-- What they return. -/
inductive MapResult (K V : Type)
  | flag (ok : Bool)
  | value (found : Option V)
  | visited (pairs : List (K × V))
  | done

namespace LockFreeOrderedHashMap

variable {K V : Type} [DecidableEq K] (hash : K → Nat)

def call (map : LockFreeOrderedHashMap K V) :
    MapCall K V → Option (MapResult K V × LockFreeOrderedHashMap K V)
  | .insert key value => (map.insert hash key value).map fun (ok, map) => (.flag ok, map)
  | .remove key => (map.remove hash key).map fun (ok, map) => (.flag ok, map)
  | .find key => (map.find hash key).map fun found => (.value found, map)
  | .withValue key callback =>
      (map.withValue hash key callback).map fun (ok, map) => (.flag ok, map)
  | .collectGarbage => map.collectGarbage.map fun map => (.done, map)
  | .iterate removes => (map.iterate hash removes).map fun (pairs, map) => (.visited pairs, map)

def callAll : List (MapCall K V) → LockFreeOrderedHashMap K V →
    Option (List (MapResult K V) × LockFreeOrderedHashMap K V)
  | [], map => some ([], map)
  | first :: calls, map => do
      let (result, map) ← map.call hash first
      let (results, map) ← callAll calls map
      return (result :: results, map)

end LockFreeOrderedHashMap

/-! ## A finite map -/

section FiniteMap

variable {K V : Type} [DecidableEq K]

/-- What a finite map with the contents `contents` answers, and its contents afterwards. A loop
visits every pair once, in some order. -/
inductive Answers (contents : K → Option V) :
    MapCall K V → MapResult K V → (K → Option V) → Prop
  | insert {key : K} (value : V) (habsent : contents key = none) :
      Answers contents (.insert key value) (.flag true)
        (Function.update contents key (some value))
  | insertPresent {key : K} (value : V) (hpresent : contents key ≠ none) :
      Answers contents (.insert key value) (.flag false) contents
  | remove (key : K) :
      Answers contents (.remove key) (.flag (contents key).isSome)
        (Function.update contents key none)
  | find (key : K) : Answers contents (.find key) (.value (contents key)) contents
  | withValue (key : K) (callback : V → V) :
      Answers contents (.withValue key callback) (.flag (contents key).isSome)
        (Function.update contents key ((contents key).map callback))
  | collectGarbage : Answers contents .collectGarbage .done contents
  | iterate (removes : Nat → Bool) {pairs : List (K × V)} {after : K → Option V}
      (hnodup : (pairs.map Prod.fst).Nodup)
      (hmem : ∀ key value, (key, value) ∈ pairs ↔ contents key = some value)
      (hvisited : ∀ i key value, pairs[i]? = some (key, value) →
        after key = if removes i then none else some value)
      (habsent : ∀ key, contents key = none → after key = none) :
      Answers contents (.iterate removes) (.visited pairs) after

inductive AnswersAll : (K → Option V) → List (MapCall K V) → List (MapResult K V) →
    (K → Option V) → Prop
  | nil (contents : K → Option V) : AnswersAll contents [] [] contents
  | cons {contents after last : K → Option V} {first : MapCall K V} {result : MapResult K V}
      {calls : List (MapCall K V)} {results : List (MapResult K V)}
      (hfirst : Answers contents first result after)
      (hrest : AnswersAll after calls results last) :
      AnswersAll contents (first :: calls) (result :: results) last

theorem afterVisits_of_notMem {removes : Nat → Bool} {key : K} {visited : List (K × V)}
    (hkey : key ∉ visited.map Prod.fst) (visit : Nat) (contents : K → Option V) :
    LockFreeOrderedHashMap.afterVisits removes visit visited contents key = contents key := by
  induction visited generalizing visit contents with
  | nil => rfl
  | cons keyValue visited ih =>
      rw [List.map_cons, List.mem_cons, not_or] at hkey
      rw [LockFreeOrderedHashMap.afterVisits, ih hkey.2]
      split
      · exact Function.update_of_ne hkey.1 ..
      · rfl

/-- Each visit decides about its key. -/
theorem afterVisits_visited {removes : Nat → Bool} {key : K} {value : V}
    {visited : List (K × V)} (hnodup : (visited.map Prod.fst).Nodup) {i : Nat}
    (hi : visited[i]? = some (key, value)) (visit : Nat) (contents : K → Option V) :
    LockFreeOrderedHashMap.afterVisits removes visit visited contents key =
      if removes (visit + i) then none else contents key := by
  induction visited generalizing visit contents i with
  | nil => cases hi
  | cons keyValue visited ih =>
      rw [List.map_cons, List.nodup_cons] at hnodup
      rw [LockFreeOrderedHashMap.afterVisits]
      cases i with
      | zero =>
          obtain rfl := Option.some.inj hi
          rw [afterVisits_of_notMem hnodup.1, Nat.add_zero]
          split
          · exact Function.update_self ..
          · rfl
      | succ i =>
          rw [List.getElem?_cons_succ] at hi
          have hne : key ≠ keyValue.1 := fun heq =>
            hnodup.1 (heq ▸ List.mem_map.mpr ⟨_, List.mem_of_getElem? hi, rfl⟩)
          rw [ih hnodup.2 hi, Nat.add_right_comm, ← Nat.add_assoc]
          congr 1
          split
          · exact Function.update_of_ne hne ..
          · rfl

end FiniteMap

namespace LockFreeOrderedHashMap

variable {K V : Type} {hash : K → Nat} {map : LockFreeOrderedHashMap K V}
  {chains : Nat → List Nat} {contents : K → Option V}

/-! ## The whole iteration -/

theorem Shape.mem_walk_iff (h : Shape hash map chains) {id : Nat} :
    id ∈ walk chains map.bucketCount 0 ↔ map.Live id := by
  rw [mem_walk]
  constructor
  · rintro ⟨i, -, hi, hmem⟩
    exact ((h.mem_chain i hi id).mp hmem).1
  · intro hlive
    obtain ⟨keyValue, -, hkey⟩ := h.exists_node hlive.1
    exact ⟨_, Nat.zero_le _, h.hashKey_lt keyValue.1,
      (h.mem_chain _ (h.hashKey_lt _) id).mpr ⟨hlive, keyValue, hkey, rfl⟩⟩

/-- A node is in the bucket of its key alone. -/
theorem Shape.nodup_walk (h : Shape hash map chains) :
    (walk chains map.bucketCount 0).Nodup := by
  refine List.nodup_flatMap.mpr ⟨fun i hi => ?_, ?_⟩
  · exact (h.chain i (by have := (List.mem_range'_1.mp hi).2; omega)).nodup
  · refine List.Pairwise.imp_of_mem ?_ (List.nodup_range' 1)
    intro i j hi hj hne id hmem hmem'
    have hi' := (List.mem_range'_1.mp hi).2
    have hj' := (List.mem_range'_1.mp hj).2
    obtain ⟨-, keyValue, hkey, hhash⟩ := (h.mem_chain i (by omega) id).mp hmem
    obtain ⟨-, keyValue', hkey', hhash'⟩ := (h.mem_chain j (by omega) id).mp hmem'
    rw [hkey] at hkey'
    exact hne (by rw [← hhash, ← hhash', Option.some.inj hkey'])

variable [DecidableEq K]

theorem Shape.iterate_answers (h : Shape hash map chains) (hcontents : map.Represents contents)
    (removes : Nat → Bool) :
    ∃ visited map' chains' after, map.iterate hash removes = some (visited, map') ∧
      Answers contents (.iterate removes) (.visited visited) after ∧
      Shape hash map' chains' ∧ map'.Represents after := by
  obtain ⟨it, hbegin, hstands⟩ := h.beginIterator_stands
  set ids := walk chains map.bucketCount 0 with hids
  have hlive : ∀ id ∈ ids, map.Live id := fun id => h.mem_walk_iff.mp
  have hrounds : ids.length < map.rounds :=
    Nat.lt_succ_of_le (List.subperm_of_subset h.nodup_walk fun id hid => (hlive id hid).1).length_le
  obtain ⟨visited, map', chains', hloop, hvisited, hshape, hafter⟩ :=
    h.iterateFrom_eq hcontents hstands h.nodup_walk hlive removes 0 hrounds
  have hnodup : (visited.map Prod.fst).Nodup := by
    -- the nodes are different and so are the keys of live nodes
    refine List.Nodup.of_map some ?_
    have hkeys : (visited.map Prod.fst).map some =
        ids.map fun id => (map.keyValue id).map Prod.fst := by
      have hfst := congrArg (List.map (Option.map Prod.fst)) hvisited
      rw [List.map_map, List.map_map] at hfst
      rw [List.map_map]
      exact hfst
    rw [hkeys]
    refine List.Nodup.map_on (fun id hid other hother heq => ?_) h.nodup_walk
    obtain ⟨⟨key, value⟩, -, hkey⟩ := h.exists_node (hlive id hid).1
    obtain ⟨⟨key', value'⟩, -, hkey'⟩ := h.exists_node (hlive other hother).1
    rw [hkey, hkey'] at heq
    obtain rfl : key = key' := Option.some.inj heq
    exact h.unique id other key value value' (hlive id hid) (hlive other hother) hkey hkey'
  have hmem (key : K) (value : V) : (key, value) ∈ visited ↔ contents key = some value := by
    rw [← List.mem_map_of_injective (Option.some_injective _), hvisited, List.mem_map,
      hcontents key value]
    exact exists_congr fun id => and_congr_left fun _ => h.mem_walk_iff
  refine ⟨visited, map', chains', _, ?_, ?_, hshape, hafter⟩
  · rw [iterate, hbegin]
    exact hloop
  · refine Answers.iterate removes hnodup hmem (fun i key value hi => ?_) fun key habsent => ?_
    · rw [afterVisits_visited hnodup hi, Nat.zero_add,
        (hmem key value).mp (List.mem_of_getElem? hi)]
    · rw [afterVisits_of_notMem _ 0 contents, habsent]
      intro hkey
      obtain ⟨⟨_, value⟩, hmem', rfl⟩ := List.mem_map.mp hkey
      rw [(hmem _ value).mp hmem'] at habsent
      cases habsent

/-! ## Every call, and every run of calls -/

/-- A call answers as a finite map does. -/
theorem Shape.call_answers (h : Shape hash map chains) (hcontents : map.Represents contents)
    (first : MapCall K V) :
    ∃ result map' chains' after, map.call hash first = some (result, map') ∧
      Answers contents first result after ∧ Shape hash map' chains' ∧ map'.Represents after := by
  cases first with
  -- a key is in a live node or nowhere
  | insert key value =>
      rcases hcontents.cases key with ⟨id, value', hkey, hlive, hnode⟩ | ⟨hkey, habsent⟩
      · refine ⟨.flag false, map, chains, contents, ?_, ?_, h, hcontents⟩
        · rw [call, h.insert_present hlive hnode]
          rfl
        · exact Answers.insertPresent value (by rw [hkey]; exact Option.some_ne_none _)
      · obtain ⟨orderNext, orderHead, hinsert, horder⟩ := h.insert_eq habsent value
        refine ⟨.flag true, _, _, _, ?_, Answers.insert value hkey, h.inserted habsent horder,
          hcontents.inserted h habsent⟩
        rw [call, hinsert]
        rfl
  | remove key =>
      rcases hcontents.cases key with ⟨id, value, hkey, hlive, hnode⟩ | ⟨hkey, habsent⟩
      · obtain ⟨front, rest, hcells, hremove⟩ := h.remove_eq hlive hnode
        refine ⟨.flag true, _, _, _, ?_, ?_, h.removed (h.hashKey_lt key) hcells,
          hcontents.removed h hlive hnode⟩
        · rw [call, hremove]
          rfl
        · have hanswer : Answers contents _ _ _ := Answers.remove key
          rwa [hkey] at hanswer
      · refine ⟨.flag false, map, chains, contents, ?_, ?_, h, hcontents⟩
        · rw [call, h.remove_absent habsent]
          rfl
        · have hanswer : Answers contents _ _ _ := Answers.remove key
          -- taking away an absent key changes nothing
          rwa [← hkey, Function.update_eq_self, hkey] at hanswer
  | find key =>
      refine ⟨.value (contents key), map, chains, contents, ?_, Answers.find key, h, hcontents⟩
      rw [call, h.find_eq hcontents key]
      rfl
  | withValue key callback =>
      rcases hcontents.cases key with ⟨id, value, hkey, hlive, hnode⟩ | ⟨hkey, habsent⟩
      · refine ⟨.flag true, _, chains, _, ?_, ?_, h.revalued hnode (callback value),
          hcontents.revalued h hlive hnode (callback value)⟩
        · rw [call, h.withValue_eq hlive hnode callback]
          rfl
        · have hanswer : Answers contents _ _ _ := Answers.withValue key callback
          rwa [hkey] at hanswer
      · refine ⟨.flag false, map, chains, contents, ?_, ?_, h, hcontents⟩
        · rw [call, h.withValue_absent habsent callback]
          rfl
        · have hanswer : Answers contents _ _ _ := Answers.withValue key callback
          rwa [hkey, Option.map_none, ← hkey, Function.update_eq_self, hkey] at hanswer
  | collectGarbage =>
      obtain ⟨orderNext, orderHead, hcollect, hchain⟩ := h.collectGarbage_eq
      refine ⟨.done, _, chains, contents, ?_, Answers.collectGarbage, h.collected hchain,
        hcontents.collected⟩
      rw [call, hcollect]
      rfl
  | iterate removes =>
      obtain ⟨visited, map', chains', after, hloop, hanswer, hshape, hafter⟩ :=
        h.iterate_answers hcontents removes
      refine ⟨.visited visited, map', chains', after, ?_, hanswer, hshape, hafter⟩
      rw [call, hloop]
      rfl

theorem Shape.callAll_answers (h : Shape hash map chains) (hcontents : map.Represents contents)
    (calls : List (MapCall K V)) :
    ∃ results map' chains' after, callAll hash calls map = some (results, map') ∧
      AnswersAll contents calls results after ∧ Shape hash map' chains' ∧
        map'.Represents after := by
  induction calls generalizing map chains contents with
  | nil => exact ⟨[], map, chains, contents, rfl, .nil contents, h, hcontents⟩
  | cons first calls ih =>
      obtain ⟨result, map', chains', after, hfirst, hanswer, hshape, hafter⟩ :=
        h.call_answers hcontents first
      obtain ⟨results, map'', chains'', last, hrest, hanswers, hshape', hlast⟩ := ih hshape hafter
      refine ⟨result :: results, map'', chains'', last, ?_, .cons hanswer hanswers, hshape', hlast⟩
      simp only [callAll, hfirst, hrest, Option.bind_eq_bind, Option.bind_some]
      rfl

/-- Any calls answer as those of a finite map, the chains of every state come to an end, and a
collection frees the removed nodes and none that is linked. -/
theorem calls_answer (hash : K → Nat) (count : Nat) (calls : List (MapCall K V)) :
    ∃ results map contents, callAll hash calls (init K V count) = some (results, map) ∧
      AnswersAll (fun _ => none) calls results contents ∧
      (∀ key value, contents key = some value ↔
        ∃ id, map.node id = some (key, value) ∧ map.isDeleted id = false) ∧
      (∀ i < map.bucketCount, ∃ cells, Chain map.bucketNext (map.buckets i) cells ∧
        cells.Nodup) ∧
      (∃ cells, Chain map.orderNext map.orderHead cells ∧ cells.Nodup) ∧
      ∃ swept, map.collectGarbage = some swept ∧
        (∀ id keyValue, map.node id = some keyValue → swept.freed id = map.isDeleted id) ∧
        (∀ id, map.node id = none → swept.freed id = map.freed id) ∧
        ∀ id, swept.Reachable id → swept.freed id = false := by
  obtain ⟨results, map, chains, contents, hcalls, hanswers, hshape, hcontents⟩ :=
    (shape_init hash count).callAll_answers (represents_init count) calls
  obtain ⟨orderNext, orderHead, hcollect, hchain⟩ := hshape.collectGarbage_eq
  refine ⟨results, map, contents, hcalls, hanswers, fun key value => ?_, fun i hi => ?_, ?_,
    map.collected orderNext orderHead, hcollect, fun id keyValue => hshape.freed_collected,
    fun id => hshape.freed_collected_of_none, fun id => (hshape.collected hchain).not_freed⟩
  · rw [hcontents key value]
    refine exists_congr fun id => ?_
    constructor
    · rintro ⟨hlive, hkey⟩
      exact ⟨(hshape.node_eq hlive.1).trans hkey, hlive.2⟩
    · rintro ⟨hnode, hlive⟩
      exact ⟨⟨(hshape.mem_allNodes id).mpr ⟨_, hnode⟩, hlive⟩, (node_eq_some.mp hnode).2⟩
  · exact ⟨chains i, hshape.chain i hi, (hshape.chain i hi).nodup⟩
  · exact ⟨map.allNodes, hshape.order, hshape.nodup⟩

end LockFreeOrderedHashMap

end ZetaNet
