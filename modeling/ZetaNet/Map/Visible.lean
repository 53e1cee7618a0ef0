import ZetaNet.Map.Appending

/-!
# What a search finds under many threads

The links of a bucket run from newer to older nodes, and what they pass over is marked: an insert
links its node in front of the head it read, and a remove sets a link past its marked node to
where that node's own link led. So an item that no remove has marked can be reached from the head
of its bucket in every state.
-/

namespace ZetaNet

open Links

/-- The link is the head of the bucket or stands in one of its nodes. -/
def BucketLink.In (cells : List Nat) (index : Nat) : BucketLink → Prop
  | .bucket i => i = index
  | .next node => node ∈ cells

namespace MapPc

variable {K V : Type}

/-- The new node has the key and the value of the insert. -/
def Keyed (keyValue : Nat → Option (K × V)) : MapPc K V → Prop
  | .insert (.loadHead key value (some newNode)) | .insert (.find key value (some newNode) _)
  | .insert (.loadOldHead key value newNode) | .insert (.storeBucketNext key value newNode _)
  | .insert (.swapHead key value newNode _) => keyValue newNode = some (key, value)
  | _ => True

/-- What the thread holds of its bucket. `cells` are the nodes that were ever linked into a
bucket, newest first. -/
def Tracks (hashKey : K → Nat) (dead : Nat → Prop) (bucketNext : Nat → Option Nat)
    (cells : Nat → List Nat) : MapPc K V → Prop
  | .insert (.swapHead _ _ newNode oldHead) => bucketNext newNode = oldHead
  | .remove (.find key prev curr) =>
      prev.In (cells (hashKey key)) (hashKey key) ∧
        ∀ node, curr = some node → node ∈ cells (hashKey key)
  | .remove (.mark key prev node) =>
      prev.In (cells (hashKey key)) (hashKey key) ∧ node ∈ cells (hashKey key)
  | .remove (.loadPrev prev node) | .remove (.loadNext prev node) =>
      dead node ∧ ∃ i, prev.In (cells i) i ∧ node ∈ cells i
  | .remove (.swapPrev prev node next) =>
      dead node ∧ ∃ i, prev.In (cells i) i ∧ node ∈ cells i ∧
        ∀ front back, cells i = front ++ node :: back → Leads dead next back
  | .collect _ => False
  | _ => True

theorem Keyed.mono {keyValue keyValue' : Nat → Option (K × V)} {pc : MapPc K V}
    (h : pc.Keyed keyValue) (hsame : ∀ node, pc.newNode = some node →
      keyValue' node = keyValue node) : pc.Keyed keyValue' := by
  cases pc with
  | insert pc =>
      cases pc with
      | loadHead key value newNode | find key value newNode curr =>
          cases newNode with
          | none => trivial
          | some newNode => exact (hsame newNode rfl).trans h
      | loadOldHead key value newNode | storeBucketNext key value newNode oldHead
      | swapHead key value newNode oldHead => exact (hsame newNode rfl).trans h
      | found | allocate => trivial
  | _ => trivial

section Tracks

variable {hashKey : K → Nat} {dead dead' : Nat → Prop} {bucketNext bucketNext' : Nat → Option Nat}
  {cells cells' : Nat → List Nat} {pc : MapPc K V}

/-- More nodes are marked and more are linked, in front of the others. -/
theorem Tracks.mono (h : pc.Tracks hashKey dead bucketNext cells)
    (hdead : ∀ i, ∀ node ∈ cells i, dead node → dead' node)
    (hnext : ∀ node, pc.newNode = some node → bucketNext' node = bucketNext node)
    (hmem : ∀ i, cells i ⊆ cells' i)
    (hsplit : ∀ i node front back, node ∈ cells i → cells' i = front ++ node :: back →
      ∃ front', cells i = front' ++ node :: back) :
    pc.Tracks hashKey dead' bucketNext' cells' := by
  have hin {i : Nat} {prev : BucketLink} (hprev : prev.In (cells i) i) :
      prev.In (cells' i) i := by
    cases prev with
    | bucket => exact hprev
    | next => exact hmem i hprev
  cases pc with
  | insert pc =>
      cases pc with
      | swapHead key value newNode oldHead => exact (hnext newNode rfl).trans h
      | _ => trivial
  | remove pc =>
      cases pc with
      | loadHead => trivial
      | find => exact ⟨hin h.1, fun node hnode => hmem _ (h.2 node hnode)⟩
      | mark => exact ⟨hin h.1, hmem _ h.2⟩
      | loadPrev | loadNext =>
          obtain ⟨hnode, i, hprev, hi⟩ := h
          exact ⟨hdead i _ hi hnode, i, hin hprev, hmem i hi⟩
      | swapPrev prev node next =>
          obtain ⟨hnode, i, hprev, hi, hleads⟩ := h
          refine ⟨hdead i _ hi hnode, i, hin hprev, hmem i hi, fun front back hcells => ?_⟩
          obtain ⟨front', hcells'⟩ := hsplit i node front back hi hcells
          refine (hleads front' back hcells').mono fun j hj => hdead i j ?_
          rw [hcells']
          exact List.mem_append_right _ (List.mem_cons_of_mem _ hj)
  | collect => exact h.elim
  | _ => trivial

end Tracks

end MapPc

namespace SharedMap

variable {K V : Type}

/-- A remove has marked the node. -/
def Dead (s : SharedMap K V) (node : Nat) : Prop := s.map.isDeleted node = true

/-- Whatever is not dead can be reached from the head of its bucket. -/
structure Visible (hash : K → Nat) (s : SharedMap K V) (cells : Nat → List Nat) : Prop where
  head : ∀ i, Leads s.Dead (s.map.buckets i) (cells i)
  next : ∀ i, Follows s.Dead s.map.bucketNext (cells i)
  nodup : ∀ i, (cells i).Nodup
  keys : ∀ i node, node ∈ cells i →
    ∃ key value, s.map.keyValue node = some (key, value) ∧ s.map.hashKey hash key = i
  keyed : ∀ t, (s.pc t).Keyed s.map.keyValue
  tracks : ∀ t, (s.pc t).Tracks (s.map.hashKey hash · ) s.Dead s.map.bucketNext cells
  ownership : Ownership MapPc.newNode s.map.nextNode s.map.freed s.pc
    fun node => ∃ i, node ∈ cells i

variable {hash : K → Nat}

theorem visible_init (hash : K → Nat) (count : Nat) :
    Visible hash (init K V count) fun _ => [] where
  head _ := rfl
  next _ := trivial
  nodup _ := List.nodup_nil
  keys _ _ h := absurd h List.not_mem_nil
  keyed _ := trivial
  tracks _ := trivial
  ownership := .start (fun _ => rfl) (fun _ => rfl) fun _ ⟨_, h⟩ => absurd h List.not_mem_nil

section Steps

variable {s s' : SharedMap K V} {t : Nat} {pc : MapPc K V} {cells : Nat → List Nat}
  {map : LockFreeOrderedHashMap K V}

/-- The buckets, their nodes and the marks are what they were. -/
structure SameBuckets (map map' : LockFreeOrderedHashMap K V) : Prop where
  bucketCount : map'.bucketCount = map.bucketCount
  buckets : map'.buckets = map.buckets
  keyValue : map'.keyValue = map.keyValue
  bucketNext : map'.bucketNext = map.bucketNext
  isDeleted : map'.isDeleted = map.isDeleted
  freed : map'.freed = map.freed
  nextNode : map'.nextNode = map.nextNode

/-- A thread gets on and keeps its node. -/
theorem Visible.goto (h : Visible hash s cells) (hnew : pc.newNode = (s.pc t).newNode)
    (hkeyed : pc.Keyed s.map.keyValue)
    (htracks : pc.Tracks (s.map.hashKey hash ·) s.Dead s.map.bucketNext cells) :
    Visible hash (s.goto t pc) cells where
  head := h.head
  next := h.next
  nodup := h.nodup
  keys := h.keys
  keyed := (Function.forall_update_iff s.pc fun _ pc => pc.Keyed s.map.keyValue).mpr
    ⟨hkeyed, fun u _ => h.keyed u⟩
  tracks := (Function.forall_update_iff s.pc fun _ pc =>
    pc.Tracks (s.map.hashKey hash ·) s.Dead s.map.bucketNext cells).mpr
      ⟨htracks, fun u _ => h.tracks u⟩
  ownership := h.ownership.move hnew

theorem Visible.write (h : Visible hash s cells) (hmap : SameBuckets s.map map) :
    Visible hash (s.write map) cells := by
  obtain ⟨hcount, hbuckets, hkeyValue, hbucketNext, hisDeleted, hfreed, hnextNode⟩ := hmap
  have hdead : (s.write map).Dead = s.Dead := by
    funext node
    show (map.isDeleted node = true) = (s.map.isDeleted node = true)
    rw [hisDeleted]
  have hhash (key : K) : map.hashKey hash key = s.map.hashKey hash key := by
    unfold LockFreeOrderedHashMap.hashKey
    rw [hcount]
  obtain ⟨head, next, nodup, keys, keyed, tracks, ownership⟩ := h
  rw [← hbuckets, ← hdead] at head
  rw [← hbucketNext, ← hdead] at next
  rw [← hkeyValue] at keys keyed
  rw [← hbucketNext, ← hdead] at tracks
  rw [← hfreed, ← hnextNode] at ownership
  simp only [← hhash] at keys tracks
  exact ⟨head, next, nodup, keys, keyed, tracks, ownership⟩

/-- The node that a thread is going to link is in no bucket. -/
theorem Visible.new_notMem (h : Visible hash s cells) {node : Nat}
    (hnew : (s.pc t).newNode = some node) (i : Nat) : node ∉ cells i :=
  fun hmem => h.ownership.not_shared hnew ⟨i, hmem⟩

/-- A cell stands once in the cells of its bucket. -/
theorem split_cons {node newNode : Nat} {front back rest : List Nat} (hnode : node ∈ rest)
    (hnew : newNode ∉ rest) (hcells : newNode :: rest = front ++ node :: back) :
    ∃ front', rest = front' ++ node :: back := by
  cases front with
  | nil =>
      obtain ⟨rfl, -⟩ := List.cons.inj hcells
      exact absurd hnode hnew
  | cons first front => exact ⟨front, (List.cons.inj hcells).2⟩

/-- From `s` to `s'` nodes are only linked and marked. -/
structure Grows (s s' : SharedMap K V) (cells cells' : Nat → List Nat) : Prop where
  front : ∀ i, cells i <:+ cells' i
  dead : ∀ i, ∀ node ∈ cells i, s.Dead node → s'.Dead node
  keyValue : ∀ i, ∀ node ∈ cells i, s'.map.keyValue node = s.map.keyValue node
  bucketCount : s'.map.bucketCount = s.map.bucketCount

theorem Grows.same (hisDeleted : s'.map.isDeleted = s.map.isDeleted)
    (hkeyValue : s'.map.keyValue = s.map.keyValue)
    (hcount : s'.map.bucketCount = s.map.bucketCount) : s.Grows s' cells cells where
  front _ := List.suffix_refl _
  dead _ node _ hdead := by
    show s'.map.isDeleted node = true
    rw [hisDeleted]
    exact hdead
  keyValue _ _ _ := by rw [hkeyValue]
  bucketCount := hcount

/-! ## The steps of `insert` -/

theorem Visible.grows_newNode (h : Visible hash s cells) {key : K} {value : V} :
    s.Grows ((s.write (s.map.newNode key value).2).goto t pc) cells cells := by
  have hne (i node : Nat) (hnode : node ∈ cells i) : node ≠ s.map.nextNode :=
    (h.ownership.lt_of_shared ⟨i, hnode⟩).ne
  exact {
    front := fun _ => List.suffix_refl _
    dead := fun i node hnode hdead => by
      show Function.update s.map.isDeleted s.map.nextNode false node = true
      exact (Function.update_of_ne (hne i node hnode) ..).trans hdead
    keyValue := fun i node hnode => Function.update_of_ne (hne i node hnode) ..
    bucketCount := rfl }

theorem Visible.allocate (h : Visible hash s cells) {key : K} {value : V}
    (hnone : (s.pc t).newNode = none) (hnew : pc.newNode = some s.map.nextNode)
    (hkeyed : ∀ keyValue, keyValue s.map.nextNode = some (key, value) → pc.Keyed keyValue)
    (htracks : ∀ hashKey dead bucketNext cells, pc.Tracks hashKey dead bucketNext cells) :
    Visible hash ((s.write (s.map.newNode key value).2).goto t pc) cells := by
  have hne (i node : Nat) (hnode : node ∈ cells i) : node ≠ s.map.nextNode :=
    (h.ownership.lt_of_shared ⟨i, hnode⟩).ne
  have hdead (i : Nat) : ∀ node ∈ cells i, s.Dead node →
      ((s.write (s.map.newNode key value).2).goto t pc).Dead node := h.grows_newNode.dead i
  exact {
    head := fun i => (h.head i).mono (hdead i)
    next := fun i => ((h.next i).update (h.nodup i) fun front back hcells =>
      absurd (hcells ▸ List.mem_append_right _ List.mem_cons_self)
        fun hmem => hne i _ hmem rfl).mono (hdead i)
    nodup := h.nodup
    keys := fun i node hnode => by
      obtain ⟨key', value', hkey, hhash⟩ := h.keys i node hnode
      exact ⟨key', value', (Function.update_of_ne (hne i node hnode) ..).trans hkey, hhash⟩
    keyed := (Function.forall_update_iff s.pc fun _ pc => pc.Keyed
      (Function.update s.map.keyValue s.map.nextNode (some (key, value)))).mpr
        ⟨hkeyed _ (Function.update_self ..), fun u _ => (h.keyed u).mono fun node hnode =>
          Function.update_of_ne (h.ownership.lt u node hnode).ne ..⟩
    tracks := (Function.forall_update_iff s.pc fun _ pc' => pc'.Tracks (s.map.hashKey hash ·)
      ((s.write (s.map.newNode key value).2).goto t pc).Dead
      (Function.update s.map.bucketNext s.map.nextNode none) cells).mpr
        ⟨htracks _ _ _ _, fun u _ => (h.tracks u).mono hdead
          (fun node hnode => Function.update_of_ne (h.ownership.lt u node hnode).ne ..)
          (fun _ => List.Subset.refl _) fun _ _ front _ _ hcells => ⟨front, hcells⟩⟩
    ownership := h.ownership.take hnone hnew }

theorem Visible.lose (h : Visible hash s cells) {node : Nat}
    (hnew : (s.pc t).newNode = some node) :
    Visible hash ((s.write { s.map with freed := Function.update s.map.freed node true }).goto t
      .idle) cells where
  head := h.head
  next := h.next
  nodup := h.nodup
  keys := h.keys
  keyed := (Function.forall_update_iff s.pc fun _ pc => pc.Keyed s.map.keyValue).mpr
    ⟨trivial, fun u _ => h.keyed u⟩
  tracks := (Function.forall_update_iff s.pc fun _ pc =>
    pc.Tracks (s.map.hashKey hash ·) s.Dead s.map.bucketNext cells).mpr
      ⟨trivial, fun u _ => h.tracks u⟩
  ownership := h.ownership.drop hnew rfl

/-- A thread writes the link of its own node. -/
theorem Visible.storeOwn (h : Visible hash s cells) {node : Nat} {oldHead : Option Nat}
    (hold : (s.pc t).newNode = some node) (hnew : pc.newNode = some node)
    (hkeyed : pc.Keyed s.map.keyValue)
    (htracks : pc.Tracks (s.map.hashKey hash ·) s.Dead
      (Function.update s.map.bucketNext node oldHead) cells) :
    Visible hash ((s.write (s.map.storeLink (.next node) oldHead)).goto t pc) cells where
  head := h.head
  next i := (h.next i).update (h.nodup i) fun front back hcells => by
    refine absurd ?_ (h.new_notMem hold i)
    rw [hcells]
    exact List.mem_append_right _ List.mem_cons_self
  nodup := h.nodup
  keys := h.keys
  keyed := (Function.forall_update_iff s.pc fun _ pc => pc.Keyed s.map.keyValue).mpr
    ⟨hkeyed, fun u _ => h.keyed u⟩
  tracks := (Function.forall_update_iff s.pc fun _ pc => pc.Tracks (s.map.hashKey hash ·) s.Dead
    (Function.update s.map.bucketNext node oldHead) cells).mpr
      ⟨htracks, fun u hu => (h.tracks u).mono (fun _ _ _ => id)
        (fun other hother => by
          refine Function.update_of_ne ?_ ..
          rintro rfl
          exact hu (h.ownership.unique u t other hother hold))
        (fun _ => List.Subset.refl _) fun _ _ front _ _ hcells => ⟨front, hcells⟩⟩
  ownership := h.ownership.move (hnew.trans hold.symm)

/-- The node is linked in front of the head it leads to. -/
theorem Visible.link (h : Visible hash s cells) {node : Nat} {key : K} {value : V}
    (hold : (s.pc t).newNode = some node) (hkey : s.map.keyValue node = some (key, value))
    (hnext : s.map.bucketNext node = s.map.buckets (s.map.hashKey hash key))
    (hnew : pc.newNode = none) (hkeyed : pc.Keyed s.map.keyValue)
    (htracks : ∀ hashKey dead bucketNext cells, pc.Tracks hashKey dead bucketNext cells) :
    Visible hash ((s.write (s.map.storeLink (.bucket (s.map.hashKey hash key)) (some node))).goto
      t pc) (Function.update cells (s.map.hashKey hash key)
        (node :: cells (s.map.hashKey hash key))) := by
  have hfresh := h.new_notMem hold
  have hcells (i : Nat) : Function.update cells (s.map.hashKey hash key)
      (node :: cells (s.map.hashKey hash key)) i =
        if i = s.map.hashKey hash key then node :: cells i else cells i := by
    by_cases hi : i = s.map.hashKey hash key
    · rw [hi, Function.update_self, if_pos rfl]
    · rw [Function.update_of_ne hi, if_neg hi]
  exact {
    head := (Function.forall_update_iff s.map.buckets fun i link => Leads s.Dead link
      (Function.update cells (s.map.hashKey hash key)
        (node :: cells (s.map.hashKey hash key)) i)).mpr
        ⟨by rw [Function.update_self]; exact .inl rfl, fun i hi => by
          rw [Function.update_of_ne hi]
          exact h.head i⟩
    next := (Function.forall_update_iff cells fun _ cells =>
      Follows s.Dead s.map.bucketNext cells).mpr
        ⟨⟨hnext ▸ h.head _, h.next _⟩, fun i _ => h.next i⟩
    nodup := (Function.forall_update_iff cells fun _ cells => cells.Nodup).mpr
      ⟨List.nodup_cons.mpr ⟨hfresh _, h.nodup _⟩, fun i _ => h.nodup i⟩
    keys := (Function.forall_update_iff cells fun i cells => ∀ other, other ∈ cells →
      ∃ key value, s.map.keyValue other = some (key, value) ∧ s.map.hashKey hash key = i).mpr
        ⟨fun other hother => by
          rcases List.mem_cons.mp hother with rfl | hother
          · exact ⟨key, value, hkey, rfl⟩
          · exact h.keys _ other hother, fun i _ => h.keys i⟩
    keyed := (Function.forall_update_iff s.pc fun _ pc => pc.Keyed s.map.keyValue).mpr
      ⟨hkeyed, fun u _ => h.keyed u⟩
    tracks := (Function.forall_update_iff s.pc fun _ pc => pc.Tracks (s.map.hashKey hash ·) s.Dead
      s.map.bucketNext (Function.update cells (s.map.hashKey hash key)
        (node :: cells (s.map.hashKey hash key)))).mpr
        ⟨htracks _ _ _ _, fun u _ => (h.tracks u).mono (fun _ _ _ => id) (fun _ _ => rfl)
          (fun i => by
            rw [hcells]
            split
            · exact List.subset_cons_self _ _
            · exact List.Subset.refl _)
          fun i other front back hother hsplit => by
            rw [hcells] at hsplit
            split at hsplit
            · exact split_cons hother (hfresh i) hsplit
            · exact ⟨front, hsplit⟩⟩
    ownership := (h.ownership.share hold hnew).congr fun other => by
      constructor
      · rintro ⟨i, hother⟩
        rw [hcells] at hother
        split at hother
        · rcases List.mem_cons.mp hother with rfl | hother
          · exact .inr rfl
          · exact .inl ⟨i, hother⟩
        · exact .inl ⟨i, hother⟩
      · rintro (⟨i, hother⟩ | rfl)
        · refine ⟨i, ?_⟩
          rw [hcells]
          split
          · exact List.mem_cons_of_mem _ hother
          · exact hother
        · refine ⟨s.map.hashKey hash key, ?_⟩
          rw [hcells, if_pos rfl]
          exact List.mem_cons_self }

/-! ## The steps of `remove` -/

theorem dead_mark (node other : Nat) (hdead : s.Dead other) :
    Function.update s.map.isDeleted node true other = true := by
  by_cases hne : other = node
  · rw [hne, Function.update_self]
  · rw [Function.update_of_ne hne]
    exact hdead

theorem Visible.mark (h : Visible hash s cells) (node : Nat)
    (hnew : pc.newNode = (s.pc t).newNode) (hkeyed : pc.Keyed s.map.keyValue)
    (htracks : pc.Tracks (s.map.hashKey hash ·)
      (fun other => Function.update s.map.isDeleted node true other = true) s.map.bucketNext
        cells) :
    Visible hash ((s.write { s.map with
      isDeleted := Function.update s.map.isDeleted node true }).goto t pc) cells := by
  have hdead (i : Nat) : ∀ other ∈ cells i, s.Dead other →
      Function.update s.map.isDeleted node true other = true := fun other _ => dead_mark node other
  exact {
    head := fun i => (h.head i).mono (hdead i)
    next := fun i => (h.next i).mono (hdead i)
    nodup := h.nodup
    keys := h.keys
    keyed := (Function.forall_update_iff s.pc fun _ pc => pc.Keyed s.map.keyValue).mpr
      ⟨hkeyed, fun u _ => h.keyed u⟩
    tracks := (Function.forall_update_iff s.pc fun _ pc => pc.Tracks (s.map.hashKey hash ·)
      (fun other => Function.update s.map.isDeleted node true other = true) s.map.bucketNext
        cells).mpr
        ⟨htracks, fun u _ => (h.tracks u).mono hdead (fun _ _ => rfl)
          (fun _ => List.Subset.refl _) fun _ _ front _ _ hcells => ⟨front, hcells⟩⟩
    ownership := h.ownership.move hnew }

/-- A marked node is passed over. -/
theorem Visible.unlink (h : Visible hash s cells) {prev : BucketLink} {node i : Nat}
    {next : Option Nat} (hdead : s.Dead node) (hprev : prev.In (cells i) i)
    (hlink : s.map.linkValue prev = some node)
    (hleads : ∀ front back, cells i = front ++ node :: back → Leads s.Dead next back) :
    Visible hash (s.write (s.map.storeLink prev next)) cells := by
  cases prev with
  | bucket index =>
      obtain rfl : index = i := hprev
      have hhead := h.head index
      rw [show s.map.buckets index = some node from hlink] at hhead
      exact { h with
        head := (Function.forall_update_iff s.map.buckets fun i link =>
          Leads s.Dead link (cells i)).mpr ⟨hhead.skip hdead hleads, fun j _ => h.head j⟩ }
  | next p =>
      have hp : s.map.bucketNext p = some node := hlink
      have hlast (j : Nat) (front back : List Nat) (hcells : cells j = front ++ p :: back) :
          Leads s.Dead next back := by
        -- `p` is in one bucket only
        obtain rfl : j = i := by
          obtain ⟨key, value, hkey, rfl⟩ := h.keys i p hprev
          obtain ⟨key', value', hkey', rfl⟩ := h.keys j p
            (hcells ▸ List.mem_append_right _ List.mem_cons_self)
          rw [hkey] at hkey'
          rw [(Prod.mk.inj (Option.some.inj hkey')).1]
        have hback := (h.next j).at hcells
        rw [hp] at hback
        refine hback.skip hdead fun front' back' hback' => hleads (front ++ p :: front') back' ?_
        rw [hcells, hback', List.append_assoc]
        rfl
      exact { h with
        next := fun j => (h.next j).update (h.nodup j) (hlast j)
        tracks := fun u => (h.tracks u).mono (fun _ _ _ => id)
          (fun other hother => Function.update_of_ne (by
            rintro rfl
            exact h.new_notMem hother i hprev) ..)
          (fun _ => List.Subset.refl _) fun _ _ front _ _ hcells => ⟨front, hcells⟩ }

/-! ## One step -/

/-- The buckets of `s'` hold what those of `s` held, and more. -/
def Bucketed (hash : K → Nat) (s : SharedMap K V) (cells : Nat → List Nat) (s' : SharedMap K V) :
    Prop :=
  ∃ cells', Visible hash s' cells' ∧ s.Grows s' cells cells'

theorem Visible.stepInsert [DecidableEq K] {pc : InsertPc K V} {spurious : Bool}
    (h : Visible hash s cells) (hpc : s.pc t = .insert pc)
    (hstep : s.stepInsert hash t spurious pc = some s') : s.Bucketed hash cells s' := by
  have hkeyed := h.keyed t
  have htracks := h.tracks t
  rw [hpc] at hkeyed htracks
  -- the thread only reads
  have hgoto {pc' : MapPc K V} (hnew : pc'.newNode = MapPc.newNode (.insert pc))
      (hkeyed : pc'.Keyed s.map.keyValue)
      (htracks : pc'.Tracks (s.map.hashKey hash ·) s.Dead s.map.bucketNext cells) :
      s.Bucketed hash cells (s.goto t pc') :=
    ⟨cells, h.goto (hpc ▸ hnew) hkeyed htracks, .same rfl rfl rfl⟩
  cases pc with
  | loadHead key value newNode =>
      cases hstep
      refine hgoto rfl ?_ trivial
      cases newNode with
      | none => trivial
      | some newNode => exact hkeyed
  | find key value newNode curr =>
      cases curr with
      | some curr =>
          rw [SharedMap.stepInsert] at hstep
          split at hstep <;> cases hstep
          · exact hgoto rfl trivial trivial
          · refine hgoto rfl ?_ trivial
            cases newNode with
            | none => trivial
            | some newNode => exact hkeyed
      | none =>
          cases newNode with
          | none =>
              cases hstep
              exact hgoto rfl trivial trivial
          | some newNode =>
              cases hstep
              exact hgoto rfl hkeyed trivial
  | found newNode existingNode =>
      cases newNode with
      | none =>
          cases hstep
          exact hgoto rfl trivial trivial
      | some newNode =>
          cases hstep
          exact ⟨cells, h.lose (by rw [hpc]; rfl), .same rfl rfl rfl⟩
  | allocate key value =>
      rw [SharedMap.stepInsert] at hstep
      split at hstep
      · cases hstep
        exact ⟨cells, h.allocate (by rw [hpc]; rfl) rfl (fun _ => id) fun _ _ _ _ => trivial,
          h.grows_newNode⟩
      · cases hstep
  | loadOldHead key value newNode =>
      cases hstep
      exact hgoto rfl hkeyed trivial
  | storeBucketNext key value newNode oldHead =>
      cases hstep
      exact ⟨cells, h.storeOwn (by rw [hpc]; rfl) rfl hkeyed (Function.update_self ..),
        .same rfl rfl rfl⟩
  | swapHead key value newNode oldHead =>
      rw [SharedMap.stepInsert] at hstep
      split at hstep <;> cases hstep
      · -- the head is still the one that the new node leads to
        rename_i hswap
        refine ⟨_, h.link (by rw [hpc]; rfl) hkeyed (htracks.trans hswap.1.symm) rfl trivial
          fun _ _ _ _ => trivial, fun i => ?_, fun _ _ _ => id, fun _ _ _ => rfl, rfl⟩
        by_cases hi : i = s.map.hashKey hash key
        · rw [hi, Function.update_self]
          exact List.suffix_cons _ _
        · rw [Function.update_of_ne hi]
      · exact hgoto rfl hkeyed trivial

theorem Visible.stepOrder {pc : OrderPc} {spurious : Bool} (h : Visible hash s cells)
    (hpc : s.pc t = .order pc) : s.Bucketed hash cells (s.stepOrder t spurious pc) := by
  have hgoto {map : LockFreeOrderedHashMap K V} (hmap : SameBuckets s.map map)
      {pc' : MapPc K V} (hnew : pc'.newNode = none) (hkeyed : pc'.Keyed map.keyValue)
      (htracks : pc'.Tracks (map.hashKey hash ·) (s.write map).Dead map.bucketNext cells) :
      s.Bucketed hash cells ((s.write map).goto t pc') := by
    refine ⟨cells, (h.write hmap).goto (hnew.trans ?_) hkeyed htracks,
      .same hmap.isDeleted hmap.keyValue hmap.bucketCount⟩
    show _ = (s.pc t).newNode
    rw [hpc]
    rfl
  have horder {map : LockFreeOrderedHashMap K V} (hmap : SameBuckets s.map map) (pc' : OrderPc) :
      s.Bucketed hash cells ((s.write map).goto t (.order pc')) :=
    hgoto hmap rfl trivial trivial
  have hidle {map : LockFreeOrderedHashMap K V} (hmap : SameBuckets s.map map) :
      s.Bucketed hash cells ((s.write map).goto t .idle) :=
    hgoto hmap rfl trivial trivial
  unfold SharedMap.stepOrder
  split <;> (try split) <;> (try split) <;> (first | refine horder ?_ _ | refine hidle ?_)
  all_goals exact ⟨rfl, rfl, rfl, rfl, rfl, rfl, rfl⟩

theorem Visible.stepRemove [DecidableEq K] {pc : RemovePc K} {spurious : Bool}
    (h : Visible hash s cells) (hpc : s.pc t = .remove pc) :
    s.Bucketed hash cells (s.stepRemove hash t spurious pc) := by
  have htracks := h.tracks t
  rw [hpc] at htracks
  have hnone : (s.pc t).newNode = none := by rw [hpc]; rfl
  have hgoto {pc' : MapPc K V} (hnew : pc'.newNode = none) (hkeyed : pc'.Keyed s.map.keyValue)
      (htracks : pc'.Tracks (s.map.hashKey hash ·) s.Dead s.map.bucketNext cells) :
      s.Bucketed hash cells (s.goto t pc') :=
    ⟨cells, h.goto (hnew.trans hnone.symm) hkeyed htracks, .same rfl rfl rfl⟩
  cases pc with
  | loadHead key =>
      refine hgoto rfl trivial ⟨rfl, fun node hnode => ?_⟩
      have hhead := h.head (s.map.hashKey hash key)
      rw [hnode] at hhead
      exact hhead.mem
  | find key prev curr =>
      cases curr with
      | none => exact hgoto rfl trivial trivial
      | some curr =>
          have hcurr := htracks.2 curr rfl
          rw [SharedMap.stepRemove]
          split
          · exact hgoto rfl trivial ⟨htracks.1, hcurr⟩
          · refine hgoto rfl trivial ⟨hcurr, fun node hnode => ?_⟩
            obtain ⟨front, back, hcells⟩ := List.append_of_mem hcurr
            have hnext := (h.next (s.map.hashKey hash key)).at hcells
            rw [hnode] at hnext
            rw [hcells]
            exact List.mem_append_right _ (List.mem_cons_of_mem _ hnext.mem)
  | mark key prev node =>
      rw [SharedMap.stepRemove]
      split
      · rename_i hdead
        exact hgoto rfl trivial ⟨hdead, _, htracks⟩
      · split
        · exact hgoto rfl trivial trivial
        · refine ⟨cells, h.mark node hnone.symm trivial ⟨Function.update_self .., _, htracks⟩,
            fun _ => List.suffix_refl _, fun _ other _ => dead_mark node other,
            fun _ _ _ => rfl, rfl⟩
  | loadPrev prev node =>
      rw [SharedMap.stepRemove]
      split
      · exact hgoto rfl trivial htracks
      · exact hgoto rfl trivial trivial
  | loadNext prev node =>
      obtain ⟨hdead, i, hprev, hnode⟩ := htracks
      exact hgoto rfl trivial ⟨hdead, i, hprev, hnode, fun front back => (h.next i).at⟩
  | swapPrev prev node next =>
      obtain ⟨hdead, i, hprev, hnode, hleads⟩ := htracks
      rw [SharedMap.stepRemove]
      split
      · rename_i hlink
        refine ⟨cells, (h.unlink hdead hprev hlink hleads).goto hnone.symm trivial trivial, ?_⟩
        cases prev <;> exact .same rfl rfl rfl
      · exact hgoto rfl trivial trivial

end Steps

/-! ## Runs -/

variable [DecidableEq K] {s s' : SharedMap K V} {cells : Nat → List Nat}

theorem Visible.step (h : Visible hash s cells) {e : ThreadEvent K V} (he : Collectless e)
    (hstep : (machine hash).step s e = some s') : s.Bucketed hash cells s' := by
  cases e with
  | call t operation =>
      unfold machine at hstep
      dsimp only at hstep
      split at hstep
      · rename_i hidle
        obtain rfl := Option.some.inj hstep
        refine ⟨cells, h.goto ?_ ?_ ?_, .same rfl rfl rfl⟩
        · rw [hidle]
          cases operation <;> rfl
        · cases operation <;> trivial
        · cases operation with
          | insert | remove => trivial
          | collectGarbage => exact he.elim
      · cases hstep
  | step t spurious =>
      replace hstep : s.next hash t spurious = some s' := hstep
      unfold SharedMap.next at hstep
      cases hpc : s.pc t with
      | idle =>
          rw [hpc] at hstep
          cases hstep
      | insert pc =>
          rw [hpc] at hstep
          exact h.stepInsert hpc hstep
      | order pc =>
          rw [hpc] at hstep
          obtain rfl := Option.some.inj hstep
          exact h.stepOrder hpc
      | remove pc =>
          rw [hpc] at hstep
          obtain rfl := Option.some.inj hstep
          exact h.stepRemove hpc
      | collect pc =>
          have htracks := h.tracks t
          rw [hpc] at htracks
          exact htracks.elim

omit [DecidableEq K] in
theorem Grows.trans {mid : SharedMap K V} {cells' cells'' : Nat → List Nat}
    (h : s.Grows mid cells cells') (h' : mid.Grows s' cells' cells'') :
    s.Grows s' cells cells'' where
  front i := (h.front i).trans (h'.front i)
  dead i node hnode hdead := h'.dead i node ((h.front i).mem hnode) (h.dead i node hnode hdead)
  keyValue i node hnode :=
    (h'.keyValue i node ((h.front i).mem hnode)).trans (h.keyValue i node hnode)
  bucketCount := h'.bucketCount.trans h.bucketCount

omit [DecidableEq K] in
theorem Grows.hashKey {cells' : Nat → List Nat} (h : s.Grows s' cells cells') (key : K) :
    s'.map.hashKey hash key = s.map.hashKey hash key := by
  unfold LockFreeOrderedHashMap.hashKey
  rw [h.bucketCount]

omit [DecidableEq K] in
theorem Grows.hasKey {cells' : Nat → List Nat} (h : s.Grows s' cells cells') {key : K}
    {node i : Nat} (hnode : node ∈ cells i) (hkey : s.map.HasKey key node) :
    s'.map.HasKey key node := by
  unfold LockFreeOrderedHashMap.HasKey
  rw [h.keyValue i node hnode]
  exact hkey

theorem Visible.run {events : List (ThreadEvent K V)} (h : Visible hash s cells)
    (hcollect : ∀ e ∈ events, Collectless e) (hexec : (machine hash).exec s events = some s') :
    s.Bucketed hash cells s' := by
  induction events generalizing s cells with
  | nil =>
      obtain rfl := Option.some.inj hexec
      exact ⟨cells, h, .same rfl rfl rfl⟩
  | cons e events ih =>
      obtain ⟨mid, hstep, hrest⟩ := ((machine hash).exec_cons_eq_some).mp hexec
      obtain ⟨cells', hmid, hgrows⟩ := h.step (hcollect e List.mem_cons_self) hstep
      obtain ⟨cells'', hlast, hgrows'⟩ :=
        ih hmid (fun e he => hcollect e (List.mem_cons_of_mem _ he)) hrest
      exact ⟨cells'', hlast, hgrows.trans hgrows'⟩

/-- The node was linked into the bucket of `key`, and no remove has marked it. -/
structure Live (s : SharedMap K V) (key : K) (node : Nat) : Prop where
  allocated : node < s.map.nextNode
  kept : s.map.freed node = false
  linked : ∀ t, (s.pc t).newNode ≠ some node
  hasKey : s.map.HasKey key node
  unmarked : s.map.isDeleted node = false

omit [DecidableEq K] in
theorem Visible.mem_iff (h : Visible hash s cells) {key : K} {node : Nat}
    (hkey : s.map.HasKey key node) : node ∈ cells (s.map.hashKey hash key) ↔
      node < s.map.nextNode ∧ s.map.freed node = false ∧ ∀ t, (s.pc t).newNode ≠ some node := by
  rw [← h.ownership.shared_iff node]
  refine ⟨fun hnode => ⟨_, hnode⟩, ?_⟩
  rintro ⟨i, hnode⟩
  -- a node stands in the bucket that its key goes to
  obtain ⟨key', value, hkeyValue, rfl⟩ := h.keys i node hnode
  rw [LockFreeOrderedHashMap.HasKey, hkeyValue] at hkey
  obtain rfl := Option.some.inj hkey
  exact hnode

omit [DecidableEq K] in
theorem Visible.live_iff (h : Visible hash s cells) {key : K} {node : Nat} :
    s.Live key node ↔
      Reaches s.map.bucketNext (s.map.buckets (s.map.hashKey hash key)) node ∧
        s.map.HasKey key node ∧ s.map.isDeleted node = false := by
  constructor
  · rintro ⟨hlt, hkept, hlinked, hkey, hunmarked⟩
    have hnode := (h.mem_iff hkey).mpr ⟨hlt, hkept, hlinked⟩
    refine ⟨(h.head _).reaches (h.next _) hnode ?_, hkey, hunmarked⟩
    show ¬ s.map.isDeleted node = true
    rw [hunmarked]
    exact Bool.false_ne_true
  · rintro ⟨hreach, hkey, hunmarked⟩
    have hnode := (h.head _).mem_of_reaches (h.next _) hreach
    obtain ⟨hlt, hkept, hlinked⟩ := (h.mem_iff hkey).mp hnode
    exact ⟨hlt, hkept, hlinked, hkey, hunmarked⟩

/-- In every run of inserts and removes by any number of threads the items of the map are what
can be reached from the heads of their buckets and is not marked. -/
theorem live_iff_reaches {count : Nat} {events : List (ThreadEvent K V)} {key : K} {node : Nat}
    (hcollect : ∀ e ∈ events, Collectless e)
    (hexec : (machine hash).exec (init K V count) events = some s) :
    s.Live key node ↔
      Reaches s.map.bucketNext (s.map.buckets (s.map.hashKey hash key)) node ∧
        s.map.HasKey key node ∧ s.map.isDeleted node = false := by
  obtain ⟨cells, h, -⟩ := (visible_init hash count).run hcollect hexec
  exact h.live_iff

/-- Thread 0 marks key 1 and finds key 2, which thread 1 has linked since, in front of it, so that
the marked node stays in the bucket. -/
def markedBehind : List (ThreadEvent Nat Unit) :=
  .call 0 (.insert 1 ()) :: turns 0 10 ++ .call 0 (.remove 1) :: turns 0 2 ++
    .call 1 (.insert 2 ()) :: turns 1 9 ++ turns 0 2

theorem live_iff_reaches_markedBehind :
    ∃ s, (machine fun key => key).exec (init Nat Unit 1) markedBehind = some s ∧
      (s.map.buckets 0, s.map.bucketNext 1, s.map.isDeleted 0) = (some 1, some 0, true) ∧
      s.Live 2 1 ∧ ¬ s.Live 1 0 := by
  have hrun : ((machine fun key => key).exec (init Nat Unit 1) markedBehind).map (fun s =>
      ((s.map.buckets 0, s.map.bucketNext 1, s.map.isDeleted 0), s.map.bucketCount,
        s.map.keyValue 1, s.map.isDeleted 1)) =
      some ((some 1, some 0, true), 1, some (2, ()), false) := by decide +kernel
  obtain ⟨s, hexec, hfacts⟩ := Option.map_eq_some_iff.mp hrun
  simp only [Prod.mk.injEq] at hfacts
  obtain ⟨⟨hhead, hnext, hmarked⟩, hcount, hkey, hunmarked⟩ := hfacts
  have hcollect : ∀ e ∈ markedBehind, Collectless e := by
    simp [markedBehind, turns, Collectless]
  refine ⟨s, hexec, by rw [hhead, hnext, hmarked], ?_, fun hlive => ?_⟩
  · refine (live_iff_reaches hcollect hexec).mpr ⟨?_, ?_, hunmarked⟩
    · rw [LockFreeOrderedHashMap.hashKey, hcount, hhead]
      exact Reaches.here 1
    · rw [LockFreeOrderedHashMap.HasKey, hkey]
      rfl
  · -- the marked node can be reached, but is no item
    have hkept := ((live_iff_reaches hcollect hexec).mp hlive).2.2
    rw [hmarked] at hkept
    cases hkept

end SharedMap

end ZetaNet
