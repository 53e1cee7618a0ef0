import Mathlib.Data.List.Nodup
import Mathlib.Logic.Function.Basic

/-!
# Singly linked chains

Chains of cells over a function `next`, each cell holding the link to the one behind it. A head
that leads through finitely many cells to nothing determines them, and no cell occurs twice.
Several heads lead through chains of their own; a cell that is put in front of one of them or
taken out of one leaves the others as they are.
-/

namespace Links

/-- From `head` the links lead through `cells` to `last`. -/
def Segment {ι : Type*} (next : ι → Option ι) : Option ι → List ι → Option ι → Prop
  | head, [], last => head = last
  | head, i :: cells, last => head = some i ∧ Segment next (next i) cells last

/-- From `head` the links lead through `cells` to nothing. -/
def Chain {ι : Type*} (next : ι → Option ι) (head : Option ι) (cells : List ι) : Prop :=
  Segment next head cells none

/-- The links lead from `head` to a cell. -/
inductive Reaches {ι : Type*} (next : ι → Option ι) : Option ι → ι → Prop
  | here (i : ι) : Reaches next (some i) i
  | there {i j : ι} (h : Reaches next (next i) j) : Reaches next (some i) j

section Segment

variable {ι : Type*} {next next' : ι → Option ι} {head mid last : Option ι} {i : ι}
  {cells front back : List ι}

@[simp] theorem segment_nil : Segment next head [] last ↔ head = last := Iff.rfl

@[simp] theorem segment_cons :
    Segment next head (i :: cells) last ↔ head = some i ∧ Segment next (next i) cells last :=
  Iff.rfl

theorem segment_append :
    Segment next head (front ++ back) last ↔
      ∃ mid, Segment next head front mid ∧ Segment next mid back last := by
  induction front generalizing head with
  | nil => simp
  | cons i front ih =>
      rw [List.cons_append, segment_cons, ih]
      constructor
      · rintro ⟨rfl, mid, hfront, hback⟩
        exact ⟨mid, ⟨rfl, hfront⟩, hback⟩
      · rintro ⟨mid, ⟨rfl, hfront⟩, hback⟩
        exact ⟨rfl, mid, hfront, hback⟩

/-- Only the links of its own cells matter to a segment. -/
theorem segment_congr (h : ∀ i ∈ cells, next' i = next i) :
    Segment next' head cells last ↔ Segment next head cells last := by
  induction cells generalizing head with
  | nil => exact Iff.rfl
  | cons i cells ih =>
      rw [segment_cons, segment_cons, h i List.mem_cons_self,
        ih fun j hj => h j (List.mem_cons_of_mem _ hj)]

theorem segment_update [DecidableEq ι] (h : i ∉ cells) (value : Option ι) :
    Segment (Function.update next i value) head cells last ↔ Segment next head cells last :=
  segment_congr fun j hj => Function.update_of_ne (fun heq : j = i => h (heq ▸ hj)) ..

end Segment

section Chain

variable {ι : Type*} {next : ι → Option ι} {head : Option ι} {i j : ι}
  {cells front rest : List ι}

@[simp] theorem chain_nil : Chain next head [] ↔ head = none := Iff.rfl

@[simp] theorem chain_cons :
    Chain next head (i :: cells) ↔ head = some i ∧ Chain next (next i) cells := Iff.rfl

/-- Nothing but nothing leads to no cell. -/
theorem Chain.head_eq (h : Chain next head cells) : head = cells.head? := by
  cases cells with
  | nil => exact h
  | cons i cells => exact h.1

/-- A head has one chain. -/
theorem Chain.unique {other : List ι} (h : Chain next head cells)
    (hother : Chain next head other) : cells = other := by
  induction cells generalizing head other with
  | nil =>
      obtain rfl := chain_nil.mp h
      cases other with
      | nil => rfl
      | cons j other => cases (chain_cons.mp hother).1
  | cons i cells ih =>
      obtain ⟨rfl, hcells⟩ := chain_cons.mp h
      cases other with
      | nil => cases chain_nil.mp hother
      | cons j other =>
          obtain ⟨hij, hother⟩ := chain_cons.mp hother
          obtain rfl := Option.some.inj hij
          rw [ih hcells hother]

/-- Behind a cell of a chain stands the rest of the chain. -/
theorem Chain.of_append (h : Chain next head (front ++ i :: rest)) :
    Chain next (next i) rest := by
  obtain ⟨mid, -, hback⟩ := segment_append.mp h
  exact hback.2

/-- A chain that comes to an end does not come back. -/
theorem Chain.nodup (h : Chain next head cells) : cells.Nodup := by
  induction cells generalizing head with
  | nil => exact List.nodup_nil
  | cons i cells ih =>
      obtain ⟨-, hcells⟩ := chain_cons.mp h
      refine List.nodup_cons.mpr ⟨fun hmem => ?_, ih hcells⟩
      -- behind the second occurrence stands what stands behind the first one
      obtain ⟨front, rest, rfl⟩ := List.append_of_mem hmem
      have hlength := congrArg List.length (hcells.unique hcells.of_append)
      simp only [List.length_append, List.length_cons] at hlength
      omega

/-- What a chain reaches is what it consists of. -/
theorem Chain.reaches_iff (h : Chain next head cells) : Reaches next head j ↔ j ∈ cells := by
  induction cells generalizing head with
  | nil =>
      obtain rfl := chain_nil.mp h
      exact iff_of_false (fun hreach => by cases hreach) List.not_mem_nil
  | cons i cells ih =>
      obtain ⟨rfl, hcells⟩ := chain_cons.mp h
      rw [List.mem_cons]
      constructor
      · intro hreach
        cases hreach with
        | here => exact Or.inl rfl
        | there hreach => exact Or.inr ((ih hcells).mp hreach)
      · rintro (rfl | hmem)
        · exact Reaches.here j
        · exact Reaches.there ((ih hcells).mpr hmem)

variable [DecidableEq ι]

/-- A new cell in front. -/
theorem Chain.push (h : Chain next head cells) (hnew : i ∉ cells) :
    Chain (Function.update next i head) (some i) (i :: cells) := by
  refine chain_cons.mpr ⟨rfl, ?_⟩
  rw [Function.update_self]
  exact (segment_update hnew head).mpr h

/-- The cell behind `i` is taken out. -/
theorem Chain.unlink (h : Chain next head (front ++ i :: j :: rest)) :
    Chain (Function.update next i (next j)) head (front ++ i :: rest) := by
  have hnodup := List.nodup_append.mp h.nodup
  obtain ⟨hcells, -⟩ := List.nodup_cons.mp hnodup.2.1
  have hfront : i ∉ front := fun hmem => hnodup.2.2 i hmem i List.mem_cons_self rfl
  have hrest : i ∉ rest := fun hmem => hcells (List.mem_cons_of_mem _ hmem)
  obtain ⟨mid, hleft, rfl, hright⟩ := segment_append.mp h
  refine segment_append.mpr ⟨some i, (segment_update hfront _).mpr hleft, rfl, ?_⟩
  rw [Function.update_self]
  exact (segment_update hrest _).mpr hright.2

/-- A new cell behind the last one. -/
theorem Chain.append (h : Chain next head (front ++ [i])) (hnew : j ∉ front ++ [i])
    (hlast : next j = none) :
    Chain (Function.update next i (some j)) head (front ++ [i, j]) := by
  have hnodup := List.nodup_append.mp h.nodup
  have hfront : i ∉ front := fun hmem => hnodup.2.2 i hmem i List.mem_cons_self rfl
  have hne : j ≠ i := fun heq => hnew (heq ▸ List.mem_append_right _ List.mem_cons_self)
  obtain ⟨mid, hleft, rfl, -⟩ := segment_append.mp h
  refine segment_append.mpr ⟨some i, (segment_update hfront _).mpr hleft, rfl, ?_⟩
  rw [Function.update_self]
  refine ⟨rfl, ?_⟩
  rw [Function.update_of_ne hne]
  exact hlast

end Chain

section Reaches

variable {ι : Type*} {next : ι → Option ι} {head : Option ι} {j : ι}

/-- What is reached is the head or stands behind some cell. -/
theorem Reaches.head_or_next (h : Reaches next head j) :
    head = some j ∨ ∃ i, next i = some j := by
  induction h with
  | here i => exact Or.inl rfl
  | there _ ih =>
      rcases ih with hnext | hnext
      · exact Or.inr ⟨_, hnext⟩
      · exact Or.inr hnext

theorem Reaches.step {i : ι} (h : Reaches next head i) (hj : next i = some j) :
    Reaches next head j := by
  induction h with
  | here i => exact Reaches.there (hj ▸ Reaches.here j)
  | there _ ih => exact Reaches.there (ih hj)

end Reaches

/-! ## Several heads -/

/-- One of the heads leads to the cell. -/
def Linked {ι κ : Type*} (next : ι → Option ι) (heads : κ → Option ι) (j : ι) : Prop :=
  ∃ k, Reaches next (heads k) j

/-- The heads lead through `cells`, and no two of them share a cell. -/
structure Chains {ι κ : Type*} (next : ι → Option ι) (heads : κ → Option ι)
    (cells : κ → List ι) : Prop where
  chain : ∀ k, Chain next (heads k) (cells k)
  unique : ∀ k l j, j ∈ cells k → j ∈ cells l → k = l

section Chains

variable {ι κ : Type*} {next next' : ι → Option ι} {heads heads' : κ → Option ι}
  {cells : κ → List ι} {i j : ι} {k : κ}

theorem Chains.linked_iff (h : Chains next heads cells) :
    Linked next heads j ↔ ∃ k, j ∈ cells k :=
  exists_congr fun k => (h.chain k).reaches_iff

/-- The link of a cell that is in no chain matters to none. -/
theorem Chains.update [DecidableEq ι] (h : Chains next heads cells) (hi : ¬ Linked next heads i)
    (value : Option ι) : Chains (Function.update next i value) heads cells where
  chain k := by
    have hmem : i ∉ cells k := fun hmem => hi (h.linked_iff.mpr ⟨k, hmem⟩)
    exact (segment_update hmem value).mpr (h.chain k)
  unique := h.unique

theorem Chains.linked_update [DecidableEq ι] (h : Chains next heads cells)
    (hi : ¬ Linked next heads i) (value : Option ι) :
    Linked (Function.update next i value) heads j ↔ Linked next heads j := by
  rw [(h.update hi value).linked_iff, h.linked_iff]

variable [DecidableEq κ]

/-- A new cell in front of one chain. -/
theorem Chains.push (h : Chains next heads cells) (hi : ¬ Linked next heads i)
    (hnext : next i = heads k) :
    Chains next (Function.update heads k (some i)) (Function.update cells k (i :: cells k)) where
  chain l := by
    by_cases hl : l = k
    · subst hl
      rw [Function.update_self, Function.update_self, chain_cons, hnext]
      exact ⟨rfl, h.chain l⟩
    · rw [Function.update_of_ne hl, Function.update_of_ne hl]
      exact h.chain l
  unique := by
    have hnew (l : κ) : i ∉ cells l := fun hmem => hi (h.linked_iff.mpr ⟨l, hmem⟩)
    have hmem {l : κ} {j : ι} (hj : j ∈ Function.update cells k (i :: cells k) l) :
        j ∈ cells l ∨ l = k ∧ j = i := by
      by_cases hl : l = k
      · subst hl
        rw [Function.update_self] at hj
        rcases List.mem_cons.mp hj with rfl | hj
        · exact Or.inr ⟨rfl, rfl⟩
        · exact Or.inl hj
      · rw [Function.update_of_ne hl] at hj
        exact Or.inl hj
    intro l m j hl hm
    rcases hmem hl with hjl | ⟨hlk, rfl⟩
    · rcases hmem hm with hjm | ⟨-, rfl⟩
      · exact h.unique l m j hjl hjm
      · exact absurd hjl (hnew l)
    · rcases hmem hm with hjm | ⟨hmk, -⟩
      · exact absurd hjm (hnew m)
      · exact hlk.trans hmk.symm

theorem Chains.linked_push (h : Chains next heads cells) (hi : ¬ Linked next heads i)
    (hnext : next i = heads k) :
    Linked next (Function.update heads k (some i)) j ↔ j = i ∨ Linked next heads j := by
  rw [(h.push hi hnext).linked_iff, h.linked_iff]
  constructor
  · rintro ⟨l, hj⟩
    by_cases hl : l = k
    · subst hl
      rw [Function.update_self] at hj
      rcases List.mem_cons.mp hj with rfl | hj
      · exact Or.inl rfl
      · exact Or.inr ⟨l, hj⟩
    · rw [Function.update_of_ne hl] at hj
      exact Or.inr ⟨l, hj⟩
  · rintro (rfl | ⟨l, hj⟩)
    · refine ⟨k, ?_⟩
      rw [Function.update_self]
      exact List.mem_cons_self
    · refine ⟨l, ?_⟩
      by_cases hl : l = k
      · subst hl
        rw [Function.update_self]
        exact List.mem_cons_of_mem _ hj
      · rw [Function.update_of_ne hl]
        exact hj

/-- One chain loses the cell `i`. -/
theorem Chains.erase (h : Chains next heads cells) (rest : List ι) (hi : i ∈ cells k)
    (hrest : ∀ j, j ∈ rest ↔ j ∈ cells k ∧ j ≠ i)
    (hchain : ∀ l, Chain next' (heads' l) (Function.update cells k rest l)) :
    Chains next' heads' (Function.update cells k rest) ∧
      ∀ j, Linked next' heads' j ↔ Linked next heads j ∧ j ≠ i := by
  have hmem (l : κ) (j : ι) : j ∈ Function.update cells k rest l ↔ j ∈ cells l ∧ j ≠ i := by
    by_cases hl : l = k
    · subst hl
      rw [Function.update_self]
      exact hrest j
    · rw [Function.update_of_ne hl]
      refine (and_iff_left_of_imp fun hj => ?_).symm
      rintro rfl
      exact hl (h.unique l k j hj hi)
  have hchains : Chains next' heads' (Function.update cells k rest) :=
    ⟨hchain, fun l m j hl hm => h.unique l m j ((hmem l j).mp hl).1 ((hmem m j).mp hm).1⟩
  refine ⟨hchains, fun j => ?_⟩
  rw [hchains.linked_iff, h.linked_iff, exists_congr fun l => hmem l j, exists_and_right]

/-- The first cell of a chain is taken out. -/
theorem Chains.unlink_head (h : Chains next heads cells) (hi : heads k = some i) :
    ∃ cells', Chains next (Function.update heads k (next i)) cells' ∧
      ∀ j, Linked next (Function.update heads k (next i)) j ↔ Linked next heads j ∧ j ≠ i := by
  cases hcells : cells k with
  | nil =>
      have hnone := (h.chain k).head_eq
      rw [hi, hcells] at hnone
      cases hnone
  | cons first rest =>
      have hk := h.chain k
      rw [hcells] at hk
      obtain ⟨hfirst, hrest⟩ := chain_cons.mp hk
      obtain rfl := Option.some.inj (hi.symm.trans hfirst)
      have hnodup := List.nodup_cons.mp hk.nodup
      refine ⟨_, h.erase (k := k) rest ?_ ?_ ?_⟩
      · rw [hcells]
        exact List.mem_cons_self
      · intro j
        rw [hcells, List.mem_cons]
        constructor
        · exact fun hj => ⟨Or.inr hj, fun heq => hnodup.1 (heq ▸ hj)⟩
        · exact fun hj => hj.1.resolve_left hj.2
      · intro l
        by_cases hl : l = k
        · subst hl
          rw [Function.update_self, Function.update_self]
          exact hrest
        · rw [Function.update_of_ne hl, Function.update_of_ne hl]
          exact h.chain l

/-- The cell behind a linked one is taken out. -/
theorem Chains.unlink_next [DecidableEq ι] (h : Chains next heads cells) (hi : Linked next heads i)
    (hj : next i = some j) :
    ∃ cells', Chains (Function.update next i (next j)) heads cells' ∧
      ∀ l, Linked (Function.update next i (next j)) heads l ↔ Linked next heads l ∧ l ≠ j := by
  obtain ⟨k, hik⟩ := h.linked_iff.mp hi
  obtain ⟨front, back, hcells⟩ := List.append_of_mem hik
  have hk := h.chain k
  rw [hcells] at hk
  have hback := hk.of_append
  rw [hj] at hback
  cases back with
  | nil => cases chain_nil.mp hback
  | cons first rest =>
      obtain ⟨hfirst, -⟩ := chain_cons.mp hback
      obtain rfl := Option.some.inj hfirst
      have hnodup := hk.nodup
      -- the chain of `i` loses `j`, the others do not have it
      refine ⟨_, h.erase (k := k) (front ++ i :: rest) ?_ ?_ ?_⟩
      · rw [hcells]
        simp
      · intro l
        have hsplit : front ++ i :: j :: rest = (front ++ [i]) ++ j :: rest := by simp
        -- `j` stands once in its chain
        rw [hsplit] at hnodup
        have hapart := List.nodup_append.mp hnodup
        have hrest := (List.nodup_cons.mp hapart.2.1).1
        rw [hcells]
        constructor
        · intro hl
          refine ⟨by simp only [List.mem_append, List.mem_cons] at hl ⊢; tauto, ?_⟩
          rintro rfl
          rcases List.mem_append.mp hl with hl | hl
          · exact hapart.2.2 l (List.mem_append_left _ hl) l List.mem_cons_self rfl
          · rcases List.mem_cons.mp hl with rfl | hl
            · exact hapart.2.2 l (by simp) l List.mem_cons_self rfl
            · exact hrest hl
        · rintro ⟨hl, hne⟩
          simp only [List.mem_append, List.mem_cons] at hl ⊢
          tauto
      · intro l
        by_cases hl : l = k
        · subst hl
          rw [Function.update_self]
          exact hk.unlink
        · rw [Function.update_of_ne hl]
          have hnot : i ∉ cells l := fun hmem => hl (h.unique l k i hmem hik)
          exact (segment_update hnot _).mpr (h.chain l)

end Chains

/-! ## Links that skip

The cells of a list are taken out while others follow the links, so a link may still lead to a
cell that is out or pass over cells that are out. -/

section Skipping

variable {ι : Type*} {dead dead' : ι → Prop} {next : ι → Option ι} {link : Option ι} {i j : ι}
  {cells front back : List ι}

/-- The link leads to a cell in front of which all are dead, or past dead cells to nothing. -/
def Leads (dead : ι → Prop) (link : Option ι) : List ι → Prop
  | [] => link = none
  | i :: cells => link = some i ∨ dead i ∧ Leads dead link cells

/-- The link of each cell leads into the cells behind it. -/
def Follows (dead : ι → Prop) (next : ι → Option ι) : List ι → Prop
  | [] => True
  | i :: cells => Leads dead (next i) cells ∧ Follows dead next cells

/-- The link leads to `j` or to a cell in front of it, and past `passed` cells at least. -/
def Ahead (cells : List ι) (passed : ℕ) (link : Option ι) (j : ι) : Prop :=
  ∃ i front back, link = some i ∧ cells = front ++ i :: back ∧ passed ≤ front.length ∧
    (j = i ∨ j ∈ back)

theorem Leads.mono (h : Leads dead link cells) (hdead : ∀ i ∈ cells, dead i → dead' i) :
    Leads dead' link cells := by
  induction cells with
  | nil => exact h
  | cons i cells ih =>
      rcases h with hlink | ⟨hi, h⟩
      · exact .inl hlink
      · exact .inr ⟨hdead i List.mem_cons_self hi,
          ih h fun j hj => hdead j (List.mem_cons_of_mem _ hj)⟩

theorem Leads.mem (h : Leads dead (some i) cells) : i ∈ cells := by
  induction cells with
  | nil => cases h
  | cons j cells ih =>
      rcases h with hlink | ⟨-, h⟩
      · obtain rfl := Option.some.inj hlink
        exact List.mem_cons_self
      · exact List.mem_cons_of_mem _ (ih h)

/-- A dead cell is passed over. -/
theorem Leads.skip (h : Leads dead (some i) cells) (hdead : dead i)
    (hback : ∀ front back, cells = front ++ i :: back → Leads dead link back) :
    Leads dead link cells := by
  induction cells with
  | nil => cases h
  | cons j cells ih =>
      rcases h with hlink | ⟨hj, h⟩
      · obtain rfl := Option.some.inj hlink
        exact .inr ⟨hdead, hback [] cells rfl⟩
      · refine .inr ⟨hj, ih h fun front back hcells => hback (j :: front) back ?_⟩
        rw [hcells]
        rfl

theorem Leads.ahead (h : Leads dead link cells) (hj : j ∈ cells) (halive : ¬ dead j) :
    Ahead cells 0 link j := by
  induction cells with
  | nil => cases hj
  | cons i cells ih =>
      rcases h with hlink | ⟨hi, h⟩
      · exact ⟨i, [], cells, hlink, rfl, Nat.zero_le _, List.mem_cons.mp hj⟩
      · have hne : j ≠ i := by
          rintro rfl
          exact halive hi
        obtain ⟨k, front, back, hlink, hcells, -, hk⟩ :=
          ih h ((List.mem_cons.mp hj).resolve_left hne)
        exact ⟨k, i :: front, back, hlink, by rw [hcells]; rfl, Nat.zero_le _, hk⟩

theorem Follows.mono (h : Follows dead next cells) (hdead : ∀ i ∈ cells, dead i → dead' i) :
    Follows dead' next cells := by
  induction cells with
  | nil => trivial
  | cons i cells ih =>
      have htail : ∀ j ∈ cells, dead j → dead' j := fun j hj =>
        hdead j (List.mem_cons_of_mem _ hj)
      exact ⟨h.1.mono htail, ih h.2 htail⟩

theorem Follows.of_append (h : Follows dead next (front ++ back)) : Follows dead next back := by
  induction front with
  | nil => exact h
  | cons j front ih => exact ih h.2

theorem Follows.at (h : Follows dead next cells) (hcells : cells = front ++ i :: back) :
    Leads dead (next i) back := by
  subst hcells
  exact h.of_append.1

/-- A link leads on: from a cell that is not passed yet to the next one that is not passed. -/
theorem Follows.ahead (h : Follows dead next cells) (hcells : cells = front ++ i :: back)
    (hj : j ∈ back) (halive : ¬ dead j) : Ahead cells (front.length + 1) (next i) j := by
  obtain ⟨k, front', back', hlink, hback, -, hk⟩ := (h.at hcells).ahead hj halive
  refine ⟨k, front ++ i :: front', back', hlink, ?_, ?_, hk⟩
  · rw [hcells, hback, List.append_assoc]
    rfl
  · rw [List.length_append, List.length_cons]
    omega

/-- Cells that come in front change nothing behind them. -/
theorem Ahead.append {passed : ℕ} {link : Option ι} (h : Ahead cells passed link j)
    (front : List ι) : Ahead (front ++ cells) passed link j := by
  obtain ⟨i, front', back, hlink, hcells, hpassed, hj⟩ := h
  refine ⟨i, front ++ front', back, hlink, ?_, ?_, hj⟩
  · rw [hcells, List.append_assoc]
  · rw [List.length_append]
    omega

/-- What is not dead is reached. -/
theorem Leads.reaches (h : Leads dead link cells) (hfollows : Follows dead next cells)
    (hj : j ∈ cells) (halive : ¬ dead j) : Reaches next link j := by
  induction cells generalizing link with
  | nil => cases hj
  | cons i cells ih =>
      rcases h with rfl | ⟨hi, h⟩
      · rcases List.mem_cons.mp hj with rfl | hj
        · exact Reaches.here j
        · exact Reaches.there (ih hfollows.1 hfollows.2 hj)
      · have hne : j ≠ i := by
          rintro rfl
          exact halive hi
        exact ih h hfollows.2 ((List.mem_cons.mp hj).resolve_left hne)

/-- Nothing else is reached. -/
theorem Leads.mem_of_reaches (h : Leads dead link cells) (hfollows : Follows dead next cells)
    (hreach : Reaches next link j) : j ∈ cells := by
  induction hreach generalizing cells with
  | here i => exact h.mem
  | there _ ih =>
      obtain ⟨front, back, rfl⟩ := List.append_of_mem h.mem
      have hback := ih (hfollows.at rfl) hfollows.of_append.2
      exact List.mem_append_right _ (List.mem_cons_of_mem _ hback)

variable [DecidableEq ι]

/-- The link of a cell is set to lead on. -/
theorem Follows.update (h : Follows dead next cells) (hnodup : cells.Nodup)
    (hlink : ∀ front back, cells = front ++ i :: back → Leads dead link back) :
    Follows dead (Function.update next i link) cells := by
  induction cells with
  | nil => trivial
  | cons j cells ih =>
      obtain ⟨hj, hcells⟩ := List.nodup_cons.mp hnodup
      refine ⟨?_, ih h.2 hcells fun front back hsplit => hlink (j :: front) back ?_⟩
      · by_cases hij : j = i
        · rw [hij, Function.update_self]
          exact hlink [] cells (by rw [hij]; rfl)
        · rw [Function.update_of_ne hij]
          exact h.1
      · rw [hsplit]
        rfl

end Skipping

end Links
