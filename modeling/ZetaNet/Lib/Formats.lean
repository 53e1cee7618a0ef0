import Mathlib.Tactic

/-!
# Formats

A format says how an item is laid out in cells, how the reader that knows the shape of the
item takes it back, and that this reader refuses an item with its end missing. A message is a
list of items. It is read back item by item, and a message with its end missing is refused at
one of them.
-/

namespace Formats

/-- `part` is `whole` with something missing at its end. -/
structure CutOff {α : Type*} (part whole : List α) : Prop where
  front : part <+: whole
  ne : part ≠ whole

namespace CutOff

variable {α : Type*} {part whole front back : List α}

theorem not_nil (h : CutOff part []) : False := h.ne (List.prefix_nil.mp h.front)

theorem length_lt (h : CutOff part whole) : part.length < whole.length := by
  refine lt_of_le_of_ne h.front.length_le fun hlength => ?_
  exact h.ne (h.front.eq_of_length hlength)

theorem take {k : Nat} (h : k < whole.length) : CutOff (whole.take k) whole := by
  refine ⟨List.take_prefix k whole, fun hwhole => ?_⟩
  have hlength := congrArg List.length hwhole
  rw [List.length_take] at hlength
  omega

/-- The end is missing inside the front, or behind it. -/
theorem append_cases (h : CutOff part (front ++ back)) :
    CutOff part front ∨ ∃ rest, CutOff rest back ∧ part = front ++ rest := by
  obtain hpart | ⟨rest, rfl⟩ :=
    List.prefix_or_prefix_of_prefix h.front (List.prefix_append front back)
  · by_cases hwhole : part = front
    · -- nothing of the back is there, so the back is not empty
      subst hwhole
      refine .inr ⟨[], ⟨List.nil_prefix, fun hback => h.ne ?_⟩, (List.append_nil part).symm⟩
      rw [← hback, List.append_nil]
    · exact .inl ⟨hpart, hwhole⟩
  · refine .inr ⟨rest, ⟨(List.prefix_append_right_inj front).mp h.front, ?_⟩, rfl⟩
    rintro rfl
    exact h.ne rfl

end CutOff

/-- Items `ι` of shapes `σ` in cells `α`, taken back by a reader `ρ` that refuses with
`refusal`. `At reader front back`: the reader stands behind `front`, and `back` is all that is
still to come. -/
structure Format (ι σ α ρ ε : Type*) where
  shape : ι → σ
  encoding : ι → List α
  read : σ → ρ → Except ε (ι × ρ)
  refusal : ε
  At : ρ → List α → List α → Prop
  Good : ι → Prop
  read_at : ∀ {item reader front back}, Good item → At reader front (encoding item ++ back) →
    ∃ next, read (shape item) reader = .ok (item, next) ∧ At next (front ++ encoding item) back
  read_cutOff : ∀ {item reader front part}, Good item → CutOff part (encoding item) →
    At reader front part → read (shape item) reader = .error refusal

namespace Format

variable {ι σ α ρ ε : Type*} (format : Format ι σ α ρ ε)

/-- A message is laid out item by item. -/
def encodingAll (items : List ι) : List α := items.flatMap format.encoding

/-- The reads of a message in its order; the first one that fails ends it. -/
def readAll : List σ → ρ → Except ε (List ι × ρ)
  | [], reader => .ok ([], reader)
  | shape :: shapes, reader =>
      match format.read shape reader with
      | .error error => .error error
      | .ok (item, next) =>
          match readAll shapes next with
          | .error error => .error error
          | .ok (items, last) => .ok (item :: items, last)

@[simp] theorem encodingAll_nil : format.encodingAll [] = [] := rfl

@[simp] theorem encodingAll_cons (item : ι) (items : List ι) :
    format.encodingAll (item :: items) = format.encoding item ++ format.encodingAll items :=
  List.flatMap_cons

theorem length_encoding_le {item : ι} {items : List ι} (h : item ∈ items) :
    (format.encoding item).length ≤ (format.encodingAll items).length := by
  rw [encodingAll, List.length_flatMap]
  exact List.single_le_sum (fun _ _ => Nat.zero_le _) _ (List.mem_map_of_mem h)

theorem readAll_cons_ok {shape : σ} {shapes : List σ} {reader next last : ρ} {item : ι}
    {items : List ι} (hread : format.read shape reader = .ok (item, next))
    (hrest : format.readAll shapes next = .ok (items, last)) :
    format.readAll (shape :: shapes) reader = .ok (item :: items, last) := by
  rw [readAll, hread]
  dsimp only
  rw [hrest]

theorem readAll_cons_error {shape : σ} {shapes : List σ} {reader : ρ} {error : ε}
    (hread : format.read shape reader = .error error) :
    format.readAll (shape :: shapes) reader = .error error := by
  rw [readAll, hread]

theorem readAll_cons_rest_error {shape : σ} {shapes : List σ} {reader next : ρ} {item : ι}
    {error : ε} (hread : format.read shape reader = .ok (item, next))
    (hrest : format.readAll shapes next = .error error) :
    format.readAll (shape :: shapes) reader = .error error := by
  rw [readAll, hread]
  dsimp only
  rw [hrest]

variable {format}

/-- A message is read back whole. -/
theorem readAll_at {items : List ι} {reader : ρ} {front back : List α}
    (hgood : ∀ item ∈ items, format.Good item)
    (h : format.At reader front (format.encodingAll items ++ back)) :
    ∃ last, format.readAll (items.map format.shape) reader = .ok (items, last) ∧
      format.At last (front ++ format.encodingAll items) back := by
  induction items generalizing reader front with
  | nil => exact ⟨reader, rfl, by simpa using h⟩
  | cons item items ih =>
      rw [encodingAll_cons, List.append_assoc] at h
      obtain ⟨next, hread, hnext⟩ := format.read_at (hgood item List.mem_cons_self) h
      obtain ⟨last, hrest, hlast⟩ :=
        ih (fun other hmem => hgood other (List.mem_cons_of_mem item hmem)) hnext
      refine ⟨last, format.readAll_cons_ok hread hrest, ?_⟩
      rw [encodingAll_cons, ← List.append_assoc]
      exact hlast

/-- A message with its end missing is refused. -/
theorem readAll_cutOff {items : List ι} {reader : ρ} {front part : List α}
    (hgood : ∀ item ∈ items, format.Good item) (hcut : CutOff part (format.encodingAll items))
    (h : format.At reader front part) :
    format.readAll (items.map format.shape) reader = .error format.refusal := by
  induction items generalizing reader front part with
  | nil => exact hcut.not_nil.elim
  | cons item items ih =>
      have hitem := hgood item List.mem_cons_self
      rw [encodingAll_cons] at hcut
      obtain hinside | ⟨rest, hbehind, rfl⟩ := hcut.append_cases
      · exact format.readAll_cons_error (format.read_cutOff hitem hinside h)
      · -- the item itself is there, so the reads behind it run on what is left of theirs
        obtain ⟨next, hread, hnext⟩ := format.read_at hitem h
        have hrest :=
          ih (fun other hmem => hgood other (List.mem_cons_of_mem item hmem)) hbehind hnext
        exact format.readAll_cons_rest_error hread hrest

end Format

end Formats
