import Mathlib.Data.List.Infix

/-!
# Paths resolved component by component

A path is a list of symbols, split into its components at the separators. A place is the list of
names that leads to it from the root. Resolving walks from a place through the components: the
empty one and `here` stay, `parent` goes up, every other name goes down.
-/

namespace Paths

variable {α : Type*}

/-! ## Components -/

section Components

variable {isSeparator : α → Bool}

/-- A component reaches up to a separator or to the end of the path. -/
theorem exists_of_mem_splitOnP {path component : List α}
    (h : component ∈ path.splitOnP isSeparator) :
    ∃ front back, path = front ++ (component ++ back) ∧
      ∀ next ∈ back.head?, isSeparator next = true := by
  -- the first component may still grow to the front, so it is known to be a prefix
  suffices hstart : ∀ path : List α,
      (∀ first ∈ (path.splitOnP isSeparator).head?, ∃ back, path = first ++ back ∧
        ∀ next ∈ back.head?, isSeparator next = true) ∧
      ∀ component ∈ path.splitOnP isSeparator, ∃ front back, path = front ++ (component ++ back) ∧
        ∀ next ∈ back.head?, isSeparator next = true from (hstart path).2 component h
  intro path
  induction path with
  | nil => simp
  | cons symbol path ih =>
    obtain ⟨ihfirst, ih⟩ := ih
    rw [List.splitOnP_cons_eq_if_modifyHead]
    by_cases hsep : isSeparator symbol = true
    · rw [if_pos hsep]
      constructor
      · intro first hfirst
        obtain rfl : [] = first := Option.some.inj hfirst
        refine ⟨symbol :: path, rfl, fun next hnext => ?_⟩
        obtain rfl : symbol = next := Option.some.inj hnext
        exact hsep
      · intro component hmem
        rcases List.mem_cons.mp hmem with rfl | hmem
        · refine ⟨[], symbol :: path, rfl, fun next hnext => ?_⟩
          obtain rfl : symbol = next := Option.some.inj hnext
          exact hsep
        · obtain ⟨front, back, hsplit, hback⟩ := ih component hmem
          exact ⟨symbol :: front, back, by rw [hsplit]; rfl, hback⟩
    · rw [if_neg hsep]
      obtain ⟨head, rest, hcomponents⟩ :=
        List.exists_cons_of_ne_nil (List.splitOnP_ne_nil isSeparator path)
      rw [hcomponents] at ihfirst ih ⊢
      obtain ⟨back, hsplit, hback⟩ := ihfirst head rfl
      have hgrown : symbol :: path = (symbol :: head) ++ back := by rw [hsplit]; rfl
      constructor
      · intro first hfirst
        obtain rfl : symbol :: head = first := Option.some.inj hfirst
        exact ⟨back, hgrown, hback⟩
      · intro component hmem
        rcases List.mem_cons.mp hmem with rfl | hmem
        · exact ⟨[], back, hgrown, hback⟩
        · obtain ⟨front, back, hsplit, hback⟩ := ih component (List.mem_cons_of_mem _ hmem)
          exact ⟨symbol :: front, back, by rw [hsplit]; rfl, hback⟩

end Components

/-! ## Places -/

variable [DecidableEq α] (here parent : List α)

/-- The place one component further; the root is its own parent. -/
def enter (place : List (List α)) (component : List α) : List (List α) :=
  if component = [] ∨ component = here then place
  else if component = parent then place.dropLast
  else place ++ [component]

/-- The place at the end of all components. -/
def resolve (place : List (List α)) (components : List (List α)) : List (List α) :=
  components.foldl (enter here parent) place

theorem resolve_append (place components more : List (List α)) :
    resolve here parent place (components ++ more) =
      resolve here parent (resolve here parent place components) more :=
  List.foldl_append

variable {here parent}

theorem prefix_enter {component : List α} (h : component ≠ parent) (place : List (List α)) :
    place <+: enter here parent place component := by
  unfold enter
  rw [if_neg h]
  split
  · exact List.prefix_refl place
  · exact List.prefix_append place [component]

/-- Without the parent's name no component leaves the place. -/
theorem prefix_resolve {components : List (List α)}
    (h : ∀ component ∈ components, component ≠ parent) (place : List (List α)) :
    place <+: resolve here parent place components := by
  induction components generalizing place with
  | nil => exact List.prefix_refl place
  | cons component components ih =>
    have hstep : place <+: enter here parent place component :=
      prefix_enter (h component List.mem_cons_self) place
    exact hstep.trans (ih (fun c hc => h c (List.mem_cons_of_mem _ hc)) _)

/-- A path below a base: once the base is resolved, every place on the way lies below it. -/
theorem prefix_resolve_below {isSeparator : α → Bool} {separator : α} {path : List α}
    (hsep : isSeparator separator = true)
    (h : ∀ component ∈ path.splitOnP isSeparator, component ≠ parent)
    (place : List (List α)) (base : List α) {n : ℕ}
    (hn : (base.splitOnP isSeparator).length ≤ n) :
    resolve here parent place (base.splitOnP isSeparator) <+:
      resolve here parent place (((base ++ separator :: path).splitOnP isSeparator).take n) := by
  rw [List.splitOnP_append_cons _ _ hsep, List.take_append, List.take_of_length_le hn,
    resolve_append]
  exact prefix_resolve (fun component hmem => h component (List.mem_of_mem_take hmem)) _

end Paths
