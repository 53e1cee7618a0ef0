import ZetaNet.File.Codec
import ZetaNet.Lib.Paths

/-!
# What the path filter lets through

`ContainsPathTraversal` scans a name for dots and separators. A name it lets through stays below
every directory it is appended to, and `ParseTransferChunkPayload` returns no other name.
-/

namespace ZetaNet

def kSlash : UInt8 := 0x2F

/-- The two dots of the parent directory. -/
def parentName : Bytes := [kDot, kDot]

/-- The parts between slashes and backslashes. -/
def components (path : Bytes) : List Bytes := path.splitOnP isSeparator

/-- The place `components` lead to from `place`. -/
def resolvePath (place components : List Bytes) : List Bytes :=
  Paths.resolve [kDot] parentName place components

/-- A name that leads nowhere but down. -/
structure Confined (path : Bytes) : Prop where
  relative : ∀ char ∈ path.head?, isSeparator char = false
  driveless : ∀ letter tail, path = letter :: kColon :: tail → isAlpha letter = false
  parentless : ∀ component ∈ components path, component ≠ parentName
  below : ∀ (place : List Bytes) (base : Bytes) (n : ℕ), (components base).length ≤ n →
    resolvePath place (components base) <+:
      resolvePath place ((components (base ++ kSlash :: path)).take n)

/-- The places below a base follow from the components. -/
theorem confined_of_parentless {path : Bytes}
    (hrelative : ∀ char ∈ path.head?, isSeparator char = false)
    (hdrive : ∀ letter tail, path = letter :: kColon :: tail → isAlpha letter = false)
    (hparent : ∀ component ∈ components path, component ≠ parentName) : Confined path where
  relative := hrelative
  driveless := hdrive
  parentless := hparent
  below place base _ hn := Paths.prefix_resolve_below (by decide) hparent place base hn

/-- No name at all. -/
theorem confined_nil : Confined [] := by
  refine confined_of_parentless (fun char hchar => by cases hchar) (fun letter tail h => by cases h)
    fun component hmem => ?_
  obtain rfl := List.mem_singleton.mp (show component ∈ [[]] from hmem)
  decide

/-- Two dots up to a separator or to the end are seen where they begin. -/
theorem traversalAt_parentName {front back : Bytes}
    (hback : ∀ next ∈ back.head?, isSeparator next = true) :
    traversalAt (front ++ (parentName ++ back)) front.length = true := by
  have hfirst : (front ++ (parentName ++ back))[front.length]? = some kDot := by simp [parentName]
  have hsecond : (front ++ (parentName ++ back))[front.length + 1]? = some kDot := by
    simp [parentName]
  have hthird : (front ++ (parentName ++ back))[front.length + 2]? = back.head? := by
    rw [List.getElem?_append_right (by omega), List.head?_eq_getElem?]
    simp [parentName]
  have hend : (back.head?.elim true isSeparator) = true := by
    cases hhead : back.head? with
    | none => rfl
    | some next => exact hback next hhead
  simp [traversalAt, hfirst, hsecond, hthird, hend]

/-- Every name that passes the filter is one. -/
theorem confined_of_containsPathTraversal {path : Bytes}
    (h : containsPathTraversal path = false) : path ≠ [] ∧ Confined path := by
  simp only [containsPathTraversal, Bool.if_true_left, Bool.or_eq_false_iff,
    decide_eq_false_iff_not, List.any_eq_false, List.mem_range] at h
  obtain ⟨hne, hrelative, hdrive, hscan⟩ := h
  refine ⟨hne, confined_of_parentless ?_ ?_ ?_⟩
  · intro char hchar
    rw [List.head?_eq_getElem?] at hchar
    exact Bool.eq_false_of_not_eq_true fun hsep => hrelative (by rw [hchar]; exact hsep)
  · rintro letter tail rfl
    exact Bool.eq_false_of_not_eq_true fun halpha => hdrive ⟨halpha, rfl⟩
  · rintro component hmem rfl
    obtain ⟨front, back, rfl, hback⟩ := Paths.exists_of_mem_splitOnP hmem
    refine hscan front.length ?_ (traversalAt_parentName hback)
    simp [parentName]

/-- The filter lets nothing escape: neither a name that passes it nor one a parsed chunk carries.
A chunk behind the first has no name. -/
theorem pathFilter_confines (path : Bytes) :
    (containsPathTraversal path = false → path ≠ [] ∧ Confined path) ∧
    ∀ payload chunk, parseTransferChunkPayload payload = some chunk →
      Confined chunk.fileName ∧ (chunk.hasFileName = true ↔ chunk.fileName ≠ []) := by
  refine ⟨confined_of_containsPathTraversal, fun payload chunk h => ?_⟩
  obtain ⟨hbuildable, -, hsafe, -⟩ := parse_eq_some_iff.mp h
  have hname : chunk.hasFileName = true ↔ chunk.fileName ≠ [] := by
    rw [Ne, hbuildable.fileName, Bool.not_eq_false]
  refine ⟨?_, hname⟩
  cases hhas : chunk.hasFileName with
  | true => exact (confined_of_containsPathTraversal (hsafe hhas)).2
  | false =>
    rw [hbuildable.fileName.mpr hhas]
    exact confined_nil

theorem pathFilter_confines_fiveByteChunk :
    (([0x61] : Bytes) ≠ [] ∧ Confined [0x61]) ∧
      Confined (fiveByteChunk 0).fileName ∧
      ((fiveByteChunk 0).hasFileName = true ↔ (fiveByteChunk 0).fileName ≠ []) :=
  ⟨(pathFilter_confines [0x61]).1 (by decide),
    (pathFilter_confines [0x61]).2 (fiveByteChunk 0).wire _ (by decide +kernel)⟩

end ZetaNet
