import GridGame.EditDistance

/-!
# Suggestions

The names to suggest for one that is not known: those at most three edits away, closest first.
-/

namespace GridGame.Suggestion

/-- How many edits a suggestion may be away. -/
def maxDistance : Nat := 3

/-- How many names are suggested. -/
def maxCount : Nat := 3

/-- Names that stand next to an equal name are kept once. -/
def mergeRepeats : List String → List String
  | [] => []
  | [x] => [x]
  | x :: y :: rest => if x = y then mergeRepeats (y :: rest) else x :: mergeRepeats (y :: rest)

/-- The names within reach of `name` other than itself, closest first. Names equally far away
keep their order. -/
def candidates (name : String) (names : List String) : List String :=
  let near := names.filter fun other =>
    other != name && EditDistance.distance name other ≤ maxDistance
  near.mergeSort fun a b => EditDistance.distance name a ≤ EditDistance.distance name b

def forName (name : String) (names : List String) : List String :=
  (mergeRepeats (candidates name names)).take maxCount

/-! ### Where suggestions come from -/

/-- Merging repeats leaves names out and does nothing else. -/
theorem mergeRepeats_sublist (names : List String) : (mergeRepeats names).Sublist names := by
  fun_induction mergeRepeats names with
  | case1 => exact .slnil
  | case2 x => exact List.Sublist.refl _
  | case3 x rest ih => exact ih.cons x
  | case4 x y rest hne ih => exact ih.cons_cons x

theorem mem_candidates {name other : String} {names : List String} :
    other ∈ candidates name names ↔
      other ∈ names ∧ other ≠ name ∧ EditDistance.distance name other ≤ maxDistance := by
  simp [candidates]

/-- What is suggested is one of the names to choose from, and not the name itself. -/
theorem mem_of_mem_forName {name other : String} {names : List String}
    (h : other ∈ forName name names) : other ∈ names ∧ other ≠ name := by
  have hmem := (mergeRepeats_sublist _).mem (List.mem_of_mem_take h)
  obtain ⟨hother, hne, -⟩ := mem_candidates.1 hmem
  exact ⟨hother, hne⟩

end GridGame.Suggestion
