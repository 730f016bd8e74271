import GridGame.Proofs.Visibility
import Mathlib.Data.List.TFAE

/-!
# Names in scope

Two walks go through the scopes around a node. The search for a name divides the children of each
scope at the branch and looks back from there; the list of visible names goes through the children
up to the branch. Both see the same assignments (`mem_visibleNames`). So a name that is suggested in
place of an unbound one can itself be used where it is suggested.
-/

namespace GridGame

namespace Tree

variable {t : Tree} {n : Nat} {name : String}

/-! ### Visible names -/

lemma visibleNames_of_parent {p : Nat} (h : t.parent? n = some p) :
    t.visibleNames n = (t.earlier p n).filterMap t.assignedName? ++ t.visibleNames p := by
  rw [visibleNames, scopes_of_parent h, List.flatMap_cons]
  rfl

lemma visibleNames_of_top (h : t.parent? n = none) : t.visibleNames n = [] := by
  rw [visibleNames, scopes_of_top h, List.flatMap_nil]

/-- The names that are listed are those that the search finds. -/
lemma mem_visibleNames : name ∈ t.visibleNames n ↔ ∃ a, t.binding? n name = some a := by
  rw [← Option.ne_none_iff_exists', ← not_iff_not, not_not]
  induction n using Nat.strong_induction_on with
  | _ n ih =>
    cases hp : t.parent? n with
    | none => simp [visibleNames_of_top hp, binding?_of_top hp]
    | some p =>
      rw [visibleNames_of_parent hp, binding?_of_parent hp, Option.or_eq_none_iff,
        ← ih p (lt_of_parent? hp), latest?_eq_none, List.mem_append, not_or, List.mem_filterMap]
      simp only [not_exists, not_and]

/-! ### Lookups -/

lemma outcome_lookup {ε : Type} (t : Tree) (n : Nat) (name : String) :
    (t.lookup (ε := ε) n name).outcome = .ok (t.binding? n name) := rfl

lemma outcome_isDeclared {ε : Type} (t : Tree) (n : Nat) (name : String) :
    (t.isDeclared (ε := ε) n name).outcome = .ok (t.binding? n name).isSome := rfl

lemma require_of_binding? {a : Nat} (h : t.binding? n name = some a) :
    (t.require n name).outcome = .ok a := by
  simp only [require, Reported.outcome_bind, outcome_lookup, h]
  rfl

lemma require_of_unbound (h : t.binding? n name = none) :
    (t.require n name).outcome =
      .error (.unbound name (t.span n) (Suggestion.forName name (t.visibleNames n))) := by
  simp only [require, Reported.outcome_bind, outcome_lookup, h]
  rfl

lemma exists_require : (∃ a, (t.require n name).outcome = .ok a) ↔
    ∃ a, t.binding? n name = some a := by
  cases h : t.binding? n name with
  | none => simp [require_of_unbound h]
  | some a => simp [require_of_binding? h]

lemma valueOf_of_unbound (h : t.binding? n name = none) :
    (t.valueOf n name).outcome =
      .error (.unbound name (t.span n) (Suggestion.forName name (t.visibleNames n))) := by
  rw [valueOf, Reported.outcome_bind, require_of_unbound h]
  rfl

lemma valueOf_of_valueless {a : Nat} (h : t.binding? n name = some a)
    (hnone : t.child? a 1 = none) :
    (t.valueOf n name).outcome = .error (.malformedAssignment name (t.span a)) := by
  rw [valueOf, Reported.outcome_bind, require_of_binding? h]
  simp only [bind, Except.bind, hnone]
  rfl

/-- Wherever a name is looked up, it is listed among the visible names exactly if the search finds
an assignment, which is when it counts as declared and when it can be required. If it cannot, then
it is reported as unbound, and the names suggested in its place are other names, each of which can
be required there. -/
theorem lookups_agree_on_scope (t : Tree) (n : Nat) (name : String) :
    [name ∈ t.visibleNames n,
      ∃ a, (t.lookup (ε := ResolveError) n name).outcome = .ok (some a),
      (t.isDeclared (ε := ResolveError) n name).outcome = .ok true,
      ∃ a, (t.require n name).outcome = .ok a].TFAE ∧
    ∀ e, (t.require n name).outcome = .error e →
      ∃ suggestions, e = .unbound name (t.span n) suggestions ∧
        ∀ other ∈ suggestions, other ≠ name ∧ ∃ a, (t.require n other).outcome = .ok a := by
  constructor
  · apply List.tfae_of_forall (∃ a, t.binding? n name = some a)
    simp [mem_visibleNames, outcome_lookup, outcome_isDeclared, exists_require,
      Option.isSome_iff_exists]
  · intro e he
    cases hbinding : t.binding? n name with
    | some a =>
      rw [require_of_binding? hbinding] at he
      cases he
    | none =>
      rw [require_of_unbound hbinding] at he
      cases he
      refine ⟨_, rfl, fun other hother => ?_⟩
      obtain ⟨hvisible, hne⟩ := Suggestion.mem_of_mem_forName hother
      exact ⟨hne, exists_require.mpr (mem_visibleNames.mp hvisible)⟩

end Tree

end GridGame
