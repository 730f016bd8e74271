import GridGame.Notice
import GridGame.Suggestion
import GridGame.Tree

/-!
# Scopes

Names carry no types: what a name holds at some place of a program is what the latest visible
assignment to it says. Every node above a place is a scope. In a scope the assignments before the
branch that leads to the place are visible, and the latest wins; scopes are searched innermost
first.

A name may be assigned another name. Following such aliases leads to ever smaller node numbers,
so it ends.
-/

namespace GridGame

/-- Why a name has no value. -/
inductive ResolveError where
  | unbound (name : String) (span : Span) (suggestions : List String)
  | malformedAssignment (name : String) (span : Span)
deriving DecidableEq

namespace ResolveError

/-- The words that offer other names. -/
def suggestionText : List String → String
  | [] => ""
  | names => " (did you mean `" ++ String.intercalate "`, `" names ++ "`?)"

def message : ResolveError → String
  | .unbound name span suggestions =>
    s!"unbound identifier `{name}` at {span.text}" ++ suggestionText suggestions
  | .malformedAssignment name span => s!"assignment to `{name}` at {span.text} has no value"

end ResolveError

namespace Tree

variable (t : Tree)

def assignedName? (n : Nat) : Option String :=
  if t.kind n = .assign then (t.child? n 0).bind t.identName? else none

/-- The scopes around a node, innermost first, each with the branch that leads to the node. -/
def scopes (n : Nat) : List (Nat × Nat) :=
  match _h : t.parent? n with
  | some p => (p, n) :: scopes p
  | none => []
termination_by n
decreasing_by exact lt_of_parent? _h

/-- The children of a scope before a branch, provided that the branch is one of them. -/
def before? (scope branch : Nat) : Option (List Nat) :=
  ((t.children scope).idxOf? branch).map fun i => (t.children scope).take i

/-- The last of some nodes that assigns to a name. -/
def latest? (nodes : List Nat) (name : String) : Option Nat :=
  nodes.reverse.find? fun a => t.assignedName? a == some name

/-- The latest visible assignment to a name. -/
def binding? (n : Nat) (name : String) : Option Nat :=
  (t.scopes n).findSome? fun (scope, branch) =>
    (t.before? scope branch).bind fun siblings => t.latest? siblings name

/-- The children of a scope up to a branch. -/
def earlier (scope branch : Nat) : List Nat := (t.children scope).takeWhile (· != branch)

/-- The names assigned in the scopes around a node, innermost scope first, each scope in program
order, as often as they are assigned. -/
def visibleNames (n : Nat) : List String :=
  (t.scopes n).flatMap fun (scope, branch) => (t.earlier scope branch).filterMap t.assignedName?

/-! ### Bindings come earlier -/

theorem of_mem_scopes {t : Tree} {n scope branch : Nat} (h : (scope, branch) ∈ t.scopes n) :
    branch ∈ t.children scope ∧ branch ≤ n := by
  fun_induction scopes t n with
  | case1 n p hp ih =>
    rcases List.mem_cons.1 h with h | h
    · cases h
      exact ⟨mem_children_of_parent? hp, Nat.le_refl _⟩
    · have := lt_of_parent? hp
      have := ih h
      exact ⟨this.1, by omega⟩
  | case2 n hp => simp at h

/-- A branch that is there divides the children where the search for it stops. -/
theorem before?_eq {t : Tree} {scope branch : Nat} (h : branch ∈ t.children scope) :
    t.before? scope branch = some (t.earlier scope branch) := by
  have hfind : (t.children scope).idxOf? branch = some ((t.children scope).idxOf branch) :=
    List.findIdx?_eq_some_iff_findIdx_eq.2 ⟨List.idxOf_lt_length_of_mem h, rfl⟩
  rw [before?, hfind, Option.map_some, earlier, List.takeWhile_eq_take_findIdx_not]
  simp only [List.idxOf, bne, Bool.not_not]

theorem lt_of_mem_earlier {t : Tree} {scope branch a : Nat} (hb : branch ∈ t.children scope)
    (ha : a ∈ t.earlier scope branch) : ∀ c ∈ a :: t.children a, c < branch := by
  have hsplit : t.earlier scope branch ++ (t.children scope).dropWhile (· != branch) =
      t.children scope := List.takeWhile_append_dropWhile
  have hpairs := t.ordered.siblings scope
  change (t.children scope).Pairwise _ at hpairs
  rw [← hsplit] at hpairs
  refine (List.pairwise_append.1 hpairs).2.2 a ha branch ?_
  -- the branch itself is not among the children before it
  rw [← hsplit] at hb
  rcases List.mem_append.1 hb with hb | hb
  · have := List.all_eq_true.1 List.all_takeWhile branch hb
    simp at this
  · exact hb

theorem lt_of_binding? {t : Tree} {n a : Nat} {name : String} (h : t.binding? n name = some a) :
    ∀ c ∈ a :: t.children a, c < n := by
  obtain ⟨⟨scope, branch⟩, hmem, hfind⟩ := List.exists_of_findSome?_eq_some h
  obtain ⟨hb, hle⟩ := of_mem_scopes hmem
  simp only [before?_eq hb, Option.bind_some] at hfind
  have ha := List.mem_of_find?_eq_some hfind
  intro c hc
  have := lt_of_mem_earlier hb (List.mem_reverse.1 ha) c hc
  omega

/-! ### Looking names up -/

/-- Look a name up. A binding that is found is reported. -/
def lookup {ε : Type} (n : Nat) (name : String) : Reported ε (Option Nat) where
  notices :=
    (t.binding? n name).toList.map fun a => .bound name n (t.span n) a (t.describe a)
  outcome := .ok (t.binding? n name)

/-- Whether a name is bound at a node. -/
def isDeclared {ε : Type} (n : Nat) (name : String) : Reported ε Bool := do
  return (← t.lookup n name).isSome

/-- The assignment that binds a name at a node. -/
def require (n : Nat) (name : String) : Reported ResolveError Nat := do
  match ← t.lookup n name with
  | some a => return a
  | none =>
    .fail (.unbound name (t.span n) (Suggestion.forName name (t.visibleNames n)))

/-- The value that is assigned to a name. -/
def valueOf (n : Nat) (name : String) : Reported ResolveError Nat := do
  let a ← t.require n name
  match t.child? a 1 with
  | some value => return value
  | none => .fail (.malformedAssignment name (t.span a))

/-- A value is found before the place that asks for it. -/
theorem lt_of_valueOf {t : Tree} {n value : Nat} {name : String}
    (h : (t.valueOf n name).outcome = .ok value) : value < n := by
  simp only [valueOf, require, lookup, Reported.outcome_bind] at h
  cases hb : t.binding? n name with
  | none => simp [hb, bind, Except.bind, Reported.fail] at h
  | some a =>
    cases hc : t.child? a 1 with
    | none => simp [hb, hc, bind, Except.bind, Reported.fail] at h
    | some v =>
      simp [hb, hc, bind, Except.bind] at h
      subst h
      exact lt_of_binding? hb v (List.mem_cons_of_mem _ (mem_children_of_child? hc))

/-- The value that a name holds in the end: aliases are followed to the value they stand for. -/
def effectiveValue (n : Nat) (name : String) : Reported ResolveError Nat :=
  let found := t.valueOf n name
  match _h : found.outcome with
  | .error e => ⟨found.notices, .error e⟩
  | .ok value =>
    match t.identName? value with
    | none => ⟨found.notices, .ok value⟩
    | some other =>
      let next := effectiveValue value other
      ⟨found.notices ++ next.notices, next.outcome⟩
termination_by n
decreasing_by exact lt_of_valueOf _h

/-- The kind of the value that a name holds in the end. -/
def effectiveKind (n : Nat) (name : String) : Reported ResolveError Kind := do
  return t.kind (← t.effectiveValue n name)

end Tree

end GridGame
