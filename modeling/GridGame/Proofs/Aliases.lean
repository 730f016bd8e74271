import GridGame.Proofs.Lookups
import GridGame.Proofs.Success
import Mathlib.Logic.Relation

/-!
# Chains of aliases

A name may be assigned another name, which is looked up from where it stands, and so on. Each such
hop goes back: an assignment is not visible from inside its own value, so its value comes before the
place that asks (`preorderIndex_lt_of_holds`). The chase therefore ends, and it ends in one of three
ways: at a value that is no name, at a name that is not assigned, or at an assignment without a
value (`Stops`).
-/

namespace GridGame

open Relation

/-- A name, and the node from which it is looked up. -/
structure Reference where
  node : Nat
  name : String

namespace Tree

variable {t : Tree} {r r' : Reference}

/-- The value of the assignment that a reference is bound to. -/
def Holds (t : Tree) (r : Reference) (v : Nat) : Prop :=
  ∃ a, t.binding? r.node r.name = some a ∧ t.child? a 1 = some v

/-- A hop: the value of a reference is a name again, which is looked up from there. -/
def Hop (t : Tree) (r r' : Reference) : Prop :=
  t.Holds r r'.node ∧ t.identName? r'.node = some r'.name

instance (t : Tree) (r : Reference) (v : Nat) : Decidable (t.Holds r v) :=
  decidable_of_iff ((t.binding? r.node r.name).bind (t.child? · 1) = some v)
    Option.bind_eq_some_iff

instance (t : Tree) (r r' : Reference) : Decidable (t.Hop r r') :=
  inferInstanceAs (Decidable (t.Holds r r'.node ∧ t.identName? r'.node = some r'.name))

/-- How a chase of aliases ends that has come to a reference. -/
inductive Stops (t : Tree) (r : Reference) : Except ResolveError Nat → Prop
  | value {v : Nat} (hholds : t.Holds r v) (hreal : t.identName? v = none) : Stops t r (.ok v)
  | unbound (hnone : t.binding? r.node r.name = none) :
      Stops t r (.error (.unbound r.name (t.span r.node)
        (Suggestion.forName r.name (t.visibleNames r.node))))
  | valueless {a : Nat} (hbinding : t.binding? r.node r.name = some a)
      (hnone : t.child? a 1 = none) :
      Stops t r (.error (.malformedAssignment r.name (t.span a)))

/-! ### Every hop goes back -/

lemma lt_of_holds {v : Nat} (h : t.Holds r v) : v < r.node := by
  obtain ⟨a, hbinding, hvalue⟩ := h
  exact lt_of_binding? hbinding v (List.mem_cons_of_mem _ (mem_children_of_child? hvalue))

/-- What is found for a reference comes before it in program order. -/
lemma Numbered.preorderIndex_lt_of_holds (h : t.Numbered) {v : Nat} (hholds : t.Holds r v) :
    t.preorderIndex v < t.preorderIndex r.node := by
  have hlt := lt_of_holds hholds
  obtain ⟨a, hbinding, hvalue⟩ := hholds
  -- a node that sees an assignment has a parent, so it is in the tree
  have hsize : r.node < t.size := by
    by_contra hout
    have htop : t.parent? r.node = none := parentAt_of_size_le (Nat.le_of_not_lt hout)
    rw [binding?_of_top htop] at hbinding
    cases hbinding
  rw [h.preorderIndex_eq hsize, h.preorderIndex_eq (hlt.trans hsize)]
  exact hlt

lemma wellFounded_hop (t : Tree) : WellFounded fun r' r => t.Hop r r' :=
  Subrelation.wf (fun h => lt_of_holds h.1) (measure Reference.node).wf

/-! ### What the chase comes to -/

/-- A chase that has come to a reference ends there or goes on with a hop. -/
lemma stops_or_hop (t : Tree) (r : Reference) :
    (∃ outcome, t.Stops r outcome) ∨ ∃ r', t.Hop r r' := by
  cases hbinding : t.binding? r.node r.name with
  | none => exact .inl ⟨_, .unbound hbinding⟩
  | some a =>
    cases hvalue : t.child? a 1 with
    | none => exact .inl ⟨_, .valueless hbinding hvalue⟩
    | some v =>
      cases hname : t.identName? v with
      | none => exact .inl ⟨_, .value ⟨a, hbinding, hvalue⟩ hname⟩
      | some name => exact .inr ⟨⟨v, name⟩, ⟨a, hbinding, hvalue⟩, hname⟩

lemma outcome_of_hop (h : t.Hop r r') :
    (t.effectiveValue r.node r.name).outcome = (t.effectiveValue r'.node r'.name).outcome := by
  obtain ⟨hholds, hname⟩ := h
  rw [effectiveValue_eq, Reported.outcome_bind, valueOf_eq_ok.mpr hholds]
  show (t.finalValue r'.node).outcome = _
  rw [finalValue, hname]

lemma outcome_of_stops {outcome : Except ResolveError Nat} (h : t.Stops r outcome) :
    (t.effectiveValue r.node r.name).outcome = outcome := by
  rw [effectiveValue_eq, Reported.outcome_bind]
  cases h with
  | @value v hholds hreal =>
    rw [valueOf_eq_ok.mpr hholds]
    show (t.finalValue v).outcome = _
    rw [finalValue, hreal]
    rfl
  | unbound hnone =>
    rw [valueOf_of_unbound hnone]
    rfl
  | valueless hbinding hnone =>
    rw [valueOf_of_valueless hbinding hnone]
    rfl

lemma outcome_of_reflTransGen (h : ReflTransGen t.Hop r r') :
    (t.effectiveValue r.node r.name).outcome = (t.effectiveValue r'.node r'.name).outcome := by
  induction h with
  | refl => rfl
  | tail _ hhop ih => rw [ih, outcome_of_hop hhop]

/-- From every reference the chase comes to an end. -/
lemma exists_stops (t : Tree) (r : Reference) :
    ∃ last outcome, ReflTransGen t.Hop r last ∧ t.Stops last outcome := by
  induction r using t.wellFounded_hop.induction with
  | _ r ih =>
    rcases t.stops_or_hop r with ⟨outcome, hstops⟩ | ⟨r', hhop⟩
    · exact ⟨r, outcome, .refl, hstops⟩
    · obtain ⟨last, outcome, hchain, hstops⟩ := ih r' hhop
      exact ⟨last, outcome, .head hhop hchain, hstops⟩

/-- In a finished tree, every value found on the way from a name to what it holds in the end comes
before the node that it is found from, so no chain of aliases goes on for ever. What comes out is
how the chain ends: at a value that is no name, or with an error about the last name of the chain,
at the node from which it is not bound or at the assignment that has no value. -/
theorem effectiveValue_ends_alias_chain (hfinished : t.Finished) (n : Nat) (name : String) :
    (∀ r v, t.Holds r v → t.preorderIndex v < t.preorderIndex r.node) ∧
    (WellFounded fun r' r => t.Hop r r') ∧
    ∀ outcome, (t.effectiveValue n name).outcome = outcome ↔
      ∃ last, ReflTransGen t.Hop ⟨n, name⟩ last ∧ t.Stops last outcome := by
  refine ⟨?_, t.wellFounded_hop, ?_⟩
  · intro r v hholds
    exact hfinished.numbered.preorderIndex_lt_of_holds hholds
  · intro outcome
    constructor
    · rintro rfl
      obtain ⟨last, outcome, hchain, hstops⟩ := t.exists_stops ⟨n, name⟩
      have hend := (outcome_of_reflTransGen hchain).trans (outcome_of_stops hstops)
      exact ⟨last, hchain, hend ▸ hstops⟩
    · rintro ⟨last, hchain, hstops⟩
      exact (outcome_of_reflTransGen hchain).trans (outcome_of_stops hstops)

/-- The events of an assignment of a name to a name, which stands at a place of its own. -/
def aliasEvents (name other : String) (place : Span) : List BuildEvent :=
  [.opened .assign .none .detached, .leaf .ident (.text name) .detached,
    .leaf .ident (.text other) place, .closed]

/-- Two names are assigned to each other before a game and in it. A third is assigned to itself, and
a fourth to one whose assignment has no value. -/
def mutualAliases : List BuildEvent :=
  [.opened .start .none .detached] ++ assignmentEvents "x" .integer (.integer 1) ++
    aliasEvents "y" "x" .detached ++ aliasEvents "z" "z" ⟨4, 5⟩ ++
    [.opened .assign .none ⟨6, 7⟩, .leaf .ident (.text "w") .detached, .closed] ++
    aliasEvents "v" "w" .detached ++ [.opened .game .none .detached] ++
    aliasEvents "x" "y" .detached ++ aliasEvents "y" "x" .detached ++
    [.leaf .output .none .detached, .closed, .closed]

/-- The name that is used in the game stands for the number: the chain goes through both names in
the game and then through both before it. The other two chains end where their last name stands, and
at the assignment without a value. -/
theorem effectiveValue_mutualAliases :
    ∃ t : Tree, t.Finished ∧
      ReflTransGen t.Hop ⟨22, "y"⟩ ⟨6, "x"⟩ ∧ t.preorderIndex 3 < t.preorderIndex 6 ∧
      (t.effectiveValue 22 "y").outcome = .ok 3 ∧
      (t.effectiveValue 22 "z").outcome =
        .error (.unbound "z" ⟨4, 5⟩ (Suggestion.forName "z" (t.visibleNames 9))) ∧
      (t.effectiveValue 22 "v").outcome = .error (.malformedAssignment "w" ⟨6, 7⟩) := by
  obtain ⟨t, hfinished, ⟨hy, hx, hy'⟩, ⟨hholds, hreal⟩, ⟨hz, hunbound, hplace⟩, hv, hbinding, hnone,
      hplace'⟩ :=
    exists_finished_of_check mutualAliases (fun t =>
      (t.Hop ⟨22, "y"⟩ ⟨21, "x"⟩ ∧ t.Hop ⟨21, "x"⟩ ⟨18, "y"⟩ ∧ t.Hop ⟨18, "y"⟩ ⟨6, "x"⟩) ∧
      (t.Holds ⟨6, "x"⟩ 3 ∧ t.identName? 3 = none) ∧
      (t.Hop ⟨22, "z"⟩ ⟨9, "z"⟩ ∧ t.binding? 9 "z" = none ∧ t.span 9 = ⟨4, 5⟩) ∧
      t.Hop ⟨22, "v"⟩ ⟨14, "w"⟩ ∧ t.binding? 14 "w" = some 10 ∧ t.child? 10 1 = none ∧
        t.span 10 = ⟨6, 7⟩) (by decide +kernel)
  have hchain : ReflTransGen t.Hop ⟨22, "y"⟩ ⟨6, "x"⟩ := .head hy (.head hx (.single hy'))
  obtain ⟨hback, -, hends⟩ := effectiveValue_ends_alias_chain hfinished 22 "y"
  refine ⟨t, hfinished, hchain, hback _ _ hholds, ?_, ?_, ?_⟩
  · exact (hends _).mpr ⟨_, hchain, .value hholds hreal⟩
  · rw [← hplace]
    exact ((effectiveValue_ends_alias_chain hfinished 22 "z").2.2 _).mpr
      ⟨_, .single hz, .unbound hunbound⟩
  · rw [← hplace']
    exact ((effectiveValue_ends_alias_chain hfinished 22 "v").2.2 _).mpr
      ⟨_, .single hv, .valueless hbinding hnone⟩

end Tree

end GridGame
