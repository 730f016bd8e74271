import GridGame.Proofs.Printouts

/-!
# Names that are declared once

An assignment declares its name unless an earlier assignment to it can be seen. In one scope of the
tree a name therefore has one origin. The setup is such a scope, and so is every game; but the
statements of all games go to one and the same block. A program declares a name twice in a block
exactly if two of its games declare that name, since neither can see into the other.
-/

namespace GridGame

open Code

namespace Tree

variable {t : Tree} {settings : Settings} {defaults : PieceDefaults}

/-! ### Origins of declared names -/

def originName? (t : Tree) (n : Nat) : Option String :=
  (t.assignedName? n).filter fun name => t.binding? n name = none

lemma originName?_eq_some {n : Nat} {name : String} :
    t.originName? n = some name ↔ t.Origin name n := by
  rw [originName?, Option.filter_eq_some_iff, decide_eq_true_iff]
  constructor
  · rintro ⟨hassigns, hunseen⟩
    exact ⟨hassigns, hunseen⟩
  · intro horigin
    exact ⟨horigin.assigns, horigin.unseen⟩

/-- A statement declares the name that has its origin at the node of the statement. -/
lemma declared?_eq_originName? (h : t.Numbered) {n : Nat} {st : Statement}
    (hlowered : (t.lowerStatement defaults n).outcome = .ok st) :
    st.declared?.map Prod.fst = t.originName? n := by
  have horigins (name : String) :
      st.declared?.map Prod.fst = some name ↔ t.originName? n = some name := by
    rw [originName?_eq_some]
    constructor
    · intro hdeclared
      obtain ⟨⟨x, type⟩, hentry, rfl⟩ := Option.map_eq_some_iff.mp hdeclared
      obtain ⟨hassigns, hunseen, -⟩ :=
        h.of_declared? (statementCode_of_lowerStatement hlowered) hentry
      exact ⟨hassigns, hunseen⟩
    · intro horigin
      obtain ⟨initial, rfl, -⟩ := h.declares_of_origin horigin hlowered
      rfl
  exact Option.ext horigins

/-- Statements declare the names that have their origins at the nodes of the statements. -/
lemma declaredNames_eq_filterMap (h : t.Numbered) {nodes : List Nat} {statements : List Statement}
    (hlowered : List.Forall₂ (fun n st => (t.lowerStatement defaults n).outcome = .ok st) nodes
      statements) :
    declaredNames statements = nodes.filterMap t.originName? := by
  unfold declaredNames
  induction hlowered with
  | nil => rfl
  | cons hst _ ih =>
    rw [List.filterMap_cons, List.filterMap_cons, declared?_eq_originName? h hst, ih]

/-! ### One scope -/

/-- Nodes of one scope declare different names. -/
lemma nodup_originNames (h : t.Numbered) {scope : Nat} {nodes : List Nat}
    (hnodes : nodes.Sublist (t.children scope)) : (nodes.filterMap t.originName?).Nodup := by
  rw [List.Nodup, List.pairwise_filterMap]
  refine ((t.sorted_children scope).sublist hnodes).imp_of_mem ?_
  rintro d d' hd hd' hlt name hname _ hname' rfl
  rw [originName?_eq_some] at hname hname'
  exact hlt.ne (h.origin_eq_of_siblings (hnodes.subset hd) (hnodes.subset hd') hname hname')

/-- No two games declare the same name. -/
def GamesDeclareApart (t : Tree) : Prop :=
  t.games.Pairwise fun game game' => ∀ d ∈ t.children game, ∀ name ∈ t.originName? d,
    ∀ d' ∈ t.children game', ¬ t.Origin name d'

instance : Decidable t.GamesDeclareApart := inferInstanceAs (Decidable (t.games.Pairwise _))

/-- The names that all games declare differ exactly if those of different games do. -/
lemma nodup_originNames_gameNodes (h : t.Numbered) :
    (t.gameNodes.filterMap t.originName?).Nodup ↔ t.GamesDeclareApart := by
  rw [gameNodes, List.filterMap_flatMap, List.Nodup, List.pairwise_flatMap, GamesDeclareApart]
  simp only [List.mem_filterMap, originName?_eq_some, forall_exists_index, and_imp, Option.mem_def]
  constructor
  · rintro ⟨-, hapart⟩
    refine hapart.imp ?_
    intro game game' hne d hd name hname d' hd' hname'
    exact hne name d hd hname name d' hd' hname' rfl
  · intro hapart
    refine ⟨fun game _ => nodup_originNames h (List.Sublist.refl _), hapart.imp ?_⟩
    rintro game game' hne name d hd hname _ d' hd' hname' rfl
    exact hne d hd name hname d' hd' hname'

end Tree

namespace Build

variable {t : Tree} {settings : Settings}

/-- The setup declares no name twice. -/
lemma nodup_declaredNames_setup (h : t.Numbered) (b : Build t settings) :
    (declaredNames b.sections.setup).Nodup := by
  rw [Tree.declaredNames_eq_filterMap h b.lowered_setup]
  exact Tree.nodup_originNames h List.filter_sublist

lemma nodup_declaredNames_game (h : t.Numbered) (b : Build t settings) :
    (declaredNames b.sections.game).Nodup ↔ t.GamesDeclareApart := by
  rw [Tree.declaredNames_eq_filterMap h b.lowered_game]
  exact Tree.nodup_originNames_gameNodes h

end Build

namespace Tree

variable {t : Tree} {settings : Settings}

/-- In a generated program the setup declares no name twice. The body of the game loop declares no
name twice exactly if no two games of the tree declare the same name, as is always the case with at
most one game. -/
theorem names_declared_once_iff (hfinished : t.Finished) {program : String}
    (hgenerate : (t.generate settings).outcome = .ok program) :
    ∃ b : Build t settings, program = b.text ∧
      (declaredNames b.sections.setup).Nodup ∧
      ((declaredNames b.sections.game).Nodup ↔ t.GamesDeclareApart) ∧
      (t.games.length ≤ 1 → (declaredNames b.sections.game).Nodup) := by
  have h := hfinished.numbered
  obtain ⟨b, htext⟩ := exists_build_of_generate hfinished.kind_root hgenerate
  refine ⟨b, htext, b.nodup_declaredNames_setup h, b.nodup_declaredNames_game h, ?_⟩
  intro hone
  rw [b.nodup_declaredNames_game h, GamesDeclareApart]
  rcases hgames : t.games with _ | ⟨game, _ | ⟨game', rest⟩⟩
  · exact .nil
  · exact List.pairwise_singleton ..
  · simp [hgames] at hone

/-- Two games that change a variable of the setup and declare a name of their own each. The setup
goes on between them, and declares the name of the first game as well. -/
def gamesApart : List BuildEvent :=
  [.opened .start .none .detached] ++ assignmentEvents "x" .integer (.integer 1) ++
    [.opened .game .none .detached] ++ assignmentEvents "x" .integer (.integer 2) ++
    assignmentEvents "y" .ident (.text "x") ++ [.closed] ++
    assignmentEvents "y" .string (.text "between") ++
    [.opened .game .none .detached] ++ assignmentEvents "x" .boolean (.boolean true) ++
    assignmentEvents "z" .ident (.text "y") ++ [.closed, .closed]

theorem gamesApart_declare_once :
    ∃ (t : Tree) (program : String), t.Finished ∧ (t.generate {}).outcome = .ok program ∧
      t.games.length = 2 ∧ t.GamesDeclareApart ∧ ∃ b : Build t {}, program = b.text ∧
        (declaredNames b.sections.setup).Nodup ∧ (declaredNames b.sections.game).Nodup := by
  obtain ⟨t, hfinished, hgenerated, htwo, hapart⟩ := exists_finished_of_check gamesApart
    (fun t => (t.generate {}).outcome.isOk ∧ t.games.length = 2 ∧ t.GamesDeclareApart)
    (by decide +kernel)
  obtain ⟨program, hgenerate⟩ := exists_of_isOk hgenerated
  obtain ⟨b, htext, hsetup, hiff, -⟩ := names_declared_once_iff hfinished hgenerate
  exact ⟨t, program, hfinished, hgenerate, htwo, hapart, b, htext, hsetup, hiff.mpr hapart⟩

/-- Two games that assign to the same name. -/
def gamesAlike : List BuildEvent :=
  [.opened .start .none .detached, .opened .game .none .detached] ++
    assignmentEvents "x" .integer (.integer 1) ++ [.closed, .opened .game .none .detached] ++
    assignmentEvents "x" .integer (.integer 2) ++ [.closed, .closed]

theorem gamesAlike_declare_twice :
    ∃ (t : Tree) (program : String), t.Finished ∧ (t.generate {}).outcome = .ok program ∧
      ∀ b : Build t {}, declaredNames b.sections.game = ["x", "x"] ∧
        ¬ (declaredNames b.sections.game).Nodup := by
  obtain ⟨t, hfinished, hgenerated, hnames⟩ := exists_finished_of_check gamesAlike
    (fun t => (t.generate {}).outcome.isOk ∧ t.gameNodes.filterMap t.originName? = ["x", "x"])
    (by decide +kernel)
  obtain ⟨program, hgenerate⟩ := exists_of_isOk hgenerated
  refine ⟨t, program, hfinished, hgenerate, fun b => ?_⟩
  rw [declaredNames_eq_filterMap hfinished.numbered b.lowered_game, hnames]
  exact ⟨rfl, by decide⟩

end Tree

end GridGame
