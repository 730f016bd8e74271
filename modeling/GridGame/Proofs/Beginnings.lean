import GridGame.Proofs.Builds
import GridGame.Proofs.Continuations
import GridGame.Proofs.DocumentTrees

/-!
# Common beginnings of programs

A document whose statements are the first ones of another document has a tree that the other tree
continues. Two programs that start with the same statements therefore lower each of these statements
in the same way, whatever follows, and the code of both starts with the code of what they have in
common.
-/

namespace GridGame

open Code

namespace Document

/-- The document with only the first `n` of its members, as children of the outermost node. -/
def beginning (n : Nat) : Document → Document
  | .node kind literal span children properties =>
    .node kind literal span ((pairs properties ++ children).take n) []

lemma kind_beginning (n : Nat) (d : Document) : (d.beginning n).kind = d.kind := by
  cases d
  rfl

lemma members_beginning (n : Nat) (d : Document) :
    (d.beginning n).members = d.members.take n := by
  cases d
  rfl

/-! ### The tree of a document -/

variable {d : Document} {t : Tree}

lemma size_of_rows (ht : t.nodes.toList = d.rows none 0) : t.size = sizeOfAll d.members + 1 := by
  rw [Tree.size, ← Array.length_toList, ht, length_rows, size_eq]

lemma node_of_rows (ht : t.nodes.toList = d.rows none 0) (n : Nat) :
    t.node n = (d.row none 0 :: rowsOfAll 0 1 d.members).getD n .absent := by
  rw [Tree.node, nodeAt_eq_getD, ht, rows_eq]

lemma children_of_rows (ht : t.nodes.toList = d.rows none 0) :
    t.children 0 = numbers 1 d.members := by
  have hnode : t.node 0 = d.row none 0 := node_of_rows ht 0
  rw [Tree.children, childrenAt, ← Tree.node, hnode]
  cases d
  rfl

lemma mem_children_of_mem_propertyTable (ht : t.nodes.toList = d.rows none 0) {n : Nat}
    {p : Nat × Nat} (hp : p ∈ t.propertyTable n) : p.1 ∈ t.children n ∧ p.2 ∈ t.children n := by
  unfold Tree.propertyTable at hp
  split at hp
  · next properties hpayload =>
    have hmem : ∀ c ∈ [p.1, p.2], c ∈ t.children n := by
      intro c hc
      apply List.mem_of_mem_take
      rw [← flatMap_of_payload ht hpayload]
      exact List.mem_flatMap.mpr ⟨p, hp, hc⟩
    exact ⟨hmem _ (by simp), hmem _ (by simp)⟩
  · cases hp

/-- A tree continues the tree of a document with the first of its statements. -/
lemma continues_of_rows {d' : Document} {s : Tree} (hs : s.nodes.toList = d'.rows none 0)
    (ht : t.nodes.toList = d.rows none 0) (hmembers : d'.members <+: d.members) :
    t.Continues s where
  node := by
    intro n hn
    obtain ⟨rest, hrest⟩ := hmembers
    obtain ⟨m, rfl⟩ := Nat.exists_eq_succ_of_ne_zero hn.1.ne'
    have hlt := hn.2
    rw [size_of_rows hs, Nat.succ_lt_succ_iff, ← length_rowsOfAll 0 1] at hlt
    rw [node_of_rows hs, node_of_rows ht, ← hrest, rowsOfAll_append, List.getD_cons_succ,
      List.getD_cons_succ, List.getD_eq_getElem?_getD, List.getElem?_append_left hlt,
      List.getD_eq_getElem?_getD]
  outermost := by
    obtain ⟨rest, hrest⟩ := hmembers
    rw [children_of_rows hs, children_of_rows ht, ← hrest, numbers_append]
    exact List.prefix_append _ _
  table := mem_children_of_mem_propertyTable hs

/-! ### What programs have in common -/

/-- The code of a beginning is the beginning of the code. -/
lemma exists_renderAll_append {first statements : List Statement} (h : first <+: statements) :
    ∃ rest, Statement.renderAll statements = Statement.renderAll first ++ rest := by
  obtain ⟨more, rfl⟩ := h
  exact ⟨Statement.renderAll more, by simp [Statement.renderAll]⟩

/-- Two programs that start with the same statements lower each of these statements in the same
way, with the same notices, code, written text and failure. If both can be lowered completely, then
so can what they have in common, and the code of its setup is the beginning of the setup of each. -/
theorem beginnings_lowered_alike {d d' : Document} (hd : d.kind = .start) (hd' : d'.kind = .start)
    {n : Nat} (hagree : d.members.take n = d'.members.take n) (defaults : PieceDefaults) :
    ∃ t t' s : Tree, d.toTree = .ok t ∧ d'.toTree = .ok t' ∧ (d.beginning n).toTree = .ok s ∧
      (t.children t.root).length = d.members.length ∧
      (t'.children t'.root).length = d'.members.length ∧
      (t.children t.root).take n = s.children s.root ∧
      (t'.children t'.root).take n = s.children s.root ∧
      (∀ c ∈ s.children s.root, t.lowerSection defaults c = t'.lowerSection defaults c ∧
        ∀ o, (t.emit o c).written = (t'.emit o c).written ∧
          (t.emit o c).failure = (t'.emit o c).failure) ∧
      ∀ sections sections', (t.lowerSections defaults t.root).outcome = .ok sections →
        (t'.lowerSections defaults t'.root).outcome = .ok sections' →
        ∃ common, (s.lowerSections defaults s.root).outcome = .ok common ∧
          common.setup <+: sections.setup ∧ common.setup <+: sections'.setup ∧
          (∃ rest, Statement.renderAll sections.setup =
            Statement.renderAll common.setup ++ rest) ∧
          ∃ rest, Statement.renderAll sections'.setup =
            Statement.renderAll common.setup ++ rest := by
  obtain ⟨t, ht, hroot, hrows⟩ := exists_toTree hd
  obtain ⟨t', ht', hroot', hrows'⟩ := exists_toTree hd'
  obtain ⟨s, hs, hroots, hrowss⟩ := exists_toTree ((kind_beginning n d).trans hd)
  have hmembers := members_beginning n d
  have hcontinues : t.Continues s :=
    continues_of_rows hrowss hrows (hmembers ▸ List.take_prefix n _)
  have hcontinues' : t'.Continues s :=
    continues_of_rows hrowss hrows' (hmembers ▸ hagree ▸ List.take_prefix n _)
  refine ⟨t, t', s, ht, ht', hs, ?_⟩
  rw [hroot, hroot', hroots, children_of_rows hrows, children_of_rows hrows',
    children_of_rows hrowss, hmembers]
  refine ⟨length_numbers .., length_numbers .., take_numbers .., ?_, ?_, ?_⟩
  · rw [take_numbers, hagree]
  · intro c hc
    have hinner : s.Inner c := by
      rw [← hmembers, ← children_of_rows hrowss] at hc
      exact Tree.inner_of_mem_children hc
    refine ⟨?_, fun o => ?_⟩
    · rw [hcontinues.lowerSection hinner, hcontinues'.lowerSection hinner]
    · obtain ⟨hwritten, hfailure⟩ := hcontinues.emit hinner o
      obtain ⟨hwritten', hfailure'⟩ := hcontinues'.emit hinner o
      exact ⟨hwritten.trans hwritten'.symm, hfailure.trans hfailure'.symm⟩
  · intro sections sections' hsections hsections'
    obtain ⟨common, hcommon, hsetup, -⟩ := hcontinues.exists_lowerSections hsections
    obtain ⟨common', hcommon', hsetup', -⟩ := hcontinues'.exists_lowerSections hsections'
    cases hcommon.symm.trans hcommon'
    exact ⟨common, hcommon, hsetup, hsetup', exists_renderAll_append hsetup,
      exists_renderAll_append hsetup'⟩

/-- An assignment of a literal to a name. -/
def assignment (name : String) (kind : Kind) (literal : Literal) : Document :=
  .node .assign .none .detached
    [.node .ident (.text name) .detached [] [], .node kind literal .detached [] []] []

/-- A program that declares a variable, prints it in a game, and goes on with another statement. -/
def printingGame (last : Document) : Document :=
  .node .start .none .detached
    [assignment "x" .integer (.integer 1),
      .node .game .none .detached
        [.node .output .none .detached [.node .ident (.text "x") .detached [] []] []] [],
      last] []

lemma exists_sections_of_check {d : Document} {t : Tree} (ht : d.toTree = .ok t)
    (hcheck : ∃ t ∈ d.toTree.toOption, (t.lowerSections {} t.root).outcome.isOk) :
    ∃ sections, (t.lowerSections {} t.root).outcome = .ok sections := by
  rw [ht] at hcheck
  obtain ⟨t', ht', hok⟩ := hcheck
  cases ht'
  exact Tree.exists_of_isOk hok

theorem beginnings_lowered_alike_printingGame :
    ∃ (t t' s : Tree) (sections sections' common : Sections),
      (printingGame (assignment "x" .integer (.integer 2))).toTree = .ok t ∧
      (printingGame (assignment "y" .string (.text "late"))).toTree = .ok t' ∧
      ((printingGame (assignment "x" .integer (.integer 2))).beginning 2).toTree = .ok s ∧
      (s.children s.root).length = 2 ∧
      (∀ c ∈ s.children s.root, t.lowerSection {} c = t'.lowerSection {} c) ∧
      (t.lowerSections {} t.root).outcome = .ok sections ∧
      (t'.lowerSections {} t'.root).outcome = .ok sections' ∧
      (s.lowerSections {} s.root).outcome = .ok common ∧
      common.setup <+: sections.setup ∧ common.setup <+: sections'.setup := by
  have hagree : (printingGame (assignment "x" .integer (.integer 2))).members.take 2 =
      (printingGame (assignment "y" .string (.text "late"))).members.take 2 := rfl
  obtain ⟨t, t', s, ht, ht', hs, hlength, -, htake, -, halike, hsetup⟩ :=
    beginnings_lowered_alike rfl rfl hagree {}
  obtain ⟨sections, hsections⟩ := exists_sections_of_check ht (by decide +kernel)
  obtain ⟨sections', hsections'⟩ := exists_sections_of_check ht' (by decide +kernel)
  obtain ⟨common, hcommon, hfirst, hfirst', -⟩ := hsetup sections sections' hsections hsections'
  refine ⟨t, t', s, sections, sections', common, ht, ht', hs, ?_, fun c hc => (halike c hc).1,
    hsections, hsections', hcommon, hfirst, hfirst'⟩
  rw [← htake, List.length_take, hlength]
  rfl

end Document

end GridGame
