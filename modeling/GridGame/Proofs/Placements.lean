import GridGame.Proofs.Origins

/-!
# Placements before the game

The board that pieces are placed on is chosen before any code is written, as the first one that is
declared in the setup section. Lowering decides on its own whether an assignment declares a board.
Both agree: the chosen board is declared in the generated code with the size it was chosen with, so
every placement falls on a square of it.
-/

namespace GridGame

open Code

namespace Tree

variable {t : Tree} {defaults : PieceDefaults}

/-! ### The board of the game -/

lemma declarationOf?_eq_board {n value : Nat} {name x : String} {width height : UInt32} :
    t.declarationOf? n name value = some (.board x width height) ↔
      name = x ∧ t.parent? n = some t.root ∧ t.kind value = .board ∧
        t.payload value = .dimensions width height := by
  unfold declarationOf?
  split
  · next w h hkind hpayload =>
    split_ifs with hroot
    · simp [hkind, hpayload, hroot]
    · simp [hroot]
  · next hkind _ => simp [hkind]
  · next hkind _ => simp [hkind]
  · next hother _ =>
    simp only [reduceCtorEq, false_iff]
    rintro ⟨-, -, hkind, hpayload⟩
    exact hother width height hkind hpayload

/-- The assignment chooses the board of the game: it is the first one in the setup section that
gives a name a board. -/
structure Chooses (t : Tree) (n : Nat) (board : BoardSummary) : Prop where
  declares : t.declaration? n = some (.board board.name board.width board.height)
  first : ∀ m < n, ∀ name width height, t.declaration? m ≠ some (.board name width height)

lemma mem_of_lt_of_range_eq {k n m : Nat} {pre post : List Nat}
    (h : List.range k = pre ++ n :: post) (hm : m < n) : m ∈ pre := by
  have hsorted : (List.range k).Pairwise (· < ·) := List.pairwise_lt_range
  have hn : n < k := List.mem_range.mp (h ▸ by simp)
  have hmem : m ∈ List.range k := List.mem_range.mpr (hm.trans hn)
  rw [h] at hsorted hmem
  obtain ⟨-, hrest, -⟩ := List.pairwise_append.mp hsorted
  rcases List.mem_append.mp hmem with hmem | hmem
  · exact hmem
  · rcases List.mem_cons.mp hmem with rfl | hmem
    · exact absurd hm (lt_irrefl _)
    · exact absurd hm (List.rel_of_pairwise_cons hrest hmem).le.not_gt

lemma exists_chooses (h : t.Numbered) {board : Board}
    (hboard : t.declarations.findSome? Declaration.board? = some board) :
    ∃ n, t.Chooses n board.summary := by
  obtain ⟨pre, d, post, hsplit, hd, hpre⟩ := List.findSome?_eq_some_iff.mp hboard
  rw [declarations, h.preorder_eq_range] at hsplit
  obtain ⟨before, rest, hrange, rfl, hrest⟩ := List.filterMap_eq_append_iff.mp hsplit
  obtain ⟨skipped, n, later, rfl, hskipped, hn, -⟩ := List.filterMap_eq_cons_iff.mp hrest
  refine ⟨n, ?_, ?_⟩
  · cases d with
    | board name width height =>
      cases hd
      exact hn
    | innerBoard => cases hd
    | piece => cases hd
  · intro m hm name width height hdeclares
    rw [← List.append_assoc] at hrange
    rcases List.mem_append.mp (mem_of_lt_of_range_eq hrange hm) with hmem | hmem
    · cases hpre _ (List.mem_filterMap.mpr ⟨m, hmem, hdeclares⟩)
    · rw [hskipped m hmem] at hdeclares
      cases hdeclares

/-- A board that the setup declares in the generated code is a board to place pieces on. -/
lemma declaration?_of_declares (h : t.Numbered) {n : Nat} (hn : n ∈ t.setupNodes) {name : String}
    {width height : UInt32}
    (hlowered : (t.lowerStatement defaults n).outcome =
      .ok (.declare name (.board width height))) :
    t.declaration? n = some (.board name width height) := by
  have hassigns := (h.origin_of_declares hlowered).assigns
  cases statementCode_of_lowerStatement hlowered with
  | declare hkind htarget hvalue hname hnew hinitial =>
    cases hinitial with
    | board hboard hsize =>
      refine declaration?_eq_some.mpr ⟨name, _, hassigns, hvalue, declarationOf?_eq_board.mpr ?_⟩
      exact ⟨rfl, (h.mem_children n t.root).mp (mem_setupNodes.mp hn).1, hboard,
        dimensions_eq_ok.mp hsize⟩

/-- The board of the game is declared where it is chosen: had an earlier assignment declared the
name, it would have declared it as a board, and that board would have been chosen. -/
lemma Chooses.declared (h : t.Numbered) {n : Nat} {board : BoardSummary} (hn : t.Chooses n board)
    (hlowered : ∀ n ∈ t.setupNodes, ∃ st,
      (t.lowerStatement defaults n).outcome = .ok st) :
    n ∈ t.setupNodes ∧ (t.lowerStatement defaults n).outcome =
      .ok (.declare board.name (.board board.width board.height)) := by
  obtain ⟨name, value, hname, hvalue, hof⟩ := declaration?_eq_some.mp hn.declares
  obtain ⟨rfl, hroot, hkind, -⟩ := declarationOf?_eq_board.mp hof
  have hsetup : n ∈ t.setupNodes := mem_setupNodes_of_assigns (mem_children_of_parent? hroot) hname
  have htype : t.AssignsType n .board := assignsType_of_board hvalue hkind
  obtain ⟨d, hd, hseen, initial, hinitial, hdtype⟩ :=
    h.exists_declares h.selfContained_setupNodes hlowered hsetup hname
  obtain ⟨width, height, rfl⟩ := Initial.eq_board_of_type (hdtype.unique htype)
  have hdeclared := declaration?_of_declares h hd hinitial
  rcases hseen with rfl | hseen
  · refine ⟨hsetup, ?_⟩
    rw [hn.declares] at hdeclared
    cases hdeclared
    exact hinitial
  · exact absurd hdeclared (hn.first d (h.lt_of_visible hseen) _ _ _)

end Tree

/-! ### Placements in the program -/

lemma exists_join_of_mem {l : List String} {s : String} (h : s ∈ l) :
    ∃ u v, String.join l = u ++ s ++ v := by
  obtain ⟨pre, post, rfl⟩ := List.append_of_mem h
  exact ⟨String.join pre, String.join post, by simp [String.join_append, String.append_assoc]⟩

namespace Build

variable {t : Tree} {settings : Settings}

lemma mem_placements {b : Build t settings} {p : Placement} :
    p ∈ b.placements ↔ ∃ board, b.setup.board = some board ∧ p.board = board.name ∧
      (p.x, p.y, p.occupant) ∈ board.occupied := by
  obtain ⟨name, x, y, occupant⟩ := p
  simp only [placements, List.mem_flatMap, Option.mem_toList, List.mem_map, Prod.exists,
    Placement.mk.injEq]
  constructor
  · rintro ⟨board, hboard, x, y, occupant, hmem, rfl, rfl, rfl, rfl⟩
    exact ⟨board, hboard, rfl, hmem⟩
  · rintro ⟨board, hboard, rfl, hmem⟩
    exact ⟨board, hboard, x, y, occupant, hmem, rfl, rfl, rfl, rfl⟩

/-- What is placed is a player's copy of a piece that the program declares. -/
lemma exists_copy {b : Build t settings} {p : Placement} (hp : p ∈ b.placements) :
    ∃ copy ∈ b.copies, copy.qualifiedName = p.occupant.piece ++ p.occupant.owner.suffix := by
  obtain ⟨board, hboard, -, hmem⟩ := mem_placements.mp hp
  obtain ⟨howner, hpiece⟩ := b.placedFrom.listed board hboard _ _ _ hmem
  obtain ⟨copy, hcopy, hname⟩ := List.mem_map.mp hpiece
  refine ⟨copy, List.mem_flatMap.mpr ⟨_, howner, hcopy⟩, ?_⟩
  rw [Piece.qualifiedName, hname, b.placedFrom.uniform.owned _ copy hcopy]

/-- Statements of the setup are written before the copies, and those before the placements. -/
lemma exists_text_eq (b : Build t settings) {st : Statement} (hst : st ∈ b.sections.setup)
    {copy : Piece} (hcopy : copy ∈ b.copies) {p : Placement} (hp : p ∈ b.placements) :
    ∃ u v w x, b.text = u ++ st.render ++ v ++ renderCopy copy ++ w ++ p.render ++ x := by
  obtain ⟨u, v, hsetup⟩ := exists_join_of_mem (List.mem_map_of_mem (f := Statement.render) hst)
  obtain ⟨u', v', hcopies⟩ := exists_join_of_mem (List.mem_map_of_mem (f := renderCopy) hcopy)
  obtain ⟨u'', v'', hplaced⟩ := exists_join_of_mem (List.mem_map_of_mem (f := Placement.render) hp)
  refine ⟨opening ++ setupMarker ++ "\n" ++ u, v ++ u', v' ++ u'', ?_, ?_⟩
  rotate_left
  · rw [text, Statement.renderAll, hsetup, hcopies, hplaced]
    simp only [String.append_assoc]
    rfl

end Build

/-- The statement that declares a board of that name and size. -/
def BoardSummary.declaration (board : BoardSummary) : Statement :=
  .declare board.name (.board board.width board.height)

lemma BoardSummary.render_declaration (board : BoardSummary) : ∃ rest, board.declaration.render =
    s!"struct Piece *{board.name}[{board.height.toNat}][{board.width.toNat}];\n" ++ rest :=
  exists_append_of_append (exists_append_of_append ⟨_, rfl⟩ _) _

namespace Tree

variable {t : Tree} {settings : Settings}

lemma Chooses.size_pos {n : Nat} {board : BoardSummary} (h : t.Numbered) (hn : t.Chooses n board)
    (b : Build t settings) : 1 ≤ board.width.toNat ∧ 1 ≤ board.height.toNat := by
  obtain ⟨_, _, _, -, hof⟩ := declaration?_eq_some.mp hn.declares
  obtain ⟨-, hroot, -⟩ := declarationOf?_eq_board.mp hof
  have hmem : n ∈ t.preorder := by
    rw [h.preorder_eq_range, List.mem_range]
    exact lt_size_of_mem_children (mem_children_of_parent? hroot)
  obtain ⟨hwidth, hheight⟩ :=
    Setup.size_of_run b.collects (List.mem_filterMap.mpr ⟨n, hmem, hn.declares⟩)
  exact ⟨Setup.one_le_toNat hwidth, Setup.one_le_toNat hheight⟩

/-- When a tree compiles with a board for its game, that board has at least one square, and it is
declared in the setup by the very assignment that chooses it. Every placement before the game puts
a copy of a piece on a square of that board, and is written after the declarations of the board and
of the copy. Without a board nothing is placed. -/
theorem placements_on_declared_board (hfinished : t.Finished) {c : Compilation}
    (hcompile : (t.compile settings).outcome = .ok c) :
    (t.generate settings).outcome = .ok c.program ∧
      ∃ b : Build t settings, c.program = b.text ∧
        (c.board = none → b.placements = []) ∧
        ∀ board, c.board = some board →
          1 ≤ board.width.toNat ∧ 1 ≤ board.height.toNat ∧
          (∃ n, ∃ i : Nat, t.Chooses n board ∧ t.setupNodes[i]? = some n ∧
            b.sections.setup[i]? = some board.declaration) ∧
          (∃ rest, board.declaration.render =
            s!"struct Piece *{board.name}[{board.height.toNat}][{board.width.toNat}];\n" ++ rest) ∧
          ∀ p ∈ b.placements, p.y < board.height.toNat ∧ p.x < board.width.toNat ∧
            ∃ copy ∈ b.copies,
              p.render = s!"{board.name}[{p.y}][{p.x}] = &{copy.qualifiedName};\n" ∧
              ∃ u v w x, c.program = u ++ board.declaration.render ++ v ++ renderCopy copy ++ w ++
                p.render ++ x := by
  have h := hfinished.numbered
  obtain ⟨hgenerate, b, htext, hboard⟩ := exists_build_of_compile hfinished.kind_root hcompile
  rw [← b.placedFrom.summary] at hboard
  refine ⟨hgenerate, b, htext, ?_, ?_⟩
  · intro hnone
    rw [hboard, Option.map_eq_none_iff] at hnone
    simp [Build.placements, hnone]
  intro board hsome
  rw [hboard] at hsome
  obtain ⟨placed, hplaced, rfl⟩ := Option.map_eq_some_iff.mp hsome
  obtain ⟨n, hn⟩ : ∃ n, t.Chooses n placed.summary := by
    rw [b.placedFrom.summary, Option.map_eq_some_iff] at hsome
    obtain ⟨chosen, hchosen, hsummary⟩ := hsome
    rw [← hsummary]
    exact exists_chooses h (b.board_declared ▸ hchosen)
  obtain ⟨hwidth, hheight⟩ := hn.size_pos h b
  obtain ⟨hsetup, hdeclared⟩ := hn.declared h (exists_lowered b.lowered_setup)
  obtain ⟨i, hi⟩ := List.getElem?_of_mem hsetup
  obtain ⟨st, hst, hlowered⟩ := forall₂_getElem? b.lowered_setup hi
  rw [hdeclared] at hlowered
  cases hlowered
  refine ⟨hwidth, hheight, ⟨n, i, hn, hi, hst⟩, placed.summary.render_declaration, ?_⟩
  intro p hp
  obtain ⟨board, hboard', hname, hmem⟩ := Build.mem_placements.mp hp
  rw [hplaced] at hboard'
  cases hboard'
  obtain ⟨hx, hy⟩ := (b.placedFrom.rectangular placed hplaced).lt_of_mem_occupied hmem
  obtain ⟨copy, hcopy, hqualified⟩ := Build.exists_copy hp
  refine ⟨hy, hx, copy, hcopy, ?_, ?_⟩
  · rw [hqualified, Placement.render, renderOccupant, hname]
    simp only [toString, String.append_assoc]
    rfl
  · rw [htext]
    exact b.exists_text_eq (List.mem_of_getElem? hst) hcopy hp

/-- A board on which each player starts with a pawn; it is assigned another board later. -/
def replacedBoard : List BuildEvent :=
  [.opened .start .none .detached] ++
    pieceEvents "pawn" [(4, 5)]
      [.leaf .ident (.text "start") .detached, .opened .pair .none .detached,
        .leaf .integer (.integer 2) .detached, .leaf .integer (.integer 1) .detached, .closed] ++
    assignmentEvents "grid" .board (.dimensions 2 3) ++
    assignmentEvents "spare" .board (.dimensions 1 1) ++
    assignmentEvents "grid" .ident (.text "spare") ++ [.closed]

theorem placements_on_replaced_board :
    ∃ (t : Tree) (c : Compilation), t.Finished ∧ (t.compile {}).outcome = .ok c ∧
      c.board = some ⟨"grid", 2, 3⟩ ∧ (t.generate {}).outcome = .ok c.program ∧
      ∃ b : Build t {}, c.program = b.text ∧
        (∃ n, ∃ i : Nat, t.Chooses n ⟨"grid", 2, 3⟩ ∧ t.setupNodes[i]? = some n ∧
          b.sections.setup[i]? = some (.declare "grid" (.board 2 3))) ∧
        ∀ p ∈ b.placements, p.y < 3 ∧ p.x < 2 := by
  obtain ⟨t, hfinished, hboard⟩ := exists_finished_of_check replacedBoard (fun t =>
    (t.compile {}).outcome.toOption.map Compilation.board = some (some ⟨"grid", 2, 3⟩))
    (by decide +kernel)
  obtain ⟨c, hcompile, hboard⟩ := Option.map_eq_some_iff.mp hboard
  have hcompile := toOption_eq_some.mp hcompile
  obtain ⟨hgenerate, b, htext, -, hsome⟩ := placements_on_declared_board hfinished hcompile
  obtain ⟨-, -, hdeclared, -, hplaced⟩ := hsome _ hboard
  refine ⟨t, c, hfinished, hcompile, hboard, hgenerate, b, htext, hdeclared, ?_⟩
  intro p hp
  obtain ⟨hy, hx, -⟩ := hplaced p hp
  exact ⟨hy, hx⟩

end Tree

end GridGame
