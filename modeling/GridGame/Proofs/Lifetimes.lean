import GridGame.Proofs.Printouts

/-!
# Lifetimes of placed pieces

A square of a board holds the address of the variable whose piece was placed there. Variables of the
setup last as long as the program does, but a game starts over with new ones in each round. So an
address is safe to keep only if the block that declares the piece is the one that declares the
board, or a block around it. All names that a statement uses are declared in scope, yet nothing
keeps a game from placing one of its own pieces on a board of the setup.
-/

namespace GridGame

open Code

namespace Code

/-- The block that declares the variable of a name in scope, after the statements of some blocks.
The innermost block is the first one, with the number 0. -/
def declaringBlock? (blocks : List (List Statement)) (name : String) : Option Nat :=
  blocks.findIdx? fun block => name ∈ declaredNames block

lemma declaringBlock?_singleton {block : List Statement} {name : String}
    (h : ∃ block' ∈ [block], name ∈ declaredNames block') :
    declaringBlock? [block] name = some 0 := by
  simpa [declaringBlock?, List.findIdx?_cons] using h

lemma declaringBlock?_pair {inner outer : List Statement} {name : String}
    (h : ∃ block ∈ [inner, outer], name ∈ declaredNames block) :
    declaringBlock? [inner, outer] name = some (if name ∈ declaredNames inner then 0 else 1) := by
  by_cases hinner : name ∈ declaredNames inner
  · simp [declaringBlock?, List.findIdx?_cons, hinner]
  · have houter : name ∈ declaredNames outer := by simpa [hinner] using h
    simp [declaringBlock?, List.findIdx?_cons, hinner, houter]

lemma exists_mem_declaredNames {blocks : List (List Statement)} {name : String} {initial : Initial}
    (h : declaredAs? blocks name = some initial) :
    ∃ block ∈ blocks, name ∈ declaredNames block := by
  obtain ⟨block, hblock, h⟩ := List.exists_of_findSome?_eq_some h
  obtain ⟨st, hst, h⟩ := List.exists_of_findSome?_eq_some h
  refine ⟨block, hblock, mem_declaredNames.mpr ⟨initial, ?_⟩⟩
  cases st with
  | declare x initial' =>
    rw [Statement.initial?] at h
    split_ifs at h with hx
    cases h
    rw [← hx]
    exact List.mem_reverse.mp hst
  | change | print | place => cases h

/-- One name is declared in the block of another one, or in a block around it. -/
def EnclosesDeclaration (blocks : List (List Statement)) (name name' : String) : Prop :=
  ∃ i j, declaringBlock? blocks name = some i ∧ declaringBlock? blocks name' = some j ∧ j ≤ i

end Code

namespace Tree

variable {t : Tree} {settings : Settings} {defaults : PieceDefaults}

/-! ### Declarations in a game -/

/-- A game declares the name before the node. -/
def DeclaredInGame (t : Tree) (n : Nat) (name : String) : Prop :=
  ∃ d ∈ t.gameNodes, d < n ∧ t.Origin name d

instance (n : Nat) (name : String) : Decidable (t.DeclaredInGame n name) :=
  inferInstanceAs (Decidable (∃ d ∈ t.gameNodes, d < n ∧ t.Origin name d))

lemma exists_lastOrigin? {nodes : List Nat} {name : String} {d : Nat} (hd : d ∈ nodes)
    (horigin : t.Origin name d) : ∃ d', t.lastOrigin? nodes name = some d' := by
  rw [← Option.ne_none_iff_exists', Ne, lastOrigin?_eq_none]
  exact fun hnone => hnone d hd horigin

/-- A variable that can be seen from a statement is in scope there. -/
lemma Numbered.exists_scopeOrigin? (h : t.Numbered) {n d : Nat} {name : String}
    (hn : n ∈ t.statementNodes) (horigin : t.Origin name d) (hd : t.Visible n name d) :
    ∃ d', t.scopeOrigin? n name = some d' := by
  rcases List.mem_append.mp hn with hn | hn
  · obtain ⟨hmem, hlt⟩ := h.mem_children_root_of_visible (mem_setupNodes.mp hn).1 hd
    rw [scopeOrigin?, if_pos hn]
    apply exists_lastOrigin? _ horigin
    simpa [hlt] using mem_setupNodes_of_assigns hmem horigin.assigns
  rw [scopeOrigin?, if_neg (not_mem_setupNodes h hn)]
  obtain ⟨game, hgame, hkind, hchild⟩ := mem_gameNodes.mp hn
  rcases h.visible_of_parent hchild hd with ⟨hmem, hlt⟩ | houter
  · have hbefore : d ∈ t.gameNodes.filter (· < n) := by
      simpa [hlt] using mem_gameNodes.mpr ⟨game, hgame, hkind, hmem⟩
    obtain ⟨d', hd'⟩ := exists_lastOrigin? hbefore horigin
    exact ⟨d', by rw [hd', Option.some_or]⟩
  · obtain ⟨hmem, -⟩ := h.mem_children_root_of_visible hgame houter
    obtain ⟨d', hd'⟩ :=
      exists_lastOrigin? (mem_setupNodes_of_assigns hmem horigin.assigns) horigin
    rw [hd']
    cases t.lastOrigin? (t.gameNodes.filter (· < n)) name with
    | none => exact ⟨d', rfl⟩
    | some d'' => exact ⟨d'', rfl⟩

/-- The names of the piece and of the board of a statement that places a piece. -/
def placedOn? (t : Tree) (n : Nat) : Option (String × String) := do
  guard (t.kind n = .place)
  let piece ← t.child? n 0 >>= t.identName?
  let board ← t.child? n 1 >>= t.identName?
  return (piece, board)

lemma placedOn?_eq_some {n : Nat} {st : Statement} {piece board : String}
    (hlowered : (t.lowerStatement defaults n).outcome = .ok st) :
    t.placedOn? n = some (piece, board) ↔ ∃ row column, st = .place piece board row column := by
  cases statementCode_of_lowerStatement hlowered with
  | declare hkind => simp [placedOn?, hkind]
  | change hkind => simp [placedOn?, hkind]
  | print hkind => simp [placedOn?, hkind]
  | place hkind hpieceNode hboardNode _ _ _ hpiece hboard =>
    simp [placedOn?, hkind, hpieceNode, hboardNode, hpiece, hboard]

/-- A game places pieces that it declares itself only on boards that it declares itself. -/
def PlacesLastingPieces (t : Tree) : Prop :=
  ∀ n ∈ t.gameNodes, ∀ placed ∈ t.placedOn? n,
    t.DeclaredInGame n placed.1 → t.DeclaredInGame n placed.2

instance : Decidable t.PlacesLastingPieces := inferInstanceAs (Decidable (∀ n ∈ _, _))

end Tree

namespace Build

variable {t : Tree} {settings : Settings} {b : Build t settings}

/-! ### Names in scope -/

/-- Every name that a statement uses is declared in one of the blocks around it. -/
lemma From.exists_mem_declaredNames (h : t.Numbered) {n : Nat} {st : Statement}
    {blocks : List (List Statement)} (hfrom : b.From n st blocks) {name : String}
    (hname : name ∈ st.names) : ∃ block ∈ blocks, name ∈ declaredNames block := by
  have huses := h.usesFrom_of_statementCode (Tree.statementCode_of_lowerStatement hfrom.lowered)
  have hsite : some name ∈ (t.statementUses n st).map t.identName? := by
    rw [huses.names]
    exact List.mem_map_of_mem hname
  obtain ⟨u, hu, hname⟩ := List.mem_map.mp hsite
  obtain ⟨name', type, hname', htype, hbinding⟩ := huses.typed u hu
  rw [hname] at hname'
  cases hname'
  obtain ⟨a, ha, hatype⟩ := (Tree.hasType_of_identName? hname).mp htype
  rw [hbinding] at ha
  obtain ⟨d, initial, hd, hinitial, -⟩ := b.exists_declares_of_binding? h hfrom.mem ha hatype
  obtain ⟨d', hd'⟩ := h.exists_scopeOrigin? hfrom.mem (h.origin_of_declares hinitial) hd
  have hscope := hfrom.scope name
  rw [hd'] at hscope
  generalize hdeclared : declaredAs? blocks name = declared at hscope
  cases hscope with
  | some _ => exact Code.exists_mem_declaredNames hdeclared

/-- The game declares a name before one of its statements exactly if the tree does so. -/
lemma mem_declaredNames_take_game (h : t.Numbered) {i n : Nat} (hn : t.gameNodes[i]? = some n)
    {name : String} : name ∈ declaredNames (b.sections.game.take i) ↔ t.DeclaredInGame n name := by
  rw [Tree.mem_declaredNames_iff_origin h (List.forall₂_take i b.lowered_game),
    ← Tree.filter_lt_eq_take t.sorted_gameNodes hn]
  simp [Tree.DeclaredInGame, and_assoc]

/-! ### Placed pieces -/

lemma exists_from_of_placedOn? (h : t.Numbered) (b : Build t settings) {i n : Nat}
    {piece board : String} (hn : t.gameNodes[i]? = some n)
    (hplaced : t.placedOn? n = some (piece, board)) :
    ∃ row column,
      b.From n (.place piece board row column) [b.sections.game.take i, b.sections.setup] := by
  obtain ⟨st, hst, hlowered⟩ := forall₂_getElem? b.lowered_game hn
  obtain ⟨row, column, rfl⟩ := (Tree.placedOn?_eq_some hlowered).mp hplaced
  exact ⟨row, column, from_game h hn hst hlowered⟩

/-- A name that a statement of the game uses is declared in the game or in the setup. -/
lemma From.declaringBlock?_game (h : t.Numbered) {i n : Nat} {st : Statement}
    (hn : t.gameNodes[i]? = some n)
    (hfrom : b.From n st [b.sections.game.take i, b.sections.setup]) {name : String}
    (hname : name ∈ st.names) :
    declaringBlock? [b.sections.game.take i, b.sections.setup] name =
      some (if t.DeclaredInGame n name then 0 else 1) := by
  rw [declaringBlock?_pair (hfrom.exists_mem_declaredNames h hname)]
  simp only [mem_declaredNames_take_game h hn]

/-- The game must not declare the piece alone. -/
lemma From.enclosesDeclaration_game (h : t.Numbered) {i n : Nat} {piece board : String}
    {row column : Expr} (hn : t.gameNodes[i]? = some n)
    (hfrom : b.From n (.place piece board row column) [b.sections.game.take i, b.sections.setup]) :
    EnclosesDeclaration [b.sections.game.take i, b.sections.setup] piece board ↔
      (t.DeclaredInGame n piece → t.DeclaredInGame n board) := by
  have hpiece : piece ∈ (Statement.place piece board row column).names := by
    simp [Statement.names]
  have hboard : board ∈ (Statement.place piece board row column).names := by
    simp [Statement.names]
  simp only [EnclosesDeclaration, hfrom.declaringBlock?_game h hn hpiece,
    hfrom.declaringBlock?_game h hn hboard, Option.some.injEq, exists_and_left, exists_eq_left']
  by_cases hinner : t.DeclaredInGame n piece
  · by_cases hinner' : t.DeclaredInGame n board <;> simp [hinner, hinner']
  · by_cases hinner' : t.DeclaredInGame n board <;> simp [hinner, hinner']

/-- Every piece that is placed is declared in the block of the board it is placed on, or in a block
around it. -/
def PiecesOutliveBoards (b : Build t settings) : Prop :=
  ∀ blocks piece board row column, b.sections.At (.place piece board row column) blocks →
    EnclosesDeclaration blocks piece board

lemma piecesOutliveBoards_iff (h : t.Numbered) (b : Build t settings) :
    b.PiecesOutliveBoards ↔ t.PlacesLastingPieces := by
  constructor
  · rintro houtlive n hn ⟨piece, board⟩ hplaced
    obtain ⟨i, hi⟩ := List.getElem?_of_mem hn
    obtain ⟨row, column, hfrom⟩ := exists_from_of_placedOn? h b hi hplaced
    exact (hfrom.enclosesDeclaration_game h hi).mp (houtlive _ _ _ _ _ hfrom.stands)
  · intro hlasting blocks piece board row column hat
    cases hat with
    | setup hst =>
      obtain ⟨n, hn, hlowered⟩ := forall₂_getElem? b.lowered_setup.flip hst
      have hfrom := from_setup h hn hst hlowered
      refine ⟨0, 0, declaringBlock?_singleton ?_, declaringBlock?_singleton ?_, le_rfl⟩
      · exact hfrom.exists_mem_declaredNames h (by simp [Statement.names])
      · exact hfrom.exists_mem_declaredNames h (by simp [Statement.names])
    | game hst =>
      obtain ⟨n, hn, hlowered⟩ := forall₂_getElem? b.lowered_game.flip hst
      have hplaced := (Tree.placedOn?_eq_some hlowered).mpr ⟨row, column, rfl⟩
      exact ((from_game h hn hst hlowered).enclosesDeclaration_game h hn).mpr
        (hlasting n (List.mem_of_getElem? hn) _ hplaced)

end Build

namespace Tree

variable {t : Tree} {settings : Settings}

/-- Every name that a program uses is declared in one of the blocks around it. The pieces that are
placed last at least as long as their boards exactly if the game places its own pieces on its own
boards only. -/
theorem placed_pieces_outlive_boards_iff (hfinished : t.Finished) {program : String}
    (hgenerate : (t.generate settings).outcome = .ok program) :
    ∃ b : Build t settings, program = b.text ∧
      (∀ st blocks, b.sections.At st blocks →
        ∀ name ∈ st.names, ∃ block ∈ blocks, name ∈ declaredNames block) ∧
      (b.PiecesOutliveBoards ↔ t.PlacesLastingPieces) := by
  have h := hfinished.numbered
  obtain ⟨b, htext⟩ := exists_build_of_generate hfinished.kind_root hgenerate
  refine ⟨b, htext, ?_, b.piecesOutliveBoards_iff h⟩
  intro st blocks hat name hname
  obtain ⟨n, hfrom⟩ := Build.exists_from_of_at h hat
  exact hfrom.exists_mem_declaredNames h hname

/-- The events of a statement that places a piece in the corner of a board. -/
def placeEvents (piece board : String) : List BuildEvent :=
  [.opened .place .none .detached, .leaf .ident (.text piece) .detached,
    .leaf .ident (.text board) .detached, .opened .pair .none .detached,
    .leaf .integer (.integer 1) .detached, .leaf .integer (.integer 1) .detached, .closed, .closed]

/-- A game that places a piece of the setup and a piece of its own on a board of its own. -/
def boardInGame : List BuildEvent :=
  [.opened .start .none .detached] ++ pieceEvents "king" [] [] ++
    [.opened .game .none .detached] ++ assignmentEvents "grid" .board (.dimensions 2 2) ++
    pieceEvents "pawn" [] [] ++ placeEvents "king" "grid" ++ placeEvents "pawn" "grid" ++
    [.closed, .closed]

theorem boardInGame_outlived :
    ∃ (t : Tree) (program : String), t.Finished ∧ (t.generate {}).outcome = .ok program ∧
      t.PlacesLastingPieces ∧ ∃ b : Build t {}, program = b.text ∧ b.PiecesOutliveBoards ∧
        ∃ blocks row column, b.sections.At (.place "pawn" "grid" row column) blocks := by
  obtain ⟨t, hfinished, hgenerated, hlasting, hi, hplaced⟩ := exists_finished_of_check boardInGame
    (fun t => (t.generate {}).outcome.isOk ∧ t.PlacesLastingPieces ∧
      t.gameNodes[3]? = some 17 ∧ t.placedOn? 17 = some ("pawn", "grid")) (by decide +kernel)
  obtain ⟨program, hgenerate⟩ := exists_of_isOk hgenerated
  obtain ⟨b, htext, -, hiff⟩ := placed_pieces_outlive_boards_iff hfinished hgenerate
  obtain ⟨row, column, hfrom⟩ := Build.exists_from_of_placedOn? hfinished.numbered b hi hplaced
  exact ⟨t, program, hfinished, hgenerate, hlasting, b, htext, hiff.mpr hlasting, _, row, column,
    hfrom.stands⟩

/-- A game that places a piece of its own on a board of the setup. -/
def boardInSetup : List BuildEvent :=
  [.opened .start .none .detached] ++ assignmentEvents "b" .board (.dimensions 2 2) ++
    [.opened .game .none .detached] ++ pieceEvents "p" [] [] ++ placeEvents "p" "b" ++
    [.closed, .closed]

theorem boardInSetup_outlives_piece :
    ∃ (t : Tree) (program : String), t.Finished ∧ (t.generate {}).outcome = .ok program ∧
      ∀ b : Build t {}, ¬ b.PiecesOutliveBoards ∧
        ∃ blocks row column, b.sections.At (.place "p" "b" row column) blocks ∧
          declaringBlock? blocks "p" = some 0 ∧ declaringBlock? blocks "b" = some 1 := by
  obtain ⟨t, hfinished, hgenerated, hi, hplaced, hpiece, hboard⟩ :=
    exists_finished_of_check boardInSetup (fun t => (t.generate {}).outcome.isOk ∧
      t.gameNodes[1]? = some 8 ∧ t.placedOn? 8 = some ("p", "b") ∧ t.DeclaredInGame 8 "p" ∧
      ¬ t.DeclaredInGame 8 "b") (by decide +kernel)
  have h := hfinished.numbered
  obtain ⟨program, hgenerate⟩ := exists_of_isOk hgenerated
  refine ⟨t, program, hfinished, hgenerate, fun b => ⟨?_, ?_⟩⟩
  · intro houtlive
    have hlasting := (b.piecesOutliveBoards_iff h).mp houtlive
    exact hboard (hlasting 8 (List.mem_of_getElem? hi) _ hplaced hpiece)
  · obtain ⟨row, column, hfrom⟩ := b.exists_from_of_placedOn? h hi hplaced
    refine ⟨_, row, column, hfrom.stands, ?_, ?_⟩
    · rw [hfrom.declaringBlock?_game h hi (by simp [Statement.names]), if_pos hpiece]
    · rw [hfrom.declaringBlock?_game h hi (by simp [Statement.names]), if_neg hboard]

end Tree

end GridGame
