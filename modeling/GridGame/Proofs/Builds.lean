import GridGame.Proofs.Setups
import GridGame.Proofs.Variables

/-!
# Builds

A build is the way from a tree to its program: the setup that the tree declares, the statements it
is lowered to, and the setup in which all pieces are placed. Every program that is generated or
compiled is the text of such a build (`exists_build_of_compile`).
-/

namespace GridGame

open Code Progress

/-! ### Nodes of statements -/

namespace Tree

variable {t : Tree} {defaults : PieceDefaults}

lemma mem_setupNodes {n : Nat} :
    n ∈ t.setupNodes ↔ n ∈ t.children t.root ∧ t.kind n ≠ .game := by
  simp [setupNodes]

lemma sorted_setupNodes (t : Tree) : t.setupNodes.Pairwise (· < ·) :=
  (t.sorted_children t.root).sublist List.filter_sublist

lemma mem_gameNodes {n : Nat} :
    n ∈ t.gameNodes ↔ ∃ game ∈ t.children t.root, t.kind game = .game ∧ n ∈ t.children game := by
  simp [gameNodes, games, and_assoc]

lemma lowered_setup {nodes : List Nat} {parts : List Sections}
    (h : List.Forall₂ (fun c part => (t.lowerSection defaults c).outcome = .ok part) nodes parts) :
    List.Forall₂ (fun c st => (t.lowerStatement defaults c).outcome = .ok st)
      (nodes.filter (t.kind · ≠ .game)) (parts.flatMap Sections.setup) := by
  induction h with
  | nil => exact .nil
  | @cons c part nodes parts hpart _ ih =>
    rcases lowerSection_eq_ok.mp hpart with ⟨hkind, game, -, rfl⟩ | ⟨hkind, st, hst, rfl⟩
    · simpa [hkind] using ih
    · rw [List.filter_cons_of_pos (by simpa using hkind)]
      exact .cons hst ih

end Tree

/-! ### Builds -/

/-- A statement that puts an occupant on a square of a board before the game starts. -/
structure Placement where
  board : String
  x : Nat
  y : Nat
  occupant : Occupant

def Placement.render (p : Placement) : String := renderOccupant p.board p.x p.y p.occupant

def Setup.withBody (s : Setup) (body : String) : Setup := { s with body := body }

/-- How the program of a tree comes about. -/
structure Build (t : Tree) (settings : Settings) where
  declared : Setup
  sections : Sections
  setup : Setup
  collects : Run (Setup.declare t) (.new settings.pieces) t.declarations declared
  lowers : (t.lowerSections settings.pieces t.root).outcome = .ok sections
  places : Run Setup.placeStart (declared.withBody (Statement.renderAll sections.setup))
    declared.starts setup

namespace Build

variable {t : Tree} {settings : Settings}

/-- The players' copies of the pieces, as they are declared in the program. -/
def copies (b : Build t settings) : List Piece := Owner.players.flatMap b.setup.catalog.pieces

/-- The statements that place the pieces. -/
def placements (b : Build t settings) : List Placement :=
  b.setup.board.toList.flatMap fun board =>
    board.occupied.map fun (x, y, occupant) => ⟨board.name, x, y, occupant⟩

def text (b : Build t settings) : String :=
  opening ++ (setupMarker ++ "\n" ++ Statement.renderAll b.sections.setup ++
      String.join (b.copies.map renderCopy) ++ String.join (b.placements.map Placement.render) ++
    renderLoop ⟨Statement.renderAll b.sections.game, .rounds settings.rounds⟩) ++ closing

lemma renderSetup_eq (b : Build t settings)
    (hbody : b.setup.body = Statement.renderAll b.sections.setup) (marked : Bool) :
    renderSetup { b.setup with placed := marked } =
      setupMarker ++ "\n" ++ Statement.renderAll b.sections.setup ++
        String.join (b.copies.map renderCopy) ++
        String.join (b.placements.map Placement.render) := by
  unfold placements
  rw [← hbody]
  cases hboard : b.setup.board with
  | none =>
    simp only [renderSetup, hboard]
    rfl
  | some board =>
    simp only [renderSetup, hboard, Option.toList_some, List.flatMap_singleton, List.map_map]
    rfl

lemma catalog_declared (b : Build t settings) : b.declared.catalog.Uniform :=
  Setup.uniform_of_run b.collects Catalog.uniform_empty

/-- The board of the game is the first that is declared in the setup section. -/
lemma board_declared (b : Build t settings) :
    b.declared.board = t.declarations.findSome? Declaration.board? := by
  rw [Setup.board_of_run b.collects]
  rfl

lemma placedFrom (b : Build t settings) : b.declared.PlacedFrom b.setup := by
  have hblank : ∀ board, b.declared.board = some board →
      board.Rectangular ∧ board.occupied = [] := by
    intro board hboard
    rw [b.board_declared] at hboard
    obtain ⟨d, -, hd⟩ := List.exists_of_findSome?_eq_some hboard
    cases d with
    | board name width height =>
      cases hd
      exact ⟨Board.rectangular_blank .., Board.occupied_blank ..⟩
    | innerBoard => cases hd
    | piece => cases hd
  obtain ⟨huniform, hshared, hsummary, hrectangular, hlisted⟩ :=
    Setup.placedFrom_of_run b.places (fun _ h => h) b.catalog_declared hblank
  exact ⟨huniform, hshared, hsummary, hrectangular, hlisted⟩

lemma lowered_setup (b : Build t settings) :
    List.Forall₂ (fun n st => (t.lowerStatement settings.pieces n).outcome = .ok st) t.setupNodes
      b.sections.setup := by
  obtain ⟨parts, hparts, hjoin⟩ := Tree.lowerSections_eq_ok.mp b.lowers
  rw [← hjoin]
  exact Tree.lowered_setup hparts

lemma lowered_game (b : Build t settings) :
    List.Forall₂ (fun n st => (t.lowerStatement settings.pieces n).outcome = .ok st) t.gameNodes
      b.sections.game := by
  obtain ⟨parts, hparts, hjoin⟩ := Tree.lowerSections_eq_ok.mp b.lowers
  rw [← hjoin]
  exact Tree.lowered_game hparts

/-- The statements of both sections, in the order in which they are written. -/
def statements (b : Build t settings) : List Statement := b.sections.setup ++ b.sections.game

lemma lowered (b : Build t settings) :
    List.Forall₂ (fun n st => (t.lowerStatement settings.pieces n).outcome = .ok st)
      t.statementNodes b.statements :=
  List.rel_append b.lowered_setup b.lowered_game

end Build

namespace Tree

variable {t : Tree} {settings : Settings}

/-- A tree declares its outline by a run through its declarations. -/
lemma run_of_outline {o : Outline} (h : (t.outline settings).outcome = .ok o) :
    Run (Setup.declare t) (.new settings.pieces) t.declarations o.setup := by
  obtain ⟨hfailure, rfl⟩ := Progress.toReported_eq_ok.mp (Reported.mapError_eq_ok.mp h)
  have hcollect : (Setup.collect t (.new settings.pieces)).failure = none := hfailure
  unfold Setup.collect andThen at hcollect
  split at hcollect
  · next error herror =>
    rw [herror] at hcollect
    cases hcollect
  · next hsteps =>
    have hstate : ((Outline.new settings).collect t).state.setup =
        (steps (Setup.declare t) (.new settings.pieces) t.declarations).state := by
      simp only [Outline.collect, Progress.lift, Outline.withSetup, Setup.collect, andThen,
        Outline.new, hsteps]
    rw [hstate]
    exact run_of_steps hsteps

/-- Placing all pieces is a run through the squares they start on. -/
lemma run_of_placeAll {s : Setup} (hplaced : s.placed = false) (h : s.placeAll.failure = none) :
    ∃ s', Run Setup.placeStart s s.starts s' ∧ s.placeAll.state = { s' with placed := true } := by
  simp only [Setup.placeAll, hplaced, Bool.false_eq_true, if_false, andThen] at h ⊢
  split at h
  · next error herror =>
    rw [herror] at h
    cases h
  · next hsteps =>
    exact ⟨_, run_of_steps hsteps, by simp only [finished]⟩

/-- In an outline that has no code yet, the code is that of the statements. -/
lemma append_of_blank {o : Outline} {ending : Ending} (hbody : o.setup.body = "")
    (hloop : o.loop = ⟨"", ending⟩) (sections : Sections) :
    o.append sections = ⟨o.setup.withBody (Statement.renderAll sections.setup),
      ⟨Statement.renderAll sections.game, ending⟩⟩ := by
  simp [Outline.append, Outline.appendSetup, Outline.appendGame, Setup.withBody, hbody, hloop]

/-- The statements that a tree is lowered to, and the placing of all pieces, make a build. -/
lemma exists_build_of_placeAll {o : Outline} {sections : Sections}
    (ho : (t.outline settings).outcome = .ok o)
    (hsections : (t.lowerSections o.setup.defaults t.root).outcome = .ok sections)
    (hfailure : (o.setup.withBody (Statement.renderAll sections.setup)).placeAll.failure = none) :
    ∃ b : Build t settings, b.declared = o.setup ∧ b.sections = sections ∧
      b.setup.body = Statement.renderAll sections.setup ∧
      (o.setup.withBody (Statement.renderAll sections.setup)).placeAll.state =
        { b.setup with placed := true } := by
  obtain ⟨⟨hdefaults, -⟩, -⟩ := outline_eq_ok ho
  have hrun := run_of_outline ho
  obtain ⟨placed, hplaces, hplaced⟩ := run_of_placeAll
    (s := o.setup.withBody (Statement.renderAll sections.setup)) (Setup.placed_of_run hrun) hfailure
  have hkept : placed.body = Statement.renderAll sections.setup :=
    (hplaces.keeps (P := Setup.Holds o.setup.defaults (Statement.renderAll sections.setup))
      (fun _ _ _ _ _ hstep hs => hs.placeStart hstep) ⟨rfl, rfl⟩).2
  exact ⟨⟨o.setup, sections, placed, hrun, hdefaults ▸ hsections, hplaces⟩, rfl, rfl, hkept,
    hplaced⟩

lemma exists_build_of_program (hstart : t.kind t.root = .start) {o : Outline} {program : String}
    (ho : (t.outline settings).outcome = .ok o) (h : (t.program o).outcome = .ok program) :
    ∃ b : Build t settings, b.declared = o.setup ∧ program = b.text := by
  obtain ⟨⟨-, hbody⟩, hloop⟩ := outline_eq_ok ho
  obtain ⟨sections, hsections, hfailure, rfl⟩ := program_eq_ok hstart h
  rw [append_of_blank hbody hloop] at hfailure ⊢
  obtain ⟨b, hdeclared, rfl, hkept, hplaced⟩ := exists_build_of_placeAll ho hsections hfailure
  refine ⟨b, hdeclared, ?_⟩
  simp only [Outline.placeAll, Progress.lift, Outline.withSetup, hplaced, renderOutline, Build.text]
  rw [← b.renderSetup_eq hkept true]

lemma exists_build_of_generate (hstart : t.kind t.root = .start) {program : String}
    (h : (t.generate settings).outcome = .ok program) :
    ∃ b : Build t settings, program = b.text := by
  obtain ⟨o, ho, h⟩ := Reported.bind_eq_ok.mp h
  obtain ⟨b, -, htext⟩ := exists_build_of_program hstart ho h
  exact ⟨b, htext⟩

/-- A compilation has the text of a build for its program, which generating the tree gives too. -/
lemma exists_build_of_compile (hstart : t.kind t.root = .start) {c : Compilation}
    (h : (t.compile settings).outcome = .ok c) :
    (t.generate settings).outcome = .ok c.program ∧
      ∃ b : Build t settings, c.program = b.text ∧
        c.board = b.declared.board.map Board.summary := by
  simp only [compile, Reported.bind_eq_ok, Reported.outcome_pure, Except.ok.injEq] at h
  obtain ⟨o, ho, _, -, program, hprogram, rfl⟩ := h
  obtain ⟨b, hdeclared, htext⟩ := exists_build_of_program hstart ho hprogram
  refine ⟨Reported.bind_eq_ok.mpr ⟨o, ho, hprogram⟩, b, htext, ?_⟩
  rw [hdeclared]

/-! ### Trees from events -/

/-- The events of the declaration of a piece with properties. -/
def pieceEvents (name : String) (table : List (Nat × Nat)) (properties : List BuildEvent) :
    List BuildEvent :=
  [.opened .assign .none .detached, .leaf .ident (.text name) .detached,
    .opened .piece (.properties table) .detached] ++ properties ++ [.closed, .closed]

lemma toOption_eq_some {ε α : Type} {x : Except ε α} {a : α} :
    x.toOption = some a ↔ x = .ok a := by
  cases x with
  | error e => simp [Except.toOption]
  | ok b => simp [Except.toOption]

lemma exists_of_isOk {ε α : Type} {x : Except ε α} (h : x.isOk) : ∃ a, x = .ok a := by
  cases x with
  | error e => cases h
  | ok a => exact ⟨a, rfl⟩

end Tree

end GridGame
