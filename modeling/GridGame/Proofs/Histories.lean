import GridGame.Proofs.Setups

/-!
# Histories of setups

An outline is worked on by operations in any order, and some of them are refused. Whatever is asked
for, only four things ever happen to its setup: a board is chosen, a piece is registered, a piece is
put on a square, and all pieces are marked as placed. `Setup.History` lists these once. That every
operation comes down to them is the one fact about operations that is needed
(`Setup.History.perform`); what holds after any operations then follows by induction on histories.
-/

namespace GridGame

open Progress

/-! ### Operations -/

/-- A piece as it is declared, before either player has a copy. -/
abbrev Template := { p : Piece // p.owner = .template }

/-- Something that may be asked of an outline. -/
inductive Operation where
  | initBoard (name : String) (width height : UInt32)
  | register (template : Template)
  | place (owner : Owner) (piece : String) (x y : UInt32)
  | placeAll
  | collect (t : Tree)
  | render

namespace Outline

/-- The outline that an operation leaves behind, also when it is refused on the way. -/
def perform (o : Outline) : Operation → Outline
  | .initBoard name width height =>
    o.withSetup (once o.setup (o.setup.initBoard name width height)).state
  | .register template => o.withSetup (once o.setup (o.setup.register template.1)).state
  | .place owner piece x y => o.withSetup (once o.setup (o.setup.place owner piece x y)).state
  | .placeAll => o.placeAll.state
  | .collect t => (o.collect t).state
  | .render => o.emit.outline

/-- The outline after some operations, whatever becomes of each of them. -/
def performAll (o : Outline) (operations : List Operation) : Outline := operations.foldl perform o

lemma performAll_append (o : Outline) (operations more : List Operation) :
    o.performAll (operations ++ more) = (o.performAll operations).performAll more :=
  List.foldl_append

/-- Writing the sections places all pieces first, and changes nothing besides. -/
lemma outline_emit (o : Outline) : o.emit.outline = o.placeAll.state := by
  rw [emit]
  cases o.placeAll.failure with
  | none => rfl
  | some error => rfl

end Outline

/-! ### Deeds -/

/-- A single thing that has been done to a setup. -/
inductive Deed where
  | registered (template : Piece)
  | placed (occupant : Occupant) (x y : UInt32)
deriving DecidableEq

/-- The name of the piece that is registered. -/
def Deed.registeredName? : Deed → Option String
  | .registered template => some template.name
  | .placed .. => none

/-- The steps that are taken before one fails, each with the state it is taken in. -/
def Progress.taken {σ ε α : Type} (step : σ → α → Except ε (Notice × σ)) :
    σ → List α → List (σ × α)
  | _, [] => []
  | s, a :: rest =>
    match step s a with
    | .error _ => []
    | .ok (_, s') => (s, a) :: taken step s' rest

namespace Setup

/-- What taking up a declaration does. -/
def declareDeeds (t : Tree) (s : Setup) : Declaration → List Deed
  | .board .. | .innerBoard .. => []
  | .piece name table =>
    match t.pieceTemplate s.defaults name table with
    | .ok template => [.registered template]
    | .error _ => []

/-- What putting a piece on a square that it starts on does. -/
def startDeeds (s : Setup) (start : Start) : List Deed :=
  match s.square start with
  | .ok (x, y) => [.placed ⟨start.owner, start.piece⟩ x y]
  | .error _ => []

/-- What placing all pieces does, as far as it gets. -/
def placeAllDeeds (s : Setup) : List Deed :=
  if s.placed then []
  else (taken placeStart s s.starts).flatMap fun (s, start) => s.startDeeds start

/-- What an operation does to a setup, as far as it gets. -/
def deeds (s : Setup) : Operation → List Deed
  | .initBoard .. => []
  | .register template => if (s.register template.1).isOk then [.registered template.1] else []
  | .place owner piece x y =>
    if (s.place owner piece x y).isOk then [.placed ⟨owner, piece⟩ x y] else []
  | .placeAll | .render => s.placeAllDeeds
  | .collect t => (taken (declare t) s t.declarations).flatMap fun (s, d) => s.declareDeeds t d

end Setup

/-- All that some operations do to the setup of an outline. -/
def Outline.history (o : Outline) : List Operation → List Deed
  | [] => []
  | operation :: rest => o.setup.deeds operation ++ (o.perform operation).history rest

/-! ### Histories -/

namespace Setup

/-- A setup comes about from another one by some deeds. Choosing a board and marking all pieces as
placed leave no mark on the list. -/
inductive History (first : Setup) : List Deed → Setup → Prop
  | nil : History first [] first
  | chooseBoard {deeds : List Deed} {s : Setup} {name : String} {width height : UInt32}
      (hs : History first deeds s) (hnone : s.board = none) (hwidth : width ≠ 0)
      (hheight : height ≠ 0) :
      History first deeds { s with board := some (.blank name width height) }
  | register {deeds : List Deed} {s : Setup} {template : Piece} (hs : History first deeds s)
      (howner : template.owner = .template)
      (hnew : template.name ∉ s.catalog.templates.map Piece.name) :
      History first (deeds ++ [.registered template])
        { s with catalog := s.catalog.add template }
  | place {deeds : List Deed} {s : Setup} {board board' : Board} {occupant : Occupant}
      {x y : UInt32} (hs : History first deeds s) (hboard : s.board = some board)
      (hset : board.set? x y occupant = some board') :
      History first (deeds ++ [.placed occupant x y])
        { s with
          board := some board'
          catalog := s.catalog.countPlacement occupant.owner occupant.piece }
  | markPlaced {deeds : List Deed} {s : Setup} (hs : History first deeds s) :
      History first deeds { s with placed := true }

namespace History

variable {first s s' : Setup} {deeds : List Deed}

lemma initBoard {name : String} {width height : UInt32} {notice : Notice}
    (hs : History first deeds s) (h : s.initBoard name width height = .ok (notice, s')) :
    History first deeds s' := by
  obtain ⟨hwidth, hheight, rfl⟩ := initBoard_eq_ok h
  cases hboard : s.board with
  | none => exact hs.chooseBoard hboard hwidth hheight
  | some board =>
    rw [Option.some_or, ← hboard]
    exact hs

lemma declare {t : Tree} {d : Declaration} {notice : Notice} (hs : History first deeds s)
    (h : s.declare t d = .ok (notice, s')) : History first (deeds ++ s.declareDeeds t d) s' := by
  cases d with
  | board name width height =>
    rw [declareDeeds, List.append_nil]
    exact hs.initBoard h
  | innerBoard name width height =>
    rw [declareDeeds, List.append_nil]
    cases declared_of_declare h
    exact hs
  | piece name table =>
    cases declared_of_declare h with
    | piece htemplate hnew =>
      simp only [declareDeeds, htemplate]
      exact hs.register (Tree.pieceTemplate_keeps htemplate).1 hnew

lemma placeStart {start : Start} {notice : Notice} (hs : History first deeds s)
    (h : s.placeStart start = .ok (notice, s')) :
    History first (deeds ++ s.startDeeds start) s' := by
  obtain ⟨⟨x, y⟩, hsquare, h⟩ := except_bind_eq_ok.mp h
  obtain ⟨board, board', hboard, hset, rfl⟩ := place_eq_ok h
  simp only [startDeeds, hsquare]
  exact hs.place hboard hset

/-- A single step adds its deeds to a history unless it is refused. -/
lemma once {step : Except SetupError (Notice × Setup)} {done : List Deed}
    (hs : History first deeds s)
    (hstep : ∀ notice s', step = .ok (notice, s') → History first (deeds ++ done) s') :
    History first (deeds ++ if step.isOk then done else []) (Progress.once s step).state := by
  cases step with
  | error e =>
    have hrefused : (Except.error e : Except SetupError (Notice × Setup)).isOk = false := rfl
    rw [hrefused, if_neg Bool.false_ne_true, List.append_nil]
    exact hs
  | ok result => exact hstep result.1 result.2 rfl

/-- If every step adds its deeds to a history, then a run of steps adds those of the steps that are
taken. -/
lemma steps {α : Type} (step : Setup → α → Except SetupError (Notice × Setup))
    (done : Setup → α → List Deed)
    (hstep : ∀ {deeds s a notice s'}, History first deeds s → step s a = .ok (notice, s') →
      History first (deeds ++ done s a) s')
    (hs : History first deeds s) (l : List α) :
    History first (deeds ++ (taken step s l).flatMap fun (s, a) => done s a)
      (Progress.steps step s l).state := by
  induction l generalizing deeds s with
  | nil =>
    rw [taken, List.flatMap_nil, List.append_nil]
    exact hs
  | cons a l ih =>
    rw [taken, Progress.steps]
    cases hresult : step s a with
    | error e =>
      rw [List.flatMap_nil, List.append_nil]
      exact hs
    | ok result =>
      rw [List.flatMap_cons, ← List.append_assoc]
      exact ih (hstep hs hresult)

lemma placeAll (hs : History first deeds s) :
    History first (deeds ++ s.placeAllDeeds) s.placeAll.state := by
  unfold placeAllDeeds Setup.placeAll
  split_ifs
  · rw [List.append_nil]
    exact hs
  · have hplaced := steps Setup.placeStart startDeeds (fun hs h => hs.placeStart h) hs s.starts
    unfold andThen
    split
    · exact hplaced
    · exact hplaced.markPlaced

lemma collect (hs : History first deeds s) (t : Tree) :
    History first (deeds ++ s.deeds (.collect t)) (s.collect t).state := by
  have hdeclared :=
    steps (Setup.declare t) (declareDeeds t) (fun hs h => hs.declare h) hs t.declarations
  unfold Setup.collect andThen
  split
  · exact hdeclared
  · exact hdeclared

/-- Every operation comes down to deeds. -/
lemma perform {o : Outline} (hs : History first deeds o.setup) (operation : Operation) :
    History first (deeds ++ o.setup.deeds operation) (o.perform operation).setup := by
  cases operation with
  | initBoard name width height =>
    rw [Setup.deeds, List.append_nil, Outline.perform]
    cases hresult : o.setup.initBoard name width height with
    | error e => exact hs
    | ok result => exact hs.initBoard hresult
  | register template =>
    apply hs.once
    intro notice s' h
    obtain ⟨hnew, rfl⟩ := register_eq_ok h
    exact hs.register template.2 hnew
  | place owner piece x y =>
    apply hs.once
    intro notice s' h
    obtain ⟨board, board', hboard, hset, rfl⟩ := place_eq_ok h
    exact hs.place hboard hset
  | placeAll => exact hs.placeAll
  | collect t => exact hs.collect t
  | render =>
    rw [Outline.perform, Outline.outline_emit]
    exact hs.placeAll

lemma performAll {o : Outline} (hs : History first deeds o.setup) (operations : List Operation) :
    History first (deeds ++ o.history operations) (o.performAll operations).setup := by
  induction operations generalizing deeds o with
  | nil =>
    rw [Outline.history, List.append_nil]
    exact hs
  | cons operation rest ih =>
    rw [Outline.history, ← List.append_assoc]
    exact ih (hs.perform operation)

end History

end Setup

lemma Outline.history_performAll (o : Outline) (operations : List Operation) :
    o.setup.History (o.history operations) (o.performAll operations).setup := by
  simpa using Setup.History.nil.performAll operations

/-! ### Catalogs and boards -/

namespace Setup

/-- The catalog lists every piece once for each owner, and the board has the squares that its size
promises, at least one of them. -/
structure WellKept (s : Setup) : Prop where
  uniform : s.catalog.Uniform
  board : ∀ board, s.board = some board →
    board.Rectangular ∧ board.width ≠ 0 ∧ board.height ≠ 0

lemma wellKept_new (defaults : PieceDefaults) : (new defaults).WellKept where
  uniform := Catalog.uniform_empty
  board := by
    intro board hboard
    cases hboard

namespace History

variable {first s : Setup} {deeds : List Deed}

lemma wellKept (h : History first deeds s) (hfirst : first.WellKept) : s.WellKept := by
  induction h with
  | nil => exact hfirst
  | chooseBoard _ _ hwidth hheight ih =>
    refine ⟨ih.uniform, ?_⟩
    rintro board ⟨⟩
    exact ⟨Board.rectangular_blank .., hwidth, hheight⟩
  | register _ howner hnew ih => exact ⟨ih.uniform.add howner hnew, ih.board⟩
  | place _ hboard hset ih =>
    refine ⟨ih.uniform.countPlacement _ _, ?_⟩
    rintro board' ⟨⟩
    obtain ⟨hrectangular, hsize⟩ := ih.board _ hboard
    refine ⟨hrectangular.set? hset, ?_⟩
    obtain ⟨row, -, -, rfl⟩ := Board.set?_eq_some.mp hset
    exact hsize
  | markPlaced _ ih => exact ⟨ih.uniform, ih.board⟩

/-- The pieces in a catalog are those that were registered, in the order of their registration. -/
lemma names_templates (h : History first deeds s) :
    s.catalog.templates.map Piece.name =
      first.catalog.templates.map Piece.name ++ deeds.filterMap Deed.registeredName? := by
  induction h with
  | nil => simp
  | chooseBoard _ _ _ _ ih => exact ih
  | register _ _ _ ih => simp [Catalog.add, ih, Deed.registeredName?]
  | @place _ s _ _ occupant _ _ _ _ _ ih =>
    have hnames := Catalog.names_of_shared
      (s.catalog.pieces_countPlacement_shared occupant.owner .template occupant.piece)
    simp only [Catalog.pieces] at hnames
    simp [hnames, ih, Deed.registeredName?]
  | markPlaced _ ih => exact ih

/-- A board stays the board, with its name and its size. -/
lemma exists_board (h : History first deeds s) {board : Board} (hboard : first.board = some board) :
    ∃ board', s.board = some board' ∧ board'.summary = board.summary := by
  induction h with
  | nil => exact ⟨board, hboard, rfl⟩
  | chooseBoard _ hnone _ _ ih =>
    obtain ⟨board', hboard', -⟩ := ih
    rw [hnone] at hboard'
    cases hboard'
  | register _ _ _ ih => exact ih
  | place _ hsome hset ih =>
    obtain ⟨board', hboard', hsummary⟩ := ih
    rw [hsome] at hboard'
    cases hboard'
    exact ⟨_, rfl, (Board.summary_of_set? hset).trans hsummary⟩
  | markPlaced _ ih => exact ih

end History

end Setup

namespace Catalog

variable {c : Catalog}

/-- Every copy is one of a declared piece. -/
lemma Uniform.exists_template (h : c.Uniform) {owner : Owner} {p : Piece}
    (hp : p ∈ c.pieces owner) : ∃ template ∈ c.templates, template.shared = p.shared := by
  rw [← List.mem_map, ← h.shared owner]
  exact List.mem_map_of_mem hp

/-- Copies of one name are the same piece, up to their owners and counts. -/
lemma Uniform.shared_eq (h : c.Uniform) {owner owner' : Owner} {p q : Piece}
    (hp : p ∈ c.pieces owner) (hq : q ∈ c.pieces owner') (hname : p.name = q.name) :
    p.shared = q.shared := by
  obtain ⟨template, htemplate, hshared⟩ := h.exists_template hp
  obtain ⟨template', htemplate', hshared'⟩ := h.exists_template hq
  have hsame : template = template' := by
    apply List.inj_on_of_nodup_map h.nodup htemplate htemplate'
    rw [← template.shared_name, hshared, p.shared_name, hname, ← q.shared_name, ← hshared',
      template'.shared_name]
  rw [← hshared, hsame, hshared']

/-- Every copy is found under its own name. -/
lemma Uniform.piece?_name (h : c.Uniform) {owner : Owner} {p : Piece} (hp : p ∈ c.pieces owner) :
    c.piece? owner p.name = some p := by
  have hnodup : ((c.pieces owner).map Piece.name).Nodup := by
    rw [h.names owner]
    exact h.nodup
  unfold piece?
  cases hfind : (c.pieces owner).find? fun q => q.name == p.name with
  | none =>
    have hnone := List.find?_eq_none.mp hfind p hp
    simp at hnone
  | some q =>
    have hname : q.name = p.name := by simpa using List.find?_some hfind
    rw [List.inj_on_of_nodup_map hnodup (List.mem_of_find?_eq_some hfind) hp hname]

end Catalog

/-- After any operations on a new outline, refused ones included, the three catalogs list the pieces
that were registered, in the order of their registration and each name once. Every piece is found
under its own name and belongs to the owner of its catalog, and what different owners have under one
name differs only in the owner and the count. The board has as many rows as it is high, each as
long as it is wide, and at least one square; whatever else is done, it stays the board, with its
name and its size. -/
theorem catalogs_agree_after_operations (settings : Settings) (operations : List Operation) :
    let first := Outline.new settings
    let s := (first.performAll operations).setup
    (∀ owner, (s.catalog.pieces owner).map Piece.name =
      (first.history operations).filterMap Deed.registeredName?) ∧
    ((first.history operations).filterMap Deed.registeredName?).Nodup ∧
    (∀ owner, ∀ p ∈ s.catalog.pieces owner,
      p.owner = owner ∧ s.catalog.piece? owner p.name = some p) ∧
    (∀ owner owner', ∀ p ∈ s.catalog.pieces owner, ∀ q ∈ s.catalog.pieces owner',
      p.name = q.name → q = { p with owner := owner', count := q.count }) ∧
    ∀ board, s.board = some board →
      1 ≤ board.width.toNat ∧ 1 ≤ board.height.toNat ∧
      board.rows.length = board.height.toNat ∧
      (∀ row ∈ board.rows, row.length = board.width.toNat) ∧
      ∀ more, ∃ board', (first.performAll (operations ++ more)).setup.board = some board' ∧
        board'.name = board.name ∧ board'.width = board.width ∧ board'.height = board.height := by
  intro first s
  have hhistory : first.setup.History (first.history operations) s :=
    first.history_performAll operations
  have hkept := hhistory.wellKept (Setup.wellKept_new settings.pieces)
  have hnames := hhistory.names_templates
  have hempty : first.setup.catalog.templates = [] := rfl
  rw [hempty, List.map_nil, List.nil_append] at hnames
  refine ⟨?_, ?_, ?_, ?_, ?_⟩
  · intro owner
    rw [hkept.uniform.names owner, hnames]
  · rw [← hnames]
    exact hkept.uniform.nodup
  · intro owner p hp
    exact ⟨hkept.uniform.owned owner p hp, hkept.uniform.piece?_name hp⟩
  · intro owner owner' p hp q hq hname
    have hshared := hkept.uniform.shared_eq hp hq hname
    have howner := hkept.uniform.owned owner' q hq
    simp only [Piece.shared, Piece.mk.injEq] at hshared
    cases q
    simp_all
  · intro board hboard
    obtain ⟨hrectangular, hwidth, hheight⟩ := hkept.board board hboard
    refine ⟨Setup.one_le_toNat hwidth, Setup.one_le_toNat hheight, hrectangular.height,
      hrectangular.width, ?_⟩
    intro more
    rw [Outline.performAll_append]
    obtain ⟨board', hboard', hsummary⟩ :=
      ((first.performAll operations).history_performAll more).exists_board hboard
    simp only [Board.summary, BoardSummary.mk.injEq] at hsummary
    exact ⟨board', hboard', hsummary⟩

end GridGame
