import GridGame.Proofs.Programs

/-!
# Setups step by step

A setup is filled by declarations, and afterwards the pieces are placed. What one such step does is
said once (`Declared`, `placeStart_eq_ok`); what a run of them does follows by induction. A catalog
lists each piece once for every owner (`Catalog.Uniform`), and a board keeps its name and size.
-/

namespace GridGame

/-! ### Runs -/

namespace Progress

variable {σ ε α : Type}

/-- The state `s'` is reached from `s` by one step for each member of a list. -/
inductive Run (step : σ → α → Except ε (Notice × σ)) : σ → List α → σ → Prop
  | nil (s : σ) : Run step s [] s
  | cons {s s' s'' : σ} {a : α} {l : List α} {notice : Notice}
      (hstep : step s a = .ok (notice, s')) (hrest : Run step s' l s'') :
      Run step s (a :: l) s''

lemma run_of_steps {step : σ → α → Except ε (Notice × σ)} {s : σ} {l : List α}
    (h : (steps step s l).failure = none) : Run step s l (steps step s l).state := by
  induction l generalizing s with
  | nil => exact .nil s
  | cons a l ih =>
    unfold steps at h ⊢
    split at h
    · cases h
    · next notice s' hstep => exact .cons hstep (ih h)

lemma Run.keeps {step : σ → α → Except ε (Notice × σ)} {P : σ → Prop} {s s' : σ} {l : List α}
    (hrun : Run step s l s')
    (hstep : ∀ s, ∀ a ∈ l, ∀ notice s', step s a = .ok (notice, s') → P s → P s') (hs : P s) :
    P s' := by
  induction hrun with
  | nil => exact hs
  | cons hfirst _ ih =>
    apply ih
    · intro s a ha
      exact hstep s a (List.mem_cons_of_mem _ ha)
    · exact hstep _ _ List.mem_cons_self _ _ hfirst hs

end Progress

open Progress

/-! ### Catalogs -/

/-- What all copies of a piece have in common. -/
def Piece.shared (p : Piece) : Piece := { p with owner := .template, count := 0 }

@[simp] lemma Piece.shared_name (p : Piece) : p.shared.name = p.name := rfl

@[simp] lemma Piece.shared_limit (p : Piece) : p.shared.limit = p.limit := rfl

@[simp] lemma Piece.shared_starts (p : Piece) : p.shared.starts = p.starts := rfl

@[simp] lemma Piece.shared_copyFor (p : Piece) (owner : Owner) :
    (p.copyFor owner).shared = p.shared := rfl

@[simp] lemma Piece.shared_countPlacement (p : Piece) : p.countPlacement.shared = p.shared := rfl

namespace Catalog

/-- The catalog with one more piece and its copies. -/
def add (c : Catalog) (template : Piece) : Catalog :=
  ⟨c.templates ++ [template], c.playerOne ++ [template.copyFor .playerOne],
    c.playerTwo ++ [template.copyFor .playerTwo]⟩

lemma pieces_add (c : Catalog) {template : Piece} (howner : template.owner = .template)
    (owner : Owner) :
    (c.add template).pieces owner = c.pieces owner ++ [template.copyFor owner] := by
  cases owner with
  | template =>
    have hself : template.copyFor .template = template := by
      rw [Piece.copyFor, ← howner]
    rw [hself]
    rfl
  | playerOne => rfl
  | playerTwo => rfl

/-- Counting a placement concerns the one copy that is placed. -/
lemma pieces_countPlacement (c : Catalog) (owner owner' : Owner) (name : String) :
    (c.countPlacement owner name).pieces owner' = (c.pieces owner').map fun p =>
      if owner = owner' ∧ p.name = name then p.countPlacement else p := by
  cases owner <;> cases owner' <;> simp [countPlacement, pieces, updateNamed]

lemma register_eq_ok {c c' : Catalog} {template : Piece} :
    c.register template = .ok c' ↔
      template.name ∉ c.templates.map Piece.name ∧ c.add template = c' := by
  have hfound : (c.piece? .template template.name).isSome ↔
      template.name ∈ c.templates.map Piece.name := by
    simp [piece?, pieces]
  unfold register
  split_ifs with hname
  · simp [hfound.mp hname]
  · simp [mt hfound.mpr hname, add]

/-- Every owner has the same pieces in the same order, each name once. -/
structure Uniform (c : Catalog) : Prop where
  nodup : (c.templates.map Piece.name).Nodup
  owned : ∀ owner, ∀ p ∈ c.pieces owner, p.owner = owner
  shared : ∀ owner, (c.pieces owner).map Piece.shared = c.templates.map Piece.shared

lemma uniform_empty : empty.Uniform where
  nodup := List.nodup_nil
  owned := by
    intro owner p hp
    cases owner <;> cases hp
  shared := by
    intro owner
    cases owner <;> rfl

variable {c : Catalog}

lemma Uniform.add (h : c.Uniform) {template : Piece} (howner : template.owner = .template)
    (hname : template.name ∉ c.templates.map Piece.name) : (c.add template).Uniform where
  nodup := by
    simp only [Catalog.add, List.map_append, List.map_cons, List.map_nil]
    exact List.nodup_append.mpr ⟨h.nodup, List.nodup_singleton _, by simpa using hname⟩
  owned := by
    intro owner p hp
    rw [c.pieces_add howner] at hp
    rcases List.mem_append.mp hp with hp | hp
    · exact h.owned owner p hp
    · rw [List.mem_singleton.mp hp, Piece.copyFor]
  shared := by
    intro owner
    have hnew : (c.add template).templates = c.templates ++ [template] := rfl
    rw [c.pieces_add howner, hnew, List.map_append, List.map_append, h.shared owner]
    simp only [List.map_cons, List.map_nil, Piece.shared_copyFor]

/-- Counting a placement changes nothing that copies have in common. -/
lemma pieces_countPlacement_shared (c : Catalog) (owner owner' : Owner) (name : String) :
    ((c.countPlacement owner name).pieces owner').map Piece.shared =
      (c.pieces owner').map Piece.shared := by
  rw [pieces_countPlacement, List.map_map]
  apply List.map_congr_left
  intro p _
  simp only [Function.comp_apply]
  split <;> simp

lemma owner_of_mem_countPlacement (h : c.Uniform) {owner owner' : Owner} {name : String} {p : Piece}
    (hp : p ∈ (c.countPlacement owner name).pieces owner') : p.owner = owner' := by
  rw [pieces_countPlacement] at hp
  obtain ⟨q, hq, rfl⟩ := List.mem_map.mp hp
  split
  · exact h.owned owner' q hq
  · exact h.owned owner' q hq

lemma names_of_shared {l l' : List Piece} (h : l.map Piece.shared = l'.map Piece.shared) :
    l.map Piece.name = l'.map Piece.name := by
  have hnames := congrArg (List.map Piece.name) h
  simpa only [List.map_map, Function.comp_def, Piece.shared_name] using hnames

lemma Uniform.countPlacement (h : c.Uniform) (owner : Owner) (name : String) :
    (c.countPlacement owner name).Uniform where
  nodup := by
    have hsame := names_of_shared (c.pieces_countPlacement_shared owner .template name)
    simp only [pieces] at hsame
    rw [hsame]
    exact h.nodup
  owned := fun _ _ hp => owner_of_mem_countPlacement h hp
  shared := by
    intro owner'
    have hsame := c.pieces_countPlacement_shared owner .template name
    simp only [pieces] at hsame
    rw [pieces_countPlacement_shared, hsame]
    exact h.shared owner'

lemma Uniform.names (h : c.Uniform) (owner : Owner) :
    (c.pieces owner).map Piece.name = c.templates.map Piece.name :=
  names_of_shared (h.shared owner)

end Catalog

/-! ### Boards -/

namespace Board

/-- The rows of a board are as many and as long as its size says. -/
structure Rectangular (b : Board) : Prop where
  height : b.rows.length = b.height.toNat
  width : ∀ row ∈ b.rows, row.length = b.width.toNat

lemma rectangular_blank (name : String) (width height : UInt32) :
    (blank name width height).Rectangular where
  height := List.length_replicate
  width := by
    intro row hrow
    rw [List.eq_of_mem_replicate hrow]
    exact List.length_replicate

lemma mem_occupied {b : Board} {x y : Nat} {o : Occupant} :
    (x, y, o) ∈ b.occupied ↔ ∃ row, b.rows[y]? = some row ∧ row[x]? = some (some o) := by
  simp only [occupied, List.mem_flatMap, List.mem_filterMap, Option.map_eq_some_iff, Prod.exists,
    List.mem_zipIdx_iff_getElem?, Prod.mk.injEq]
  constructor
  · rintro ⟨row, j, hrow, cell, i, hcell, o', rfl, rfl, rfl, rfl⟩
    exact ⟨row, hrow, hcell⟩
  · rintro ⟨row, hrow, hcell⟩
    exact ⟨row, y, hrow, some o, x, hcell, o, rfl, rfl, rfl, rfl⟩

lemma occupied_blank (name : String) (width height : UInt32) :
    (blank name width height).occupied = [] := by
  rw [List.eq_nil_iff_forall_not_mem]
  rintro ⟨x, y, o⟩ hmem
  obtain ⟨row, hrow, hcell⟩ := mem_occupied.mp hmem
  rw [List.eq_of_mem_replicate (List.mem_of_getElem? hrow)] at hcell
  cases List.eq_of_mem_replicate (List.mem_of_getElem? hcell)

variable {b b' : Board} {x y : UInt32} {o : Occupant}

lemma Rectangular.lt_of_mem_occupied (h : b.Rectangular) {i j : Nat}
    (hmem : (i, j, o) ∈ b.occupied) :
    i < b.width.toNat ∧ j < b.height.toNat := by
  obtain ⟨row, hrow, hcell⟩ := mem_occupied.mp hmem
  obtain ⟨hj, -⟩ := List.getElem?_eq_some_iff.mp hrow
  obtain ⟨hi, -⟩ := List.getElem?_eq_some_iff.mp hcell
  rw [h.height] at hj
  rw [h.width row (List.mem_of_getElem? hrow)] at hi
  exact ⟨hi, hj⟩

lemma set?_eq_some :
    b.set? x y o = some b' ↔ ∃ row, b.rows[y.toNat]? = some row ∧ x.toNat < row.length ∧
      { b with rows := b.rows.set y.toNat (row.set x.toNat (some o)) } = b' := by
  simp only [set?, Option.bind_eq_bind, Option.bind_eq_some_iff]
  constructor
  · rintro ⟨row, hrow, hset⟩
    split_ifs at hset with hx
    exact ⟨row, hrow, hx, Option.some.inj hset⟩
  · rintro ⟨row, hrow, hx, rfl⟩
    exact ⟨row, hrow, by simp [hx]⟩

/-- Taking a square leaves the name and the size of a board as they are. -/
lemma summary_of_set? (h : b.set? x y o = some b') : b'.summary = b.summary := by
  obtain ⟨row, -, -, rfl⟩ := set?_eq_some.mp h
  rfl

lemma Rectangular.set? (hb : b.Rectangular) (h : b.set? x y o = some b') : b'.Rectangular := by
  obtain ⟨row, hrow, -, rfl⟩ := set?_eq_some.mp h
  constructor
  · simpa using hb.height
  · intro row' hrow'
    rcases List.mem_or_eq_of_mem_set hrow' with hrow' | rfl
    · exact hb.width row' hrow'
    · simpa using hb.width row (List.mem_of_getElem? hrow)

/-- After a square is taken, the new occupant stands on it and no square is taken otherwise. -/
lemma mem_occupied_of_set? (h : b.set? x y o = some b') {i j : Nat} {o' : Occupant}
    (hmem : (i, j, o') ∈ b'.occupied) : o' = o ∨ (i, j, o') ∈ b.occupied := by
  obtain ⟨row, hrow, -, rfl⟩ := set?_eq_some.mp h
  obtain ⟨row', hrow', hcell⟩ := mem_occupied.mp hmem
  rw [List.getElem?_set] at hrow'
  split_ifs at hrow' with hj hlength
  · cases hrow'
    rw [List.getElem?_set] at hcell
    split_ifs at hcell with hi hwidth
    · cases hcell
      exact .inl rfl
    · exact .inr (mem_occupied.mpr ⟨row, hj ▸ hrow, hcell⟩)
  · exact .inr (mem_occupied.mpr ⟨row', hrow', hcell⟩)

end Board

/-! ### Declarations -/

namespace Property

/-- Setting a property concerns neither the name nor the owner of a piece, and places nothing. -/
lemma setOn_keeps {t : Tree} {p : Property} {piece piece' : Piece}
    (h : p.setOn t piece = .ok piece') :
    piece'.owner = piece.owner ∧ piece'.name = piece.name ∧ piece'.count = piece.count := by
  unfold setOn at h
  split at h
  iterate 7
    · obtain ⟨value, -, h⟩ := except_bind_eq_ok.mp h
      cases h
      exact ⟨rfl, rfl, rfl⟩
  · cases h

end Property

lemma Tree.pieceTemplate_keeps {t : Tree} {defaults : PieceDefaults} {name : String}
    {table : List (Nat × Nat)} {template : Piece}
    (h : t.pieceTemplate defaults name table = .ok template) :
    template.owner = .template ∧ template.name = name ∧ template.count = 0 := by
  have hstart : (Piece.template name defaults).owner = .template ∧
      (Piece.template name defaults).name = name ∧ (Piece.template name defaults).count = 0 :=
    ⟨rfl, rfl, rfl⟩
  unfold pieceTemplate at h
  generalize Piece.template name defaults = piece at h hstart
  induction table generalizing piece with
  | nil =>
    cases h
    exact hstart
  | cons entry table ih =>
    rw [List.foldlM_cons] at h
    obtain ⟨piece', hset, h⟩ := except_bind_eq_ok.mp h
    obtain ⟨howner, hname, hcount⟩ := Property.setOn_keeps hset
    refine ih piece' h ?_
    rw [howner, hname, hcount]
    exact hstart

namespace Declaration

/-- The board to place pieces on that is declared. -/
def board? : Declaration → Option Board
  | .board name width height => some (.blank name width height)
  | .innerBoard .. | .piece .. => none

/-- The piece that is declared, with the nodes of its properties. -/
def piece? : Declaration → Option (String × List (Nat × Nat))
  | .piece name table => some (name, table)
  | .board .. | .innerBoard .. => none

end Declaration

namespace Setup

/-- What a declaration does to a setup. -/
inductive Declared (t : Tree) (s : Setup) : Declaration → Setup → Prop
  | board {name : String} {width height : UInt32} (hwidth : width ≠ 0) (hheight : height ≠ 0) :
      Declared t s (.board name width height)
        { s with board := s.board.or (some (.blank name width height)) }
  | innerBoard {name : String} {width height : UInt32} (hwidth : width ≠ 0)
      (hheight : height ≠ 0) : Declared t s (.innerBoard name width height) s
  | piece {name : String} {table : List (Nat × Nat)} {template : Piece}
      (htemplate : t.pieceTemplate s.defaults name table = .ok template)
      (hnew : template.name ∉ s.catalog.templates.map Piece.name) :
      Declared t s (.piece name table) { s with catalog := s.catalog.add template }

lemma one_le_toNat {v : UInt32} (h : v ≠ 0) : 1 ≤ v.toNat :=
  UInt32.lt_iff_toNat_lt.mp (UInt32.pos_iff_ne_zero.mpr h)

lemma checkDimensions_eq_ok {name : String} {width height : UInt32} {u : Unit} :
    checkDimensions name width height = .ok u ↔ width ≠ 0 ∧ height ≠ 0 := by
  unfold checkDimensions
  split_ifs with hzero
  · simp only [ne_eq, false_iff]
    exact fun h => hzero.elim h.1 h.2
  · simpa [not_or] using hzero

variable {t : Tree} {s s' : Setup}

lemma initBoard_eq_ok {name : String} {width height : UInt32} {notice : Notice}
    (h : s.initBoard name width height = .ok (notice, s')) :
    width ≠ 0 ∧ height ≠ 0 ∧
      s' = { s with board := s.board.or (some (.blank name width height)) } := by
  obtain ⟨_, hcheck, h⟩ := except_bind_eq_ok.mp h
  obtain ⟨hwidth, hheight⟩ := checkDimensions_eq_ok.mp hcheck
  refine ⟨hwidth, hheight, ?_⟩
  split at h
  · next board hsome =>
    cases h
    rw [hsome, Option.some_or, ← hsome]
  · next hnone =>
    cases h
    rw [hnone, Option.none_or]

lemma register_eq_ok {template : Piece} {notice : Notice}
    (h : s.register template = .ok (notice, s')) :
    template.name ∉ s.catalog.templates.map Piece.name ∧
      s' = { s with catalog := s.catalog.add template } := by
  obtain ⟨catalog, hregister, h⟩ := except_bind_eq_ok.mp h
  cases h
  obtain ⟨hnew, rfl⟩ := Catalog.register_eq_ok.mp hregister
  exact ⟨hnew, rfl⟩

lemma declared_of_declare {d : Declaration} {notice : Notice}
    (h : declare t s d = .ok (notice, s')) : Declared t s d s' := by
  cases d with
  | board name width height =>
    obtain ⟨hwidth, hheight, rfl⟩ := initBoard_eq_ok h
    exact .board hwidth hheight
  | innerBoard name width height =>
    obtain ⟨_, hcheck, h⟩ := except_bind_eq_ok.mp h
    obtain ⟨hwidth, hheight⟩ := checkDimensions_eq_ok.mp hcheck
    cases h
    exact .innerBoard hwidth hheight
  | piece name table =>
    obtain ⟨template, htemplate, h⟩ := except_bind_eq_ok.mp h
    obtain ⟨hnew, rfl⟩ := register_eq_ok h
    exact .piece htemplate hnew

lemma Declared.uniform {d : Declaration} (h : Declared t s d s') (hs : s.catalog.Uniform) :
    s'.catalog.Uniform := by
  cases h with
  | board => exact hs
  | innerBoard => exact hs
  | piece htemplate hnew => exact hs.add (Tree.pieceTemplate_keeps htemplate).1 hnew

/-- A run of declarations chooses the first board, unless there is one already. -/
lemma board_of_run {ds : List Declaration} (h : Run (declare t) s ds s') :
    s'.board = s.board.or (ds.findSome? Declaration.board?) := by
  induction h with
  | nil => simp
  | cons hstep _ ih =>
    rw [ih, List.findSome?_cons]
    cases declared_of_declare hstep with
    | board => simp [Declaration.board?]
    | innerBoard => simp [Declaration.board?]
    | piece => simp [Declaration.board?]

/-- A run of declarations adds one template for each declared piece. -/
lemma templates_of_run {ds : List Declaration} (h : Run (declare t) s ds s') :
    ∃ added, s'.catalog.templates = s.catalog.templates ++ added ∧
      List.Forall₂ (fun (declared : String × List (Nat × Nat)) template =>
        t.pieceTemplate s.defaults declared.1 declared.2 = .ok template)
        (ds.filterMap Declaration.piece?) added := by
  induction h with
  | nil => exact ⟨[], by simp, .nil⟩
  | cons hstep _ ih =>
    obtain ⟨added, htemplates, hadded⟩ := ih
    cases declared_of_declare hstep with
    | board => exact ⟨added, htemplates, hadded⟩
    | innerBoard => exact ⟨added, htemplates, hadded⟩
    | @piece name table template htemplate hnew =>
      refine ⟨template :: added, ?_, .cons htemplate hadded⟩
      simp [htemplates, Catalog.add]

/-- Every board that is declared has at least one square. -/
lemma size_of_run {ds : List Declaration} (h : Run (declare t) s ds s') {name : String}
    {width height : UInt32} (hmem : .board name width height ∈ ds) : width ≠ 0 ∧ height ≠ 0 := by
  induction h with
  | nil => cases hmem
  | cons hstep _ ih =>
    rcases List.mem_cons.mp hmem with rfl | hmem
    · cases declared_of_declare hstep with
      | board hwidth hheight => exact ⟨hwidth, hheight⟩
    · exact ih hmem

lemma uniform_of_run {ds : List Declaration} (h : Run (declare t) s ds s')
    (hs : s.catalog.Uniform) : s'.catalog.Uniform :=
  h.keeps (P := fun s => s.catalog.Uniform)
    (fun _ _ _ _ _ hstep hs => (declared_of_declare hstep).uniform hs) hs

lemma placed_of_run {ds : List Declaration} (h : Run (declare t) s ds s') :
    s'.placed = s.placed := by
  induction h with
  | nil => rfl
  | cons hstep _ ih =>
    rw [ih]
    cases declared_of_declare hstep <;> rfl

/-! ### Placements -/

lemma place_eq_ok {owner : Owner} {piece : String} {x y : UInt32} {notice : Notice}
    (h : s.place owner piece x y = .ok (notice, s')) :
    ∃ board board', s.board = some board ∧ board.set? x y ⟨owner, piece⟩ = some board' ∧
      s' = { s with
        board := some board'
        catalog := s.catalog.countPlacement owner piece } := by
  simp only [place] at h
  split at h
  · cases h
  · next board hboard =>
    split at h
    · cases h
    · next board' hset =>
      cases h
      exact ⟨board, board', hboard, hset, rfl⟩

lemma placeStart_eq_ok {start : Start} {notice : Notice}
    (h : s.placeStart start = .ok (notice, s')) :
    ∃ board board' x y, s.board = some board ∧
      board.set? x y ⟨start.owner, start.piece⟩ = some board' ∧
      s' = { s with
        board := some board'
        catalog := s.catalog.countPlacement start.owner start.piece } := by
  obtain ⟨⟨x, y⟩, -, h⟩ := except_bind_eq_ok.mp h
  obtain ⟨board, board', hplace⟩ := place_eq_ok h
  exact ⟨board, board', x, y, hplace⟩

/-- A setup on which some pieces have been placed: the catalog differs in counts only, the board in
what stands on it, and only pieces that the catalog lists for a player stand there. -/
structure PlacedFrom (s s' : Setup) : Prop where
  uniform : s'.catalog.Uniform
  shared : s'.catalog.templates.map Piece.shared = s.catalog.templates.map Piece.shared
  summary : s'.board.map Board.summary = s.board.map Board.summary
  rectangular : ∀ b, s'.board = some b → b.Rectangular
  listed : ∀ b, s'.board = some b → ∀ x y o, (x, y, o) ∈ b.occupied →
    o.owner ∈ Owner.players ∧ o.piece ∈ (s'.catalog.pieces o.owner).map Piece.name

lemma PlacedFrom.refl (huniform : s.catalog.Uniform)
    (hboard : ∀ b, s.board = some b → b.Rectangular ∧ b.occupied = []) : PlacedFrom s s where
  uniform := huniform
  shared := rfl
  summary := rfl
  rectangular := fun b hb => (hboard b hb).1
  listed := by
    intro b hb x y o hmem
    rw [(hboard b hb).2] at hmem
    cases hmem

lemma PlacedFrom.placeStart {s'' : Setup} {start : Start} {notice : Notice} (h : PlacedFrom s s')
    (howner : start.owner ∈ Owner.players)
    (hpiece : start.piece ∈ s.catalog.templates.map Piece.name)
    (hstep : s'.placeStart start = .ok (notice, s'')) : PlacedFrom s s'' := by
  obtain ⟨board, board', x, y, hboard, hset, rfl⟩ := placeStart_eq_ok hstep
  have huniform := h.uniform.countPlacement start.owner start.piece
  have hshared := s'.catalog.pieces_countPlacement_shared start.owner .template start.piece
  simp only [Catalog.pieces, h.shared] at hshared
  -- counting placements renames nothing
  have hnames (owner : Owner) :
      ((s'.catalog.countPlacement start.owner start.piece).pieces owner).map Piece.name =
        (s'.catalog.pieces owner).map Piece.name :=
    Catalog.names_of_shared (s'.catalog.pieces_countPlacement_shared start.owner owner start.piece)
  refine ⟨huniform, hshared, ?_, ?_, ?_⟩
  · rw [← h.summary, hboard, Option.map_some, Option.map_some, Board.summary_of_set? hset]
  · rintro b ⟨⟩
    exact (h.rectangular board hboard).set? hset
  · rintro b ⟨⟩ i j o hmem
    rw [hnames]
    rcases Board.mem_occupied_of_set? hset hmem with rfl | hmem
    · refine ⟨howner, ?_⟩
      rw [h.uniform.names, Catalog.names_of_shared h.shared]
      exact hpiece
    · exact h.listed board hboard i j o hmem

lemma mem_starts {start : Start} (hs : s.catalog.Uniform) (h : start ∈ s.starts) :
    start.owner ∈ Owner.players ∧ start.piece ∈ s.catalog.templates.map Piece.name := by
  simp only [starts, startsOf, List.mem_flatMap, List.mem_map] at h
  obtain ⟨owner, howner, p, hp, position, -, rfl⟩ := h
  refine ⟨howner, ?_⟩
  rw [← hs.names owner]
  exact List.mem_map_of_mem hp

lemma placedFrom_of_run {l : List Start} (hrun : Run placeStart s l s') (hl : ∀ a ∈ l, a ∈ s.starts)
    (huniform : s.catalog.Uniform)
    (hboard : ∀ b, s.board = some b → b.Rectangular ∧ b.occupied = []) : PlacedFrom s s' := by
  refine hrun.keeps (P := PlacedFrom s) ?_ (.refl huniform hboard)
  intro s'' start hstart notice s''' hstep h
  obtain ⟨howner, hpiece⟩ := mem_starts huniform (hl start hstart)
  exact h.placeStart howner hpiece hstep

end Setup

end GridGame
