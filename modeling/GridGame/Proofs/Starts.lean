import GridGame.Proofs.Accounts
import GridGame.Proofs.Limits

/-!
# Placing all pieces

Placing all pieces is refused for one reason only: a square that some piece starts on is not on the
board. Which squares these are does not depend on the player, since both players have the same
pieces and turning the board around keeps its squares. So the first player meets the reason first,
and the refusal is read off that player's starts alone (`failure_placeAll`). If there is no such
square, every start is placed in turn, and a square shows the last one that falls on it.
-/

namespace GridGame

open Progress

/-! ### Squares of starts -/

/-- Whether a position, as programs write it, is one of a square on the board. -/
def Board.Holds (b : Board) (p : Position) : Prop :=
  1 ≤ p.x ∧ p.x ≤ b.width ∧ 1 ≤ p.y ∧ p.y ≤ b.height

instance (b : Board) (p : Position) : Decidable (b.Holds p) :=
  inferInstanceAs (Decidable (1 ≤ p.x ∧ p.x ≤ b.width ∧ 1 ≤ p.y ∧ p.y ≤ b.height))

/-- Every square that the size of a board promises can be taken. -/
lemma Board.Rectangular.exists_set? {b : Board} (h : b.Rectangular) {x y : UInt32} (o : Occupant)
    (hx : x < b.width) (hy : y < b.height) : ∃ b', b.set? x y o = some b' := by
  rw [UInt32.lt_iff_toNat_lt] at hx hy
  rw [← h.height] at hy
  refine ⟨_, Board.set?_eq_some.mpr
    ⟨b.rows.get ⟨y.toNat, hy⟩, List.getElem?_eq_getElem hy, ?_, rfl⟩⟩
  rw [h.width _ (List.get_mem ..)]
  exact hx

namespace Setup

namespace Start

def occupant (start : Start) : Occupant := ⟨start.owner, start.piece⟩

/-- A start falls on a square, counted from 0, of a board of a given height. The first player counts
rows from the bottom, the second player from the top. -/
def FallsOn (height : UInt32) (x y : UInt32) (start : Start) : Prop :=
  x.toNat + 1 = start.position.x.toNat ∧
    if start.owner = .playerTwo then y.toNat + start.position.y.toNat = height.toNat
    else y.toNat + 1 = start.position.y.toNat

instance (height x y : UInt32) : DecidablePred (FallsOn height x y) := fun start =>
  inferInstanceAs (Decidable (x.toNat + 1 = start.position.x.toNat ∧
    if start.owner = .playerTwo then y.toNat + start.position.y.toNat = height.toNat
    else y.toNat + 1 = start.position.y.toNat))

/-- The last of some starts to fall on a square. -/
def last? (height x y : UInt32) (l : List Start) : Option Start :=
  l.reverse.find? (FallsOn height x y)

lemma last?_cons (height x y : UInt32) (start : Start) (l : List Start) :
    last? height x y (start :: l) =
      (last? height x y l).or (if start.FallsOn height x y then some start else none) := by
  simp [last?, List.find?_append, List.find?_singleton]

end Start

variable {s s' : Setup} {start : Start} {board : Board} {x y : UInt32}

/-- A start on the board falls on the one square that is computed for it. -/
lemma fallsOn_iff (hheld : board.Holds start.position) :
    start.FallsOn board.height x y ↔ start.position.x - 1 = x ∧
      (if start.owner = .playerTwo then board.height - start.position.y
        else start.position.y - 1) = y := by
  obtain ⟨hx, -, hy, hheight⟩ := hheld
  have hcolumn := UInt32.toNat_sub_of_le _ _ hx
  have hbottom := UInt32.toNat_sub_of_le _ _ hy
  have htop := UInt32.toNat_sub_of_le _ _ hheight
  rw [UInt32.le_iff_toNat_le] at hx hy hheight
  have hone : (1 : UInt32).toNat = 1 := rfl
  rw [hone] at hx hy hcolumn hbottom
  simp only [Start.FallsOn, ← UInt32.toNat_inj]
  split <;> omega

/-- The square that a start on the board falls on is one of the board. -/
lemma lt_of_fallsOn (hheld : board.Holds start.position) (hfalls : start.FallsOn board.height x y) :
    x < board.width ∧ y < board.height := by
  obtain ⟨-, hwidth, hbottom, htop⟩ := hheld
  obtain ⟨hcolumn, hrow⟩ := hfalls
  have hone : (1 : UInt32).toNat = 1 := rfl
  rw [UInt32.le_iff_toNat_le] at hwidth hbottom htop
  rw [UInt32.lt_iff_toNat_lt, UInt32.lt_iff_toNat_lt]
  split at hrow <;> omega

lemma square_eq_ok (hboard : s.board = some board) :
    s.square start = .ok (x, y) ↔
      board.Holds start.position ∧ start.FallsOn board.height x y := by
  unfold square
  simp only [hboard]
  split
  · next hheld =>
    have hheld : board.Holds start.position := hheld
    simp [hheld, fallsOn_iff hheld]
  · next hout =>
    have hout : ¬ board.Holds start.position := hout
    simp [hout]

/-! ### Refusals -/

/-- Why a start is refused, if it is. -/
def objection? (s : Setup) (start : Start) : Option SetupError :=
  match s.square start with
  | .ok _ => none
  | .error e => some e

lemma objection?_of_board (hboard : s.board = some board) :
    s.objection? start = if board.Holds start.position then none else
      some (.placementOutOfBounds start.piece start.owner start.position board.width
        board.height) := by
  by_cases hheld : board.Holds start.position
  · have hsquare := (square_eq_ok hboard).mpr ⟨hheld, (fallsOn_iff hheld).mpr ⟨rfl, rfl⟩⟩
    rw [objection?, hsquare, if_pos hheld]
  · have hrefused : s.square start = .error (.placementOutOfBounds start.piece start.owner
        start.position board.width board.height) := by
      simp only [square, hboard]
      exact if_neg hheld
    rw [objection?, hrefused, if_neg hheld]

lemma objection?_of_no_board (hnone : s.board = none) :
    s.objection? start = some (.boardNotInitialized start.piece) := by
  simp only [objection?, square, hnone]

/-- Of a setup, only the size of the board matters for what is refused. -/
lemma objection?_congr (h : s'.board.map Board.summary = s.board.map Board.summary) :
    s'.objection? = s.objection? := by
  funext start
  cases hboard : s.board with
  | none =>
    rw [hboard, Option.map_none, Option.map_eq_none_iff] at h
    rw [objection?_of_no_board hboard, objection?_of_no_board h]
  | some board =>
    rw [hboard, Option.map_some, Option.map_eq_some_iff] at h
    obtain ⟨board', hboard', hsummary⟩ := h
    simp only [Board.summary, BoardSummary.mk.injEq] at hsummary
    obtain ⟨-, hwidth, hheight⟩ := hsummary
    have hholds : board'.Holds start.position ↔ board.Holds start.position := by
      rw [Board.Holds, hwidth, hheight]
      rfl
    simp only [objection?_of_board hboard, objection?_of_board hboard', hholds, hwidth, hheight]

/-- Whether there is a square on the board for a position. -/
def Fits (s : Setup) (p : Position) : Prop := ∃ board, s.board = some board ∧ board.Holds p

/-- Whether a start is refused depends on its position alone, and not on its owner. -/
lemma objection?_eq_none : s.objection? start = none ↔ s.Fits start.position := by
  cases hboard : s.board with
  | none => simp [objection?_of_no_board hboard, Fits, hboard]
  | some board => simp [objection?_of_board hboard, Fits, hboard]

lemma WellKept.of_placeStart {notice : Notice} (hs : s.WellKept)
    (hstep : s.placeStart start = .ok (notice, s')) : s'.WellKept :=
  (History.nil.placeStart hstep).wellKept hs

lemma summary_of_placeStart {notice : Notice} (hstep : s.placeStart start = .ok (notice, s')) :
    s'.board.map Board.summary = s.board.map Board.summary := by
  obtain ⟨board, board', x, y, hboard, hset, rfl⟩ := placeStart_eq_ok hstep
  rw [hboard, Option.map_some, Option.map_some, Board.summary_of_set? hset]

/-- Placements leave the size of the board as it is. -/
lemma summary_of_run {l : List Start} (hrun : Run Setup.placeStart s l s') :
    s'.board.map Board.summary = s.board.map Board.summary :=
  hrun.keeps (P := fun s' => s'.board.map Board.summary = s.board.map Board.summary)
    (fun _ _ _ _ _ hstep hs => (summary_of_placeStart hstep).trans hs) rfl

/-- Placements change nothing but the catalog and the board. -/
lemma kept_of_run {l : List Start} (hrun : Run Setup.placeStart s l s') :
    s' = { s with catalog := s'.catalog, board := s'.board } := by
  refine hrun.keeps (P := fun s' => s' = { s with catalog := s'.catalog, board := s'.board }) ?_ rfl
  intro s₁ start _ notice s₂ hstep hs₁
  obtain ⟨board, board', x, y, -, -, rfl⟩ := placeStart_eq_ok hstep
  rw [hs₁]

/-- A start is placed unless there is an objection to it. -/
lemma WellKept.placeStart (hs : s.WellKept) (start : Start) :
    (∃ e, s.objection? start = some e ∧ s.placeStart start = .error e) ∨
      (s.objection? start = none ∧ ∃ notice s', s.placeStart start = .ok (notice, s')) := by
  unfold objection? Setup.placeStart
  cases hsquare : s.square start with
  | error e => exact .inl ⟨e, rfl, rfl⟩
  | ok square =>
    obtain ⟨x, y⟩ := square
    refine .inr ⟨rfl, ?_⟩
    cases hboard : s.board with
    | none => simp [Setup.square, hboard] at hsquare
    | some board =>
      obtain ⟨hheld, hfalls⟩ := (square_eq_ok hboard).mp hsquare
      obtain ⟨hx, hy⟩ := lt_of_fallsOn hheld hfalls
      obtain ⟨board', hset⟩ := (hs.board board hboard).1.exists_set? start.occupant hx hy
      refine ⟨.placed start.owner start.piece x y, { s with
        board := some board'
        catalog := s.catalog.countPlacement start.owner start.piece }, ?_⟩
      have hset : board.set? x y ⟨start.owner, start.piece⟩ = some board' := hset
      show s.place start.owner start.piece x y = _
      simp only [place, hboard, hset]

/-- Placing starts in turn fails at the first one to which there is an objection. -/
lemma WellKept.failure_steps (hs : s.WellKept) (l : List Start) :
    (steps Setup.placeStart s l).failure = l.findSome? s.objection? := by
  induction l generalizing s with
  | nil => rfl
  | cons start l ih =>
    rw [List.findSome?_cons, steps]
    rcases hs.placeStart start with ⟨e, hobjection, hrefused⟩ | ⟨hnone, notice, s', hplaced⟩
    · rw [hobjection, hrefused]
    · rw [hnone, hplaced]
      show (steps Setup.placeStart s' l).failure = _
      rw [ih (hs.of_placeStart hplaced), objection?_congr (summary_of_placeStart hplaced)]

lemma failure_placeAll_eq_steps (hunplaced : s.placed = false) :
    s.placeAll.failure = (steps Setup.placeStart s s.starts).failure := by
  rw [Setup.placeAll, if_neg (by simp [hunplaced]), andThen]
  split
  · next e hfailure => rfl
  · next hnone =>
    rw [hnone]
    rfl

/-- Either player has the starts of the declared pieces. -/
lemma startsOf_eq (hs : s.catalog.Uniform) (owner : Owner) :
    s.startsOf owner = s.catalog.templates.flatMap (startsOfCopy owner) := by
  have hshared (l : List Piece) :
      l.flatMap (startsOfCopy owner) = (l.map Piece.shared).flatMap (startsOfCopy owner) := by
    rw [List.flatMap_map]
    rfl
  calc s.startsOf owner = (s.catalog.pieces owner).flatMap (startsOfCopy owner) := rfl
    _ = s.catalog.templates.flatMap (startsOfCopy owner) := by rw [hshared, hs.shared, ← hshared]

lemma starts_eq_append (s : Setup) : s.starts = s.startsOf .playerOne ++ s.startsOf .playerTwo := by
  rw [starts, Owner.players, List.flatMap_cons, List.flatMap_singleton]

/-- Either player's starts have the positions of the declared pieces. -/
lemma forall_startsOf (hs : s.catalog.Uniform) (owner : Owner) (P : Position → Prop) :
    (∀ start ∈ s.startsOf owner, P start.position) ↔
      ∀ p ∈ s.catalog.templates, ∀ position ∈ p.starts, P position := by
  simp only [startsOf_eq hs, List.mem_flatMap, startsOfCopy, List.mem_map]
  constructor
  · intro h p hp position hposition
    exact h ⟨owner, p.name, position⟩ ⟨p, hp, position, hposition, rfl⟩
  · rintro h _ ⟨p, hp, position, hposition, rfl⟩
    exact h p hp position hposition

/-- The second player is never the first one to be refused. -/
lemma WellKept.failure_placeAll (hs : s.WellKept) (hunplaced : s.placed = false) :
    s.placeAll.failure = (s.startsOf .playerOne).findSome? s.objection? := by
  rw [failure_placeAll_eq_steps hunplaced, hs.failure_steps, starts_eq_append,
    List.findSome?_append]
  cases hone : (s.startsOf .playerOne).findSome? s.objection? with
  | some e => rfl
  | none =>
    simp only [List.findSome?_eq_none_iff, objection?_eq_none] at hone
    rw [Option.none_or, List.findSome?_eq_none_iff]
    intro start hstart
    rw [objection?_eq_none]
    exact (forall_startsOf hs.uniform .playerTwo s.Fits).mpr
      ((forall_startsOf hs.uniform .playerOne s.Fits).mp hone) start hstart

/-- A board is needed only if there are starts. -/
lemma forall_fits_iff (s : Setup) :
    (∀ p ∈ s.catalog.templates, ∀ position ∈ p.starts, s.Fits position) ↔
      (∀ p ∈ s.catalog.templates, p.starts = []) ∨ ∃ board, s.board = some board ∧
        ∀ p ∈ s.catalog.templates, ∀ position ∈ p.starts, board.Holds position := by
  cases hboard : s.board with
  | none => simp [Fits, hboard, List.eq_nil_iff_forall_not_mem]
  | some board =>
    simp only [Fits, hboard, Option.some.injEq, exists_eq_left']
    refine (or_iff_right_of_imp ?_).symm
    intro hnone p hp position hposition
    rw [hnone p hp] at hposition
    cases hposition

lemma WellKept.placeAll_succeeds_iff (hs : s.WellKept) (hunplaced : s.placed = false) :
    s.placeAll.failure = none ↔
      ∀ p ∈ s.catalog.templates, ∀ position ∈ p.starts, s.Fits position := by
  simp only [hs.failure_placeAll hunplaced, List.findSome?_eq_none_iff, objection?_eq_none]
  exact forall_startsOf hs.uniform .playerOne s.Fits

/-! ### Squares and counts -/

lemma Start.FallsOn.iff {height i j : UInt32} (h : start.FallsOn height x y) :
    start.FallsOn height i j ↔ x = i ∧ y = j := by
  obtain ⟨hcolumn, hrow⟩ := h
  rw [Start.FallsOn, ← UInt32.toNat_inj, ← UInt32.toNat_inj]
  by_cases howner : start.owner = .playerTwo
  · rw [if_pos howner] at hrow ⊢
    omega
  · rw [if_neg howner] at hrow ⊢
    omega

/-- After some starts are placed, every square shows the last one that falls on it. -/
lemma cell?_of_run {l : List Start} (hrun : Run Setup.placeStart s l s')
    (hboard : s.board = some board) :
    ∃ board', s'.board = some board' ∧ board'.summary = board.summary ∧ ∀ x y,
      board'.cell? x y =
        ((Start.last? board.height x y l).map Start.occupant).or (board.cell? x y) := by
  induction hrun generalizing board with
  | nil => exact ⟨board, hboard, rfl, fun _ _ => rfl⟩
  | @cons s _ _ start l _ hstep _ ih =>
    obtain ⟨⟨i, j⟩, hsquare, hplace⟩ := except_bind_eq_ok.mp hstep
    obtain ⟨board₀, board₁, hboard₀, hset, rfl⟩ := place_eq_ok hplace
    cases hboard.symm.trans hboard₀
    obtain ⟨board', hboard', hsummary, hcells⟩ := ih rfl
    have hsame := Board.summary_of_set? hset
    refine ⟨board', hboard', hsummary.trans hsame, fun x y => ?_⟩
    have hheight : board₁.height = board.height := congrArg BoardSummary.height hsame
    have hfalls := ((square_eq_ok hboard).mp hsquare).2
    simp only [hcells, hheight, Start.last?_cons, Board.cell?_of_set? hset, hfalls.iff,
      Option.map_or, Option.or_assoc]
    split_ifs <;> rfl

/-- All pieces have been placed on the squares that they start on, and nothing else has changed. -/
structure AllPlaced (s s' : Setup) : Prop where
  /-- Only the catalog and the board change, and that all pieces are placed is recorded. -/
  kept : s' = { s with catalog := s'.catalog, board := s'.board, placed := true }
  templates : s'.catalog.templates = s.catalog.templates
  /-- Either player's copies count one more placement for each start. Counts have 32 bits. -/
  copies : ∀ owner ∈ Owner.players, s'.catalog.pieces owner = (s.catalog.pieces owner).map fun p =>
    { p with count := p.count + UInt32.ofNat p.starts.length }
  board : s'.board.map Board.summary = s.board.map Board.summary
  /-- Columns and rows are computed without a difference below 0. -/
  squares : ∀ board, s.board = some board → ∀ start ∈ s.starts, ∃ x y,
    s.square start = .ok (x, y) ∧ start.FallsOn board.height x y ∧
      x < board.width ∧ y < board.height
  /-- Every square shows the last start that falls on it, or what it showed before. -/
  cells : ∀ board board', s.board = some board → s'.board = some board' → ∀ x y,
    board'.cell? x y =
      ((Start.last? board.height x y s.starts).map Start.occupant).or (board.cell? x y)

/-- A template has no start of its own. -/
lemma startsCount_template (s : Setup) (name : String) :
    startsCount .template name s.starts = 0 := by
  rw [startsCount, List.countP_eq_zero]
  intro start hstart hown
  obtain ⟨howner, -⟩ := of_decide_eq_true hown
  obtain ⟨owner, hplayer, hstart⟩ := List.mem_flatMap.mp hstart
  obtain ⟨p, -, hstart⟩ := List.mem_flatMap.mp hstart
  obtain ⟨position, -, rfl⟩ := List.mem_map.mp hstart
  subst howner
  revert hplayer
  decide

lemma WellKept.allPlaced (hs : s.WellKept) (hunplaced : s.placed = false)
    (hsucceeds : s.placeAll.failure = none) : s.AllPlaced s.placeAll.state := by
  obtain ⟨s', hrun, hstate⟩ := Tree.run_of_placeAll hunplaced hsucceeds
  have hpieces := pieces_of_run hrun
  rw [hstate]
  refine ⟨?_, ?_, ?_, ?_, ?_, ?_⟩
  · rw [kept_of_run hrun]
  · have htemplates := hpieces .template
    have hzero : UInt32.ofNat 0 = 0 := rfl
    simpa only [startsCount_template, hzero, UInt32.add_zero, List.map_id', Catalog.pieces]
      using htemplates
  · intro owner howner
    refine (hpieces owner).trans (List.map_congr_left ?_)
    intro p hp
    rw [startsCount_starts hs.uniform howner hp]
  · have hsummary := summary_of_run hrun
    exact hsummary
  · intro board hboard start hstart
    rw [failure_placeAll_eq_steps hunplaced, hs.failure_steps,
      List.findSome?_eq_none_iff] at hsucceeds
    obtain ⟨_, hboard', hheld⟩ := objection?_eq_none.mp (hsucceeds start hstart)
    cases hboard.symm.trans hboard'
    have hfalls := (fallsOn_iff hheld).mpr ⟨rfl, rfl⟩
    exact ⟨_, _, (square_eq_ok hboard).mpr ⟨hheld, hfalls⟩, hfalls, lt_of_fallsOn hheld hfalls⟩
  · intro board board' hboard hboard'
    obtain ⟨board'', hboard'', -, hcells⟩ := cell?_of_run hrun hboard
    cases hboard''.symm.trans hboard'
    exact hcells

/-- If placing all pieces fails, then at the first of all starts that is not on the board, and this
is a start of the first player. -/
lemma WellKept.first_refused (hs : s.WellKept) (hunplaced : s.placed = false) {e : SetupError}
    (hfails : s.placeAll.failure = some e) :
    ∃ before start after, s.starts = before ++ start :: after ∧ start.owner = .playerOne ∧
      (∀ earlier ∈ before, s.Fits earlier.position) ∧ ¬ s.Fits start.position ∧
      s.objection? start = some e := by
  rw [hs.failure_placeAll hunplaced] at hfails
  obtain ⟨before, start, after, hsplit, hobjection, hearlier⟩ :=
    List.findSome?_eq_some_iff.mp hfails
  have howner : start.owner = .playerOne := by
    have hmem : start ∈ s.startsOf .playerOne := by
      rw [hsplit]
      exact List.mem_append_right _ List.mem_cons_self
    obtain ⟨p, -, hmem⟩ := List.mem_flatMap.mp hmem
    obtain ⟨position, -, rfl⟩ := List.mem_map.mp hmem
    rfl
  refine ⟨before, start, after ++ s.startsOf .playerTwo, ?_, howner, ?_, ?_, hobjection⟩
  · rw [starts_eq_append, hsplit, List.append_assoc, List.cons_append]
  · intro earlier hmem
    exact objection?_eq_none.mp (hearlier earlier hmem)
  · rw [← objection?_eq_none, hobjection]
    exact Option.some_ne_none e

/-- After any operations on a new outline, as long as not all pieces have been placed, placing them
succeeds exactly if no declared piece has a start, or there is a board and every position that a
piece starts on is on it. On success every start has been placed, and placing all pieces again
changes nothing. On failure the error is about the first of all starts that is not on the board, as
it was written, and about the first player. -/
theorem placeAll_exact_after_operations (settings : Settings) (operations : List Operation)
    (hunplaced : ((Outline.new settings).performAll operations).setup.placed = false) :
    let s := ((Outline.new settings).performAll operations).setup
    (s.starts = Owner.players.flatMap fun owner => s.catalog.templates.flatMap fun p =>
      p.starts.map (Start.mk owner p.name)) ∧
    (s.placeAll.failure = none ↔ (∀ p ∈ s.catalog.templates, p.starts = []) ∨
      ∃ board, s.board = some board ∧
        ∀ p ∈ s.catalog.templates, ∀ position ∈ p.starts, board.Holds position) ∧
    (s.placeAll.failure = none → s.AllPlaced s.placeAll.state ∧
      (∀ owner ∈ Owner.players, ∀ p ∈ s.catalog.pieces owner,
        p.count.toNat + p.starts.length < UInt32.size →
        ∃ p', s.placeAll.state.catalog.piece? owner p.name = some p' ∧
          p'.count.toNat = p.count.toNat + p.starts.length) ∧
      s.placeAll.state.placeAll = .finished s.placeAll.state) ∧
    ∀ e, s.placeAll.failure = some e → ∃ before start after,
      s.starts = before ++ start :: after ∧ start.owner = .playerOne ∧
      (∀ earlier ∈ before, s.Fits earlier.position) ∧ ¬ s.Fits start.position ∧
      ((s.board = none ∧ before = [] ∧ e = .boardNotInitialized start.piece) ∨
        ∃ board, s.board = some board ∧ e = .placementOutOfBounds start.piece .playerOne
          start.position board.width board.height) := by
  intro s
  have hs : s.WellKept :=
    ((Outline.new settings).history_performAll operations).wellKept (wellKept_new settings.pieces)
  refine ⟨?_, ?_, ?_, ?_⟩
  · rw [starts]
    exact congrArg (Owner.players.flatMap ·) (funext (startsOf_eq hs.uniform))
  · rw [hs.placeAll_succeeds_iff hunplaced]
    exact s.forall_fits_iff
  · intro hsucceeds
    have hplaced := hs.allPlaced hunplaced hsucceeds
    refine ⟨hplaced, ?_, ?_⟩
    · intro owner howner p hp hbounded
      refine ⟨{ p with count := p.count + UInt32.ofNat p.starts.length }, ?_,
        toNat_add_ofNat hbounded⟩
      have huniform := (History.nil.placeAll.wellKept hs).uniform
      refine huniform.piece?_name
        (p := { p with count := p.count + UInt32.ofNat p.starts.length }) ?_
      rw [hplaced.copies owner howner]
      exact List.mem_map_of_mem hp
    · have hmarked : s.placeAll.state.placed = true := by rw [hplaced.kept]
      rw [Setup.placeAll, if_pos hmarked]
  · intro e hfails
    obtain ⟨before, start, after, hsplit, howner, hearlier, hout, hobjection⟩ :=
      hs.first_refused hunplaced hfails
    refine ⟨before, start, after, hsplit, howner, hearlier, hout, ?_⟩
    cases hboard : s.board with
    | none =>
      rw [objection?_of_no_board hboard] at hobjection
      refine .inl ⟨rfl, List.eq_nil_iff_forall_not_mem.mpr ?_, (Option.some.inj hobjection).symm⟩
      intro earlier hmem
      obtain ⟨board, hsome, -⟩ := hearlier earlier hmem
      cases hboard.symm.trans hsome
    | some board =>
      have hnot : ¬ board.Holds start.position := fun hheld => hout ⟨board, hboard, hheld⟩
      rw [objection?_of_board hboard, if_neg hnot, howner] at hobjection
      exact .inr ⟨board, rfl, (Option.some.inj hobjection).symm⟩

/-- A rook that starts on both ends of a column of three squares. -/
def twinRook : Template := ⟨{ Piece.template "rook" {} with starts := [⟨1, 1⟩, ⟨1, 3⟩] }, rfl⟩

/-- Operations after which two squares of a board are taken, one of them by a template. -/
def twinOperations : List Operation :=
  [.register ⟨Piece.template "pawn" {}, rfl⟩, .initBoard "grid" 2 3, .register twinRook,
    .place .template "rook" 1 1, .place .playerOne "pawn" 0 2]

def twinBoard : Board where
  name := "grid"
  width := 2
  height := 3
  rows := [[none, none], [none, some ⟨.template, "rook"⟩], [some ⟨.playerOne, "pawn"⟩, none]]

/-- The rooks of the second player end up on the squares that those of the first player were placed
on before, in reverse order. The pawn makes way for them, and the template stays. -/
theorem placeAll_exact_twinRook :
    let s := ((Outline.new {}).performAll twinOperations).setup
    s.placed = false ∧ s.board = some twinBoard ∧ s.placeAll.failure = none ∧
    (∃ p', s.placeAll.state.catalog.piece? .playerTwo "rook" = some p' ∧ p'.count.toNat = 0 + 2) ∧
    ∀ board', s.placeAll.state.board = some board' →
      board'.cell? 0 0 = some ⟨.playerTwo, "rook"⟩ ∧ board'.cell? 0 2 = some ⟨.playerTwo, "rook"⟩ ∧
      board'.cell? 1 1 = some ⟨.template, "rook"⟩ ∧ board'.cell? 1 0 = none := by
  intro s
  have hunplaced : s.placed = false := by decide +kernel
  have hboard : s.board = some twinBoard := by decide +kernel
  have hheld : ∀ p ∈ s.catalog.templates, ∀ position ∈ p.starts, twinBoard.Holds position := by
    decide +kernel
  obtain ⟨-, hiff, hsucceeds, -⟩ := placeAll_exact_after_operations {} twinOperations hunplaced
  have hsuccess := hiff.mpr (.inr ⟨twinBoard, hboard, hheld⟩)
  obtain ⟨hplaced, hcounts, -⟩ := hsucceeds hsuccess
  refine ⟨hunplaced, hboard, hsuccess, ?_, ?_⟩
  · exact hcounts .playerTwo (by decide) (twinRook.1.copyFor .playerTwo) (by decide +kernel)
      (by decide)
  · intro board' hboard'
    simp only [hplaced.cells twinBoard board' hboard hboard']
    decide +kernel

end Setup

end GridGame
