import GridGame.Proofs.Starts

/-!
# Failed placements

Placing all pieces does not look ahead. It stops at the first start that is refused, and the pieces
that it has put on the board by then stay there. That some pieces have been placed is not recorded,
so another attempt begins from the first start again. It puts the same pieces on the same squares,
counts their placements once more and fails for the same reason. Some failed attempts are therefore
a run through the starts before the refused one, repeated once for each attempt
(`run_of_attempts`). A failure leaves no trace exactly if the very first start is refused.
-/

namespace GridGame

open Progress

lemma Progress.Run.append {σ ε α : Type} {step : σ → α → Except ε (Notice × σ)} {s s' s'' : σ}
    {l l' : List α} (h : Run step s l s') (h' : Run step s' l' s'') : Run step s (l ++ l') s'' := by
  induction h with
  | nil => exact h'
  | cons hstep _ ih => exact .cons hstep (ih h')

namespace Setup

variable {s s' : Setup} {e : SetupError}

/-! ### Repeated starts -/

lemma startsCount_flatten_replicate (owner : Owner) (name : String) (k : Nat) (l : List Start) :
    startsCount owner name (List.replicate k l).flatten = k * startsCount owner name l := by
  induction k with
  | zero => simp [startsCount]
  | succ k ih =>
    rw [List.replicate_succ, List.flatten_cons, startsCount_append, ih, Nat.succ_mul, Nat.add_comm]

lemma Start.last?_append (height x y : UInt32) (l l' : List Start) :
    last? height x y (l ++ l') = (last? height x y l').or (last? height x y l) := by
  rw [last?, List.reverse_append, List.find?_append]
  rfl

/-- If starts are placed again and again, a square shows what it shows after the first time. -/
lemma Start.last?_flatten_replicate (height x y : UInt32) (k : Nat) (l : List Start) :
    last? height x y (List.replicate (k + 1) l).flatten = last? height x y l := by
  induction k with
  | zero => simp
  | succ k ih =>
    rw [List.replicate_succ, List.flatten_cons, last?_append, ih]
    cases last? height x y l <;> rfl

/-! ### One attempt -/

/-- The starts that come before the first one that is refused. -/
def admitted (s : Setup) : List Start :=
  s.starts.takeWhile fun start => (s.objection? start).isNone

/-- Placing starts in turn gets as far as the first one to which there is an objection. -/
lemma WellKept.run_steps (hs : s.WellKept) (l : List Start) :
    Run Setup.placeStart s (l.takeWhile fun start => (s.objection? start).isNone)
      (steps Setup.placeStart s l).state := by
  induction l generalizing s with
  | nil => exact .nil s
  | cons start l ih =>
    rw [steps, List.takeWhile_cons]
    rcases hs.placeStart start with ⟨e, hobjection, hrefused⟩ | ⟨hnone, notice, s', hplaced⟩
    · rw [hobjection, hrefused]
      exact .nil s
    · rw [hnone, hplaced]
      refine .cons hplaced ?_
      rw [← objection?_congr (summary_of_placeStart hplaced)]
      exact ih (hs.of_placeStart hplaced)

lemma placed_of_failure (hfails : s.placeAll.failure = some e) : s.placed = false := by
  by_contra hplaced
  rw [Setup.placeAll, if_pos (Bool.eq_true_of_not_eq_false hplaced)] at hfails
  cases hfails

lemma state_placeAll_of_failure (hfails : s.placeAll.failure = some e) :
    s.placeAll.state = (steps Setup.placeStart s s.starts).state := by
  have hunplaced := placed_of_failure hfails
  rw [failure_placeAll_eq_steps hunplaced] at hfails
  rw [Setup.placeAll, if_neg (by simp [hunplaced]), andThen, hfails]

lemma WellKept.run_admitted (hs : s.WellKept) (hfails : s.placeAll.failure = some e) :
    Run Setup.placeStart s s.admitted s.placeAll.state := by
  rw [state_placeAll_of_failure hfails]
  exact hs.run_steps s.starts

/-- Placements change no start. -/
lemma starts_of_run {l : List Start} (hrun : Run Setup.placeStart s l s') :
    s'.starts = s.starts := by
  have howner (owner : Owner) : s'.startsOf owner = s.startsOf owner := by
    rw [startsOf, pieces_of_run hrun owner, List.flatMap_map]
    rfl
  rw [starts, funext howner]
  rfl

lemma admitted_of_run {l : List Start} (hrun : Run Setup.placeStart s l s') :
    s'.admitted = s.admitted := by
  rw [admitted, starts_of_run hrun, objection?_congr (summary_of_run hrun)]
  rfl

lemma WellKept.failure_of_run (hs : s.WellKept) (hs' : s'.WellKept) (hunplaced : s.placed = false)
    {l : List Start} (hrun : Run Setup.placeStart s l s') :
    s'.placeAll.failure = s.placeAll.failure := by
  have hunplaced' : s'.placed = false := by
    rw [kept_of_run hrun]
    exact hunplaced
  rw [failure_placeAll_eq_steps hunplaced', failure_placeAll_eq_steps hunplaced, hs'.failure_steps,
    hs.failure_steps, starts_of_run hrun, objection?_congr (summary_of_run hrun)]

lemma WellKept.exists_refused (hs : s.WellKept) (hfails : s.placeAll.failure = some e) :
    ∃ start after, s.starts = s.admitted ++ start :: after ∧ start.owner = .playerOne ∧
      s.objection? start = some e := by
  obtain ⟨before, start, after, hsplit, howner, hearlier, -, hobjection⟩ :=
    hs.first_refused (placed_of_failure hfails) hfails
  have hadmitted : s.admitted = before := by
    rw [admitted, hsplit, List.takeWhile_append_of_pos, List.takeWhile_cons_of_neg,
      List.append_nil]
    · simp [hobjection]
    · intro earlier hmem
      rw [objection?_eq_none.mpr (hearlier earlier hmem), Option.isNone_none]
  exact ⟨start, after, by rw [hadmitted, hsplit], howner, hobjection⟩

/-- Only the first player's pieces are placed by then. -/
lemma WellKept.owner_of_mem_admitted (hs : s.WellKept) (hfails : s.placeAll.failure = some e)
    {earlier : Start} (hmem : earlier ∈ s.admitted) : earlier.owner = .playerOne := by
  have howner {owner : Owner} {start : Start} (hstart : start ∈ s.startsOf owner) :
      start.owner = owner := by
    obtain ⟨p, -, hstart⟩ := List.mem_flatMap.mp hstart
    obtain ⟨position, -, rfl⟩ := List.mem_map.mp hstart
    rfl
  obtain ⟨start, after, hsplit, hone, -⟩ := hs.exists_refused hfails
  rw [starts_eq_append, List.append_eq_append_iff] at hsplit
  rcases hsplit with ⟨rest, -, hsecond⟩ | ⟨rest, hfirst, -⟩
  · -- the refused start would be one of the second player
    have htwo : start ∈ s.startsOf .playerTwo := by
      rw [hsecond]
      simp
    rw [howner htwo] at hone
    cases hone
  · apply howner
    rw [hfirst]
    exact List.mem_append_left _ hmem

/-! ### Any number of attempts -/

/-- What is left of some failed attempts to place all pieces. -/
structure Attempted (attempts : Nat) (s s' : Setup) : Prop where
  /-- Only the catalog and the board change, and nothing is recorded of the attempts. -/
  kept : s' = { s with catalog := s'.catalog, board := s'.board }
  templates : s'.catalog.templates = s.catalog.templates
  playerTwo : s'.catalog.playerTwo = s.catalog.playerTwo
  /-- The first player's copies count every placement in every attempt. Counts have 32 bits. -/
  playerOne : s'.catalog.playerOne = s.catalog.playerOne.map fun p =>
    { p with
      count := p.count + UInt32.ofNat (attempts * startsCount .playerOne p.name s.admitted) }
  board : s'.board.map Board.summary = s.board.map Board.summary
  /-- After the first attempt every square shows the last piece that was put on it. -/
  cells : ∀ board board', s.board = some board → s'.board = some board' → ∀ x y,
    board'.cell? x y = if attempts = 0 then board.cell? x y else
      ((Start.last? board.height x y s.admitted).map Start.occupant).or (board.cell? x y)

lemma WellKept.attempted (hs : s.WellKept) (hfails : s.placeAll.failure = some e) {attempts : Nat}
    (hrun : Run Setup.placeStart s (List.replicate attempts s.admitted).flatten s') :
    Attempted attempts s s' := by
  have hpieces (owner : Owner) := pieces_of_run hrun owner
  simp only [startsCount_flatten_replicate] at hpieces
  have hother (owner : Owner) (hne : .playerOne ≠ owner) :
      s'.catalog.pieces owner = s.catalog.pieces owner := by
    have hnone (name : String) : startsCount owner name s.admitted = 0 := by
      rw [startsCount, List.countP_eq_zero]
      intro start hstart hown
      exact hne ((hs.owner_of_mem_admitted hfails hstart).symm.trans (of_decide_eq_true hown).1)
    have hzero : UInt32.ofNat 0 = 0 := rfl
    simp only [hpieces, hnone, Nat.mul_zero, hzero, UInt32.add_zero, List.map_id']
  refine ⟨kept_of_run hrun, hother .template (by decide), hother .playerTwo (by decide),
    hpieces .playerOne, summary_of_run hrun, ?_⟩
  intro board board' hboard hboard' x y
  obtain ⟨board'', hboard'', -, hcells⟩ := cell?_of_run hrun hboard
  cases hboard''.symm.trans hboard'
  rw [hcells]
  cases attempts with
  | zero => simp [Start.last?]
  | succ k => rw [Start.last?_flatten_replicate, if_neg k.succ_ne_zero]

/-- The first player's copy of a piece that has been placed counts it. -/
lemma WellKept.exists_counted (hs : s.WellKept) (hfails : s.placeAll.failure = some e)
    {start : Start} (hstart : start ∈ s.admitted) :
    ∃ p ∈ s.catalog.pieces .playerOne, 0 < startsCount .playerOne p.name s.admitted ∧
      startsCount .playerOne p.name s.admitted ≤ p.starts.length := by
  have hsublist : s.admitted.Sublist s.starts := List.takeWhile_sublist _
  obtain ⟨-, hname⟩ := mem_starts hs.uniform (hsublist.subset hstart)
  rw [← hs.uniform.names .playerOne] at hname
  obtain ⟨p, hp, hname⟩ := List.mem_map.mp hname
  refine ⟨p, hp, ?_, ?_⟩
  · refine List.countP_pos_iff.mpr ⟨start, hstart, ?_⟩
    simp [hname, hs.owner_of_mem_admitted hfails hstart]
  · exact hsublist.countP_le.trans_eq (startsCount_starts hs.uniform (by decide) hp)

/-- A failed attempt leaves no trace exactly if the very first start is refused. Any other one is
counted, since no piece has as many starts as it takes for counts to begin again. -/
lemma WellKept.state_placeAll_eq_iff (hs : s.WellKept) (hfails : s.placeAll.failure = some e)
    (hbounded : ∀ p ∈ s.catalog.templates, p.starts.length < UInt32.size) :
    s.placeAll.state = s ↔ s.admitted = [] := by
  have hrun := hs.run_admitted hfails
  constructor
  · intro hsame
    rw [hsame] at hrun
    refine List.eq_nil_iff_forall_not_mem.mpr fun start hstart => ?_
    obtain ⟨p, hp, hpos, hle⟩ := hs.exists_counted hfails hstart
    have hlt : p.starts.length < UInt32.size := by
      obtain ⟨template, htemplate, hshared⟩ := hs.uniform.exists_template hp
      rw [← p.shared_starts, ← hshared, template.shared_starts]
      exact hbounded template htemplate
    have hpieces := (pieces_of_run hrun .playerOne).symm.trans (List.map_id _).symm
    have hcount := congrArg Piece.count (List.map_inj_left.mp hpieces p hp)
    have hzero := congrArg UInt32.toNat (UInt32.add_eq_left.mp hcount)
    rw [UInt32.toNat_ofNat', Nat.mod_eq_of_lt (hle.trans_lt hlt)] at hzero
    exact hpos.ne' hzero
  · intro hnone
    rw [hnone] at hrun
    generalize s.placeAll.state = s' at hrun ⊢
    cases hrun
    rfl

end Setup

/-- Placing all pieces and writing the sections both are attempts to place all pieces. -/
def Operation.IsAttempt (operation : Operation) : Prop :=
  operation = .placeAll ∨ operation = .render

namespace Outline

variable {o : Outline} {e : SetupError}

lemma perform_attempt {attempt : Operation} (h : attempt.IsAttempt) :
    o.perform attempt = o.withSetup o.setup.placeAll.state := by
  rcases h with rfl | rfl
  · rfl
  · rw [perform, outline_emit]
    rfl

/-- Failed attempts go through the same starts again and again. -/
lemma run_of_attempts (hs : o.setup.WellKept) (hfails : o.setup.placeAll.failure = some e)
    {attempts : List Operation} (hattempts : ∀ attempt ∈ attempts, attempt.IsAttempt) :
    (o.performAll attempts).loop = o.loop ∧
    (o.performAll attempts).setup.placeAll.failure = some e ∧
    Run Setup.placeStart o.setup (List.replicate attempts.length o.setup.admitted).flatten
      (o.performAll attempts).setup := by
  induction attempts generalizing o with
  | nil => exact ⟨rfl, hfails, .nil _⟩
  | cons attempt attempts ih =>
    obtain ⟨hattempt, hattempts⟩ := List.forall_mem_cons.mp hattempts
    rw [performAll, List.foldl_cons, perform_attempt hattempt]
    have hfirst := hs.run_admitted hfails
    have hs' := Setup.History.nil.placeAll.wellKept hs
    have hfails' := hs.failure_of_run hs' (Setup.placed_of_failure hfails) hfirst
    obtain ⟨hloop, hfailure, hrun⟩ :=
      ih (o := o.withSetup o.setup.placeAll.state) hs' (hfails'.trans hfails) hattempts
    refine ⟨hloop, hfailure, ?_⟩
    rw [List.length_cons, List.replicate_succ, List.flatten_cons]
    refine hfirst.append ?_
    rw [← Setup.admitted_of_run hfirst]
    exact hrun

/-- After any operations on a new outline, let placing all pieces fail. Then it has placed the
starts before the first one that is refused, all of them the first player's, and these placements
stay. However often placing all pieces is attempted again, directly or to write the sections, it
fails with the same error, the placements before it are counted once more, and nothing else changes.
So the outline is as before exactly if the very first start is refused. -/
theorem failed_placements_leave_admitted (settings : Settings) (operations : List Operation)
    (hfails : ((Outline.new settings).performAll operations).placeAll.failure = some e) :
    let o := (Outline.new settings).performAll operations
    o.setup.placed = false ∧
    (∃ start after, o.setup.starts = o.setup.admitted ++ start :: after ∧
      start.owner = .playerOne ∧ o.setup.objection? start = some e) ∧
    (∀ start ∈ o.setup.admitted, start.owner = .playerOne ∧ o.setup.Fits start.position) ∧
    (∀ attempts : List Operation, (∀ attempt ∈ attempts, attempt.IsAttempt) →
      let o' := o.performAll attempts
      o'.placeAll.failure = some e ∧ o'.emit.failure = some (.setup e) ∧ o'.loop = o.loop ∧
        o.setup.Attempted attempts.length o'.setup) ∧
    ((∀ p ∈ o.setup.catalog.templates, p.starts.length < UInt32.size) →
      (o.placeAll.state = o ↔ o.setup.admitted = []) ∧
      (o.emit.outline = o ↔ o.setup.admitted = [])) := by
  intro o
  have hs : o.setup.WellKept := ((Outline.new settings).history_performAll operations).wellKept
    (Setup.wellKept_new settings.pieces)
  have hfails : o.setup.placeAll.failure = some e := hfails
  refine ⟨Setup.placed_of_failure hfails, hs.exists_refused hfails, ?_, ?_, ?_⟩
  · intro start hstart
    have hnone := List.all_eq_true.mp List.all_takeWhile start hstart
    exact ⟨hs.owner_of_mem_admitted hfails hstart,
      Setup.objection?_eq_none.mp (Option.isNone_iff_eq_none.mp hnone)⟩
  · intro attempts hattempts o'
    obtain ⟨hloop, hfailure, hrun⟩ := run_of_attempts hs hfails hattempts
    refine ⟨hfailure, ?_, hloop, hs.attempted hfails hrun⟩
    have hfailure : o'.placeAll.failure = some e := hfailure
    rw [emit, hfailure]
  · intro hbounded
    have hstate : o.placeAll.state = o ↔ o.setup.admitted = [] := by
      rw [← hs.state_placeAll_eq_iff hfails hbounded]
      constructor
      · exact congrArg Outline.setup
      · exact congrArg o.withSetup
    refine ⟨hstate, ?_⟩
    rw [outline_emit]
    exact hstate

/-- A rook that starts on some squares, and a board of two by two squares. -/
def rookOperations (starts : List Position) : List Operation :=
  [.initBoard "grid" 2 2, .register ⟨{ Piece.template "rook" {} with starts := starts }, rfl⟩]

/-- How often the first player's rook has been placed. -/
def rookCount? (o : Outline) : Option UInt32 :=
  (o.setup.catalog.piece? .playerOne "rook").map Piece.count

/-- The third start of the rook is not on the board. Three attempts to place it leave two rooks on
the board, and six placements on the first player's account. -/
theorem failed_placements_thirdStart :
    let o := (Outline.new {}).performAll (rookOperations [⟨1, 1⟩, ⟨2, 2⟩, ⟨3, 1⟩])
    let o' := o.performAll [.placeAll, .render, .placeAll]
    let e := .placementOutOfBounds "rook" .playerOne ⟨3, 1⟩ 2 2
    o.placeAll.failure = some e ∧ o'.placeAll.failure = some e ∧
    o'.emit.failure = some (.setup e) ∧ o.placeAll.state ≠ o ∧
    o'.setup.placed = false ∧ o'.rookCount? = some 6 ∧
    ∀ board', o'.setup.board = some board' →
      board'.cell? 0 0 = some ⟨.playerOne, "rook"⟩ ∧ board'.cell? 1 1 = some ⟨.playerOne, "rook"⟩ ∧
      board'.cell? 1 0 = none := by
  intro o o' e
  have hfails : o.placeAll.failure = some e := by decide +kernel
  have hboard : o.setup.board = some (.blank "grid" 2 2) := by decide +kernel
  obtain ⟨hunplaced, -, -, hattempts, htraceless⟩ :=
    failed_placements_leave_admitted {} (rookOperations [⟨1, 1⟩, ⟨2, 2⟩, ⟨3, 1⟩]) hfails
  obtain ⟨hfailure, hemit, -, hattempted⟩ :=
    hattempts [.placeAll, .render, .placeAll] (by simp [Operation.IsAttempt])
  have hattempted : o.setup.Attempted 3 o'.setup := hattempted
  refine ⟨hfails, hfailure, hemit, ?_, ?_, ?_, ?_⟩
  · rw [ne_eq, (htraceless (by decide +kernel)).1]
    decide +kernel
  · rw [hattempted.kept]
    exact hunplaced
  · rw [rookCount?, Catalog.piece?, Catalog.pieces, hattempted.playerOne]
    decide +kernel
  · intro board' hboard'
    simp only [hattempted.cells _ board' hboard hboard']
    decide +kernel

/-- If the second start is not on the board, the first one has been placed and counted, and another
attempt counts it again. -/
theorem failed_placements_secondStart :
    let o := (Outline.new {}).performAll (rookOperations [⟨1, 1⟩, ⟨3, 1⟩])
    let o' := o.placeAll.state
    let e := .placementOutOfBounds "rook" .playerOne ⟨3, 1⟩ 2 2
    o.placeAll.failure = some e ∧ o'.placeAll.failure = some e ∧
    o.setup.board.map Board.occupied = some [] ∧
    o'.setup.board.map Board.occupied = some [(0, 0, ⟨.playerOne, "rook"⟩)] ∧
    o.rookCount? = some 0 ∧ o'.rookCount? = some 1 ∧ o'.placeAll.state.rookCount? = some 2 := by
  decide +kernel

end Outline

end GridGame
