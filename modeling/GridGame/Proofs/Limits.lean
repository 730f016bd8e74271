import GridGame.Proofs.Copies

/-!
# Limits of pieces

A piece has a limit on how many may be placed. Statements that place pieces during the game keep to
it, but placing all pieces on the squares they start on does not look at it. Either player's copy
counts one placement for each square that its piece starts on, so the count exceeds the limit
exactly for pieces that start on too many squares.
-/

namespace GridGame

open Progress

namespace Setup

variable {t : Tree} {s s' : Setup}

/-- How many of the starts are those of an owner's copy. -/
def startsCount (owner : Owner) (name : String) (l : List Start) : Nat :=
  l.countP fun start => start.owner = owner ∧ name = start.piece

lemma startsCount_append (owner : Owner) (name : String) (l l' : List Start) :
    startsCount owner name (l ++ l') = startsCount owner name l + startsCount owner name l' :=
  List.countP_append

/-- Placements on some squares add to the count of each copy how many of them are its own. -/
lemma pieces_of_run {l : List Start} (h : Run placeStart s l s') (owner : Owner) :
    s'.catalog.pieces owner = (s.catalog.pieces owner).map fun p =>
      { p with count := p.count + UInt32.ofNat (startsCount owner p.name l) } := by
  induction h with
  | nil => simp [startsCount]
  | @cons s _ _ start l _ hstep _ ih =>
    obtain ⟨board, board', x, y, -, -, rfl⟩ := placeStart_eq_ok hstep
    rw [ih, Catalog.pieces_countPlacement, List.map_map]
    apply List.map_congr_left
    intro p _
    by_cases hown : start.owner = owner ∧ p.name = start.piece
    · have hcount : startsCount owner p.name (start :: l) = startsCount owner p.name l + 1 :=
        List.countP_cons_of_pos (by simpa using hown)
      rw [Function.comp_apply, if_pos hown, hcount, UInt32.ofNat_add, UInt32.add_comm (.ofNat _),
        ← UInt32.add_assoc]
      rfl
    · have hcount : startsCount owner p.name (start :: l) = startsCount owner p.name l :=
        List.countP_cons_of_neg (by simpa using hown)
      rw [Function.comp_apply, if_neg hown, hcount]

def startsOfCopy (owner : Owner) (p : Piece) : List Start :=
  p.starts.map (Start.mk owner p.name)

lemma startsCount_startsOfCopy_self (owner : Owner) (p : Piece) :
    startsCount owner p.name (startsOfCopy owner p) = p.starts.length := by
  simp [startsCount, startsOfCopy, List.countP_map, Function.comp_def]

/-- No start of another owner or another piece counts. -/
lemma startsCount_eq_zero {owner owner' : Owner} {name : String} {l : List Piece}
    (h : owner' ≠ owner ∨ name ∉ l.map Piece.name) :
    startsCount owner name (l.flatMap (startsOfCopy owner')) = 0 := by
  rw [startsCount, List.countP_eq_zero]
  intro start hstart hown
  obtain ⟨q, hq, hstart⟩ := List.mem_flatMap.mp hstart
  obtain ⟨position, -, rfl⟩ := List.mem_map.mp hstart
  obtain ⟨howner, rfl⟩ := of_decide_eq_true hown
  rcases h with hother | hnew
  · exact hother howner
  · exact hnew (List.mem_map_of_mem hq)

/-- Of pieces with different names, only one has starts with its name. -/
lemma startsCount_of_nodup {owner : Owner} {p : Piece} {l : List Piece}
    (hnodup : (l.map Piece.name).Nodup) (hp : p ∈ l) :
    startsCount owner p.name (l.flatMap (startsOfCopy owner)) = p.starts.length := by
  induction l with
  | nil => cases hp
  | cons q l ih =>
    obtain ⟨hq, hnodup⟩ := List.nodup_cons.mp hnodup
    rw [List.flatMap_cons, startsCount_append]
    rcases List.mem_cons.mp hp with rfl | hp
    · rw [startsCount_startsOfCopy_self, startsCount_eq_zero (.inr hq), Nat.add_zero]
    · have hname : p.name ≠ q.name := fun hname => hq (hname ▸ List.mem_map_of_mem hp)
      have hother : startsCount owner p.name ([q].flatMap (startsOfCopy owner)) = 0 :=
        startsCount_eq_zero (.inr (by simpa using hname))
      rw [List.flatMap_singleton] at hother
      rw [ih hnodup hp, hother, Nat.zero_add]

/-- A player's copy is placed once for each square that its piece starts on. -/
lemma startsCount_starts (hs : s.catalog.Uniform) {owner : Owner} (howner : owner ∈ Owner.players)
    {p : Piece} (hp : p ∈ s.catalog.pieces owner) :
    startsCount owner p.name s.starts = p.starts.length := by
  have hnodup : ((s.catalog.pieces owner).map Piece.name).Nodup := by
    rw [hs.names]
    exact hs.nodup
  have hsplit : s.starts = (s.catalog.pieces .playerOne).flatMap (startsOfCopy .playerOne) ++
      (s.catalog.pieces .playerTwo).flatMap (startsOfCopy .playerTwo) := by
    rw [starts, Owner.players, List.flatMap_cons, List.flatMap_singleton]
    rfl
  simp only [Owner.players, List.mem_cons, List.not_mem_nil, or_false] at howner
  rw [hsplit, startsCount_append]
  rcases howner with rfl | rfl
  · rw [startsCount_of_nodup hnodup hp, startsCount_eq_zero (.inl (by decide)), Nat.add_zero]
  · rw [startsCount_of_nodup hnodup hp, startsCount_eq_zero (.inl (by decide)), Nat.zero_add]

/-- Declarations place nothing. -/
lemma counts_of_run {ds : List Declaration} (h : Run (declare t) s ds s')
    (hs : ∀ owner, ∀ p ∈ s.catalog.pieces owner, p.count = 0) :
    ∀ owner, ∀ p ∈ s'.catalog.pieces owner, p.count = 0 := by
  refine h.keeps (P := fun s => ∀ owner, ∀ p ∈ s.catalog.pieces owner, p.count = 0) ?_ hs
  intro s d _ notice s' hstep hs owner p hp
  cases declared_of_declare hstep with
  | board => exact hs owner p hp
  | innerBoard => exact hs owner p hp
  | piece htemplate _ =>
    obtain ⟨howner, -, hcount⟩ := Tree.pieceTemplate_keeps htemplate
    rw [Catalog.pieces_add _ howner] at hp
    rcases List.mem_append.mp hp with hp | hp
    · exact hs owner p hp
    · rw [List.mem_singleton.mp hp]
      exact hcount

end Setup

/-- Every declared piece starts on no more squares than its limit allows. Counts wrap around. -/
def Tree.StartsWithinLimits (t : Tree) (defaults : PieceDefaults) : Prop :=
  ∀ piece ∈ t.declarations.filterMap Declaration.piece?,
    ∀ template ∈ (t.pieceTemplate defaults piece.1 piece.2).toOption,
      template.starts.length % UInt32.size ≤ template.limit.toNat

instance (t : Tree) (defaults : PieceDefaults) : Decidable (t.StartsWithinLimits defaults) :=
  inferInstanceAs (Decidable (∀ piece ∈ t.declarations.filterMap Declaration.piece?,
    ∀ template ∈ (t.pieceTemplate defaults piece.1 piece.2).toOption,
      template.starts.length % UInt32.size ≤ template.limit.toNat))

namespace Build

variable {t : Tree} {settings : Settings}

/-- The copies in a program count the squares that they start on. -/
lemma count_of_mem_copies (b : Build t settings) {copy : Piece} (hcopy : copy ∈ b.copies) :
    copy.count = UInt32.ofNat copy.starts.length := by
  obtain ⟨owner, howner, hcopy⟩ := List.mem_flatMap.mp hcopy
  rw [Setup.pieces_of_run b.places] at hcopy
  obtain ⟨p, hp, rfl⟩ := List.mem_map.mp hcopy
  have hzero : p.count = 0 := by
    refine Setup.counts_of_run b.collects ?_ owner p hp
    intro owner p hp
    cases owner <;> cases hp
  have hstarts : Setup.startsCount owner p.name b.declared.starts = p.starts.length :=
    Setup.startsCount_starts b.catalog_declared howner hp
  simp only [hzero, hstarts, UInt32.zero_add]

/-- A copy is within its limit if its template starts on few enough squares. -/
lemma count_le_limit_iff (b : Build t settings) {copy template : Piece} (hcopy : copy ∈ b.copies)
    (hshared : copy.shared = template.shared) :
    copy.count ≤ copy.limit ↔
      template.starts.length % UInt32.size ≤ template.limit.toNat := by
  have hstarts : copy.starts = template.starts := by
    rw [← copy.shared_starts, hshared, template.shared_starts]
  have hlimit : copy.limit = template.limit := by
    rw [← copy.shared_limit, hshared, template.shared_limit]
  rw [b.count_of_mem_copies hcopy, hstarts, hlimit, UInt32.le_iff_toNat_le, UInt32.toNat_ofNat']

/-- Every copy is one of a template. -/
lemma exists_template_of_copy (b : Build t settings) {copy : Piece} (hcopy : copy ∈ b.copies) :
    ∃ template ∈ b.declared.catalog.templates, copy.shared = template.shared := by
  obtain ⟨owner, -, hcopy⟩ := List.mem_flatMap.mp hcopy
  have hmem : copy.shared ∈ b.declared.catalog.templates.map Piece.shared := by
    rw [← b.placedFrom.shared, ← b.placedFrom.uniform.shared owner]
    exact List.mem_map_of_mem hcopy
  obtain ⟨template, htemplate, hshared⟩ := List.mem_map.mp hmem
  exact ⟨template, htemplate, hshared.symm⟩

lemma counts_le_limits_iff (b : Build t settings) :
    (∀ copy ∈ b.copies, copy.count ≤ copy.limit) ↔ t.StartsWithinLimits settings.pieces := by
  constructor
  · intro h piece hpiece template htemplate
    obtain ⟨template', hmem, hok⟩ := forall₂_exists_right b.templates_declared hpiece
    cases hok.symm.trans (Tree.toOption_eq_some.mp htemplate)
    obtain ⟨copy, hcopy, -, hshared⟩ :=
      b.exists_copy_of_template hmem (List.mem_cons_self : .playerOne ∈ Owner.players)
    exact (b.count_le_limit_iff hcopy hshared).mp (h copy hcopy)
  · intro h copy hcopy
    obtain ⟨template, hmem, hshared⟩ := b.exists_template_of_copy hcopy
    obtain ⟨piece, hpiece, hok⟩ := forall₂_exists_left b.templates_declared hmem
    exact (b.count_le_limit_iff hcopy hshared).mpr
      (h piece hpiece template (Tree.toOption_eq_some.mpr hok))

end Build

namespace Tree

variable {t : Tree} {settings : Settings}

/-- In a compiled program the count of each player's copy is the number of squares that the piece
starts on. So no count exceeds its limit exactly if every declared piece starts on no more squares
than its limit allows. -/
theorem counts_within_limits_iff (hfinished : t.Finished) {c : Compilation}
    (hcompile : (t.compile settings).outcome = .ok c) :
    ∃ b : Build t settings, c.program = b.text ∧
      (∀ copy ∈ b.copies, copy.count = UInt32.ofNat copy.starts.length) ∧
      ((∀ copy ∈ b.copies, copy.count ≤ copy.limit) ↔ t.StartsWithinLimits settings.pieces) := by
  obtain ⟨-, b, htext, -⟩ := exists_build_of_compile hfinished.kind_root hcompile
  refine ⟨b, htext, ?_, b.counts_le_limits_iff⟩
  intro copy hcopy
  exact b.count_of_mem_copies hcopy

/-- A board and a piece with a limit that starts on two squares. -/
def limitedPiece (limit : Int64) : List BuildEvent :=
  [.opened .start .none .detached] ++
    pieceEvents "pawn" [(4, 5), (6, 7)]
      [.leaf .ident (.text "limit") .detached, .leaf .integer (.integer limit) .detached,
        .leaf .ident (.text "start") .detached, .opened .list .none .detached,
        .opened .pair .none .detached, .leaf .integer (.integer 1) .detached,
        .leaf .integer (.integer 1) .detached, .closed,
        .opened .pair .none .detached, .leaf .integer (.integer 2) .detached,
        .leaf .integer (.integer 1) .detached, .closed, .closed] ++
    assignmentEvents "grid" .board (.dimensions 2 2) ++ [.closed]

theorem limitedPiece_within_limit :
    ∃ (t : Tree) (c : Compilation), t.Finished ∧ (t.compile {}).outcome = .ok c ∧
      t.StartsWithinLimits {} ∧ ∃ b : Build t {}, c.program = b.text ∧
        ∀ copy ∈ b.copies, copy.count ≤ copy.limit := by
  obtain ⟨t, hfinished, hcompiled, hlimits⟩ := exists_finished_of_check (limitedPiece 2)
    (fun t => (t.compile {}).outcome.isOk ∧ t.StartsWithinLimits {}) (by decide +kernel)
  obtain ⟨c, hcompile⟩ := exists_of_isOk hcompiled
  obtain ⟨b, htext, -, hiff⟩ := counts_within_limits_iff hfinished hcompile
  exact ⟨t, c, hfinished, hcompile, hlimits, b, htext, hiff.mpr hlimits⟩

theorem limitedPiece_exceeds_limit :
    ∃ (t : Tree) (c : Compilation), t.Finished ∧ (t.compile {}).outcome = .ok c ∧
      ∀ b : Build t {}, ∃ copy ∈ b.copies, copy.limit < copy.count := by
  obtain ⟨t, hfinished, hcompiled, hlimits⟩ := exists_finished_of_check (limitedPiece 1)
    (fun t => (t.compile {}).outcome.isOk ∧ ¬ t.StartsWithinLimits {}) (by decide +kernel)
  obtain ⟨c, hcompile⟩ := exists_of_isOk hcompiled
  refine ⟨t, c, hfinished, hcompile, ?_⟩
  intro b
  by_contra hwithin
  refine hlimits (b.counts_le_limits_iff.mp ?_)
  intro copy hcopy
  exact UInt32.not_lt.mp fun hlt => hwithin ⟨copy, hcopy, hlt⟩

end Tree

end GridGame
