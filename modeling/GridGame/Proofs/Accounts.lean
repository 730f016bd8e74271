import GridGame.Proofs.Histories

/-!
# Accounts of placements

Two things keep track of placements: the counts in the catalog and the squares of the board. Either
of them is determined by the deeds in the history of a setup. A copy counts the placements of its
own piece and owner since it was registered, and a square shows the last piece that was put on it.
So an occupant can take no more squares than its count has grown by, unless it was placed before it
was registered.
-/

namespace GridGame

/-! ### Squares -/

namespace Board

variable {b b' : Board} {x y : UInt32} {o : Occupant}

lemma mem_occupied_iff_cell? : (x.toNat, y.toNat, o) ∈ b.occupied ↔ b.cell? x y = some o := by
  simp [mem_occupied, cell?, Option.bind_eq_some_iff]

@[simp] lemma cell?_blank (name : String) (width height : UInt32) :
    (blank name width height).cell? x y = none := by
  rw [Option.eq_none_iff_forall_ne_some]
  intro o ho
  rw [← mem_occupied_iff_cell?, occupied_blank] at ho
  cases ho

/-- Taking a square changes that square and no other. -/
lemma cell?_of_set? (h : b.set? x y o = some b') (i j : UInt32) :
    b'.cell? i j = if x = i ∧ y = j then some o else b.cell? i j := by
  obtain ⟨row, hrow, hx, rfl⟩ := set?_eq_some.mp h
  obtain ⟨hy, hget⟩ := List.getElem?_eq_some_iff.mp hrow
  by_cases hj : y = j
  · subst hj
    by_cases hi : x = i
    · subst hi
      simp [cell?, hy, hx]
    · have hne : x.toNat ≠ i.toNat := mt UInt32.toNat_inj.mp hi
      simp [cell?, hy, hget, hi, hne]
  · have hne : y.toNat ≠ j.toNat := mt UInt32.toNat_inj.mp hj
    simp [cell?, hj, hne]

lemma pairwise_zipIdx {α : Type} (l : List α) : l.zipIdx.Pairwise fun a b => a.2 < b.2 := by
  rw [← List.pairwise_map, List.zipIdx_map_snd]
  exact List.pairwise_lt_range'

/-- The squares that are taken are listed row by row, and in each row from left to right. -/
lemma sorted_occupied (b : Board) :
    b.occupied.Pairwise fun c c' => c.2.1 < c'.2.1 ∨ c.2.1 = c'.2.1 ∧ c.1 < c'.1 := by
  rw [occupied, List.pairwise_flatMap]
  constructor
  · rintro ⟨row, j⟩ -
    rw [List.pairwise_filterMap]
    refine (pairwise_zipIdx row).imp ?_
    rintro ⟨cell, i⟩ ⟨cell', i'⟩ hlt _ h _ h'
    obtain ⟨o, -, rfl⟩ := Option.map_eq_some_iff.mp h
    obtain ⟨o', -, rfl⟩ := Option.map_eq_some_iff.mp h'
    exact .inr ⟨rfl, hlt⟩
  · refine (pairwise_zipIdx b.rows).imp ?_
    rintro ⟨row, j⟩ ⟨row', j'⟩ hlt c hc c' hc'
    obtain ⟨⟨cell, i⟩, -, h⟩ := List.mem_filterMap.mp hc
    obtain ⟨⟨cell', i'⟩, -, h'⟩ := List.mem_filterMap.mp hc'
    obtain ⟨o, -, rfl⟩ := Option.map_eq_some_iff.mp h
    obtain ⟨o', -, rfl⟩ := Option.map_eq_some_iff.mp h'
    exact .inl hlt

/-- No square is listed twice among those that are taken. -/
lemma nodup_occupied (b : Board) : (b.occupied.map fun c => (c.1, c.2.1)).Nodup := by
  rw [List.Nodup, List.pairwise_map]
  refine b.sorted_occupied.imp fun hlt heq => ?_
  rw [Prod.mk.injEq] at heq
  rcases hlt with hrow | ⟨-, hcolumn⟩
  · exact hrow.ne heq.2
  · exact hcolumn.ne heq.1

end Board

/-! ### Placements in a history -/

namespace Deed

/-- The square that a deed puts an occupant on. -/
def square? (o : Occupant) : Deed → Option (UInt32 × UInt32)
  | .registered _ => none
  | .placed o' x y => if o' = o then some (x, y) else none

/-- What a deed puts on a square. -/
def occupant? (x y : UInt32) : Deed → Option Occupant
  | .registered _ => none
  | .placed o i j => if i = x ∧ j = y then some o else none

/-- The squares that an occupant was put on, one for each time it was placed. -/
def squaresOf (o : Occupant) (deeds : List Deed) : List (UInt32 × UInt32) :=
  deeds.filterMap (square? o)

/-- The occupant that was put on a square last. -/
def latest? (x y : UInt32) (deeds : List Deed) : Option Occupant :=
  deeds.reverse.findSome? (occupant? x y)

lemma squaresOf_append (o : Occupant) (deeds later : List Deed) :
    squaresOf o (deeds ++ later) = squaresOf o deeds ++ squaresOf o later :=
  List.filterMap_append

lemma squaresOf_registered (o : Occupant) (template : Piece) (later : List Deed) :
    squaresOf o (.registered template :: later) = squaresOf o later := rfl

lemma length_squaresOf_placed (o o' : Occupant) (x y : UInt32) :
    (squaresOf o [.placed o' x y]).length = if o' = o then 1 else 0 := by
  simp only [squaresOf, List.filterMap_cons, square?]
  split_ifs <;> rfl

lemma latest?_concat (x y : UInt32) (deeds : List Deed) (d : Deed) :
    latest? x y (deeds ++ [d]) = (d.occupant? x y).or (latest? x y deeds) := by
  simp only [latest?, List.reverse_append, List.reverse_singleton, List.findSome?_append,
    List.findSome?_singleton]

/-- What stands on a square was put there. -/
lemma mem_squaresOf_of_latest? {x y : UInt32} {o : Occupant} {deeds : List Deed}
    (h : latest? x y deeds = some o) : (x, y) ∈ squaresOf o deeds := by
  obtain ⟨d, hd, ho⟩ := List.exists_of_findSome?_eq_some h
  refine List.mem_filterMap.mpr ⟨d, List.mem_reverse.mp hd, ?_⟩
  cases d with
  | registered template => cases ho
  | placed o' i j =>
    rw [occupant?] at ho
    split_ifs at ho with hij
    cases ho
    simp [square?, hij]

end Deed

open Deed

lemma toNat_add_ofNat {a : UInt32} {n : Nat} (h : a.toNat + n < UInt32.size) :
    (a + UInt32.ofNat n).toNat = a.toNat + n := by
  rw [UInt32.toNat_add, UInt32.toNat_ofNat', Nat.add_mod_mod, Nat.mod_eq_of_lt h]

/-! ### Counts and squares -/

namespace Setup

/-- The counts and squares of a setup are those that the deeds in its history lead to. -/
structure Accounts (s : Setup) (deeds : List Deed) : Prop where
  counts : ∀ owner, ∀ p ∈ s.catalog.pieces owner, ∃ before template later,
    deeds = before ++ .registered template :: later ∧ template.name = p.name ∧
      p.count = template.count + UInt32.ofNat (squaresOf ⟨owner, p.name⟩ later).length
  squares : ∀ board, s.board = some board → ∀ x y, board.cell? x y = latest? x y deeds
  unplaced : s.board = none → ∀ x y, latest? x y deeds = none

lemma accounts_new (defaults : PieceDefaults) : (new defaults).Accounts [] where
  counts := by
    intro owner p hp
    cases owner <;> cases hp
  squares := by
    intro board hboard
    cases hboard
  unplaced := fun _ _ _ => rfl

namespace Accounts

variable {s : Setup} {deeds : List Deed}

lemma register {template : Piece} (h : s.Accounts deeds) (howner : template.owner = .template) :
    Accounts { s with catalog := s.catalog.add template } (deeds ++ [.registered template]) where
  counts := by
    intro owner p hp
    rw [s.catalog.pieces_add howner] at hp
    rcases List.mem_append.mp hp with hp | hp
    · obtain ⟨before, template', later, rfl, hname, hcount⟩ := h.counts owner p hp
      refine ⟨before, template', later ++ [.registered template], by simp, hname, ?_⟩
      rw [hcount, squaresOf_append, squaresOf_registered]
      simp [squaresOf]
    · rw [List.mem_singleton.mp hp]
      exact ⟨deeds, template, [], rfl, rfl, by simp [squaresOf, Piece.copyFor]⟩
  squares := by
    intro board hboard x y
    rw [latest?_concat, occupant?, Option.none_or]
    exact h.squares board hboard x y
  unplaced := by
    intro hnone x y
    rw [latest?_concat, occupant?, Option.none_or]
    exact h.unplaced hnone x y

lemma place {board board' : Board} {o : Occupant} {x y : UInt32} (h : s.Accounts deeds)
    (hboard : s.board = some board) (hset : board.set? x y o = some board') :
    Accounts { s with board := some board', catalog := s.catalog.countPlacement o.owner o.piece }
      (deeds ++ [.placed o x y]) where
  counts := by
    intro owner p hp
    rw [Catalog.pieces_countPlacement] at hp
    obtain ⟨q, hq, rfl⟩ := List.mem_map.mp hp
    obtain ⟨before, template, later, rfl, hname, hcount⟩ := h.counts owner q hq
    -- the one copy that is counted is the one whose placements have become more
    have hsame : (o.owner = owner ∧ q.name = o.piece) ↔ o = ⟨owner, q.name⟩ := by
      cases o
      simp [eq_comm]
    simp only [hsame]
    refine ⟨before, template, later ++ [.placed o x y], by simp, ?_, ?_⟩
    · split <;> exact hname
    · split_ifs with ho
      · simp only [Piece.countPlacement, squaresOf_append, List.length_append,
          length_squaresOf_placed, ho, if_true, UInt32.ofNat_add, hcount, UInt32.add_assoc]
        rfl
      · simp only [squaresOf_append, List.length_append, length_squaresOf_placed, ho, if_false,
          Nat.add_zero, hcount]
  squares := by
    rintro board'' ⟨⟩ i j
    rw [latest?_concat, Board.cell?_of_set? hset, h.squares board hboard, occupant?]
    split_ifs <;> rfl
  unplaced := by
    intro hnone
    cases hnone

end Accounts

lemma History.accounts {first s : Setup} {deeds : List Deed} (h : History first deeds s)
    (hfirst : first.Accounts []) : s.Accounts deeds := by
  induction h with
  | nil => exact hfirst
  | chooseBoard _ hnone _ _ ih =>
    refine ⟨ih.counts, ?_, ?_⟩
    · rintro board ⟨⟩ x y
      rw [Board.cell?_blank, ih.unplaced hnone]
    · intro hnone
      cases hnone
  | register _ howner _ ih => exact ih.register howner
  | place _ hboard hset ih => exact ih.place hboard hset
  | markPlaced _ ih => exact ⟨ih.counts, ih.squares, ih.unplaced⟩

/-- An occupant takes at most one square for each time it was placed. -/
lemma Accounts.countP_occupied_le {s : Setup} {deeds : List Deed} (h : s.Accounts deeds)
    {board : Board} (hboard : s.board = some board) (hrectangular : board.Rectangular)
    (o : Occupant) :
    board.occupied.countP (·.2.2 = o) ≤ (squaresOf o deeds).length := by
  have hnodup : ((board.occupied.filter (·.2.2 = o)).map fun c => (c.1, c.2.1)).Nodup :=
    board.nodup_occupied.sublist (List.filter_sublist.map _)
  have hsubset : ((board.occupied.filter (·.2.2 = o)).map fun c => (c.1, c.2.1)) ⊆
      (squaresOf o deeds).map (Prod.map UInt32.toNat UInt32.toNat) := by
    intro square hsquare
    obtain ⟨⟨x, y, o'⟩, hfilter, rfl⟩ := List.mem_map.mp hsquare
    obtain ⟨hmem, ho⟩ := List.mem_filter.mp hfilter
    obtain rfl : o' = o := by simpa using ho
    obtain ⟨hx, hy⟩ := hrectangular.lt_of_mem_occupied hmem
    have hx : (UInt32.ofNat x).toNat = x :=
      UInt32.toNat_ofNat_of_lt' (hx.trans board.width.toNat_lt)
    have hy : (UInt32.ofNat y).toNat = y :=
      UInt32.toNat_ofNat_of_lt' (hy.trans board.height.toNat_lt)
    rw [← hx, ← hy, Board.mem_occupied_iff_cell?, h.squares board hboard] at hmem
    exact List.mem_map.mpr ⟨_, mem_squaresOf_of_latest? hmem, Prod.ext hx hy⟩
  rw [List.countP_eq_length_filter]
  simpa using (List.subperm_of_subset hnodup hsubset).length_le

end Setup

/-- After any operations on a new outline, refused ones included, every copy in the catalogs was
registered once, and counts what it counted then and every placement of its own since, as long as no
count leaves the range of 32 bits. Every square shows what was put on it last. So a copy that was
never placed before it was registered takes at most as many squares as its count has grown by. -/
theorem placements_accounted_for (settings : Settings) (operations : List Operation)
    (hbounded : ∀ before template later,
      (Outline.new settings).history operations = before ++ .registered template :: later →
      ∀ owner,
        template.count.toNat + (squaresOf ⟨owner, template.name⟩ later).length < UInt32.size) :
    let deeds := (Outline.new settings).history operations
    let s := ((Outline.new settings).performAll operations).setup
    (∀ owner, ∀ p ∈ s.catalog.pieces owner, ∃ before template later,
      deeds = before ++ .registered template :: later ∧ template.name = p.name ∧
      p.name ∉ (before ++ later).filterMap registeredName? ∧
      p.count.toNat = template.count.toNat + (squaresOf ⟨owner, p.name⟩ later).length ∧
      (squaresOf ⟨owner, p.name⟩ before = [] → ∀ board, s.board = some board →
        board.occupied.countP (·.2.2 = ⟨owner, p.name⟩) ≤
          p.count.toNat - template.count.toNat)) ∧
    (∀ board, s.board = some board → ∀ x y, board.cell? x y = latest? x y deeds) ∧
    (s.board = none → ∀ x y, latest? x y deeds = none) := by
  intro deeds s
  have hhistory : (Outline.new settings).setup.History deeds s :=
    (Outline.new settings).history_performAll operations
  have hkept := hhistory.wellKept (Setup.wellKept_new settings.pieces)
  have haccounts := hhistory.accounts (Setup.accounts_new settings.pieces)
  refine ⟨?_, haccounts.squares, haccounts.unplaced⟩
  intro owner p hp
  obtain ⟨before, template, later, hdeeds, hname, hcount⟩ := haccounts.counts owner p hp
  have hgrown :
      p.count.toNat = template.count.toNat + (squaresOf ⟨owner, p.name⟩ later).length := by
    rw [hcount, toNat_add_ofNat]
    rw [← hname]
    exact hbounded before template later hdeeds owner
  refine ⟨before, template, later, hdeeds, hname, ?_, hgrown, ?_⟩
  · have hnodup := hkept.uniform.nodup
    rw [hhistory.names_templates, hdeeds] at hnodup
    have hnodup := hnodup.of_append_right
    rw [List.filterMap_append, List.filterMap_cons, registeredName?] at hnodup
    rw [List.filterMap_append, ← hname]
    exact (List.nodup_middle.mp hnodup).notMem
  · intro hunplaced board hboard
    have hle := haccounts.countP_occupied_le hboard (hkept.board board hboard).1 ⟨owner, p.name⟩
    rw [hdeeds, squaresOf_append, squaresOf_registered, hunplaced, List.nil_append] at hle
    omega

/-- A pawn that has been counted three times already, with a square to start on that a small board
does not have. -/
def strayPawn : Template :=
  ⟨{ Piece.template "pawn" {} with starts := [⟨1, 1⟩, ⟨9, 9⟩], count := 3 }, rfl⟩

/-- Operations of which some are refused: placing a piece without a board or off the board, a flat
board, and placing all pieces, which stops on the way each time. -/
def strayOperations : List Operation :=
  [.place .playerOne "pawn" 0 0, .initBoard "grid" 2 2, .place .playerTwo "pawn" 1 1,
    .register strayPawn, .placeAll, .initBoard "flat" 0 3, .place .template "pawn" 0 1,
    .place .playerOne "pawn" 5 5, .render]

theorem placements_accounted_for_stray :
    let s := ((Outline.new {}).performAll strayOperations).setup
    let deeds : List Deed := [.placed ⟨.playerTwo, "pawn"⟩ 1 1, .registered strayPawn.1,
      .placed ⟨.playerOne, "pawn"⟩ 0 0, .placed ⟨.template, "pawn"⟩ 0 1,
      .placed ⟨.playerOne, "pawn"⟩ 0 0]
    (Outline.new {}).history strayOperations = deeds ∧
    (∃ p ∈ s.catalog.pieces .playerOne, p.count.toNat = 3 + 2 ∧ ∀ board, s.board = some board →
      board.occupied.countP (·.2.2 = ⟨.playerOne, "pawn"⟩) ≤ 2) ∧
    ∀ board, s.board = some board →
      board.cell? 0 0 = some ⟨.playerOne, "pawn"⟩ ∧ board.cell? 1 0 = none := by
  intro s deeds
  have hdeeds : (Outline.new {}).history strayOperations = deeds := by decide +kernel
  have hsplit : ∀ before template later, deeds = before ++ .registered template :: later →
      before = deeds.take 1 ∧ template = strayPawn.1 ∧ later = deeds.drop 2 := by
    simp [deeds, List.cons_eq_append_iff]
  have hbounded : ∀ before template later,
      (Outline.new {}).history strayOperations = before ++ .registered template :: later →
      ∀ owner,
        template.count.toNat + (squaresOf ⟨owner, template.name⟩ later).length < UInt32.size := by
    intro before template later heq owner
    rw [hdeeds] at heq
    obtain ⟨-, rfl, rfl⟩ := hsplit _ _ _ heq
    cases owner <;> decide
  obtain ⟨hcounts, hsquares, -⟩ := placements_accounted_for {} strayOperations hbounded
  rw [hdeeds] at hcounts hsquares
  obtain ⟨p, hp, hname⟩ : ∃ p ∈ s.catalog.pieces .playerOne, p.name = "pawn" := by decide +kernel
  obtain ⟨before, template, later, heq, -, -, hcount, hheld⟩ := hcounts .playerOne p hp
  obtain ⟨rfl, rfl, rfl⟩ := hsplit _ _ _ heq
  rw [hname] at hcount hheld
  refine ⟨hdeeds, ⟨p, hp, hcount, ?_⟩, ?_⟩
  · intro board hboard
    have hle := hheld (by decide) board hboard
    rw [hcount] at hle
    exact hle
  · intro board hboard
    rw [hsquares board hboard, hsquares board hboard]
    decide

end GridGame
