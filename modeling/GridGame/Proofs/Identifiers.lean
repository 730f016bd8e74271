import GridGame.Proofs.Origins

/-!
# Identifiers of generated programs

Besides the variables of its statements a program has some of its own: the piece on an empty square,
the players' copies of the pieces, and the counter of rounds. They never clash with each other, but
nothing keeps a statement from declaring a variable of the same name in the same block, nor a board
from having the name of a counter of the loops that empty it. This module says exactly when that
happens.
-/

namespace GridGame

open Code

/-! ### Names of copies -/

lemma Owner.getLast?_append_suffix {owner : Owner} (h : owner ∈ players) (name : String) :
    (name ++ owner.suffix).toList.getLast? = owner.suffix.toList.getLast? := by
  rw [String.toList_append, List.getLast?_append]
  rcases List.mem_pair.mp h with rfl | rfl
  · rfl
  · rfl

/-- A player's copy is known by its name. -/
lemma Owner.append_suffix_inj {owner owner' : Owner} (h : owner ∈ players) (h' : owner' ∈ players)
    {name name' : String} :
    name ++ owner.suffix = name' ++ owner'.suffix ↔ name = name' ∧ owner = owner' := by
  constructor
  · intro heq
    have hlast := congrArg (fun s => s.toList.getLast?) heq
    simp only [getLast?_append_suffix h, getLast?_append_suffix h'] at hlast
    have howner : owner = owner' := by
      rcases List.mem_pair.mp h with rfl | rfl <;> rcases List.mem_pair.mp h' with rfl | rfl
      · rfl
      · cases hlast
      · cases hlast
      · rfl
    subst howner
    exact ⟨(String.append_left_inj _).mp heq, rfl⟩
  · rintro ⟨rfl, rfl⟩
    rfl

namespace Tree

variable {t : Tree}

/-- The names of the pieces that a tree declares, in program order. -/
def pieceNames (t : Tree) : List String :=
  (t.declarations.filterMap Declaration.piece?).map Prod.fst

lemma declarationOf?_of_piece {n value : Nat} (name : String) (h : t.kind value = .piece) :
    t.declarationOf? n name value = some (.piece name (t.propertyTable value)) := by
  unfold declarationOf? propertyTable
  rw [h]
  cases t.payload value <;> rfl

lemma kind_of_declarationOf?_piece {n value : Nat} {name x : String} {table : List (Nat × Nat)}
    (h : t.declarationOf? n name value = some (.piece x table)) :
    t.kind value = .piece ∧ name = x := by
  unfold declarationOf? at h
  split at h
  · split_ifs at h
    all_goals cases h
  · next hkind _ =>
    cases h
    exact ⟨hkind, rfl⟩
  · next hkind _ =>
    cases h
    exact ⟨hkind, rfl⟩
  · cases h

def valueKind? (t : Tree) (n : Nat) : Option Kind := (t.child? n 1).map t.kind

lemma valueKind?_eq_some {n : Nat} {kind : Kind} :
    t.valueKind? n = some kind ↔ ∃ value, t.child? n 1 = some value ∧ t.kind value = kind :=
  Option.map_eq_some_iff

lemma mem_pieceNames (h : t.Numbered) {name : String} :
    name ∈ t.pieceNames ↔
      ∃ n < t.size, t.assignedName? n = some name ∧ t.valueKind? n = some .piece := by
  simp only [pieceNames, declarations, h.preorder_eq_range, List.mem_map, List.mem_filterMap,
    List.mem_range, Prod.exists, exists_and_right, exists_eq_right, valueKind?_eq_some]
  constructor
  · rintro ⟨table, d, ⟨n, hn, hd⟩, hpiece⟩
    cases d with
    | piece x table =>
      cases hpiece
      obtain ⟨x, value, hname, hvalue, hof⟩ := declaration?_eq_some.mp hd
      obtain ⟨hkind, rfl⟩ := kind_of_declarationOf?_piece hof
      exact ⟨n, hn, hname, value, hvalue, hkind⟩
    | board => cases hpiece
    | innerBoard => cases hpiece
  · rintro ⟨n, hn, hname, value, hvalue, hkind⟩
    have hd : t.declaration? n = some (.piece name (t.propertyTable value)) :=
      declaration?_eq_some.mpr ⟨name, value, hname, hvalue, declarationOf?_of_piece name hkind⟩
    exact ⟨t.propertyTable value, _, ⟨n, hn, hd⟩, rfl⟩

end Tree

/-! ### A program's own variables -/

namespace Build

variable {t : Tree} {settings : Settings}

/-- Every declared piece is in the catalog, in the order of declaration. -/
lemma templates_declared (b : Build t settings) :
    List.Forall₂ (fun (piece : String × List (Nat × Nat)) template =>
      t.pieceTemplate settings.pieces piece.1 piece.2 = .ok template)
      (t.declarations.filterMap Declaration.piece?) b.declared.catalog.templates := by
  obtain ⟨added, htemplates, hadded⟩ := Setup.templates_of_run b.collects
  have hempty : (Setup.new settings.pieces).catalog.templates = [] := rfl
  rw [hempty, List.nil_append] at htemplates
  rw [htemplates]
  exact hadded

/-- Either player has a copy of each piece that the tree declares, and of nothing else. -/
lemma names_pieces (b : Build t settings) (owner : Owner) :
    (b.setup.catalog.pieces owner).map Piece.name = t.pieceNames := by
  rw [b.placedFrom.uniform.names, Catalog.names_of_shared b.placedFrom.shared, Tree.pieceNames]
  have hnames : List.Forall₂ Eq ((t.declarations.filterMap Declaration.piece?).map Prod.fst)
      (b.declared.catalog.templates.map Piece.name) := by
    rw [List.forall₂_map_left_iff, List.forall₂_map_right_iff]
    exact b.templates_declared.imp fun _ _ h => (Tree.pieceTemplate_keeps h).2.1.symm
  rw [List.forall₂_eq_eq_eq] at hnames
  exact hnames.symm

/-- The variables that a program has on its own account, with which its main block starts or
ends. -/
def ownNames (b : Build t settings) : List String :=
  "empty_piece" :: b.copies.map Piece.qualifiedName ++ ["griddy_round"]

lemma names_copies (b : Build t settings) : b.copies.map Piece.qualifiedName =
    Owner.players.flatMap fun owner => t.pieceNames.map (· ++ owner.suffix) := by
  rw [copies, List.map_flatMap]
  apply List.flatMap_congr
  intro owner _
  rw [← b.names_pieces owner, List.map_map]
  apply List.map_congr_left
  intro p hp
  simp [Piece.qualifiedName, b.placedFrom.uniform.owned owner p hp]

lemma mem_names_copies {b : Build t settings} {name : String} :
    name ∈ b.copies.map Piece.qualifiedName ↔
      ∃ owner ∈ Owner.players, ∃ piece ∈ t.pieceNames, piece ++ owner.suffix = name := by
  simp only [b.names_copies, List.mem_flatMap, List.mem_map]

lemma nodup_pieceNames (b : Build t settings) : t.pieceNames.Nodup := by
  rw [← b.names_pieces .template]
  exact b.placedFrom.uniform.nodup

/-- No copy has a name that ends like those of the other variables. -/
lemma ne_of_mem_names_copies {b : Build t settings} {name : String}
    (h : name ∈ b.copies.map Piece.qualifiedName) :
    name ≠ "empty_piece" ∧ name ≠ "griddy_round" := by
  obtain ⟨owner, howner, piece, -, rfl⟩ := mem_names_copies.mp h
  have hlast := Owner.getLast?_append_suffix howner piece
  constructor <;> intro heq <;> rw [heq] at hlast <;>
    rcases List.mem_pair.mp howner with rfl | rfl <;> revert hlast <;> decide

lemma nodup_names_copies (b : Build t settings) : (b.copies.map Piece.qualifiedName).Nodup := by
  rw [names_copies, List.nodup_flatMap]
  constructor
  · intro owner _
    exact b.nodup_pieceNames.map fun _ _ heq => (String.append_left_inj _).mp heq
  · refine List.pairwise_pair.mpr ?_
    intro name hone htwo
    obtain ⟨piece, -, rfl⟩ := List.mem_map.mp hone
    obtain ⟨piece', -, heq⟩ := List.mem_map.mp htwo
    cases ((Owner.append_suffix_inj (by decide) (by decide)).mp heq).2

/-- A program's own variables have different names. -/
lemma nodup_ownNames (b : Build t settings) : b.ownNames.Nodup := by
  refine List.nodup_append.mpr
    ⟨List.nodup_cons.mpr ⟨?_, b.nodup_names_copies⟩, List.nodup_singleton _, ?_⟩
  · intro hmem
    exact (ne_of_mem_names_copies hmem).1 rfl
  · intro name hname last hlast
    rw [List.mem_singleton.mp hlast]
    rcases List.mem_cons.mp hname with rfl | hname
    · decide
    · exact (ne_of_mem_names_copies hname).2

/-! ### Clashes -/

/-- No statement of the main block declares a variable that the program has on its own account, and
no board is called like a counter of the loops that empty it. -/
structure Unclashing (b : Build t settings) : Prop where
  own : ∀ name ∈ declaredNames b.sections.setup, name ∉ b.ownNames
  counters : ∀ name width height, .declare name (.board width height) ∈ b.statements →
    name ≠ "x" ∧ name ≠ "y"

end Build

namespace Tree

variable {t : Tree} {settings : Settings}

/-- The names that the program of a tree needs for variables of its own. -/
def Reserved (t : Tree) (name : String) : Prop :=
  name = "empty_piece" ∨ name = "griddy_round" ∨
    ∃ m < t.size, ∃ piece ∈ t.assignedName? m, t.valueKind? m = some .piece ∧
      (name = piece ++ "_p1" ∨ name = piece ++ "_p2")

instance (name : String) : Decidable (t.Reserved name) := inferInstanceAs (Decidable (_ ∨ _))

/-- The setup of a tree assigns to no reserved name, and no board is assigned to the name of a
counter. -/
def AvoidsReserved (t : Tree) : Prop :=
  (∀ n ∈ t.setupNodes, ∀ name ∈ t.assignedName? n, ¬ t.Reserved name) ∧
    ∀ n ∈ t.statementNodes, t.valueKind? n = some .board →
      t.assignedName? n ≠ some "x" ∧ t.assignedName? n ≠ some "y"

instance : Decidable t.AvoidsReserved := inferInstanceAs (Decidable (_ ∧ _))

lemma mem_ownNames (h : t.Numbered) {b : Build t settings} {name : String} :
    name ∈ b.ownNames ↔ t.Reserved name := by
  have hcopies : name ∈ b.copies.map Piece.qualifiedName ↔
      ∃ m < t.size, ∃ piece ∈ t.assignedName? m, t.valueKind? m = some .piece ∧
        (name = piece ++ "_p1" ∨ name = piece ++ "_p2") := by
    simp only [Build.mem_names_copies, mem_pieceNames h, Owner.players, List.mem_cons,
      List.not_mem_nil, or_false, exists_eq_or_imp, exists_eq_left]
    constructor
    · rintro (⟨piece, ⟨m, hm, hname, hpiece⟩, rfl⟩ | ⟨piece, ⟨m, hm, hname, hpiece⟩, rfl⟩)
      · exact ⟨m, hm, piece, hname, hpiece, .inl rfl⟩
      · exact ⟨m, hm, piece, hname, hpiece, .inr rfl⟩
    · rintro ⟨m, hm, piece, hname, hpiece, rfl | rfl⟩
      · exact .inl ⟨piece, ⟨m, hm, hname, hpiece⟩, rfl⟩
      · exact .inr ⟨piece, ⟨m, hm, hname, hpiece⟩, rfl⟩
  rw [Build.ownNames, List.mem_append, List.mem_cons, List.mem_singleton, hcopies, Reserved]
  exact or_assoc.trans (or_congr_right or_comm)

/-- A board is declared under a name exactly if some statement assigns a board literal to it. -/
lemma declares_board_iff (h : t.Numbered) {b : Build t settings} {name : String} :
    (∃ width height, .declare name (.board width height) ∈ b.statements) ↔
      ∃ n ∈ t.statementNodes, t.assignedName? n = some name ∧ t.valueKind? n = some .board := by
  simp only [valueKind?_eq_some]
  constructor
  · rintro ⟨width, height, hmem⟩
    obtain ⟨n, hn, hlowered⟩ := forall₂_exists_left b.lowered hmem
    refine ⟨n, hn, (h.origin_of_declares hlowered).assigns, ?_⟩
    cases statementCode_of_lowerStatement hlowered with
    | declare _ _ hvalue _ _ hinitial =>
      cases hinitial with
      | board hkind => exact ⟨_, hvalue, hkind⟩
  · rintro ⟨n, hn, hname, value, hvalue, hkind⟩
    obtain ⟨d, hd, -, initial, hinitial, htype⟩ :=
      h.exists_declares h.selfContained_statementNodes (exists_lowered b.lowered) hn hname
    obtain ⟨width, height, rfl⟩ :=
      Initial.eq_board_of_type (htype.unique (assignsType_of_board hvalue hkind))
    obtain ⟨st, hmem, hst⟩ := forall₂_exists_right b.lowered hd
    rw [hinitial] at hst
    cases hst
    exact ⟨width, height, hmem⟩

end Tree

lemma Build.unclashing_iff {t : Tree} {settings : Settings} (h : t.Numbered)
    (b : Build t settings) : b.Unclashing ↔ t.AvoidsReserved := by
  have hdeclared {name : String} : name ∈ declaredNames b.sections.setup ↔
      ∃ n ∈ t.setupNodes, t.assignedName? n = some name :=
    Tree.mem_declaredNames_iff h h.selfContained_setupNodes b.lowered_setup
  constructor
  · intro hclear
    constructor
    · intro n hn name hname hreserved
      exact hclear.own name (hdeclared.mpr ⟨n, hn, hname⟩) ((Tree.mem_ownNames h).mpr hreserved)
    · intro n hn hkind
      have hcounter {name : String} (hname : t.assignedName? n = some name) :
          name ≠ "x" ∧ name ≠ "y" := by
        obtain ⟨width, height, hmem⟩ := (Tree.declares_board_iff h).mpr ⟨n, hn, hname, hkind⟩
        exact hclear.counters name width height hmem
      exact ⟨fun hname => (hcounter hname).1 rfl, fun hname => (hcounter hname).2 rfl⟩
  · rintro ⟨hsetup, hboards⟩
    constructor
    · intro name hname hown
      obtain ⟨n, hn, hassigns⟩ := hdeclared.mp hname
      exact hsetup n hn name hassigns ((Tree.mem_ownNames h).mp hown)
    · intro name width height hmem
      obtain ⟨n, hn, hname, hkind⟩ := (Tree.declares_board_iff h).mp ⟨width, height, hmem⟩
      obtain ⟨hx, hy⟩ := hboards n hn hkind
      rw [hname, Ne, Option.some.injEq] at hx hy
      exact ⟨hx, hy⟩

namespace Tree

variable {t : Tree} {settings : Settings}

/-- The variables that a program has on its own account are always different from each other. They
are different from those that its setup declares, and no board is called like a counter of the
loops that empty it, exactly if the tree avoids the reserved names. -/
theorem names_unclashing_iff (hfinished : t.Finished) {program : String}
    (hgenerate : (t.generate settings).outcome = .ok program) :
    ∃ b : Build t settings, program = b.text ∧ b.ownNames.Nodup ∧
      (b.Unclashing ↔ t.AvoidsReserved) := by
  obtain ⟨b, htext⟩ := exists_build_of_generate hfinished.kind_root hgenerate
  exact ⟨b, htext, b.nodup_ownNames, b.unclashing_iff hfinished.numbered⟩

/-- Names that come close to those of a program: a piece and a variable with another suffix, boards
with names like counters, and the name of the counter of rounds inside a game. -/
def carefulNames : List BuildEvent :=
  [.opened .start .none .detached] ++ pieceEvents "pawn" [] [] ++
    assignmentEvents "pawn_p3" .integer (.integer 1) ++
    assignmentEvents "y1" .board (.dimensions 2 3) ++ [.opened .game .none .detached] ++
    assignmentEvents "griddy_round" .integer (.integer 2) ++
    assignmentEvents "x1" .board (.dimensions 1 1) ++ [.closed, .closed]

theorem carefulNames_unclashing :
    ∃ (t : Tree) (program : String), t.Finished ∧ (t.generate {}).outcome = .ok program ∧
      ∃ b : Build t {}, program = b.text ∧ b.ownNames.Nodup ∧ b.Unclashing := by
  obtain ⟨t, hfinished, hgenerated, havoids⟩ := exists_finished_of_check carefulNames
    (fun t => (t.generate {}).outcome.isOk ∧ t.AvoidsReserved) (by decide +kernel)
  obtain ⟨program, hgenerate⟩ := exists_of_isOk hgenerated
  obtain ⟨b, htext, hnodup, hiff⟩ := names_unclashing_iff hfinished hgenerate
  exact ⟨t, program, hfinished, hgenerate, b, htext, hnodup, hiff.mpr havoids⟩

/-- A setup with variables like those that its program has on its own account, and a board with the
name of a counter. -/
def carelessNames : List BuildEvent :=
  [.opened .start .none .detached] ++ pieceEvents "pawn" [] [] ++
    assignmentEvents "pawn_p1" .integer (.integer 1) ++
    assignmentEvents "griddy_round" .integer (.integer 2) ++
    assignmentEvents "empty_piece" .integer (.integer 3) ++
    assignmentEvents "x" .board (.dimensions 2 2) ++ [.closed]

theorem carelessNames_clash :
    ∃ (t : Tree) (program : String), t.Finished ∧ (t.generate {}).outcome = .ok program ∧
      ∀ b : Build t {}, ¬ b.Unclashing ∧
        (∀ name ∈ ["pawn_p1", "griddy_round", "empty_piece"],
          name ∈ declaredNames b.sections.setup ∧ name ∈ b.ownNames) ∧
        ∃ width height, .declare "x" (.board width height) ∈ b.statements := by
  obtain ⟨t, hfinished, hgenerated, hassigned, hboard⟩ := exists_finished_of_check carelessNames
    (fun t => (t.generate {}).outcome.isOk ∧
      (∀ name ∈ ["pawn_p1", "griddy_round", "empty_piece"],
        (∃ n ∈ t.setupNodes, t.assignedName? n = some name) ∧ t.Reserved name) ∧
      ∃ n ∈ t.statementNodes, t.assignedName? n = some "x" ∧ t.valueKind? n = some .board)
    (by decide +kernel)
  obtain ⟨program, hgenerate⟩ := exists_of_isOk hgenerated
  have h := hfinished.numbered
  refine ⟨t, program, hfinished, hgenerate, fun b => ?_⟩
  have hclash : ∀ name ∈ ["pawn_p1", "griddy_round", "empty_piece"],
      name ∈ declaredNames b.sections.setup ∧ name ∈ b.ownNames := by
    intro name hname
    obtain ⟨hsetup, hreserved⟩ := hassigned name hname
    exact ⟨(mem_declaredNames_iff h h.selfContained_setupNodes b.lowered_setup).mpr hsetup,
      (mem_ownNames h).mpr hreserved⟩
  refine ⟨fun hclear => ?_, hclash, (declares_board_iff h).mpr hboard⟩
  obtain ⟨hdeclared, hown⟩ := hclash "pawn_p1" (by decide)
  exact hclear.own _ hdeclared hown

end Tree

end GridGame
