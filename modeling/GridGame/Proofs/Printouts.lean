import GridGame.Proofs.Origins

/-!
# Printouts of boards

A board is printed with the size that is found by looking back from the print statement, through
the latest assignment and the names it leads to. The array that is printed has the size it was
declared with, since later assignments leave it alone. This module says exactly when both are the
same, in terms of the assignment that declares the variable in scope.
-/

namespace GridGame

open Code

/-! ### Variables in scope in the generated code -/

namespace Code

/-- What a statement declares a name with. -/
def Statement.initial? (name : String) : Statement → Option Initial
  | .declare x initial => if x = name then some initial else none
  | .change .. | .print _ | .place .. => none

/-- What the variable of a name in scope was declared with, after the statements of some blocks, the
innermost first. In a block the last declaration counts. -/
def declaredAs? (blocks : List (List Statement)) (name : String) : Option Initial :=
  blocks.findSome? fun block => block.reverse.findSome? (Statement.initial? name)

lemma declaredAs?_cons (block : List Statement) (outer : List (List Statement)) (name : String) :
    declaredAs? (block :: outer) name =
      (block.reverse.findSome? (Statement.initial? name)).or (declaredAs? outer name) := by
  unfold declaredAs?
  rw [List.findSome?_cons]
  cases block.reverse.findSome? (Statement.initial? name) with
  | none => rfl
  | some initial => rfl

/-- The cells that a printout refers to are those of an array of its size. -/
lemma Printout.square_mem_items {width height row column : Nat} :
    .square row column ∈ items width height ↔ row < height ∧ column < width := by
  have hborder (left middle right : Char) :
      PrintItem.square row column ∉ border left middle right width := by
    simp [border]
  simp only [items, Printout.row, List.mem_append, List.mem_flatMap, List.mem_reverse,
    List.mem_range, List.mem_map, List.mem_singleton, hborder, PrintItem.square.injEq, false_or,
    reduceCtorEq, or_false, and_false, exists_false]
  constructor
  · rintro ⟨i, hi, ⟨j, hj, rfl, rfl⟩ | hbelow⟩
    · exact ⟨hi, hj⟩
    · split_ifs at hbelow
      all_goals exact absurd hbelow (hborder _ _ _)
  · rintro ⟨hrow, hcolumn⟩
    exact ⟨row, hrow, .inl ⟨column, hcolumn, rfl, rfl⟩⟩

end Code

/-- A statement of a program, with the statements before it in its own block and all those of the
block around it. -/
inductive Sections.At (s : Sections) : Statement → List (List Statement) → Prop
  | setup {i : Nat} {st : Statement} (h : s.setup[i]? = some st) : s.At st [s.setup.take i]
  | game {i : Nat} {st : Statement} (h : s.game[i]? = some st) : s.At st [s.game.take i, s.setup]

namespace Tree

variable {t : Tree} {settings : Settings} {defaults : PieceDefaults}

/-! ### Variables in scope in the tree -/

instance (name : String) (d : Nat) : Decidable (t.Origin name d) :=
  decidable_of_iff (t.assignedName? d = some name ∧ t.binding? d name = none)
    ⟨fun h => ⟨h.1, h.2⟩, fun h => ⟨h.assigns, h.unseen⟩⟩

/-- The last of some nodes that declares a name. -/
def lastOrigin? (t : Tree) (nodes : List Nat) (name : String) : Option Nat :=
  nodes.reverse.find? fun d => t.Origin name d

/-- The assignment that declares the variable of a name that is in scope at a statement: the last
one before it in the same section, or else one of the setup. -/
def scopeOrigin? (t : Tree) (n : Nat) (name : String) : Option Nat :=
  if n ∈ t.setupNodes then t.lastOrigin? (t.setupNodes.filter (· < n)) name
  else (t.lastOrigin? (t.gameNodes.filter (· < n)) name).or (t.lastOrigin? t.setupNodes name)

lemma origin_of_lastOrigin? {nodes : List Nat} {name : String} {d : Nat}
    (h : t.lastOrigin? nodes name = some d) : d ∈ nodes ∧ t.Origin name d := by
  constructor
  · exact List.mem_reverse.mp (List.mem_of_find?_eq_some h)
  · simpa using List.find?_some h

lemma lastOrigin?_eq_none {nodes : List Nat} {name : String} :
    t.lastOrigin? nodes name = none ↔ ∀ d ∈ nodes, ¬ t.Origin name d := by
  simp [lastOrigin?]

lemma lastOrigin?_of_unique {nodes : List Nat} {name : String} {d : Nat} (hd : d ∈ nodes)
    (horigin : t.Origin name d) (hunique : ∀ d' ∈ nodes, t.Origin name d' → d' = d) :
    t.lastOrigin? nodes name = some d := by
  cases hlast : t.lastOrigin? nodes name with
  | none => exact absurd horigin (lastOrigin?_eq_none.mp hlast d hd)
  | some d' =>
    obtain ⟨hd', horigin'⟩ := origin_of_lastOrigin? hlast
    rw [hunique d' hd' horigin']

/-- The node is lowered to a declaration of the name with an initial value. -/
def Declares (t : Tree) (defaults : PieceDefaults) (name : String) (d : Nat) (initial : Initial) :
    Prop :=
  (t.lowerStatement defaults d).outcome = .ok (.declare name initial)

/-- Statements declare a name at its origins. -/
lemma rel_find? (h : t.Numbered) {nodes : List Nat} {statements : List Statement}
    (hlowered : List.Forall₂ (fun n st => (t.lowerStatement defaults n).outcome = .ok st) nodes
      statements) (name : String) :
    Option.Rel (t.Declares defaults name) (nodes.find? fun d => t.Origin name d)
      (statements.findSome? (Statement.initial? name)) := by
  induction hlowered with
  | nil => exact .none
  | @cons n st nodes statements hst _ ih =>
    rw [List.find?_cons, List.findSome?_cons]
    by_cases horigin : t.Origin name n
    · obtain ⟨initial, rfl, -⟩ := h.declares_of_origin horigin hst
      simp only [horigin, decide_true, Statement.initial?, if_true]
      exact .some hst
    · have hnone : st.initial? name = none := by
        cases st with
        | declare x initial =>
          have hx : x ≠ name := by
            rintro rfl
            exact horigin (h.origin_of_declares hst)
          simp [Statement.initial?, hx]
        | _ => rfl
      simp only [horigin, decide_false, hnone]
      exact ih

lemma rel_lastOrigin? (h : t.Numbered) {nodes : List Nat} {statements : List Statement}
    (hlowered : List.Forall₂ (fun n st => (t.lowerStatement defaults n).outcome = .ok st) nodes
      statements) (name : String) :
    Option.Rel (t.Declares defaults name) (t.lastOrigin? nodes name)
      (statements.reverse.findSome? (Statement.initial? name)) :=
  rel_find? h (List.rel_reverse hlowered) name

/-! ### Both scopes agree -/

lemma filter_lt_eq_take {l : List Nat} {i n : Nat} (hsorted : l.Pairwise (· < ·))
    (hn : l[i]? = some n) : l.filter (· < n) = l.take i := by
  induction l generalizing i with
  | nil => cases hn
  | cons a l ih =>
    obtain ⟨hlt, hsorted⟩ := List.pairwise_cons.mp hsorted
    cases i with
    | zero =>
      cases hn
      simpa [List.filter_eq_nil_iff] using fun b hb => (hlt b hb).le
    | succ i =>
      have han : a < n := hlt n (List.mem_of_getElem? hn)
      simp [han, ih hsorted hn]

lemma sorted_gameNodes (t : Tree) : t.gameNodes.Pairwise (· < ·) := by
  rw [gameNodes, List.pairwise_flatMap]
  constructor
  · intro game _
    exact t.sorted_children game
  · refine ((t.ordered.siblings t.root).sublist List.filter_sublist).imp ?_
    intro game game' hgame n hn n' hn'
    exact (hgame n (List.mem_cons_of_mem _ hn)).trans (lt_of_mem_children hn')

lemma not_mem_setupNodes (h : t.Numbered) {n : Nat} (hn : n ∈ t.gameNodes) : n ∉ t.setupNodes := by
  intro hsetup
  obtain ⟨game, hgame, -, hchild⟩ := mem_gameNodes.mp hn
  have hroot := (h.mem_children n t.root).mp (mem_setupNodes.mp hsetup).1
  rw [(h.mem_children n game).mp hchild] at hroot
  cases hroot
  exact absurd (lt_of_mem_children hgame) (lt_irrefl _)

lemma rel_or {α β : Type} {R : α → β → Prop} {a a' : Option α} {b b' : Option β}
    (h : Option.Rel R a b) (h' : Option.Rel R a' b') : Option.Rel R (a.or a') (b.or b') := by
  cases h with
  | some hab => exact .some hab
  | none => exact h'

end Tree

namespace Build

variable {t : Tree} {settings : Settings}

/-- A statement of the program comes from a node at which the same variables are in scope. -/
structure From (b : Build t settings) (n : Nat) (st : Statement) (blocks : List (List Statement)) :
    Prop where
  mem : n ∈ t.statementNodes
  stands : b.sections.At st blocks
  lowered : (t.lowerStatement settings.pieces n).outcome = .ok st
  scope : ∀ name,
    Option.Rel (t.Declares settings.pieces name) (t.scopeOrigin? n name) (declaredAs? blocks name)

variable {b : Build t settings}

lemma from_setup (h : t.Numbered) {i n : Nat} {st : Statement} (hn : t.setupNodes[i]? = some n)
    (hst : b.sections.setup[i]? = some st)
    (hlowered : (t.lowerStatement settings.pieces n).outcome = .ok st) :
    b.From n st [b.sections.setup.take i] := by
  have hmem := List.mem_of_getElem? hn
  refine ⟨List.mem_append_left _ hmem, .setup hst, hlowered, ?_⟩
  intro name
  rw [Tree.scopeOrigin?, if_pos hmem, Tree.filter_lt_eq_take t.sorted_setupNodes hn,
    declaredAs?_cons]
  have hnone : declaredAs? [] name = none := rfl
  rw [hnone, Option.or_none]
  exact Tree.rel_lastOrigin? h (List.forall₂_take i b.lowered_setup) name

lemma from_game (h : t.Numbered) {i n : Nat} {st : Statement} (hn : t.gameNodes[i]? = some n)
    (hst : b.sections.game[i]? = some st)
    (hlowered : (t.lowerStatement settings.pieces n).outcome = .ok st) :
    b.From n st [b.sections.game.take i, b.sections.setup] := by
  have hmem := List.mem_of_getElem? hn
  refine ⟨List.mem_append_right _ hmem, .game hst, hlowered, ?_⟩
  intro name
  rw [Tree.scopeOrigin?, if_neg (Tree.not_mem_setupNodes h hmem),
    Tree.filter_lt_eq_take t.sorted_gameNodes hn, declaredAs?_cons, declaredAs?_cons]
  have hnone : declaredAs? [] name = none := rfl
  rw [hnone, Option.or_none]
  exact Tree.rel_or (Tree.rel_lastOrigin? h (List.forall₂_take i b.lowered_game) name)
    (Tree.rel_lastOrigin? h b.lowered_setup name)

lemma exists_from_of_node (h : t.Numbered) (b : Build t settings) {n : Nat}
    (hn : n ∈ t.statementNodes) : ∃ st blocks, b.From n st blocks := by
  rcases List.mem_append.mp hn with hn | hn
  · obtain ⟨i, hi⟩ := List.getElem?_of_mem hn
    obtain ⟨st, hst, hlowered⟩ := forall₂_getElem? b.lowered_setup hi
    exact ⟨st, _, from_setup h hi hst hlowered⟩
  · obtain ⟨i, hi⟩ := List.getElem?_of_mem hn
    obtain ⟨st, hst, hlowered⟩ := forall₂_getElem? b.lowered_game hi
    exact ⟨st, _, from_game h hi hst hlowered⟩

lemma exists_from_of_at (h : t.Numbered) {st : Statement} {blocks : List (List Statement)}
    (hat : b.sections.At st blocks) : ∃ n, b.From n st blocks := by
  cases hat with
  | setup hst =>
    obtain ⟨n, hn, hlowered⟩ := forall₂_getElem? b.lowered_setup.flip hst
    exact ⟨n, from_setup h hn hst hlowered⟩
  | game hst =>
    obtain ⟨n, hn, hlowered⟩ := forall₂_getElem? b.lowered_game.flip hst
    exact ⟨n, from_game h hn hst hlowered⟩

end Build

/-! ### Printed boards -/

namespace Tree

variable {t : Tree} {settings : Settings} {defaults : PieceDefaults}

/-- The name of the board that a statement prints, and the board that the name leads to. -/
def printedBoard? (t : Tree) (n : Nat) : Option (String × Nat) := do
  guard (t.kind n = .output)
  let argument ← t.child? n 0
  let name ← t.identName? argument
  let board ← (t.effectiveValue argument name).outcome.toOption
  guard (t.kind board = .board)
  return (name, board)

lemma printedBoard?_eq_some {n board : Nat} {name : String} :
    t.printedBoard? n = some (name, board) ↔ t.kind n = .output ∧ ∃ argument,
      t.child? n 0 = some argument ∧ t.identName? argument = some name ∧
        (t.finalValue argument).outcome = .ok board ∧ t.kind board = .board := by
  simp only [printedBoard?, Option.bind_eq_bind, Option.bind_eq_some_iff, Option.guard_eq_some',
    toOption_eq_some, Option.pure_def, Option.some.injEq, Prod.mk.injEq]
  constructor
  · rintro ⟨_, hkind, argument, hargument, x, hname, e, he, _, hboard, rfl, rfl⟩
    refine ⟨hkind, argument, hargument, hname, ?_, hboard⟩
    simpa [finalValue, hname] using he
  · rintro ⟨hkind, argument, hargument, hname, he, hboard⟩
    refine ⟨(), hkind, argument, hargument, name, hname, board, ?_, (), hboard, rfl, rfl⟩
    simpa [finalValue, hname] using he

lemma classify_eq_board {n : Nat} {context : Context} :
    t.classify n context = .ok .board ↔ t.kind n = .board := by
  grind [classify]

/-- A statement that prints a board prints it with the size of the board that its name leads to. -/
lemma printedBoard?_of_print {n : Nat} {name : String} {width height : UInt32}
    (hlowered : (t.lowerStatement defaults n).outcome = .ok (.print (.board name width height))) :
    ∃ board, t.printedBoard? n = some (name, board) ∧
      t.payload board = .dimensions width height := by
  cases statementCode_of_lowerStatement hlowered with
  | print hkind hargument _ _ hprinted =>
    cases hprinted with
    | @board _ board _ _ hname he hsize =>
      obtain ⟨hfinal, hclassify⟩ := valueType_eq_ok.mp he
      exact ⟨board, printedBoard?_eq_some.mpr ⟨hkind, _, hargument, hname, hfinal,
        classify_eq_board.mp hclassify⟩, dimensions_eq_ok.mp hsize⟩

lemma print_of_printedBoard? {n board : Nat} {name : String} {st : Statement}
    (hlowered : (t.lowerStatement defaults n).outcome = .ok st)
    (hprinted : t.printedBoard? n = some (name, board)) :
    ∃ width height, st = .print (.board name width height) ∧
      t.payload board = .dimensions width height := by
  obtain ⟨hkind, argument, hargument, hname, hfinal, hboard⟩ := printedBoard?_eq_some.mp hprinted
  have hvalue (context : Context) :
      (t.valueType argument context).outcome = .ok (.board, board) :=
    valueType_eq_ok.mpr ⟨hfinal, classify_eq_board.mpr hboard⟩
  cases statementCode_of_lowerStatement hlowered with
  | print _ hargument' _ htype hcode =>
    rw [hargument] at hargument'
    cases hargument'
    cases htype.unique (hasType_of_valueType (hvalue .output))
    cases hcode with
    | board hname' he hsize =>
      rw [hname] at hname'
      cases hname'
      rw [hvalue] at he
      cases he
      exact ⟨_, _, rfl, dimensions_eq_ok.mp hsize⟩
  | declare hkind' => simp [hkind] at hkind'
  | change hkind' => simp [hkind] at hkind'
  | place hkind' => simp [hkind] at hkind'

/-- A board is declared by an assignment of a board literal, with the size of the literal. -/
lemma Declares.eq_board_iff {d : Nat} {name : String} {initial : Initial}
    (h : t.Declares defaults name d initial) {width height : UInt32} :
    initial = .board width height ↔ ∃ v ∈ t.child? d 1, t.kind v = .board ∧
      t.payload v = .dimensions width height := by
  cases statementCode_of_lowerStatement h with
  | declare _ _ hvalue _ _ hinitial =>
    simp only [hvalue, Option.mem_def, Option.some.injEq, exists_eq_left']
    constructor
    · rintro rfl
      cases hinitial with
      | board hkind hsize => exact ⟨hkind, dimensions_eq_ok.mp hsize⟩
    · rintro ⟨hkind, hpayload⟩
      have htype : t.AssignsType d initial.type := ⟨_, hvalue, hinitial.hasType⟩
      obtain ⟨width', height', rfl⟩ :=
        Initial.eq_board_of_type (htype.unique (assignsType_of_board hvalue hkind))
      cases hinitial with
      | board _ hsize =>
        rw [dimensions_eq_ok, hpayload] at hsize
        cases hsize
        rfl

/-- Every board is printed with the size of the literal that its variable is declared with. -/
def PrintsDeclaredSizes (t : Tree) : Prop :=
  ∀ n ∈ t.statementNodes, ∀ printed ∈ t.printedBoard? n, ∃ d ∈ t.scopeOrigin? n printed.1,
    ∃ v ∈ t.child? d 1, t.kind v = .board ∧ t.payload v = t.payload printed.2

instance : Decidable t.PrintsDeclaredSizes := inferInstanceAs (Decidable (∀ n ∈ _, _))

end Tree

namespace Build

variable {t : Tree} {settings : Settings} {b : Build t settings}

/-- Every board is printed with the size of the array that is in scope, so that every cell of the
printout is a cell of the array. -/
def PrintoutsFit (b : Build t settings) : Prop :=
  ∀ blocks name width height, b.sections.At (.print (.board name width height)) blocks →
    declaredAs? blocks name = some (.board width height) ∧
      ∀ row column, .square row column ∈ Printout.items width.toNat height.toNat →
        row < height.toNat ∧ column < width.toNat

lemma From.declaredAs?_eq_board {n board : Nat} {st : Statement} {blocks : List (List Statement)}
    (hfrom : b.From n st blocks) {name : String} {width height : UInt32}
    (hsize : t.payload board = .dimensions width height) :
    declaredAs? blocks name = some (.board width height) ↔ ∃ d ∈ t.scopeOrigin? n name,
      ∃ v ∈ t.child? d 1, t.kind v = .board ∧ t.payload v = t.payload board := by
  have hscope := hfrom.scope name
  rw [hsize]
  generalize t.scopeOrigin? n name = origin at hscope
  generalize declaredAs? blocks name = declared at hscope
  cases hscope with
  | none => simp
  | some hdeclares =>
    simp only [Option.some.injEq, Option.mem_def, exists_eq_left']
    exact hdeclares.eq_board_iff

lemma printoutsFit_iff (h : t.Numbered) (b : Build t settings) :
    b.PrintoutsFit ↔ t.PrintsDeclaredSizes := by
  constructor
  · rintro hfit n hn ⟨name, board⟩ hprinted
    obtain ⟨st, blocks, hfrom⟩ := exists_from_of_node h b hn
    obtain ⟨width, height, rfl, hsize⟩ := Tree.print_of_printedBoard? hfrom.lowered hprinted
    exact (hfrom.declaredAs?_eq_board hsize).mp (hfit blocks name width height hfrom.stands).1
  · intro hprints blocks name width height hat
    obtain ⟨n, hfrom⟩ := exists_from_of_at h hat
    obtain ⟨board, hprinted, hsize⟩ := Tree.printedBoard?_of_print hfrom.lowered
    refine ⟨(hfrom.declaredAs?_eq_board hsize).mpr (hprints n hfrom.mem _ hprinted), ?_⟩
    exact fun row column hmem => Printout.square_mem_items.mp hmem

end Build

/-! ### Programs with one game -/

lemma eq_of_length_le_one {α : Type} {l : List α} (h : l.length ≤ 1) {a b : α} (ha : a ∈ l)
    (hb : b ∈ l) : a = b := by
  match l with
  | [] => cases ha
  | [c] => rw [List.mem_singleton.mp ha, List.mem_singleton.mp hb]
  | _ :: _ :: _ => simp at h

namespace Tree.Numbered

variable {t : Tree} (h : t.Numbered)
include h

lemma visible_of_sibling {p n d : Nat} {name : String} (hd : d ∈ t.children p)
    (hn : n ∈ t.children p) (hlt : d < n) (hname : t.assignedName? d = some name) :
    t.Visible n name d := by
  rw [h.visible_iff, scopes_of_parent ((h.mem_children n p).mp hn)]
  exact ⟨hname, p, n, List.mem_cons_self, (mem_earlier hn).mpr ⟨hd, hlt⟩⟩

/-- In one scope a name has one origin. -/
lemma origin_eq_of_siblings {p d d' : Nat} {name : String} (hd : d ∈ t.children p)
    (hd' : d' ∈ t.children p) (horigin : t.Origin name d) (horigin' : t.Origin name d') :
    d = d' := by
  rcases Nat.lt_trichotomy d d' with hlt | heq | hlt
  · exact absurd (h.visible_of_sibling hd hd' hlt horigin.assigns)
      (h.binding?_eq_none.mp horigin'.unseen d)
  · exact heq
  · exact absurd (h.visible_of_sibling hd' hd hlt horigin'.assigns)
      (h.binding?_eq_none.mp horigin.unseen d')

/-- What can be seen from a node stands in the same scope, or can be seen from the scope. -/
lemma visible_of_parent {p n d : Nat} {name : String} (hn : n ∈ t.children p)
    (hd : t.Visible n name d) : (d ∈ t.children p ∧ d < n) ∨ t.Visible p name d := by
  rw [h.visible_iff] at hd ⊢
  obtain ⟨hname, scope, branch, hscope, hmem⟩ := hd
  rw [scopes_of_parent ((h.mem_children n p).mp hn)] at hscope
  rcases List.mem_cons.mp hscope with heq | hscope
  · cases heq
    exact .inl ((mem_earlier hn).mp hmem)
  · exact .inr ⟨hname, scope, branch, hscope, hmem⟩

lemma visible_of_mem_children {p n d : Nat} {name : String} (hn : n ∈ t.children p)
    (hd : t.Visible p name d) : t.Visible n name d := by
  rw [h.visible_iff] at hd ⊢
  obtain ⟨hname, scope, branch, hscope, hmem⟩ := hd
  rw [scopes_of_parent ((h.mem_children n p).mp hn)]
  exact ⟨hname, scope, branch, List.mem_cons_of_mem _ hscope, hmem⟩

lemma mem_children_root_of_visible {n d : Nat} {name : String} (hn : n ∈ t.children t.root)
    (hd : t.Visible n name d) : d ∈ t.children t.root ∧ d < n := by
  rcases h.visible_of_parent hn hd with hd | hd
  · exact hd
  · have htop : t.parent? t.root = none := (h.parent_eq_none t.root h.root_lt).mpr rfl
    obtain ⟨-, _, _, hscope, -⟩ := h.visible_iff.mp hd
    rw [scopes_of_top htop] at hscope
    cases hscope

/-- With at most one game, the variable of a name in scope is the one that the name refers to. -/
lemma scopeOrigin?_eq_some (hgames : t.games.length ≤ 1) {n d : Nat} {name : String}
    (hn : n ∈ t.statementNodes) (horigin : t.Origin name d) (hd : t.Visible n name d) :
    t.scopeOrigin? n name = some d := by
  have hsetup {d' : Nat} (hd' : d' ∈ t.setupNodes) : d' ∈ t.children t.root :=
    (mem_setupNodes.mp hd').1
  rcases List.mem_append.mp hn with hn | hn
  · obtain ⟨hmem, hlt⟩ := h.mem_children_root_of_visible (hsetup hn) hd
    rw [scopeOrigin?, if_pos hn]
    apply lastOrigin?_of_unique
    · simpa [hlt] using mem_setupNodes_of_assigns hmem horigin.assigns
    · exact horigin
    · intro d' hd' horigin'
      exact h.origin_eq_of_siblings (hsetup (List.mem_of_mem_filter hd')) hmem horigin' horigin
  rw [scopeOrigin?, if_neg (not_mem_setupNodes h hn)]
  obtain ⟨game, hgame, hkind, hchild⟩ := mem_gameNodes.mp hn
  have hsame {d' : Nat} (hd' : d' ∈ t.gameNodes) : d' ∈ t.children game := by
    obtain ⟨game', hgame', hkind', hchild'⟩ := mem_gameNodes.mp hd'
    have hgame'' := eq_of_length_le_one hgames (List.mem_filter.mpr ⟨hgame', by simpa using hkind'⟩)
      (List.mem_filter.mpr ⟨hgame, by simpa using hkind⟩)
    rwa [← hgame'']
  rcases h.visible_of_parent hchild hd with ⟨hmem, hlt⟩ | houter
  · -- the name is declared in the game
    have hlast : t.lastOrigin? (t.gameNodes.filter (· < n)) name = some d := by
      apply lastOrigin?_of_unique
      · simpa [hlt] using mem_gameNodes.mpr ⟨game, hgame, hkind, hmem⟩
      · exact horigin
      · intro d' hd' horigin'
        exact h.origin_eq_of_siblings (hsame (List.mem_of_mem_filter hd')) hmem horigin' horigin
    rw [hlast, Option.some_or]
  · -- the name is declared before the game, so no statement of the game declares it
    have hnone : t.lastOrigin? (t.gameNodes.filter (· < n)) name = none := by
      rw [lastOrigin?_eq_none]
      intro d' hd' horigin'
      have hvisible := h.visible_of_mem_children (hsame (List.mem_of_mem_filter hd')) houter
      exact h.binding?_eq_none.mp horigin'.unseen d hvisible
    obtain ⟨hmem, -⟩ := h.mem_children_root_of_visible hgame houter
    rw [hnone, Option.none_or]
    apply lastOrigin?_of_unique
    · exact mem_setupNodes_of_assigns hmem horigin.assigns
    · exact horigin
    · intro d' hd' horigin'
      exact h.origin_eq_of_siblings (hsetup hd') hmem horigin' horigin

end Tree.Numbered

namespace Build

variable {t : Tree} {settings : Settings} {b : Build t settings}

/-- What a name refers to at a statement was declared with a value of the same type, by an
assignment that can be seen from there as well. -/
lemma exists_declares_of_binding? (h : t.Numbered) (b : Build t settings) {n a : Nat}
    {name : String} {type : ValueType} (hn : n ∈ t.statementNodes)
    (ha : t.binding? n name = some a) (htype : t.AssignsType a type) :
    ∃ d initial, t.Visible n name d ∧ t.Declares settings.pieces name d initial ∧
      initial.type = type := by
  have hvisible := (h.visible_of_binding? ha).1
  have hmem := h.selfContained_statementNodes n hn name a ha
  obtain ⟨d, -, hseen, initial, hinitial, hdtype⟩ :=
    h.exists_declares h.selfContained_statementNodes (Tree.exists_lowered b.lowered) hmem
      (h.visible_iff.mp hvisible).1
  refine ⟨d, initial, ?_, hinitial, hdtype.unique htype⟩
  rcases hseen with rfl | hseen
  · exact hvisible
  · exact h.visible_trans hvisible hseen

/-- With at most one game, a printed name has a board for its variable in scope. -/
lemma From.exists_declaredAs?_board (h : t.Numbered) (hgames : t.games.length ≤ 1)
    {n : Nat} {name : String} {width height : UInt32} {blocks : List (List Statement)}
    (hfrom : b.From n (.print (.board name width height)) blocks) :
    ∃ width' height', declaredAs? blocks name = some (.board width' height') := by
  cases Tree.statementCode_of_lowerStatement hfrom.lowered with
  | print _ hargument _ htype hprinted =>
    cases hprinted with
    | board hname =>
      obtain ⟨a, ha, hatype⟩ := (Tree.hasType_of_identName? hname).mp htype
      rw [h.binding?_of_first hargument] at ha
      obtain ⟨d, initial, hd, hinitial, hboard⟩ :=
        b.exists_declares_of_binding? h hfrom.mem ha hatype
      obtain ⟨width', height', rfl⟩ := Initial.eq_board_of_type hboard
      have hscope := hfrom.scope name
      rw [h.scopeOrigin?_eq_some hgames hfrom.mem (h.origin_of_declares hinitial) hd] at hscope
      generalize declaredAs? blocks name = declared at hscope
      cases hscope with
      | some hdeclares =>
        rw [Tree.Declares, hinitial] at hdeclares
        cases hdeclares
        exact ⟨width', height', rfl⟩

end Build

namespace Tree

variable {t : Tree} {settings : Settings}

/-- Every board is printed with the size of the array in scope exactly if every printed name leads
to a board of the size that its variable is declared with. In a program with at most one game the
variable of a printed name is a board in any case, so that only its size can be another one. -/
theorem printouts_fit_iff (hfinished : t.Finished) {program : String}
    (hgenerate : (t.generate settings).outcome = .ok program) :
    ∃ b : Build t settings, program = b.text ∧ (b.PrintoutsFit ↔ t.PrintsDeclaredSizes) ∧
      (t.games.length ≤ 1 →
        ∀ blocks name width height, b.sections.At (.print (.board name width height)) blocks →
          ∃ width' height', declaredAs? blocks name = some (.board width' height')) := by
  have h := hfinished.numbered
  obtain ⟨b, htext⟩ := exists_build_of_generate hfinished.kind_root hgenerate
  refine ⟨b, htext, b.printoutsFit_iff h, ?_⟩
  intro hgames blocks name width height hat
  obtain ⟨n, hfrom⟩ := Build.exists_from_of_at h hat
  exact hfrom.exists_declaredAs?_board h hgames

/-- A board that is assigned another one of its size, and is printed in a game. -/
def sameSizeBoards : List BuildEvent :=
  [.opened .start .none .detached] ++ assignmentEvents "grid" .board (.dimensions 2 3) ++
    assignmentEvents "spare" .board (.dimensions 2 3) ++
    assignmentEvents "grid" .ident (.text "spare") ++
    [.opened .game .none .detached, .opened .output .none .detached,
      .leaf .ident (.text "grid") .detached, .closed, .closed, .closed]

theorem sameSizeBoards_fit :
    ∃ (t : Tree) (program : String), t.Finished ∧ (t.generate {}).outcome = .ok program ∧
      ∃ b : Build t {}, program = b.text ∧ b.PrintoutsFit := by
  obtain ⟨t, hfinished, hgenerated, hsizes⟩ := exists_finished_of_check sameSizeBoards
    (fun t => (t.generate {}).outcome.isOk ∧ t.PrintsDeclaredSizes) (by decide +kernel)
  obtain ⟨program, hgenerate⟩ := exists_of_isOk hgenerated
  obtain ⟨b, htext, hiff, -⟩ := printouts_fit_iff hfinished hgenerate
  exact ⟨t, program, hfinished, hgenerate, b, htext, hiff.mpr hsizes⟩

/-- A board that is assigned a larger one before it is printed. -/
def largerBoard : List BuildEvent :=
  [.opened .start .none .detached] ++ assignmentEvents "b" .board (.dimensions 2 2) ++
    assignmentEvents "b" .board (.dimensions 3 3) ++
    [.opened .output .none .detached, .leaf .ident (.text "b") .detached, .closed, .closed]

theorem largerBoard_printed_out_of_bounds :
    ∃ (t : Tree) (program : String), t.Finished ∧ (t.generate {}).outcome = .ok program ∧
      ∀ b : Build t {}, ¬ b.PrintoutsFit ∧
        ∃ blocks, b.sections.At (.print (.board "b" 3 3)) blocks ∧
          declaredAs? blocks "b" = some (.board 2 2) ∧ .square 2 2 ∈ Printout.items 3 3 := by
  obtain ⟨t, hfinished, hgenerated, hn, ⟨hprinted, hlarge⟩, horigin, hvalue, hkind, hsmall⟩ :=
    exists_finished_of_check largerBoard (fun t => (t.generate {}).outcome.isOk ∧
      7 ∈ t.statementNodes ∧
      (t.printedBoard? 7 = some ("b", 6) ∧ t.payload 6 = .dimensions 3 3) ∧
      t.scopeOrigin? 7 "b" = some 1 ∧ t.child? 1 1 = some 3 ∧ t.kind 3 = .board ∧
      t.payload 3 = .dimensions 2 2) (by decide +kernel)
  obtain ⟨program, hgenerate⟩ := exists_of_isOk hgenerated
  refine ⟨t, program, hfinished, hgenerate, fun b => ?_⟩
  obtain ⟨st, blocks, hfrom⟩ := Build.exists_from_of_node hfinished.numbered b hn
  obtain ⟨width, height, rfl, hsize⟩ := print_of_printedBoard? hfrom.lowered hprinted
  rw [hlarge] at hsize
  cases hsize
  have hdeclared : declaredAs? blocks "b" = some (.board 2 2) :=
    (hfrom.declaredAs?_eq_board hsmall).mpr ⟨1, horigin, 3, hvalue, hkind, rfl⟩
  refine ⟨fun hfit => ?_, blocks, hfrom.stands, hdeclared, by decide⟩
  have hsame := (hfit _ _ _ _ hfrom.stands).1
  rw [hdeclared] at hsame
  cases hsame

end Tree

end GridGame
