import GridGame.Proofs.ArithmeticTokens
import GridGame.Proofs.Placements
import GridGame.Proofs.PrintoutLayouts
import GridGame.Proofs.Starts

/-!
# Squares as elements of arrays

Programs give a square by its column and its row, counted from 1. The generated code keeps a board
as an array of rows, counted from 0. The step from the one to the other is made in four places: in
the values and in the placements of a program, where the generated code takes 1 away from either
number, in the starts of the players, where the second player counts rows from the top, and in
printouts, which begin with the highest row. To compare them, the element that a text names is read
off the text (`element?`).
-/

namespace GridGame

open Code

namespace Code

/-! ### Elements -/

/-- The value of a token that is a number. -/
def numberValue? (token : String) : Option Nat :=
  let n := Nat.ofDigitChars 10 token.toList 0
  if n.repr = token then some n else none

/-- The value of an index: a number, or one number less another. -/
def indexValue? (text : String) : Option Int :=
  match tokens text with
  | [a] => do
    let m ← numberValue? a
    return m
  | [a, "-", b] => do
    let m ← numberValue? a
    let n ← numberValue? b
    return m - n
  | _ => none

/-- Take an index in brackets off a text. -/
def readIndex? : List Char → Option (Int × List Char)
  | '[' :: text => do
    let (index, rest) ← Text.breakFirst? [']'] text
    let value ← indexValue? (String.ofList index)
    return (value, rest)
  | _ => none

/-- The row and the column of the element of an array that a text names. -/
def element? (array text : String) : Option (Int × Int) := do
  let indices ← array.toList.isPrefixOf? text.toList
  let (row, rest) ← readIndex? indices
  let (column, rest) ← readIndex? rest
  if rest = [] then return (row, column) else none

/-- An element as it is written, with its two indices. -/
def elementText (array row column : String) : String :=
  array ++ "[" ++ row ++ "][" ++ column ++ "]"

@[simp]
lemma numberValue?_repr (n : Nat) : numberValue? n.repr = some n := by
  simp [numberValue?, Nat.toList_repr, Nat.ofDigitChars_ten_toDigits]

/-- A text of numbers and signs that do not grow together is split into these. -/
lemma tokens_eq_self {s : String} {l : List String} (hs : s.toList = l.flatMap String.toList)
    (hparts : ∀ a ∈ l, IsPart a) (hchain : l.IsChain Apart)
    (hminus : l.IsChain fun a b => ¬ (a = "-" ∧ b = "-")) : tokens s = l :=
  (tokens_eq hs hparts hchain).trans (fuseMinuses_eq_self.mpr hminus)

lemma isPart_repr (n : Nat) : IsPart n.repr := .inl (isWord_repr n)

lemma indexValue?_repr (n : Nat) : indexValue? n.repr = some (n : Int) := by
  have htokens : tokens n.repr = [n.repr] := by
    apply tokens_eq_self
    · simp
    · simpa using isPart_repr n
    · simp
    · simp
  simp [indexValue?, htokens]

lemma indexValue?_pred (n : Nat) : indexValue? (n.repr ++ "-1") = some ((n : Int) - 1) := by
  have hsign : ¬ isWord "-".toList := by decide
  have hparts : ∀ a ∈ [n.repr, "-", Nat.repr 1], IsPart a := by
    simp only [List.forall_mem_cons, List.not_mem_nil, false_imp_iff, implies_true, and_true]
    exact ⟨isPart_repr n, .inr (by decide), isPart_repr 1⟩
  have htokens : tokens (n.repr ++ "-1") = [n.repr, "-", Nat.repr 1] := by
    refine tokens_eq_self ?_ hparts ?_ ?_
    · simp [show Nat.repr 1 = "1" from rfl]
    · refine .cons_cons ⟨fun h => hsign h.2, fun _ _ => rfl⟩ (.cons_cons ⟨?_, ?_⟩ (.singleton _))
      · exact fun h => hsign h.1
      · decide
    · refine .cons_cons ?_ (.cons_cons (by decide) (.singleton _))
      rintro ⟨h, -⟩
      exact hsign (h ▸ isWord_repr n)
  simp [indexValue?, htokens]

lemma breakFirst?_of_notMem {c : Char} {l : List Char} (hl : c ∉ l) (rest : List Char) :
    Text.breakFirst? [c] (l ++ c :: rest) = some (l, rest) := by
  induction l with
  | nil => simp [Text.breakFirst?]
  | cons d l ih =>
    rw [List.mem_cons, not_or] at hl
    simp [Text.breakFirst?, hl.1, ih hl.2]

lemma readIndex?_eq_some {index : String} {value : Int} (hvalue : indexValue? index = some value)
    (hclosed : ']' ∉ index.toList) (rest : List Char) :
    readIndex? ('[' :: (index.toList ++ ']' :: rest)) = some (value, rest) := by
  simp [readIndex?, breakFirst?_of_notMem hclosed, hvalue]

lemma element?_elementText (array : String) {row column : String} {i j : Int}
    (hi : indexValue? row = some i) (hj : indexValue? column = some j)
    (hrow : ']' ∉ row.toList) (hcolumn : ']' ∉ column.toList) :
    element? array (elementText array row column) = some (i, j) := by
  have hindices : array.toList.isPrefixOf? (elementText array row column).toList =
      some ('[' :: (row.toList ++ ']' :: '[' :: (column.toList ++ [']']))) := by
    rw [List.isPrefixOf?_eq_some_iff_append_eq]
    simp [elementText]
  simp [element?, hindices, readIndex?_eq_some hi hrow, readIndex?_eq_some hj hcolumn]

lemma notMem_repr (n : Nat) : ']' ∉ n.repr.toList := by
  intro h
  exact absurd (isDigit_of_mem_repr h) (by decide)

/-- Two numbers are read as they are. -/
lemma element?_repr (array : String) (row column : Nat) :
    element? array (elementText array row.repr column.repr) = some ((row : Int), (column : Int)) :=
  element?_elementText array (indexValue?_repr row) (indexValue?_repr column) (notMem_repr row)
    (notMem_repr column)

/-- Where 1 is taken away from two numbers, one less than either of them is read. -/
lemma element?_pred (array : String) (row column : Nat) :
    element? array (elementText array (row.repr ++ "-1") (column.repr ++ "-1")) =
      some ((row : Int) - 1, (column : Int) - 1) := by
  have hclosed (n : Nat) : ']' ∉ (n.repr ++ "-1").toList := by
    simpa using notMem_repr n
  exact element?_elementText array (indexValue?_pred row) (indexValue?_pred column) (hclosed row)
    (hclosed column)

end Code

/-- The row and the column of the element that keeps what stands on a position. -/
def Position.element (p : Position) : Int × Int := ((p.y.toNat : Int) - 1, (p.x.toNat : Int) - 1)

/-! ### Squares in programs -/

namespace Tree

variable {t : Tree} {n : Nat}

/-- A node is a number that is written out. -/
def WritesNumber (t : Tree) (n : Nat) (number : UInt32) : Prop :=
  t.kind n = .integer ∧ ∃ v : Int64, t.payload n = .integer v ∧ v.toInt = number.toNat

/-- A node gives a position by two numbers, the column first. -/
structure WritesPosition (t : Tree) (n : Nat) (p : Position) : Prop where
  column : ∃ c, t.child? n 0 = some c ∧ t.WritesNumber c p.x
  row : ∃ c, t.child? n 1 = some c ∧ t.WritesNumber c p.y

/-- A node is a name that holds a board. -/
structure NamesBoard (t : Tree) (n : Nat) (board : BoardSummary) : Prop where
  name : t.identName? n = some board.name
  value : ∃ v, (t.finalValue n).outcome = .ok v ∧ t.kind v = .board ∧
    t.payload v = .dimensions board.width board.height

/-- A node is a name that holds a piece. -/
structure NamesPiece (t : Tree) (n : Nat) (piece : String) : Prop where
  name : t.identName? n = some piece
  type : t.HasType n .piece

/-- A node stands for what is on a position of a board. -/
structure Accesses (t : Tree) (n : Nat) (board : BoardSummary) (p : Position) : Prop where
  kind : t.kind n = .access
  position : ∃ c, t.child? n 0 = some c ∧ t.WritesPosition c p
  board : ∃ c, t.child? n 1 = some c ∧ t.NamesBoard c board

/-- A node puts a piece on a position of a board. -/
structure Places (t : Tree) (n : Nat) (piece : String) (board : BoardSummary) (p : Position) :
    Prop where
  kind : t.kind n = .place
  piece : ∃ c, t.child? n 0 = some c ∧ t.NamesPiece c piece
  board : ∃ c, t.child? n 1 = some c ∧ t.NamesBoard c board
  position : ∃ c, t.child? n 2 = some c ∧ t.WritesPosition c p

lemma HasType.expectType {type : ValueType} (h : t.HasType n type) (context : Context) :
    (t.expectType n type context).outcome = .ok () := by
  obtain ⟨e, he⟩ := h context
  rw [Tree.expectType, Reported.bind_eq_ok]
  exact ⟨(type, e), he, by simp⟩

lemma NamesBoard.hasType {board : BoardSummary} (h : t.NamesBoard n board) :
    t.HasType n .board := by
  obtain ⟨v, hv, hkind, -⟩ := h.value
  have hclassify : t.classify v .statement = .ok .board := by simp [classify, hkind]
  exact hasType_of_valueType (valueType_eq_ok.mpr ⟨hv, hclassify⟩)

lemma WritesNumber.hasType {number : UInt32} (h : t.WritesNumber n number) :
    t.HasType n .integer := by
  have hclassify : t.classify n .statement = .ok .integer := by simp [classify, h.1]
  exact hasType_of_classify (identName?_of_kind (by simp [h.1])) hclassify

/-- A number is written out in the code, too. -/
lemma WritesNumber.exists_lowerExpr {number : UInt32} (h : t.WritesNumber n number) :
    ∃ e, (t.lowerExpr n).outcome = .ok e ∧ e.render = number.toNat.repr := by
  obtain ⟨hkind, v, hpayload, hv⟩ := h
  refine ⟨.integer v, ?_, ?_⟩
  · rw [lowerExpr]
    simp [hkind, hpayload]
  · rw [Expr.render, hv]
    rfl

lemma render_cell (board : String) (row column : Expr) : (Expr.cell board row column).render =
    "(*" ++ elementText board (row.render ++ "-1") (column.render ++ "-1") ++ ")" := by
  rw [← String.toList_inj]
  simp [Expr.render, Expr.cellOpening, Expr.squareMiddle, elementText, toString]

lemma render_place (piece board : String) (row column : Expr) :
    (Statement.place piece board row column).render =
      s!"if ({piece}.count < {piece}.limit) \x7b\n" ++
        elementText board (row.render ++ "-1") (column.render ++ "-1") ++
        s!" = &{piece};\n{piece}.count++;\n\x7d\n" := by
  rw [← String.toList_inj]
  simp [Statement.render, Statement.placeOpening, Expr.squareMiddle, elementText, toString]

/-- The code of an access takes what a pointer in the element of the position refers to. -/
lemma Accesses.exists_lowerExpr {board : BoardSummary} {p : Position}
    (h : t.Accesses n board p) :
    ∃ e element, (t.lowerExpr n).outcome = .ok e ∧ e.render = "(*" ++ element ++ ")" ∧
      element? board.name element = some p.element := by
  obtain ⟨position, hposition, ⟨x, hx, hxnumber⟩, ⟨y, hy, hynumber⟩⟩ := h.position
  obtain ⟨boardNode, hboardNode, hboard⟩ := h.board
  obtain ⟨column, hcolumn, hcolumntext⟩ := hxnumber.exists_lowerExpr
  obtain ⟨row, hrow, hrowtext⟩ := hynumber.exists_lowerExpr
  refine ⟨.cell board.name row column, elementText board.name (p.y.toNat.repr ++ "-1")
    (p.x.toNat.repr ++ "-1"), ?_, ?_, element?_pred ..⟩
  · rw [lowerExpr]
    simp only [h.kind, Reported.bind_eq_ok, requiredChild_eq_ok, Lowering.ofExcept_eq_ok,
      requiredName_eq_ok, Lowering.after_eq_ok, Reported.outcome_pure, Except.ok.injEq]
    exact ⟨⟨position, mem_children_of_child? hposition⟩, hposition,
      ⟨boardNode, mem_children_of_child? hboardNode⟩, hboardNode,
      ⟨x, mem_children_of_child? hx⟩, hx, ⟨y, mem_children_of_child? hy⟩, hy,
      board.name, hboard.name, (), hboard.hasType.expectType _,
      (), hxnumber.hasType.expectType _, (), hynumber.hasType.expectType _,
      row, hrow, column, hcolumn, rfl⟩
  · rw [render_cell, hrowtext, hcolumntext]

/-- The code of a placement writes a pointer to the element of the position. -/
lemma Places.exists_lowerStatement {piece : String} {board : BoardSummary} {p : Position}
    (h : t.Places n piece board p) (defaults : PieceDefaults) :
    ∃ st element, (t.lowerStatement defaults n).outcome = .ok st ∧
      st.render = s!"if ({piece}.count < {piece}.limit) \x7b\n" ++ element ++
        s!" = &{piece};\n{piece}.count++;\n\x7d\n" ∧
      element? board.name element = some p.element := by
  obtain ⟨position, hposition, ⟨x, hx, hxnumber⟩, ⟨y, hy, hynumber⟩⟩ := h.position
  obtain ⟨boardNode, hboardNode, hboard⟩ := h.board
  obtain ⟨pieceNode, hpieceNode, hpiece⟩ := h.piece
  obtain ⟨column, hcolumn, hcolumntext⟩ := hxnumber.exists_lowerExpr
  obtain ⟨row, hrow, hrowtext⟩ := hynumber.exists_lowerExpr
  refine ⟨.place piece board.name row column, elementText board.name (p.y.toNat.repr ++ "-1")
    (p.x.toNat.repr ++ "-1"), ?_, ?_, element?_pred ..⟩
  · have hlowered : (t.lowerPlace n).outcome = .ok (.place piece board.name row column) := by
      simp only [lowerPlace, lowerSquare, Reported.bind_eq_ok, requiredChild_eq_ok,
        Lowering.ofExcept_eq_ok, requiredName_eq_ok, Lowering.after_eq_ok, Reported.outcome_pure,
        Except.ok.injEq]
      exact ⟨⟨pieceNode, mem_children_of_child? hpieceNode⟩, hpieceNode,
        ⟨boardNode, mem_children_of_child? hboardNode⟩, hboardNode,
        ⟨position, mem_children_of_child? hposition⟩, hposition,
        ⟨x, mem_children_of_child? hx⟩, hx, ⟨y, mem_children_of_child? hy⟩, hy,
        piece, hpiece.name, board.name, hboard.name, (), hpiece.type.expectType _,
        (), hboard.hasType.expectType _, (), hxnumber.hasType.expectType _,
        (), hynumber.hasType.expectType _, (), rfl, (row, column),
        ⟨row, hrow, column, hcolumn, rfl⟩, rfl⟩
    rw [lowerStatement, h.kind]
    exact hlowered
  · rw [render_place, hrowtext, hcolumntext]

end Tree

/-! ### Squares that pieces start on -/

namespace Setup

/-- A piece can be put on the square that it starts on, and the code of the setup then writes a
pointer to that copy of the piece to an element of an array. -/
def StartsAt (s : Setup) (start : Start) (array : String) (place : Int × Int) : Prop :=
  ∃ notice s' before element after, s.placeStart start = .ok (notice, s') ∧
    renderSetup s' = before ++ element ++
      s!" = &{start.piece}{start.owner.suffix};\n" ++ after ∧
    element? array element = some place

lemma render_occupant (board : String) (x y : Nat) (o : Occupant) : renderOccupant board x y o =
    elementText board y.repr x.repr ++ s!" = &{o.piece}{o.owner.suffix};\n" := by
  rw [← String.toList_inj]
  simp [renderOccupant, elementText, toString]

/-- What stands on a square of the board is written to an element of the array. -/
lemma exists_renderSetup {s : Setup} {board : Board} {x y : Nat} {o : Occupant}
    (hboard : s.board = some board) (hmem : (x, y, o) ∈ board.occupied) :
    ∃ before after, renderSetup s = before ++ renderOccupant board.name x y o ++ after := by
  obtain ⟨before, after, hjoin⟩ := exists_join_of_mem (List.mem_map_of_mem
    (f := fun c => renderOccupant board.name c.1 c.2.1 c.2.2) hmem)
  have htext : renderOccupants board = before ++ renderOccupant board.name x y o ++ after := hjoin
  refine ⟨setupMarker ++ "\n" ++ s.body ++ renderCopies s.catalog ++ before, after, ?_⟩
  simp only [renderSetup, hboard, htext, String.append_assoc]

lemma WellKept.startsAt {s : Setup} {board : Board} {start : Start} {x y : UInt32}
    (hs : s.WellKept) (hboard : s.board = some board) (hheld : board.Holds start.position)
    (hfalls : start.FallsOn board.height x y) :
    s.StartsAt start board.name (y.toNat, x.toNat) := by
  have hadmitted : s.objection? start = none := objection?_eq_none.mpr ⟨board, hboard, hheld⟩
  rcases hs.placeStart start with ⟨e, hrefused, -⟩ | ⟨-, notice, s', hplaced⟩
  · cases hadmitted.symm.trans hrefused
  · obtain ⟨⟨i, j⟩, hsquare, hplace⟩ := except_bind_eq_ok.mp hplaced
    obtain ⟨board₀, board', hboard₀, hset, rfl⟩ := place_eq_ok hplace
    cases hboard.symm.trans hboard₀
    obtain ⟨rfl, rfl⟩ := hfalls.iff.mp ((square_eq_ok hboard).mp hsquare).2
    have hcell : board'.cell? x y = some ⟨start.owner, start.piece⟩ := by
      simp [Board.cell?_of_set? hset]
    have hname : board'.name = board.name :=
      congrArg BoardSummary.name (Board.summary_of_set? hset)
    obtain ⟨before, after, htext⟩ := exists_renderSetup
      (s := { s with
        board := some board'
        catalog := s.catalog.countPlacement start.owner start.piece })
      rfl (Board.mem_occupied_iff_cell?.mpr hcell)
    refine ⟨notice, _, before, elementText board.name y.toNat.repr x.toNat.repr, after, hplaced, ?_,
      element?_repr ..⟩
    rw [htext, render_occupant, hname]
    simp only [String.append_assoc]

/-- A start leads to the element of a position that has its column, and its row or, for the second
player, the row that mirrors it. -/
lemma WellKept.startsAt_element {s : Setup} {board : Board} {start : Start} (hs : s.WellKept)
    (hboard : s.board = some board) (hheld : board.Holds start.position) {p : Position}
    (hx : start.position.x = p.x)
    (hy : if start.owner = .playerTwo then
        start.position.y.toNat + p.y.toNat = board.height.toNat + 1
      else start.position.y = p.y) :
    s.StartsAt start board.name p.element := by
  obtain ⟨x, y, hfalls⟩ : ∃ x y, start.FallsOn board.height x y :=
    ⟨_, _, (fallsOn_iff hheld).mpr ⟨rfl, rfl⟩⟩
  have helement : p.element = ((y.toNat : Int), (x.toNat : Int)) := by
    obtain ⟨hcolumn, hrow⟩ := hfalls
    rw [hx] at hcolumn
    rw [Position.element, Prod.mk.injEq]
    by_cases howner : start.owner = .playerTwo
    · rw [if_pos howner] at hy hrow
      omega
    · rw [if_neg howner] at hy hrow
      rw [hy] at hrow
      omega
  rw [helement]
  exact hs.startsAt hboard hheld hfalls

end Setup

/-! ### Squares in printouts -/

namespace Code.Printout

/-- From a place on, statements print a row of an array, element by element, and then its number.
Before that place a line ends. -/
structure PrintsRow (l : List String) (place : Nat) (array : String) (width y : Nat) : Prop where
  squares : ∀ x, 1 ≤ x → x ≤ width → ∃ element,
    l[place + (x - 1)]? = some s!"printf(\"│ %c \", *{element}->name);\n" ∧
      element? array element = some ((y : Int) - 1, (x : Int) - 1)
  label : l[place + width]? = some s!"printf(\"│ {y}\\n\");\n"
  lineBefore : ∃ corner : Char, l[place - 1]? = some s!"printf(\"{corner}\\n\");\n"

lemma render_square (array : String) (row column : Nat) :
    (PrintItem.square row column).render array =
      s!"printf(\"│ %c \", *{elementText array row.repr column.repr}->name);\n" := by
  rw [← String.toList_inj, PrintItem.toList_render]
  simp [PrintItem.arguments, elementText, toString]

/-- The line before a row is a border. -/
lemma exists_border_before (width : Nat) {height y : Nat} (hfirst : 1 ≤ y) (hlast : y ≤ height) :
    ∃ left middle right, (lines width height)[2 * (height - y)]? =
      some (border left middle right width) := by
  rcases Nat.eq_or_lt_of_le hlast with rfl | hlt
  · rw [Nat.sub_self]
    exact ⟨_, _, _, rfl⟩
  · have hline := getElem?_lines_below width (Nat.le_add_left 1 y) hlt
    rw [borderBelow, Nat.add_sub_cancel, if_neg (Nat.ne_of_gt hfirst)] at hline
    have hplace : 2 + 2 * (height - (y + 1)) = 2 * (height - y) := by omega
    rw [hplace] at hline
    exact ⟨_, _, _, hline⟩

lemma printsRow (array : String) {width height y : Nat} (hwidth : 1 ≤ width) (hfirst : 1 ≤ y)
    (hlast : y ≤ height) :
    PrintsRow (statements array width height) ((width + 1) * (1 + 2 * (height - y))) array width y
    where
  squares := by
    intro x hx hxlast
    have hlt : x - 1 < width := Nat.sub_one_lt_of_le hx hxlast
    refine ⟨elementText array (y - 1).repr (x - 1).repr, ?_, ?_⟩
    · rw [getElem?_statements hwidth (getElem?_lines_row width hfirst hlast) (Nat.le_of_lt hlt)
        (getElem?_line hlt), render_square]
    · rw [element?_repr, Int.ofNat_sub hfirst, Int.ofNat_sub hx]
      rfl
  label := getElem?_statements hwidth (getElem?_lines_row width hfirst hlast) (Nat.le_refl _)
    getElem?_line_last
  lineBefore := by
    obtain ⟨left, middle, right, hline⟩ := exists_border_before width hfirst hlast
    have hplace : (width + 1) * (1 + 2 * (height - y)) - 1 =
        (width + 1) * (2 * (height - y)) + width := by
      rw [Nat.mul_add, Nat.mul_one, Nat.add_comm (width + 1), ← Nat.add_assoc, Nat.add_sub_cancel]
    refine ⟨right, ?_⟩
    rw [hplace]
    exact (borderFrom hwidth hline).last

end Code.Printout

/-! ### The same square everywhere -/

/-- For a position on a board, an access and a placement in a program, a start of the first player
on that position and a start of the second player on the position that mirrors it all lead to the
element of the array at the row and the column of the position, counted from 0. A printout shows
that element at the place of the column in the row with the number of the row. -/
theorem coordinates_agree (board : BoardSummary) (p : Position) (hx : 1 ≤ p.x)
    (hwidth : p.x ≤ board.width) (hy : 1 ≤ p.y) (hheight : p.y ≤ board.height) :
    (∀ (t : Tree) (n : Nat), t.Accesses n board p →
      ∃ e element, (t.lowerExpr n).outcome = .ok e ∧ e.render = "(*" ++ element ++ ")" ∧
        element? board.name element = some p.element) ∧
    (∀ (t : Tree) (n : Nat) (piece : String) (defaults : PieceDefaults), t.Places n piece board p →
      ∃ st element, (t.lowerStatement defaults n).outcome = .ok st ∧
        st.render = s!"if ({piece}.count < {piece}.limit) \x7b\n" ++ element ++
          s!" = &{piece};\n{piece}.count++;\n\x7d\n" ∧
        element? board.name element = some p.element) ∧
    (∀ (settings : Settings) (operations : List Operation),
      let s := ((Outline.new settings).performAll operations).setup
      s.board.map Board.summary = some board → ∀ piece,
        s.StartsAt ⟨.playerOne, piece, p⟩ board.name p.element ∧
        ∀ q : Position, q.x = p.x → q.y.toNat + p.y.toNat = board.height.toNat + 1 →
          s.StartsAt ⟨.playerTwo, piece, q⟩ board.name p.element) ∧
    ∃ l place, Printout.render board.name board.width board.height = String.join l ∧
      Printout.PrintsRow l place board.name board.width.toNat p.y.toNat ∧
      ∃ element, l[place + (p.x.toNat - 1)]? =
          some s!"printf(\"│ %c \", *{element}->name);\n" ∧
        element? board.name element = some p.element := by
  have hone : (1 : UInt32).toNat = 1 := rfl
  simp only [UInt32.le_iff_toNat_le, hone] at hx hwidth hy hheight
  refine ⟨?_, ?_, ?_, ?_⟩
  · intro t n haccess
    exact haccess.exists_lowerExpr
  · intro t n piece defaults hplace
    exact hplace.exists_lowerStatement defaults
  · intro settings operations s hsummary piece
    have hs : s.WellKept :=
      ((Outline.new settings).history_performAll operations).wellKept
        (Setup.wellKept_new settings.pieces)
    obtain ⟨b, hb, rfl⟩ := Option.map_eq_some_iff.mp hsummary
    have hheld (q : Position) (hqx : q.x = p.x) (hq : 1 ≤ q.y.toNat)
        (hqheight : q.y.toNat ≤ b.height.toNat) : b.Holds q := by
      simp only [Board.Holds, UInt32.le_iff_toNat_le, hone, hqx]
      exact ⟨hx, hwidth, hq, hqheight⟩
    refine ⟨hs.startsAt_element hb (hheld p rfl hy hheight) rfl rfl, ?_⟩
    intro q hqx hmirror
    have hmirror : q.y.toNat + p.y.toNat = b.height.toNat + 1 := hmirror
    exact hs.startsAt_element hb (hheld q hqx (by omega) (by omega)) hqx hmirror
  · have hrow := Printout.printsRow board.name (hx.trans hwidth) hy hheight
    exact ⟨_, _, rfl, hrow, hrow.squares p.x.toNat hx hwidth⟩

/-- A pawn is placed on the top right square of a board that is higher than wide, and then that
square is printed. -/
def topRight : List BuildEvent :=
  [.opened .start .none .detached] ++ Tree.assignmentEvents "grid" .board (.dimensions 2 3) ++
    Tree.assignmentEvents "pawn" .piece .none ++
    [.opened .place .none .detached, .leaf .ident (.text "pawn") .detached,
      .leaf .ident (.text "grid") .detached, .opened .pair .none .detached,
      .leaf .integer (.integer 2) .detached, .leaf .integer (.integer 3) .detached, .closed,
      .closed,
      .opened .output .none .detached, .opened .access .none .detached,
      .opened .pair .none .detached, .leaf .integer (.integer 2) .detached,
      .leaf .integer (.integer 3) .detached, .closed, .leaf .ident (.text "grid") .detached,
      .closed,
      .closed, .closed]

theorem coordinates_agree_topRight :
    ∃ t : Tree, t.Finished ∧ t.Accesses 14 ⟨"grid", 2, 3⟩ ⟨2, 3⟩ ∧
      t.Places 7 "pawn" ⟨"grid", 2, 3⟩ ⟨2, 3⟩ ∧
      (∃ e element, (t.lowerExpr 14).outcome = .ok e ∧ e.render = "(*" ++ element ++ ")" ∧
        element? "grid" element = some (2, 1)) ∧
      (∃ st, (t.lowerStatement {} 7).outcome = .ok st) ∧
      ((Outline.new {}).performAll [.initBoard "grid" 2 3]).setup.StartsAt
        ⟨.playerTwo, "pawn", ⟨2, 1⟩⟩ "grid" (2, 1) := by
  obtain ⟨t, hfinished, hfacts⟩ := Tree.exists_finished_of_check topRight (fun t =>
    [14, 7, 3, 6].map t.kind = [.access, .place, .board, .piece] ∧
    [14, 7, 10, 15].map t.children = [[15, 18], [8, 9, 10], [11, 12], [16, 17]] ∧
    [11, 12, 16, 17].map t.kind = [.integer, .integer, .integer, .integer] ∧
    [11, 12, 16, 17, 3].map t.payload =
      [.integer 2, .integer 3, .integer 2, .integer 3, .dimensions 2 3] ∧
    [8, 9, 18].map t.identName? = [some "pawn", some "grid", some "grid"] ∧
    [8, 9, 18].map (fun n => (t.finalValue n).outcome.toOption) = [some 6, some 3, some 3])
    (by decide +kernel)
  simp only [List.map_cons, List.map_nil, List.cons.injEq, and_true, Tree.toOption_eq_some]
    at hfacts
  obtain ⟨⟨haccess, hplace, hboard, hpiece⟩, ⟨haccessed, hplaced, hpair, hpair'⟩,
    ⟨hkind₁, hkind₂, hkind₃, hkind₄⟩, ⟨hnumber₁, hnumber₂, hnumber₃, hnumber₄, hsize⟩,
    ⟨hpawn, hgrid, hgrid'⟩, hpawnValue, hgridValue, hgridValue'⟩ := hfacts
  have hclassify : t.classify 6 .statement = .ok .piece := by simp [Tree.classify, hpiece]
  have haccesses : t.Accesses 14 ⟨"grid", 2, 3⟩ ⟨2, 3⟩ :=
    { kind := haccess
      position := ⟨15, by simp [Tree.child?, haccessed],
        ⟨16, by simp [Tree.child?, hpair'], hkind₃, 2, hnumber₃, rfl⟩,
        ⟨17, by simp [Tree.child?, hpair'], hkind₄, 3, hnumber₄, rfl⟩⟩
      board := ⟨18, by simp [Tree.child?, haccessed], hgrid', 3, hgridValue', hboard, hsize⟩ }
  have hplaces : t.Places 7 "pawn" ⟨"grid", 2, 3⟩ ⟨2, 3⟩ :=
    { kind := hplace
      piece := ⟨8, by simp [Tree.child?, hplaced], hpawn,
        Tree.hasType_of_valueType (Tree.valueType_eq_ok.mpr ⟨hpawnValue, hclassify⟩)⟩
      board := ⟨9, by simp [Tree.child?, hplaced], hgrid, 3, hgridValue, hboard, hsize⟩
      position := ⟨10, by simp [Tree.child?, hplaced],
        ⟨11, by simp [Tree.child?, hpair], hkind₁, 2, hnumber₁, rfl⟩,
        ⟨12, by simp [Tree.child?, hpair], hkind₂, 3, hnumber₂, rfl⟩⟩ }
  obtain ⟨hread, hwritten, hstarts, -⟩ := coordinates_agree ⟨"grid", 2, 3⟩ ⟨2, 3⟩ (by decide)
    (by decide) (by decide) (by decide)
  obtain ⟨st, -, hst, -⟩ := hwritten t 7 "pawn" {} hplaces
  obtain ⟨-, hmirrored⟩ := hstarts {} [.initBoard "grid" 2 3] (by decide +kernel) "pawn"
  exact ⟨t, hfinished, haccesses, hplaces, hread t 14 haccesses, ⟨st, hst⟩,
    hmirrored ⟨2, 1⟩ rfl (by decide)⟩

end GridGame
