import GridGame.Proofs.Success
import GridGame.Proofs.Visibility

/-!
# Uses of names

The names that generated code uses, and the nodes of the tree they come from. A name that is used
somewhere in a statement is looked up from its own node, but it finds what it would find from the
statement: nothing inside a statement that can be lowered gets in between.
-/

namespace GridGame

/-! ### Names in code -/

namespace Code

mutual

/-- The names that an expression uses, in the order in which they are written. -/
def Expr.names : Expr → List String
  | .name x => [x]
  | .group parts => Expr.namesAll parts
  | .cell board row column => board :: (row.names ++ column.names)
  | .integer _ | .flag _ | .operator _ | .text _ | .blank _ => []

/-- The names that some expressions use. -/
def Expr.namesAll : List Expr → List String
  | [] => []
  | e :: es => e.names ++ Expr.namesAll es

end

lemma Expr.namesAll_eq (es : List Expr) : Expr.namesAll es = es.flatMap Expr.names := by
  induction es with
  | nil => simp [Expr.namesAll]
  | cons e es ih => simp [Expr.namesAll, ih]

def Initial.names : Initial → List String
  | .integer value | .pieceOf value => value.names
  | .textOf other => [other]
  | .blank _ | .text _ | .piece _ | .board .. => []

def Change.names : Change → List String
  | .value e => e.names
  | .textOf other => [other]
  | .text _ | .keepBoard => []

def Printed.names : Printed → List String
  | .integer value | .text value | .piece value => value.names
  | .board name _ _ => [name]

namespace Statement

/-- The names that a statement uses, where a declared name is not used by its own declaration. -/
def names : Statement → List String
  | .declare _ initial => initial.names
  | .change name later => name :: later.names
  | .print printed => printed.names
  | .place piece board row column => piece :: board :: (row.names ++ column.names)

/-- The variable that a statement declares, with what it holds. -/
def declared? : Statement → Option (String × ValueType)
  | .declare name initial => some (name, initial.type)
  | .change .. | .print _ | .place .. => none

end Statement

/-! ### Declarations in code -/

/-- What is written to declare a variable, up to the point from which on it depends on the value. -/
def ValueType.declarator (name : String) : ValueType → String
  | .integer => s!"int {name} = "
  | .text => s!"char *{name}"
  | .piece => s!"struct Piece {name};\n"
  | .board => s!"struct Piece *{name}["

lemma exists_append_of_append {start text : String} (h : ∃ rest, text = start ++ rest)
    (more : String) : ∃ rest, text ++ more = start ++ rest := by
  obtain ⟨rest, rfl⟩ := h
  exact ⟨rest ++ more, String.append_assoc⟩

/-- The code that declares a variable gives it the type that it is said to have. -/
lemma Statement.exists_render_of_declared? {st : Statement} {name : String} {type : ValueType}
    (h : st.declared? = some (name, type)) : ∃ rest, st.render = type.declarator name ++ rest := by
  cases st with
  | declare x initial =>
    cases h
    cases initial with
    | integer value => exact exists_append_of_append ⟨value.render, rfl⟩ _
    | blank blank =>
      cases blank with
      | number => exact exists_append_of_append ⟨"0", rfl⟩ _
      | text => exact exists_append_of_append (exists_append_of_append ⟨" = ", rfl⟩ _) _
    | text text => exact exists_append_of_append ⟨";\n", rfl⟩ _
    | textOf other => exact exists_append_of_append (exists_append_of_append ⟨";\n", rfl⟩ _) _
    | piece fields => exact ⟨_, rfl⟩
    | pieceOf value =>
      have hopening : ∃ rest, Statement.pieceOfOpening name =
          ValueType.piece.declarator name ++ rest := exists_append_of_append ⟨name, rfl⟩ _
      exact exists_append_of_append (exists_append_of_append hopening _) _
    | board width height =>
      have hsize : ∃ rest, s!"struct Piece *{name}[{height.toNat}][{width.toNat}];\n" =
          ValueType.board.declarator name ++ rest :=
        exists_append_of_append (exists_append_of_append (exists_append_of_append
          ⟨toString height.toNat, rfl⟩ _) _) _
      exact exists_append_of_append (exists_append_of_append (exists_append_of_append hsize _) _) _
  | change => cases h
  | print => cases h
  | place => cases h

end Code

open Code

namespace Tree

/-! ### Nodes of uses -/

/-- The row and the column of a square, as they are written. -/
def coordinates (t : Tree) (position : Nat) : List Nat :=
  (t.child? position 1).toList ++ (t.child? position 0).toList

lemma mem_children_of_mem_coordinates {t : Tree} {position c : Nat}
    (h : c ∈ t.coordinates position) : c ∈ t.children position := by
  simp only [coordinates, List.mem_append, Option.mem_toList] at h
  rcases h with h | h
  · exact mem_children_of_child? h
  · exact mem_children_of_child? h

/-- The nodes at which a value uses names, in the order of its code. -/
def uses (t : Tree) (n : Nat) : List Nat :=
  match t.kind n with
  | .ident => [n]
  | .expr => (t.children n).attach.flatMap fun c => t.uses c.1
  | .access =>
    (t.child? n 1).toList ++ (t.child? n 0).toList.attach.flatMap fun position =>
      (t.coordinates position.1).attach.flatMap fun c => t.uses c.1
  | _ => []
termination_by t.size - n
decreasing_by
  · exact size_sub_lt c.2
  · have hposition : t.child? n 0 = some position.1 := Option.mem_toList.mp position.2
    exact Nat.lt_trans (size_sub_lt (mem_children_of_mem_coordinates c.2))
      (size_sub_lt (mem_children_of_child? hposition))

/-- The nodes at which the coordinates of a square use names. -/
def squareUses (t : Tree) (position : Nat) : List Nat := (t.coordinates position).flatMap t.uses

/-- The nodes at which a later value of a variable uses names. A board that is kept uses none. -/
def changeUses (t : Tree) (n : Nat) : Change → List Nat
  | .keepBoard => []
  | .value _ | .text _ | .textOf _ => t.uses n

/-- The nodes at which a statement uses names, in the order of its code. -/
def statementUses (t : Tree) (n : Nat) : Statement → List Nat
  | .declare .. => (t.child? n 1).toList.flatMap t.uses
  | .change _ later =>
    (t.child? n 0).toList ++ (t.child? n 1).toList.flatMap fun value => t.changeUses value later
  | .print _ => (t.child? n 0).toList.flatMap t.uses
  | .place .. =>
    (t.child? n 0).toList ++ (t.child? n 1).toList ++ (t.child? n 2).toList.flatMap t.squareUses

variable {t : Tree}

lemma uses_of_expr {n : Nat} (h : t.kind n = .expr) : t.uses n = (t.children n).flatMap t.uses := by
  rw [uses]
  simp [h]

lemma uses_of_access {n : Nat} (h : t.kind n = .access) :
    t.uses n = (t.child? n 1).toList ++ (t.child? n 0).toList.flatMap t.squareUses := by
  rw [uses]
  simp only [h]
  have hsquare : t.squareUses = fun position => (t.coordinates position).flatMap t.uses := rfl
  generalize (t.child? n 0).toList = positions
  simp [hsquare]

lemma uses_of_identName? {n : Nat} {name : String} (h : t.identName? n = some name) :
    t.uses n = [n] := by
  rw [uses]
  simp [(identName?_eq_some.mp h).1]

lemma uses_of_literal {n : Nat} (h : t.kind n ∉ [.ident, .expr, .access]) : t.uses n = [] := by
  simp only [List.mem_cons, List.not_mem_nil, or_false, not_or] at h
  rw [uses]
  split
  · next hkind => exact absurd hkind h.1
  · next hkind => exact absurd hkind h.2.1
  · next hkind => exact absurd hkind h.2.2
  · rfl

/-! ### Uses below a node -/

/-- The nodes `sites` use the names `names`. Each of these names has a type there, and refers to
the assignment that it would refer to at `n`. -/
structure UsesFrom (t : Tree) (n : Nat) (sites : List Nat) (names : List String) : Prop where
  names : sites.map t.identName? = names.map some
  typed : ∀ u ∈ sites, ∃ name type, t.identName? u = some name ∧ t.HasType u type ∧
    t.binding? u name = t.binding? n name

namespace UsesFrom

lemma nil (n : Nat) : t.UsesFrom n [] [] := ⟨rfl, by simp⟩

lemma append {n : Nat} {sites sites' : List Nat} {names names' : List String}
    (h : t.UsesFrom n sites names) (h' : t.UsesFrom n sites' names') :
    t.UsesFrom n (sites ++ sites') (names ++ names') := by
  refine ⟨by simp [h.names, h'.names], fun u hu => ?_⟩
  rcases List.mem_append.mp hu with hu | hu
  · exact h.typed u hu
  · exact h'.typed u hu

lemma single {n u : Nat} {name : String} {type : ValueType} (hname : t.identName? u = some name)
    (htype : t.HasType u type) (hbinding : t.binding? u name = t.binding? n name) :
    t.UsesFrom n [u] [name] := by
  refine ⟨by simp [hname], fun v hv => ?_⟩
  rw [List.mem_singleton.mp hv]
  exact ⟨name, type, hname, htype, hbinding⟩

lemma flatMap {n : Nat} {nodes : List Nat} {parts : List Expr}
    (h : List.Forall₂ (fun c part => t.UsesFrom n (t.uses c) part.names) nodes parts) :
    t.UsesFrom n (nodes.flatMap t.uses) (parts.flatMap Expr.names) := by
  induction h with
  | nil => exact nil n
  | cons hhead _ ih => exact hhead.append ih

end UsesFrom

lemma exists_child?_of_lt {n i c a : Nat} (hc : t.child? n i = some c) (ha : a ∈ t.children n)
    (hlt : a < c) : ∃ j < i, t.child? n j = some a := by
  obtain ⟨j, hj, rfl⟩ := List.mem_iff_getElem.mp ha
  refine ⟨j, ?_, List.getElem?_eq_getElem hj⟩
  by_contra hge
  obtain ⟨hi, rfl⟩ := List.getElem?_eq_some_iff.mp hc
  rcases Nat.lt_or_eq_of_le (Nat.le_of_not_lt hge) with hij | rfl
  · have := List.pairwise_iff_getElem.mp (t.sorted_children n) i j hi hj hij
    omega
  · omega

namespace Numbered

variable (h : t.Numbered)
include h

/-- A child sees what its parent sees, unless an earlier sibling assigns to the name. -/
lemma binding?_of_mem_children {n c : Nat} {name : String} (hc : c ∈ t.children n)
    (hno : ∀ a ∈ t.children n, a < c → t.assignedName? a ≠ some name) :
    t.binding? c name = t.binding? n name := by
  have hnone : t.latest? (t.earlier n c) name = none := by
    refine latest?_eq_none.mpr fun a ha => ?_
    obtain ⟨ha, hlt⟩ := (mem_earlier hc).mp ha
    exact hno a ha hlt
  rw [binding?_of_parent ((h.mem_children c n).mp hc), hnone, Option.none_or]

lemma binding?_of_first {n c : Nat} (hc : t.child? n 0 = some c) (name : String) :
    t.binding? c name = t.binding? n name := by
  refine h.binding?_of_mem_children (mem_children_of_child? hc) fun a ha hlt => ?_
  obtain ⟨j, hj, -⟩ := exists_child?_of_lt hc ha hlt
  omega

end Numbered

lemma assignedName?_of_kind {a : Nat} (h : t.kind a ≠ .assign) (name : String) :
    t.assignedName? a ≠ some name := by
  simp [assignedName?, h]

lemma kind_ne_assign_of_identName? {n : Nat} {name : String} (h : t.identName? n = some name) :
    t.kind n ≠ .assign := by
  simp [(identName?_eq_some.mp h).1]

lemma ExprCode.kind_ne_assign {n : Nat} {e : Expr} (h : t.ExprCode n e) : t.kind n ≠ .assign := by
  cases h with
  | name hname => exact kind_ne_assign_of_identName? hname
  | group hkind => simp [hkind]
  | cell hkind => simp [hkind]
  | operator hkind => simp [hkind]
  | text hkind => simp [hkind]
  | integer hkind => simp [hkind]
  | flag hkind => simp [hkind]
  | blank hkind => simp [hkind]

lemma hasType_of_checkOperand {n : Nat} (hkind : t.kind n = .ident)
    (h : (t.checkOperand n).outcome = .ok ()) : t.HasType n .integer := by
  simp only [checkOperand, hkind] at h
  exact hasType_of_expectType h

namespace Numbered

variable (h : t.Numbered)
include h

/-- What is used below a child is used below its parent, unless an earlier sibling assigns. -/
lemma usesFrom_of_child {n i c : Nat} {sites : List Nat} {names : List String}
    (hc : t.child? n i = some c)
    (hno : ∀ j < i, ∀ a, t.child? n j = some a → t.kind a ≠ .assign)
    (huses : t.UsesFrom c sites names) : t.UsesFrom n sites names := by
  refine ⟨huses.names, fun u hu => ?_⟩
  obtain ⟨name, type, hname, htype, hbinding⟩ := huses.typed u hu
  refine ⟨name, type, hname, htype, hbinding.trans ?_⟩
  refine h.binding?_of_mem_children (mem_children_of_child? hc) fun a ha hlt => ?_
  obtain ⟨j, hj, ha⟩ := exists_child?_of_lt hc ha hlt
  exact assignedName?_of_kind (hno j hj a ha) name

lemma usesFrom_of_first {n c : Nat} {sites : List Nat} {names : List String}
    (hc : t.child? n 0 = some c) (huses : t.UsesFrom c sites names) : t.UsesFrom n sites names :=
  h.usesFrom_of_child hc (by simp) huses

lemma usesFrom_of_second {n b c : Nat} {sites : List Nat} {names : List String}
    (hb : t.child? n 0 = some b) (hkind : t.kind b ≠ .assign) (hc : t.child? n 1 = some c)
    (huses : t.UsesFrom c sites names) : t.UsesFrom n sites names := by
  refine h.usesFrom_of_child hc (fun j hj a ha => ?_) huses
  obtain rfl : j = 0 := by omega
  rw [hb] at ha
  cases ha
  exact hkind

lemma usesFrom_square {position x y : Nat} {row column : Expr}
    (hx : t.child? position 0 = some x) (hy : t.child? position 1 = some y)
    (hkind : t.kind x ≠ .assign) (hrow : t.UsesFrom y (t.uses y) row.names)
    (hcolumn : t.UsesFrom x (t.uses x) column.names) :
    t.UsesFrom position (t.squareUses position) (row.names ++ column.names) := by
  have hsquare : t.squareUses position = t.uses y ++ t.uses x := by
    simp [squareUses, coordinates, hx, hy]
  rw [hsquare]
  exact (h.usesFrom_of_second hx hkind hy hrow).append (h.usesFrom_of_first hx hcolumn)

/-- The board of an access is not assigned by the position before it: the value of that assignment
would have to be a board and a row number. -/
lemma binding?_of_accessed_board {n position boardNode y : Nat} {board : String}
    (hposition : t.child? n 0 = some position) (hboardNode : t.child? n 1 = some boardNode)
    (hy : t.child? position 1 = some y) (hboard : t.identName? boardNode = some board)
    (hboardType : t.HasType boardNode .board) (hyType : t.HasType y .integer) :
    t.binding? boardNode board = t.binding? n board := by
  have hmem := mem_children_of_child? hboardNode
  have honly : ∀ a ∈ t.children n, a < boardNode → a = position := by
    intro a ha hlt
    obtain ⟨j, hj, ha⟩ := exists_child?_of_lt hboardNode ha hlt
    obtain rfl : j = 0 := by omega
    rw [hposition] at ha
    cases ha
    rfl
  obtain ⟨a, ha, v, hv, htype⟩ := (hasType_of_identName? hboard).mp hboardType
  have hsearch := binding?_of_parent ((h.mem_children boardNode n).mp hmem) board
  cases hlatest : t.latest? (t.earlier n boardNode) board with
  | none => rw [hsearch, hlatest, Option.none_or]
  | some b =>
    rw [hlatest, Option.some_or, ha] at hsearch
    cases hsearch
    obtain ⟨hb, -⟩ := assignedName?_of_latest? hlatest
    obtain ⟨hb, hlt⟩ := (mem_earlier hmem).mp hb
    rw [honly a hb hlt, hy] at hv
    cases hv
    cases htype.unique hyType

/-- The names in the code of a value are those used at its nodes. -/
lemma usesFrom_of_lowerExpr {n : Nat} {e : Expr} (hlower : (t.lowerExpr n).outcome = .ok e)
    (htyped : t.kind n = .ident → ∃ type, t.HasType n type) :
    t.UsesFrom n (t.uses n) e.names := by
  -- coordinates are two levels down, so the induction is on how far a node is from the end
  induction hk : t.size - n using Nat.strong_induction_on generalizing n e with
  | _ k ih =>
    subst hk
    have hbelow {p c : Nat} {part : Expr} (hc : c ∈ t.children p) (hpn : n ≤ p)
        (hpart : (t.lowerExpr c).outcome = .ok part)
        (htyped : t.kind c = .ident → ∃ type, t.HasType c type) :
        t.UsesFrom c (t.uses c) part.names := by
      have := size_sub_lt hc
      exact ih (t.size - c) (by omega) hpart htyped rfl
    cases exprCode_of_lowerExpr hlower with
    | @group parts hkind hparts =>
      rw [uses_of_expr hkind, Expr.names, Expr.namesAll_eq]
      obtain ⟨hlength, hoperand⟩ := List.forall₂_iff_zip.mp hparts
      have hchecked := hparts.imp fun c part hc =>
        And.intro (exprCode_of_lowerExpr hc.2).kind_ne_assign hc
      obtain ⟨hno, -⟩ := (List.forall₂_and_left (p := fun a => t.kind a ≠ .assign) _ _).mp hchecked
      refine UsesFrom.flatMap (List.forall₂_iff_zip.mpr ⟨hlength, fun {c part} hzip => ?_⟩)
      obtain ⟨hcheck, hpart⟩ := hoperand hzip
      have hc := (List.of_mem_zip hzip).1
      obtain ⟨i, hi⟩ := List.mem_iff_getElem?.mp hc
      refine h.usesFrom_of_child hi (fun j _ a ha => hno a (mem_children_of_child? ha)) ?_
      exact hbelow hc (Nat.le_refl n) hpart fun hident => ⟨_, hasType_of_checkOperand hident hcheck⟩
    | cell hkind hposition hboardNode hx hy hboard hboardType hxType hyType hrow hcolumn =>
      rw [uses_of_access hkind, hposition, hboardNode]
      have hle := Nat.le_of_lt (lt_of_mem_children (mem_children_of_child? hposition))
      have hrowUses := hbelow (mem_children_of_child? hy) hle hrow fun _ => ⟨_, hyType⟩
      have hcolumnUses := hbelow (mem_children_of_child? hx) hle hcolumn fun _ => ⟨_, hxType⟩
      have hsquare := h.usesFrom_square hx hy (exprCode_of_lowerExpr hcolumn).kind_ne_assign
        hrowUses hcolumnUses
      have hboardUse := UsesFrom.single hboard hboardType
        (h.binding?_of_accessed_board hposition hboardNode hy hboard hboardType hyType)
      simpa [Expr.names] using hboardUse.append (h.usesFrom_of_first hposition hsquare)
    | name hname =>
      obtain ⟨type, htype⟩ := htyped (identName?_eq_some.mp hname).1
      rw [uses_of_identName? hname, Expr.names]
      exact .single hname htype rfl
    | operator hkind =>
      rw [uses_of_literal (by simp [hkind])]
      exact .nil n
    | text hkind =>
      rw [uses_of_literal (by simp [hkind])]
      exact .nil n
    | integer hkind =>
      rw [uses_of_literal (by simp [hkind])]
      exact .nil n
    | flag hkind =>
      rw [uses_of_literal (by simp [hkind])]
      exact .nil n
    | blank hkind =>
      rw [uses_of_literal (by simp [hkind])]
      exact .nil n

lemma usesFrom_of_initialCode {defaults : PieceDefaults} {name : String} {n : Nat}
    {initial : Initial} (hcode : t.InitialCode defaults name n initial) :
    t.UsesFrom n (t.uses n) initial.names := by
  cases hcode with
  | text hkind =>
    rw [uses_of_literal (by simp [hkind])]
    exact .nil n
  | integer hkind he =>
    refine h.usesFrom_of_lowerExpr he fun hident => ?_
    simp [hident] at hkind
  | blank hkind hblank =>
    rw [uses_of_literal (by simp [hkind])]
    exact .nil n
  | board hkind hsize =>
    rw [uses_of_literal (by simp [hkind])]
    exact .nil n
  | piece hkind hfields =>
    rw [uses_of_literal (by simp [hkind])]
    exact .nil n
  | cell hkind he =>
    refine h.usesFrom_of_lowerExpr he fun hident => ?_
    simp [hident] at hkind
  | integerOf hother htype =>
    rw [uses_of_identName? hother]
    exact .single hother htype rfl
  | textOf hother htype =>
    rw [uses_of_identName? hother]
    exact .single hother htype rfl
  | pieceOf hother htype =>
    rw [uses_of_identName? hother]
    exact .single hother htype rfl

lemma usesFrom_of_changeCode {n : Nat} {type : ValueType} {change : Change}
    (htype : t.HasType n type) (hcode : t.ChangeCode n type change) :
    t.UsesFrom n (t.changeUses n change) change.names := by
  cases hcode with
  | board => exact .nil n
  | text hkind =>
    rw [changeUses, uses_of_literal (by simp [hkind])]
    exact .nil n
  | textOf hkind hother =>
    rw [changeUses, uses_of_identName? hother]
    exact .single hother htype rfl
  | integer he => exact h.usesFrom_of_lowerExpr he fun _ => ⟨_, htype⟩
  | piece he => exact h.usesFrom_of_lowerExpr he fun _ => ⟨_, htype⟩

lemma usesFrom_of_printedCode {n : Nat} {type : ValueType} {printed : Printed}
    (htype : t.HasType n type) (hcode : t.PrintedCode n type printed) :
    t.UsesFrom n (t.uses n) printed.names := by
  cases hcode with
  | integer he => exact h.usesFrom_of_lowerExpr he fun _ => ⟨_, htype⟩
  | text he => exact h.usesFrom_of_lowerExpr he fun _ => ⟨_, htype⟩
  | piece he => exact h.usesFrom_of_lowerExpr he fun _ => ⟨_, htype⟩
  | board hname he hsize =>
    rw [uses_of_identName? hname]
    exact .single hname htype rfl

/-- The names in the code of a statement are those used at its nodes. -/
lemma usesFrom_of_statementCode {defaults : PieceDefaults} {n : Nat} {st : Statement}
    (hcode : t.StatementCode defaults n st) : t.UsesFrom n (t.statementUses n st) st.names := by
  cases hcode with
  | declare hkind htarget hvalue hname hnew hinitial =>
    have huses := h.usesFrom_of_second htarget (kind_ne_assign_of_identName? hname) hvalue
      (h.usesFrom_of_initialCode hinitial)
    simpa [statementUses, hvalue, Statement.names] using huses
  | change hkind htarget hvalue hname hempty hpiece hold htype hchange =>
    have htargetUse := h.usesFrom_of_first htarget (.single hname hold rfl)
    have hvalueUses := h.usesFrom_of_second htarget (kind_ne_assign_of_identName? hname) hvalue
      (h.usesFrom_of_changeCode htype hchange)
    simpa [statementUses, htarget, hvalue, Statement.names] using htargetUse.append hvalueUses
  | print hkind hargument hprintable htype hprinted =>
    have huses := h.usesFrom_of_first hargument (h.usesFrom_of_printedCode htype hprinted)
    simpa [statementUses, hargument, Statement.names] using huses
  | place hkind hpieceNode hboardNode hposition hx hy hpiece hboard hpieceType hboardType hxType
      hyType hrow hcolumn =>
    have hpieceAssign := kind_ne_assign_of_identName? hpiece
    have hpieceUse := h.usesFrom_of_first hpieceNode (.single hpiece hpieceType rfl)
    have hboardUse := h.usesFrom_of_second hpieceNode hpieceAssign hboardNode
      (.single hboard hboardType rfl)
    have hsquare := h.usesFrom_square hx hy (exprCode_of_lowerExpr hcolumn).kind_ne_assign
      (h.usesFrom_of_lowerExpr hrow fun _ => ⟨_, hyType⟩)
      (h.usesFrom_of_lowerExpr hcolumn fun _ => ⟨_, hxType⟩)
    have hsquareUse := h.usesFrom_of_child hposition (fun j hj a ha => ?_) hsquare
    · simpa [statementUses, hpieceNode, hboardNode, hposition, Statement.names] using
        hpieceUse.append (hboardUse.append hsquareUse)
    · -- the two siblings before a position are the names of a piece and of a board
      obtain rfl | rfl : j = 0 ∨ j = 1 := by omega
      · rw [hpieceNode] at ha
        cases ha
        exact hpieceAssign
      · rw [hboardNode] at ha
        cases ha
        exact kind_ne_assign_of_identName? hboard

end Numbered

end Tree

end GridGame
