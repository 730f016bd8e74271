import GridGame.Code.Expr
import GridGame.Code.Printout
import GridGame.Piece

/-!
# Statements of the generated code

What a statement is lowered to, and how it is written. Where a statement contains an expression,
what is written before the expression has a name of its own.
-/

namespace GridGame.Code

/-- What a variable of the generated code holds. -/
inductive ValueType where
  | integer
  | text
  | piece
  | board
deriving DecidableEq, Inhabited

def ValueType.label : ValueType → String
  | .integer => "an integer"
  | .text => "a string"
  | .piece => "a piece"
  | .board => "a board"

/-! ### Pieces -/

/-- The setting of a member of a piece variable. -/
inductive PieceField where
  | name (text : String)
  /-- The limit as the program writes it. -/
  | writtenLimit (value : Int64)
  | limit (limit : UInt32)
  | count (count : UInt32)
  | capture (on : Bool)
  | placeable (on : Bool)
  | canJump (on : Bool)
deriving DecidableEq

namespace PieceField

def member : PieceField → String
  | .name _ => "name"
  | .writtenLimit _ | .limit _ => "limit"
  | .count _ => "count"
  | .capture _ => "capture"
  | .placeable _ => "placeable"
  | .canJump _ => "can_jump"

/-- The statements that set the member of a variable. -/
def render (piece : String) (field : PieceField) : String :=
  let target := piece ++ "." ++ field.member
  match field with
  | .name text => copyText target text
  | .writtenLimit v => s!"{target} = {v.toInt};\n"
  | .limit n => s!"{target} = {limitText n};\n"
  | .count n => s!"{target} = {n.toNat};\n"
  | .capture on | .placeable on | .canJump on => s!"{target} = {flagText on};\n"

end PieceField

/-- What is written before the members of a piece variable are set. -/
def pieceOpening (piece : String) : String := s!"struct Piece {piece};\n"

/-- The declaration of a piece variable with its members. -/
def renderPiece (piece : String) (fields : List PieceField) : String :=
  pieceOpening piece ++ String.join (fields.map (PieceField.render piece))

/-- The members of a player's copy of a piece. -/
def copyFields (p : Piece) : List PieceField :=
  [.name p.displayName, .limit p.limit, .count p.count, .capture p.capture,
    .placeable p.placeable, .canJump p.canJump]

/-! ### Statements -/

/-- What a declared variable starts out with. -/
inductive Initial where
  | integer (value : Expr)
  | blank (blank : Blank)
  | text (text : String)
  /-- A copy of the text of another variable. -/
  | textOf (other : String)
  | piece (fields : List PieceField)
  /-- A copy of another piece. -/
  | pieceOf (value : Expr)
  | board (width height : UInt32)

def Initial.type : Initial → ValueType
  | .integer _ => .integer
  | .blank .number => .integer
  | .blank .text => .text
  | .text _ | .textOf _ => .text
  | .piece _ | .pieceOf _ => .piece
  | .board .. => .board

/-- What a variable is given later. -/
inductive Change where
  | value (value : Expr)
  | text (text : String)
  /-- A copy of the text of another variable. -/
  | textOf (other : String)
  /-- Boards stay what they are. -/
  | keepBoard

inductive Printed where
  | integer (value : Expr)
  | text (value : Expr)
  /-- The name of a piece. -/
  | piece (value : Expr)
  | board (name : String) (width height : UInt32)

inductive Statement where
  | declare (name : String) (initial : Initial)
  | change (name : String) (change : Change)
  | print (printed : Printed)
  /-- Put a piece on a square of a board, as long as its limit allows. -/
  | place (piece board : String) (row column : Expr)

namespace Statement

/-- What is written before the value of an integer declaration. -/
def integerOpening (name : String) : String := s!"int {name} = "

/-- What is written before the value of a declared copy of a piece. -/
def pieceOfOpening (name : String) : String := s!"struct Piece {name};\n{name} = "

/-- What is written before the value of an assignment. -/
def changeOpening (name : String) : String := s!"{name} = "

/-- What is written before an integer to print. -/
def integerPrintOpening : String := "printf(\"%d\\n\", "

/-- What is written before a text to print. -/
def textPrintOpening : String := "printf(\"%s\\n\", "

/-- What is written before the row of a square to put a piece on. -/
def placeOpening (piece board : String) : String :=
  s!"if ({piece}.count < {piece}.limit) \x7b\n{board}["

/-- The declaration of a board: every square starts out empty. -/
def renderBoard (name : String) (width height : UInt32) : String :=
  let w := width.toNat
  let h := height.toNat
  s!"struct Piece *{name}[{h}][{w}];\n" ++
    s!"for (int y = 0; y < {h}; y++)\n" ++
    s!"for (int x = 0; x < {w}; x++)\n" ++
    s!"{name}[y][x] = &empty_piece;\n"

def renderDeclaration (name : String) : Initial → String
  | .integer value => integerOpening name ++ value.render ++ ";\n"
  | .blank blank => s!"{blank.typeText}{name} = {blank.initialText};\n"
  | .text text => s!"char *{name};\n" ++ copyText name text
  | .textOf other =>
    s!"char *{name};\n" ++
      s!"{name} = calloc(strlen({other}) + 1, sizeof(char));\n" ++
      s!"strcpy({name}, {other});\n"
  | .piece fields => renderPiece name fields
  | .pieceOf value => pieceOfOpening name ++ value.render ++ ";\n"
  | .board width height => renderBoard name width height

def renderChange (name : String) : Change → String
  | .value value => changeOpening name ++ value.render ++ ";\n"
  | .text text => recopyText name text
  | .textOf other =>
    s!"{name} = realloc({name}, strlen({other}) + 1);\nstrcpy({name}, {other});\n"
  | .keepBoard => "/* Board re-assignment is not supported */\n"

def renderPrinted : Printed → String
  | .integer value => integerPrintOpening ++ value.render ++ ");\n"
  | .text value => textPrintOpening ++ value.render ++ ");\n"
  | .piece value => textPrintOpening ++ value.render ++ ".name);\n"
  | .board name width height => Printout.render name width height

def render : Statement → String
  | .declare name initial => renderDeclaration name initial
  | .change name c => renderChange name c
  | .print printed => renderPrinted printed
  | .place piece board row column =>
    placeOpening piece board ++ row.render ++ Expr.squareMiddle ++ column.render ++
      s!"-1] = &{piece};\n{piece}.count++;\n\x7d\n"

def renderAll (statements : List Statement) : String := String.join (statements.map render)

end Statement

end GridGame.Code
