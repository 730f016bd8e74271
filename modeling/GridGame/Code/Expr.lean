import GridGame.Code.Literal

/-!
# Expressions of the generated code

What a value is lowered to, and how it is written.
-/

namespace GridGame.Code

/-- A variable that starts out empty. -/
inductive Blank where
  | number
  | text
deriving DecidableEq, Inhabited

namespace Blank

def typeText : Blank → String
  | .number => "int "
  | .text => "char *"

/-- What the variable starts out with; an empty text is a buffer of its own. -/
def initialText : Blank → String
  | .number => "0"
  | .text => "calloc(1, sizeof(char))"

end Blank

/-- A part of an expression. -/
inductive Expr where
  | integer (value : Int64)
  | flag (on : Bool)
  | name (name : String)
  | operator (symbol : String)
  | text (text : String)
  /-- An empty value stands as its type. -/
  | blank (blank : Blank)
  /-- Operands and operators in a row, in parentheses. -/
  | group (parts : List Expr)
  /-- The piece on a square of a board, given by row and column counted from 1. -/
  | cell (board : String) (row column : Expr)

namespace Expr

/-- What is written before the row of a cell. -/
def cellOpening (board : String) : String := s!"(*{board}["

/-- What is written between the row and the column of a square. -/
def squareMiddle : String := "-1]["

mutual

def render : Expr → String
  | .integer v => v.toInt.repr
  | .flag on => flagText on
  | .name x => x
  | .operator symbol => symbol
  | .text s => literal s
  | .blank b => b.typeText
  | .group parts => "(" ++ renderAll parts ++ ")"
  | .cell board row column =>
    cellOpening board ++ row.render ++ squareMiddle ++ column.render ++ "-1])"

def renderAll : List Expr → String
  | [] => ""
  | e :: es => e.render ++ renderAll es

end

end Expr

end GridGame.Code
