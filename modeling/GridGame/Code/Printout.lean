/-!
# Board printouts

The statements that print a board: a box for every square with the rows numbered at the right,
top row first, and the columns lettered below.
-/

namespace GridGame.Code

/-- What one print statement of a printout prints. -/
inductive PrintItem where
  /-- The border over one square, starting with a corner or crossing. -/
  | border (corner : Char)
  /-- The end of a border. -/
  | borderEnd (corner : Char)
  /-- The first character of the name of the piece on a square, counted from 0. -/
  | square (row column : Nat)
  /-- The end of a row with its number, counted from 1. -/
  | rowLabel (row : Nat)
  /-- The letter of a column. -/
  | columnLabel (letter : Char)
  | lineEnd
deriving DecidableEq

/-- The statement for a print item of a named board. -/
def PrintItem.render (board : String) : PrintItem → String
  | .border corner => s!"printf(\"{corner}───\");\n"
  | .borderEnd corner => s!"printf(\"{corner}\\n\");\n"
  | .square row column => s!"printf(\"│ %c \", *{board}[{row}][{column}]->name);\n"
  | .rowLabel row => s!"printf(\"│ {row}\\n\");\n"
  | .columnLabel letter => s!"printf(\"  {letter} \");\n"
  | .lineEnd => "printf(\"\\n\");\n"

namespace Printout

/-- A border over `width` squares. -/
def border (left middle right : Char) (width : Nat) : List PrintItem :=
  .border left :: List.replicate (width - 1) (.border middle) ++ [.borderEnd right]

/-- The letter of a column: the characters from `A` on, as far as there are any. The sum does
not wrap around, as a sum of 32-bit words would from column 4294967231 on. -/
def columnLetter (column : Nat) : Char :=
  if (65 + column).isValidChar then Char.ofNat (65 + column) else '?'

/-- A row and the border below it. -/
def row (width row : Nat) : List PrintItem :=
  (List.range width).map (.square row) ++ [.rowLabel (row + 1)] ++
    if row = 0 then border '└' '┴' '┘' width else border '├' '┼' '┤' width

def items (width height : Nat) : List PrintItem :=
  border '┌' '┬' '┐' width ++
    (List.range height).reverse.flatMap (row width) ++
    (List.range width).map (fun x => .columnLabel (columnLetter x)) ++
    [.lineEnd]

def render (board : String) (width height : UInt32) : String :=
  String.join ((items width.toNat height.toNat).map (PrintItem.render board))

end Printout

end GridGame.Code
