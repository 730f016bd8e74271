import GridGame.Piece

/-!
# Boards

A board is a grid of squares, each empty or taken by a piece of some owner. Rows are listed from
the bottom up and squares within a row from left to right; both count from 0.
-/

namespace GridGame

/-- What takes a square: a piece, and whose copy of it. -/
structure Occupant where
  owner : Owner
  piece : String
deriving DecidableEq, Inhabited

/-- A named grid of squares. -/
structure Board where
  name : String
  width : UInt32
  height : UInt32
  rows : List (List (Option Occupant))
deriving DecidableEq

namespace Board

/-- The board of a given size on which every square is empty. -/
def blank (name : String) (width height : UInt32) : Board where
  name := name
  width := width
  height := height
  rows := List.replicate height.toNat (List.replicate width.toNat none)

def contains (b : Board) (x y : UInt32) : Bool := x < b.width && y < b.height

def cell? (b : Board) (x y : UInt32) : Option Occupant := do
  let row ← b.rows[y.toNat]?
  (← row[x.toNat]?)

/-- The board after a square is taken, if there is such a square. -/
def set? (b : Board) (x y : UInt32) (occupant : Occupant) : Option Board := do
  let row ← b.rows[y.toNat]?
  if x.toNat < row.length then
    return { b with rows := b.rows.set y.toNat (row.set x.toNat (some occupant)) }
  else none

/-- The squares that are taken, with their occupants, row by row. -/
def occupied (b : Board) : List (Nat × Nat × Occupant) :=
  b.rows.zipIdx.flatMap fun (row, y) =>
    row.zipIdx.filterMap fun (cell, x) => cell.map fun occupant => (x, y, occupant)

end Board

end GridGame
