/-!
# Edit distance

How many single characters have to be inserted, deleted or replaced to turn one text into
another, computed with one row of the table of distances at a time: entry `j` of a row is the
distance from the source read so far to the first `j` characters of the target.
-/

namespace GridGame.EditDistance

/-- The entries of the next row after its first. `left` is the entry just computed and `corner`
the entry of the old row above it. -/
def extendRow (c : Char) (left corner : Nat) : List Char → List Nat → List Nat
  | t :: target, above :: row =>
    let cost := if c = t then 0 else 1
    let next := min (min (above + 1) (left + 1)) (corner + cost)
    next :: extendRow c next above target row
  | _, _ => []

/-- The row after one more character `c` of the source. -/
def nextRow (target : List Char) (row : List Nat) (c : Char) : List Nat :=
  match row with
  | [] => []
  | corner :: row => (corner + 1) :: extendRow c (corner + 1) corner target row

/-- The row before the source is read: the first `j` characters cost `j` insertions. -/
def firstRow (target : List Char) : List Nat := List.range (target.length + 1)

def distanceChars (source target : List Char) : Nat :=
  (source.foldl (nextRow target) (firstRow target)).getLastD 0

def distance (source target : String) : Nat := distanceChars source.toList target.toList

end GridGame.EditDistance
