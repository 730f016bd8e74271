import GridGame.Outline
import GridGame.Text.Search

/-!
# Excerpts of programs

The sections of a generated program can be cut out of its text again by their markers.
-/

namespace GridGame.Excerpt

open Code Text

/-- Where a section ends: before the game section, or before the last closing lines. -/
def untilEnd (s : List Char) : List Char :=
  match breakFirst? gameMarker.toList s with
  | some (before, _) => before
  | none =>
    match breakLast? closing.toList s with
    | some (before, _) => before
    | none => s

/-- The section of a program after a marker, without the line ends that follow the marker. -/
def afterMarker? (marker program : String) : Option String := do
  let (_, rest) ← breakFirst? marker.toList program.toList
  return String.ofList (untilEnd (rest.dropWhile (· = '\n')))

def setup? (program : String) : Option String := afterMarker? setupMarker program

def game? (program : String) : Option String := afterMarker? gameMarker program

end GridGame.Excerpt
