/-!
# Searching in texts

Breaking a list of characters in two around the first or the last occurrence of a pattern.
-/

namespace GridGame.Text

/-- What stands before and after the first occurrence of a pattern. -/
def breakFirst? (pattern : List Char) : List Char → Option (List Char × List Char)
  | [] => if pattern.isEmpty then some ([], []) else none
  | c :: rest =>
    if pattern.isPrefixOf (c :: rest) then some ([], (c :: rest).drop pattern.length)
    else (breakFirst? pattern rest).map fun (before, after) => (c :: before, after)

/-- What stands before and after the last occurrence of a pattern. -/
def breakLast? (pattern : List Char) : List Char → Option (List Char × List Char)
  | [] => if pattern.isEmpty then some ([], []) else none
  | c :: rest =>
    match breakLast? pattern rest with
    | some (before, after) => some (c :: before, after)
    | none =>
      if pattern.isPrefixOf (c :: rest) then some ([], (c :: rest).drop pattern.length) else none

/-- Whether a pattern occurs in a text. -/
def occurs (pattern s : String) : Bool := (breakFirst? pattern.toList s.toList).isSome

end GridGame.Text
