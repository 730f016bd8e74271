import GridGame.Toml.Scalar
import GridGame.Toml.Table

/-!
# Reading settings files

A settings file is read line by line: a pair of a key and a value, a header, a comment, or
nothing. Arrays may go over several lines.
-/

namespace GridGame.Toml

/-- How deep arrays and inline tables may nest, and how many parts a key may have. -/
def maxNesting : Nat := 79

/-- Skip a comment, if there is one, up to the end of its line. -/
def skipComment : List Char → List Char
  | '#' :: rest => rest.dropWhile isPlain
  | s => s

/-- Skip the blanks and the comment that may end a line, and the line end itself. -/
def lineEnd? (s : List Char) : Option (List Char) :=
  match skipComment (skipBlanks s) with
  | [] => some []
  | s => newline? s

/-- Skip blanks, comments and line ends. At most `fuel` lines are skipped. -/
def skipLines? : Nat → List Char → Option (List Char)
  | 0, s => some s
  | fuel + 1, s =>
    match skipBlanks s with
    | [] => some []
    | c :: rest =>
      if c = '#' ∨ c = '\n' ∨ c = '\r' then do skipLines? fuel (← lineEnd? (c :: rest))
      else some (c :: rest)

/-! ### Keys -/

/-- Whether a character may stand in a key without quotes. -/
def isKeyChar (c : Char) : Bool := c.isAlphanum || c = '_' || c = '-'

/-- One part of a key. -/
def readKeyPart : Reader String := fun s =>
  match s with
  | '"' :: _ | '\x27' :: _ => readLine s
  | c :: _ =>
    if isKeyChar c then some (String.ofList (s.takeWhile isKeyChar), s.dropWhile isKeyChar)
    else none
  | [] => none

/-- The parts of a key, with blanks around them. At most `fuel` parts are read. -/
def readKeyParts : Nat → Reader (List String)
  | 0, _ => none
  | fuel + 1, s => do
    let (part, rest) ← readKeyPart (skipBlanks s)
    match skipBlanks rest with
    | '.' :: rest => do
      let (parts, rest) ← readKeyParts fuel rest
      return (part :: parts, rest)
    | rest => return ([part], rest)

/-- A key: the parts before the last, and the last. -/
def readKey : Reader (List String × String) := fun s => do
  let (parts, rest) ← readKeyParts maxNesting s
  return ((parts.dropLast, ← parts.getLast?), rest)

/-! ### Values -/

/-- The rest of an array after its bracket or a comma. At most `fuel` items are read. -/
def readItems (read : Reader Value) : Nat → Reader (List Value)
  | 0, _ => none
  | fuel + 1, s => do
    let s ← skipLines? s.length s
    match s with
    | ']' :: rest => return ([], rest)
    | s => do
      let (v, rest) ← read s
      match ← skipLines? rest.length rest with
      | ',' :: rest => do
        let (items, rest) ← readItems read fuel rest
        return (v :: items, rest)
      | ']' :: rest => return ([v], rest)
      | _ => none

/-- A pair of a key and a value within a line. -/
def readPair (read : Reader Value) : Reader (List String × String × Value) := fun s => do
  let ((path, key), rest) ← readKey s
  let rest ← expect '=' rest
  let (v, rest) ← read (skipBlanks rest)
  return ((path, key, v), rest)

/-- The rest of an inline table from a key on. At most `fuel` pairs are read. -/
def readPairs (read : Reader Value) : Nat → Reader (List (List String × String × Value))
  | 0, _ => none
  | fuel + 1, s => do
    let (pair, rest) ← readPair read s
    match skipBlanks rest with
    | ',' :: rest => do
      let (pairs, rest) ← readPairs read fuel rest
      return (pair :: pairs, rest)
    | '\x7d' :: rest => return ([pair], rest)
    | _ => none

/-- The rest of an inline table after its brace. -/
def readInlineTable (read : Reader Value) : Reader Value := fun s =>
  match skipBlanks s with
  | '\x7d' :: rest => some (.table [], rest)
  | _ => do
    let (pairs, rest) ← readPairs read s.length s
    let entries ← Entries.insertPairs pairs []
    return (.table (finishEntries entries), rest)

/-- A value without parts. -/
def readScalar : Reader Value := fun s =>
  match s with
  | '"' :: _ | '\x27' :: _ => (readString s).map fun (text, rest) => (.string text, rest)
  | 't' :: _ | 'f' :: _ => readBoolean s
  | _ => readNumber s

/-- A value in which arrays and inline tables nest at most `levels` deep. -/
def readValue : Nat → Reader Value
  | 0, s => readScalar s
  | levels + 1, s =>
    match s with
    | '[' :: rest =>
      (readItems (readValue levels) (rest.length + 1) rest).map fun (items, rest) =>
        (.array items, rest)
    | '\x7b' :: rest => readInlineTable (readValue levels) rest
    | s => readScalar s

/-! ### Files -/

/-- A line of a settings file. -/
inductive Line where
  | pair (path : List String) (key : String) (value : Value)
  | header (header : Header)

/-- A line that holds a pair or a header. -/
def readLineOf : Reader Line
  | '[' :: '[' :: rest => do
    let ((path, key), rest) ← readKey rest
    let rest ← expect ']' (← expect ']' rest)
    return (.header (.arrayTable path key), ← lineEnd? rest)
  | '[' :: rest => do
    let ((path, key), rest) ← readKey rest
    let rest ← expect ']' rest
    return (.header (.table path key), ← lineEnd? rest)
  | s => do
    let ((path, key, v), rest) ← readPair (readValue maxNesting) s
    return (.pair path key v, ← lineEnd? rest)

/-- The lines of a file that hold something. At most `fuel` of them are read. -/
def readLines : Nat → List Char → Option (List Line)
  | 0, _ => none
  | fuel + 1, s => do
    match ← skipLines? s.length s with
    | [] => return []
    | s => do
      let (line, rest) ← readLineOf s
      return line :: (← readLines fuel rest)

/-- The pairs before the first header, and the sections. -/
def groupLines : List Line → List (List String × String × Value) × List Section
  | [] => ([], [])
  | .pair path key v :: lines =>
    let (pairs, sections) := groupLines lines
    ((path, key, v) :: pairs, sections)
  | .header h :: lines =>
    let (pairs, sections) := groupLines lines
    ([], ⟨h, pairs⟩ :: sections)

def skipByteOrderMark : List Char → List Char
  | '\ufeff' :: rest => rest
  | s => s

def parse? (text : String) : Option Value := do
  let s := skipByteOrderMark text.toList
  let (pairs, sections) := groupLines (← readLines (s.length + 1) s)
  assemble? pairs sections

end GridGame.Toml
