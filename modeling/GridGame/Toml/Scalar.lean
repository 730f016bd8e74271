import GridGame.Text.Digits
import GridGame.Toml.Value

/-!
# Scalars of settings files

Strings, numbers, dates and times. Every reader takes a value off the front of the characters and
returns what follows it.
-/

namespace GridGame.Toml

open Text (decimal hexDigit? hexNumber?)

/-- What a reader makes of the characters in front of it, and what follows. -/
abbrev Reader (α : Type) := List Char → Option (α × List Char)

def isBlank (c : Char) : Bool := c = ' ' || c = '\t'

/-- Whether a character may stand in a comment or, unless it is special there, in a string. -/
def isPlain (c : Char) : Bool := c = '\t' || (0x20 ≤ c.toNat && c.toNat ≠ 0x7f)

def skipBlanks (s : List Char) : List Char := s.dropWhile isBlank

def newline? : List Char → Option (List Char)
  | '\n' :: rest => some rest
  | '\r' :: '\n' :: rest => some rest
  | _ => none

/-! ### Strings -/

/-- The character with a given code. -/
def scalar? (code : Nat) : Option Char :=
  if code.isValidChar then some (Char.ofNat code) else none

/-- The character that a one-letter escape stands for. -/
def escaped? : Char → Option Char
  | 'b' => some '\x08'
  | 't' => some '\t'
  | 'n' => some '\n'
  | 'f' => some '\x0c'
  | 'r' => some '\r'
  | '"' => some '"'
  | '\\' => some '\\'
  | _ => none

/-- The character that an escape after its backslash stands for. -/
def readEscape : Reader Char
  | 'u' :: a :: b :: c :: d :: rest => do
    return (← scalar? (← hexNumber? [a, b, c, d]), rest)
  | 'U' :: a :: b :: c :: d :: e :: f :: g :: h :: rest => do
    return (← scalar? (← hexNumber? [a, b, c, d, e, f, g, h]), rest)
  | c :: rest => do return (← escaped? c, rest)
  | [] => none

/-- Add a character in front of what a reader returns. -/
def prepend (c : Char) (r : Option (List Char × List Char)) : Option (List Char × List Char) :=
  r.map fun (cs, rest) => (c :: cs, rest)

/-- The rest of a one-line string with escapes. At most `fuel` characters are read. -/
def readBasicChars : Nat → Reader (List Char)
  | 0, _ => none
  | fuel + 1, s =>
    match s with
    | '"' :: rest => some ([], rest)
    | '\\' :: rest => do
      let (c, rest) ← readEscape rest
      prepend c (readBasicChars fuel rest)
    | c :: rest => if isPlain c then prepend c (readBasicChars fuel rest) else none
    | [] => none

/-- The rest of a one-line string without escapes. -/
def readLiteralChars : Reader (List Char)
  | '\x27' :: rest => some ([], rest)
  | c :: rest => if isPlain c then prepend c (readLiteralChars rest) else none
  | [] => none

/-- Skip blanks and line ends. -/
def skipSpace : List Char → List Char
  | '\r' :: '\n' :: rest => skipSpace rest
  | c :: rest => if isBlank c || c = '\n' then skipSpace rest else c :: rest
  | [] => []

/-- Skip the end of a line that a backslash continues, and the blanks that the next one starts
with. -/
def skipContinuation? (s : List Char) : Option (List Char) :=
  (newline? (skipBlanks s)).map skipSpace

/-- The rest of a string of several lines with escapes. Up to two quotes may stand before the
closing ones. At most `fuel` characters are read. -/
def readBasicLines : Nat → Reader (List Char)
  | 0, _ => none
  | fuel + 1, s =>
    match s with
    | '"' :: '"' :: '"' :: '"' :: '"' :: rest => some (['"', '"'], rest)
    | '"' :: '"' :: '"' :: '"' :: rest => some (['"'], rest)
    | '"' :: '"' :: '"' :: rest => some ([], rest)
    | '\\' :: rest =>
      match skipContinuation? rest with
      | some rest => readBasicLines fuel rest
      | none => do
        let (c, rest) ← readEscape rest
        prepend c (readBasicLines fuel rest)
    | '\n' :: rest => prepend '\n' (readBasicLines fuel rest)
    | '\r' :: '\n' :: rest => prepend '\n' (readBasicLines fuel rest)
    | c :: rest => if isPlain c then prepend c (readBasicLines fuel rest) else none
    | [] => none

/-- The rest of a string of several lines without escapes. -/
def readLiteralLines : Reader (List Char)
  | '\x27' :: '\x27' :: '\x27' :: '\x27' :: '\x27' :: rest => some (['\x27', '\x27'], rest)
  | '\x27' :: '\x27' :: '\x27' :: '\x27' :: rest => some (['\x27'], rest)
  | '\x27' :: '\x27' :: '\x27' :: rest => some ([], rest)
  | '\n' :: rest => prepend '\n' (readLiteralLines rest)
  | '\r' :: '\n' :: rest => prepend '\n' (readLiteralLines rest)
  | c :: rest => if isPlain c then prepend c (readLiteralLines rest) else none
  | [] => none

def readLine : Reader String
  | '"' :: rest =>
    (readBasicChars (rest.length + 1) rest).map fun (cs, rest) => (String.ofList cs, rest)
  | '\x27' :: rest => (readLiteralChars rest).map fun (cs, rest) => (String.ofList cs, rest)
  | _ => none

/-- Skip the line end that may open a string of several lines. -/
def skipFirstNewline (s : List Char) : List Char := (newline? s).getD s

def readString : Reader String
  | '"' :: '"' :: '"' :: rest =>
    (readBasicLines (rest.length + 1) (skipFirstNewline rest)).map fun (cs, rest) =>
      (String.ofList cs, rest)
  | '\x27' :: '\x27' :: '\x27' :: rest =>
    (readLiteralLines (skipFirstNewline rest)).map fun (cs, rest) => (String.ofList cs, rest)
  | s => readLine s

/-! ### Numbers -/

/-- Digits among which single underscores may stand, without them. -/
def digitRun (isDigit : Char → Bool) : List Char → List Char × List Char
  | '_' :: c :: rest =>
    if isDigit c then
      let (digits, rest) := digitRun isDigit rest
      (c :: digits, rest)
    else ([], '_' :: c :: rest)
  | c :: rest =>
    if isDigit c then
      let (digits, rest) := digitRun isDigit rest
      (c :: digits, rest)
    else ([], c :: rest)
  | [] => ([], [])

/-- A run of digits that starts with one. -/
def readDigits (isDigit : Char → Bool) : Reader (List Char)
  | c :: rest =>
    if isDigit c then
      let (digits, rest) := digitRun isDigit rest
      some (c :: digits, rest)
    else none
  | [] => none

/-- A sign, if there is one: whether it is a minus. -/
def readSign : List Char → Bool × List Char
  | '-' :: rest => (true, rest)
  | '+' :: rest => (false, rest)
  | s => (false, s)

/-- The digits of a decimal number, which has no leading zero. -/
def readDecimal : Reader (List Char)
  | '0' :: rest => some (['0'], rest)
  | s => readDigits Char.isDigit s

/-- The number that digits of a base spell. -/
def numeral? (base : Nat) (digits : List Char) : Option Nat :=
  digits.foldlM (fun n c => (hexDigit? c).map (n * base + ·)) 0

def fitsInt64 (v : Int) : Bool := -9223372036854775808 ≤ v && v < 9223372036854775808

/-- A number of a base after its mark. -/
def readBased (base : Nat) (isDigit : Char → Bool) : Reader Value := fun s => do
  let (digits, rest) ← readDigits isDigit s
  let v : Int ← numeral? base digits
  if fitsInt64 v then return (.integer v, rest) else none

def readInteger : Reader Value
  | '0' :: 'x' :: rest => readBased 16 (fun c => (hexDigit? c).isSome) rest
  | '0' :: 'o' :: rest => readBased 8 (fun c => '0' ≤ c && c ≤ '7') rest
  | '0' :: 'b' :: rest => readBased 2 (fun c => c = '0' || c = '1') rest
  | s => do
    let (negative, s) := readSign s
    let (digits, rest) ← readDecimal s
    let v : Int := if negative then -(decimal digits : Int) else decimal digits
    if fitsInt64 v then return (.integer v, rest) else none

/-- The fraction of a float: its digits after the point. -/
def readFraction : Reader (List Char)
  | '.' :: rest => readDigits Char.isDigit rest
  | _ => none

def readExponent : Reader Int := fun s =>
  match s with
  | 'e' :: rest | 'E' :: rest => do
    let (negative, rest) := readSign rest
    let (digits, rest) ← readDigits Char.isDigit rest
    return (if negative then -(decimal digits : Int) else decimal digits, rest)
  | _ => none

/-- Whether the decimal number with these digits and this exponent is too large for a float of 64
bits. The smallest such number lies halfway beyond the largest float. -/
def overflows (digits : List Char) (exponent : Int) : Bool :=
  let digits := digits.dropWhile (· = '0')
  let magnitude := exponent + digits.length
  if digits.isEmpty || magnitude ≤ 308 then false
  else if 310 ≤ magnitude then true
  else
    decimal digits * Nat.pow 10 exponent.toNat ≥
      (Nat.pow 2 1024 - Nat.pow 2 970) * Nat.pow 10 (-exponent).toNat

/-- The words for floats that are no numbers. -/
def readSpecialFloat : Reader Value
  | 'i' :: 'n' :: 'f' :: rest | 'n' :: 'a' :: 'n' :: rest => some (.float, rest)
  | _ => none

/-- A float. A positive one has to be finite. -/
def readFloat : Reader Value := fun s => do
  let (negative, s) := readSign s
  match readDecimal s with
  | none => readSpecialFloat s
  | some (whole, rest) =>
    let (fraction, rest, hasFraction) := match readFraction rest with
      | some (fraction, rest) => (fraction, rest, true)
      | none => ([], rest, false)
    let (exponent, rest, hasExponent) := match readExponent rest with
      | some (exponent, rest) => (exponent, rest, true)
      | none => (0, rest, false)
    if hasFraction || hasExponent then
      if !negative && overflows (whole ++ fraction) (exponent - fraction.length) then none
      else return (.float, rest)
    else none

/-! ### Dates and times -/

/-- A number of two digits between two bounds. -/
def readTwoDigits (low high : Nat) : Reader Nat
  | a :: b :: rest =>
    let v := decimal [a, b]
    if a.isDigit && b.isDigit && low ≤ v && v ≤ high then some (v, rest) else none
  | _ => none

def daysInMonth (year month : Nat) : Nat :=
  if month = 2 then
    if year % 4 = 0 ∧ (year % 100 ≠ 0 ∨ year % 400 = 0) then 29 else 28
  else if month = 4 ∨ month = 6 ∨ month = 9 ∨ month = 11 then 30
  else 31

/-- Skip a character that has to stand at the front. -/
def expect (c : Char) : List Char → Option (List Char)
  | d :: rest => if c = d then some rest else none
  | [] => none

def skipDate? : List Char → Option (List Char)
  | a :: b :: c :: d :: '-' :: rest => do
    guard ([a, b, c, d].all Char.isDigit)
    let (month, rest) ← readTwoDigits 1 12 rest
    let rest ← expect '-' rest
    let (_, rest) ← readTwoDigits 1 (daysInMonth (decimal [a, b, c, d]) month) rest
    return rest
  | _ => none

/-- Skip a fraction of a second, if there is one. -/
def skipSecondFraction : List Char → List Char
  | '.' :: c :: rest => if c.isDigit then rest.dropWhile Char.isDigit else '.' :: c :: rest
  | s => s

def skipTime? (s : List Char) : Option (List Char) := do
  let (_, s) ← readTwoDigits 0 23 s
  let s ← expect ':' s
  let (_, s) ← readTwoDigits 0 59 s
  let s ← expect ':' s
  let (_, s) ← readTwoDigits 0 60 s
  return skipSecondFraction s

/-- Skip an offset from universal time, if there is one. -/
def skipOffset? : List Char → Option (List Char)
  | 'Z' :: rest | 'z' :: rest => some rest
  | '+' :: rest | '-' :: rest => do
    let (_, rest) ← readTwoDigits 0 23 rest
    let rest ← expect ':' rest
    let (_, rest) ← readTwoDigits 0 59 rest
    return rest
  | s => some s

/-- Skip the time that may follow a date. -/
def skipTimeOfDate? (s : List Char) : Option (List Char) :=
  match s with
  | 'T' :: rest | 't' :: rest | ' ' :: rest =>
    match skipTime? rest with
    | some rest => skipOffset? rest
    | none => some s
  | s => some s

/-- A date, a time, or both. -/
def readDateTime : Reader Value := fun s =>
  match skipDate? s with
  | some rest => (skipTimeOfDate? rest).map fun rest => (.dateTime, rest)
  | none => (skipTime? s).map fun rest => (.dateTime, rest)

/-- A number, a date or a time. -/
def readNumber : Reader Value := fun s =>
  readDateTime s <|> readFloat s <|> readInteger s

def readBoolean : Reader Value
  | 't' :: 'r' :: 'u' :: 'e' :: rest => some (.boolean true, rest)
  | 'f' :: 'a' :: 'l' :: 's' :: 'e' :: rest => some (.boolean false, rest)
  | _ => none

end GridGame.Toml
