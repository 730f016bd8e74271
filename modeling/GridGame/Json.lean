import GridGame.Json.Token

/-!
# JSON values

A JSON value is read from its tokens one at a time. The containers that have been opened and not
yet closed wait in a list, so values may nest to any depth. A value is written back as tokens
without blanks.
-/

namespace GridGame

/-- A JSON value. Objects keep their members in the order written, repeated names included. -/
inductive Json where
  | null
  | bool (value : Bool)
  /-- A number, with its value when it is written as an integer. -/
  | number (value : Option Int)
  /-- A string, with its text when it spells one. -/
  | string (text : Option String)
  | array (items : List Json)
  | object (members : List (Option String × Json))

namespace Json

/-! ### Reading -/

/-- A container that has been opened, with its finished contents, latest first. An object is
waiting for the value of the member `name`. -/
inductive Frame where
  | array (items : List Json)
  | object (members : List (Option String × Json)) (name : Option String)

/-- What has been read, and what may come next. -/
inductive ReadState where
  /-- A value has to follow. -/
  | value (frames : List Frame)
  /-- An array was just opened: a value or the end of the array has to follow. -/
  | arrayStart (frames : List Frame)
  /-- An object was just opened: a name or the end of the object has to follow. -/
  | objectStart (frames : List Frame)
  /-- A name has to follow in an object with these members, latest first. -/
  | name (members : List (Option String × Json)) (frames : List Frame)
  /-- The colon after a name has to follow. -/
  | colon (members : List (Option String × Json)) (name : Option String) (frames : List Frame)
  /-- A value is complete: a comma or the end of the innermost container has to follow. -/
  | complete (value : Json) (frames : List Frame)

/-- Read the first token of a value. -/
def readValue (frames : List Frame) : Token → Option ReadState
  | .null => some (.complete .null frames)
  | .bool b => some (.complete (.bool b) frames)
  | .number v => some (.complete (.number v) frames)
  | .string s => some (.complete (.string s) frames)
  | .bracketOpen => some (.arrayStart frames)
  | .braceOpen => some (.objectStart frames)
  | _ => none

def readToken : ReadState → Token → Option ReadState
  | .value frames, token => readValue frames token
  | .arrayStart frames, .bracketClose => some (.complete (.array []) frames)
  | .arrayStart frames, token => readValue (.array [] :: frames) token
  | .objectStart frames, .braceClose => some (.complete (.object []) frames)
  | .objectStart frames, .string name => some (.colon [] name frames)
  | .name members frames, .string name => some (.colon members name frames)
  | .colon members name frames, .colon => some (.value (.object members name :: frames))
  | .complete v (.array items :: frames), .comma => some (.value (.array (v :: items) :: frames))
  | .complete v (.array items :: frames), .bracketClose =>
    some (.complete (.array (v :: items).reverse) frames)
  | .complete v (.object members name :: frames), .comma =>
    some (.name ((name, v) :: members) frames)
  | .complete v (.object members name :: frames), .braceClose =>
    some (.complete (.object ((name, v) :: members).reverse) frames)
  | _, _ => none

def ofTokens? (tokens : List Token) : Option Json :=
  match tokens.foldlM readToken (.value []) with
  | some (.complete v []) => some v
  | _ => none

def parse? (text : String) : Option Json := (lex text.toList).bind ofTokens?

/-! ### Writing -/

mutual

def tokens : Json → List Token
  | .null => [.null]
  | .bool b => [.bool b]
  | .number v => [.number v]
  | .string s => [.string s]
  | .array [] => [.bracketOpen, .bracketClose]
  | .array (item :: items) => .bracketOpen :: tokens item ++ itemTokens items
  | .object [] => [.braceOpen, .braceClose]
  | .object ((name, v) :: members) =>
    .braceOpen :: .string name :: .colon :: tokens v ++ memberTokens members

/-- The tokens of the further items of an array and of its end. -/
def itemTokens : List Json → List Token
  | [] => [.bracketClose]
  | item :: items => .comma :: tokens item ++ itemTokens items

/-- The tokens of the further members of an object and of its end. -/
def memberTokens : List (Option String × Json) → List Token
  | [] => [.braceClose]
  | (name, v) :: members => .comma :: .string name :: .colon :: tokens v ++ memberTokens members

end

/-- A hexadecimal digit, in lower case. -/
def hexChar (n : Nat) : Char := if n < 10 then Char.ofNat (48 + n) else Char.ofNat (87 + n)

/-- A character inside a written string. -/
def writtenChar (c : Char) : List Char :=
  match c with
  | '"' => ['\\', '"']
  | '\\' => ['\\', '\\']
  | '\x08' => ['\\', 'b']
  | '\x0c' => ['\\', 'f']
  | '\n' => ['\\', 'n']
  | '\r' => ['\\', 'r']
  | '\t' => ['\\', 't']
  | c =>
    if c.toNat < 0x20 then
      ['\\', 'u', '0', '0', hexChar (c.toNat / 16), hexChar (c.toNat % 16)]
    else [c]

/-- The spelling of a token. Numbers and strings that name nothing get the shortest spelling of
that sort. -/
def Token.spelling : Token → List Char
  | .braceOpen => ['\x7b']
  | .braceClose => ['\x7d']
  | .bracketOpen => ['[']
  | .bracketClose => [']']
  | .colon => [':']
  | .comma => [',']
  | .null => "null".toList
  | .bool true => "true".toList
  | .bool false => "false".toList
  | .number none => "-0".toList
  | .number (some v) => v.repr.toList
  | .string none => "\"\\ud800\"".toList
  | .string (some s) => '"' :: s.toList.flatMap writtenChar ++ ['"']

/-- A value as a text without blanks. -/
def render (v : Json) : String := String.ofList (v.tokens.flatMap Token.spelling)

end Json

end GridGame
