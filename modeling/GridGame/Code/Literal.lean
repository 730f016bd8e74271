/-!
# String literals

How a text is written as a string literal of the generated code, and the statements that give a
variable a copy of it. A buffer has room for the bytes of the text and the closing zero.
-/

namespace GridGame.Code

def literalChar (c : Char) : List Char :=
  match c with
  | '"' => ['\\', '"']
  | '\\' => ['\\', '\\']
  | '\n' => ['\\', 'n']
  | '\t' => ['\\', 't']
  | '\r' => ['\\', 'r']
  | c => [c]

/-- A text as a string literal. -/
def literal (s : String) : String :=
  String.ofList ('"' :: s.toList.flatMap literalChar ++ ['"'])

def bufferSize (s : String) : Nat := s.utf8ByteSize + 1

/-- Give a variable a fresh copy of a text. -/
def copyText (target text : String) : String :=
  s!"{target} = calloc({bufferSize text}, sizeof(char));\nstrcpy({target}, {literal text});\n"

/-- Replace the text of a variable. -/
def recopyText (target text : String) : String :=
  s!"{target} = realloc({target}, {bufferSize text});\nstrcpy({target}, {literal text});\n"

def flagText (on : Bool) : String := if on then "1" else "0"

/-- A limit; the largest one means that there is none. -/
def limitText (limit : UInt32) : String :=
  if limit = 4294967295 then "UINT_MAX" else s!"{limit.toNat}"

end GridGame.Code
