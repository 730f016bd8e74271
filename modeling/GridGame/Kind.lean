/-!
# Kinds of nodes

The closed set of constructs a program tree is made of. Every kind has a `label`, by which
messages name it, and a `tag`, by which tree documents name it.
-/

namespace GridGame

/-- The construct a node stands for. -/
inductive Kind where
  | start
  | output
  | game
  | board
  | assign
  | expr
  | empty
  | operator
  | string
  | ident
  | integer
  | boolean
  | access
  | place
  | piece
  | pair
  | list
  | unrefined
deriving DecidableEq, Inhabited

namespace Kind

/-- Every kind, in the order of their introduction. -/
def all : List Kind :=
  [.start, .output, .game, .board, .assign, .expr, .empty, .operator, .string, .ident, .integer,
    .boolean, .access, .place, .piece, .pair, .list, .unrefined]

/-- The name of a kind in messages. -/
def label : Kind → String
  | .start => "Start"
  | .output => "Output"
  | .game => "Game"
  | .board => "Board"
  | .assign => "Assign"
  | .expr => "Expr"
  | .empty => "Empty"
  | .operator => "Operator"
  | .string => "String"
  | .ident => "Ident"
  | .integer => "Integer"
  | .boolean => "Boolean"
  | .access => "Access"
  | .place => "Place"
  | .piece => "Piece"
  | .pair => "Pair"
  | .list => "List"
  | .unrefined => "Unrefined"

/-- The name of a kind in tree documents. -/
def tag : Kind → String
  | .start => "start"
  | .output => "output"
  | .game => "game"
  | .board => "board"
  | .assign => "assign"
  | .expr => "expr"
  | .empty => "empty"
  | .operator => "operator"
  | .string => "string"
  | .ident => "ident"
  | .integer => "integer"
  | .boolean => "boolean"
  | .access => "access"
  | .place => "place"
  | .piece => "piece"
  | .pair => "pair"
  | .list => "list"
  | .unrefined => "unrefined"

def ofTag? (tag : String) : Option Kind := all.find? fun k => k.tag == tag

/-- Kinds whose values are numbers: integers, booleans and expressions. -/
def isIntegerLike : Kind → Bool
  | .integer | .boolean | .expr => true
  | _ => false

end Kind

end GridGame
