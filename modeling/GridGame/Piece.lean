/-!
# Pieces

A piece is declared once, as a template, and each of the two players gets a copy of it. Copies
differ from their template in their owner, and in the count of placements made for that owner.
-/

namespace GridGame

/-- Whose a piece is. -/
inductive Owner where
  | template
  | playerOne
  | playerTwo
deriving DecidableEq, Inhabited

namespace Owner

def label : Owner → String
  | .template => "template"
  | .playerOne => "player 1"
  | .playerTwo => "player 2"

/-- What a copy's variable name has after the name of the piece. -/
def suffix : Owner → String
  | .template => ""
  | .playerOne => "_p1"
  | .playerTwo => "_p2"

/-- The owners that place pieces, in the order in which they do. -/
def players : List Owner := [.playerOne, .playerTwo]

end Owner

/-- A square as programs write it: column and row count from 1, and the row from the owner's own
side of the board. -/
structure Position where
  x : UInt32
  y : UInt32
deriving DecidableEq, Inhabited

/-- The written form `(x, y)`. -/
def Position.text (p : Position) : String := s!"({p.x.toNat}, {p.y.toNat})"

/-- A move, as the difference of two squares. -/
structure Offset where
  dx : Int64
  dy : Int64
deriving DecidableEq, Inhabited

/-- What a piece is like where its declaration says nothing. -/
structure PieceDefaults where
  limit : UInt32 := 4294967295
  capture : Bool := false
  placeable : Bool := true
  canJump : Bool := false
deriving DecidableEq, Inhabited

/-- A piece of one owner. -/
structure Piece where
  owner : Owner
  name : String
  /-- The name shown to players, where it differs from `name`. -/
  label : Option String
  /-- How many may be placed. -/
  limit : UInt32
  capture : Bool
  placeable : Bool
  canJump : Bool
  /-- The squares it starts on. -/
  starts : List Position
  /-- How many have been placed. -/
  count : UInt32
  moves : Option (List Offset)
deriving DecidableEq

namespace Piece

/-- The template of a piece about which nothing but the name is known. -/
def template (name : String) (defaults : PieceDefaults) : Piece where
  owner := .template
  name := name
  label := none
  limit := defaults.limit
  capture := defaults.capture
  placeable := defaults.placeable
  canJump := defaults.canJump
  starts := []
  count := 0
  moves := none

/-- The copy of a piece for an owner. -/
def copyFor (p : Piece) (owner : Owner) : Piece := { p with owner := owner }

def addStart (p : Piece) (x y : UInt32) : Piece := { p with starts := p.starts ++ [⟨x, y⟩] }

/-- The piece with one more placement counted. -/
def countPlacement (p : Piece) : Piece := { p with count := p.count + 1 }

/-- The name shown to players. -/
def displayName (p : Piece) : String := p.label.getD p.name

/-- The name of the variable that holds this copy. -/
def qualifiedName (p : Piece) : String := p.name ++ p.owner.suffix

/-- Whether the piece lists a square to start on or a move. -/
def listsSquares (p : Piece) : Bool :=
  !p.starts.isEmpty || p.moves.any fun moves => !moves.isEmpty

end Piece

end GridGame
