import GridGame.Board
import GridGame.Kind
import GridGame.Progress

/-!
# Setups

The setup of a game is its board and its catalog of pieces, each declared piece with a copy for
either player. Placing all pieces puts every copy on the squares that its piece starts on, where
the second player counts rows from the top.

A single step on a setup is refused as a whole or done as a whole. Placing all pieces is a list of
such steps; when one is refused, the pieces placed before it stay on the board.
-/

namespace GridGame

/-- What is wrong with the value of a property. -/
inductive PropertyFault where
  | stringWithoutText
  | expectedString (found : Kind)
  | invalidCount (value : Int64)
  | expectedInteger (found : Kind)
  | expectedBoolean (found : Kind)
  | expectedPairs (found : Kind)
  | expectedPair (found : Kind)
  | expectedIntegers
  | invalidPosition (x y : Int64)
  | unknownProperty
deriving DecidableEq

namespace PropertyFault

def knownProperties : List String :=
  ["name", "limit", "capture", "placeable", "can_jump", "start", "moves"]

def message : PropertyFault → String
  | .stringWithoutText => "string literal without text"
  | .expectedString found => s!"expected a string literal, found {found.label}"
  | .invalidCount value => s!"{value.toInt} is not a valid count"
  | .expectedInteger found => s!"expected an integer literal, found {found.label}"
  | .expectedBoolean found => s!"expected a boolean literal, found {found.label}"
  | .expectedPairs found => s!"expected a list of pairs, found {found.label}"
  | .expectedPair found => s!"expected a pair, found {found.label}"
  | .expectedIntegers => "expected a pair of integers"
  | .invalidPosition x y => s!"({x.toInt}, {y.toInt}) is not a 1-indexed position"
  | .unknownProperty =>
    "unknown property, expected one of " ++ String.intercalate ", " knownProperties

end PropertyFault

/-- Why a step on a setup is refused. -/
inductive SetupError where
  | boardNotInitialized (piece : String)
  | placementOutOfBounds (piece : String) (owner : Owner) (position : Position)
      (width height : UInt32)
  | invalidDimensions (name : String) (width height : UInt32)
  | duplicatePiece (piece : String)
  | invalidProperty (piece property : String) (fault : PropertyFault) (span : Span)
deriving DecidableEq

def SetupError.message : SetupError → String
  | .boardNotInitialized piece =>
    s!"piece `{piece}` has start positions but the setup section declares no board"
  | .placementOutOfBounds piece owner position width height =>
    s!"{owner.label} piece `{piece}` starts at {position.text}, " ++
      s!"outside the {width.toNat}x{height.toNat} board"
  | .invalidDimensions name width height =>
    s!"board `{name}` has invalid dimensions {width.toNat}x{height.toNat}"
  | .duplicatePiece piece => s!"piece `{piece}` is defined more than once"
  | .invalidProperty piece property fault span =>
    s!"property `{property}` of piece `{piece}` at {span.text}: {fault.message}"

/-! ### Catalogs -/

/-- The declared pieces, and either player's copies of them, in the order of declaration. A piece is
listed under the name that it has itself: there is no key beside it that could be another. -/
structure Catalog where
  templates : List Piece
  playerOne : List Piece
  playerTwo : List Piece
deriving DecidableEq

namespace Catalog

def empty : Catalog := ⟨[], [], []⟩

/-- The pieces of an owner, in the order of declaration. -/
def pieces (c : Catalog) : Owner → List Piece
  | .template => c.templates
  | .playerOne => c.playerOne
  | .playerTwo => c.playerTwo

def piece? (c : Catalog) (owner : Owner) (name : String) : Option Piece :=
  (c.pieces owner).find? fun p => p.name == name

/-- The number of declared pieces. -/
def size (c : Catalog) : Nat := c.templates.length

/-- Add a piece and a copy of it for either player. Every name is declared once. -/
def register (c : Catalog) (template : Piece) : Except SetupError Catalog :=
  if (c.piece? .template template.name).isSome then
    .error (.duplicatePiece template.name)
  else
    .ok
      { templates := c.templates ++ [template]
        playerOne := c.playerOne ++ [template.copyFor .playerOne]
        playerTwo := c.playerTwo ++ [template.copyFor .playerTwo] }

/-- The pieces after a change of those with a given name. -/
def updateNamed (name : String) (f : Piece → Piece) (pieces : List Piece) : List Piece :=
  pieces.map fun p => if p.name == name then f p else p

def countPlacement (c : Catalog) (owner : Owner) (name : String) : Catalog :=
  match owner with
  | .template => { c with templates := updateNamed name Piece.countPlacement c.templates }
  | .playerOne => { c with playerOne := updateNamed name Piece.countPlacement c.playerOne }
  | .playerTwo => { c with playerTwo := updateNamed name Piece.countPlacement c.playerTwo }

end Catalog

/-! ### Setups -/

structure Setup where
  catalog : Catalog
  board : Option Board
  /-- What pieces are like unless declared otherwise. -/
  defaults : PieceDefaults
  /-- Whether all pieces have been placed on the squares they start on. -/
  placed : Bool
  /-- The code of the setup statements. -/
  body : String

namespace Setup

/-- The setup in which nothing is declared. -/
def new (defaults : PieceDefaults) : Setup := ⟨.empty, none, defaults, false, ""⟩

/-- A board has at least one square. -/
def checkDimensions (name : String) (width height : UInt32) : Except SetupError Unit :=
  if width = 0 ∨ height = 0 then .error (.invalidDimensions name width height) else .ok ()

/-- Declare a board. The first one declared is the board of the game. -/
def initBoard (s : Setup) (name : String) (width height : UInt32) :
    Except SetupError (Notice × Setup) := do
  checkDimensions name width height
  match s.board with
  | some board => return (.boardIgnored name board.name, s)
  | none =>
    return (.boardChosen name width height, { s with board := some (.blank name width height) })

def register (s : Setup) (template : Piece) : Except SetupError (Notice × Setup) := do
  let catalog ← s.catalog.register template
  return (.registered template.name template.starts.length, { s with catalog := catalog })

/-- Put an owner's piece on a square, counted from 0, and count the placement. -/
def place (s : Setup) (owner : Owner) (piece : String) (x y : UInt32) :
    Except SetupError (Notice × Setup) :=
  match s.board with
  | none => .error (.boardNotInitialized piece)
  | some board =>
    match board.set? x y ⟨owner, piece⟩ with
    | none =>
      .error (.placementOutOfBounds piece owner ⟨x + 1, y + 1⟩ board.width board.height)
    | some board =>
      .ok (.placed owner piece x y,
        { s with board := some board, catalog := s.catalog.countPlacement owner piece })

/-! ### Placing all pieces -/

/-- A square that a piece of an owner starts on. -/
structure Start where
  owner : Owner
  piece : String
  position : Position
deriving DecidableEq

def startsOf (s : Setup) (owner : Owner) : List Start :=
  (s.catalog.pieces owner).flatMap fun p => p.starts.map fun position => ⟨owner, p.name, position⟩

/-- All squares that pieces start on, in the order of placement. -/
def starts (s : Setup) : List Start := Owner.players.flatMap s.startsOf

/-- The column and row of a start, counted from 0 and from the bottom. -/
def square (s : Setup) (start : Start) : Except SetupError (UInt32 × UInt32) :=
  match s.board with
  | none => .error (.boardNotInitialized start.piece)
  | some board =>
    let p := start.position
    if 1 ≤ p.x ∧ p.x ≤ board.width ∧ 1 ≤ p.y ∧ p.y ≤ board.height then
      .ok (p.x - 1, if start.owner = .playerTwo then board.height - p.y else p.y - 1)
    else
      .error (.placementOutOfBounds start.piece start.owner p board.width board.height)

def placeStart (s : Setup) (start : Start) : Except SetupError (Notice × Setup) := do
  let (x, y) ← s.square start
  s.place start.owner start.piece x y

/-- Put every piece on the squares that it starts on, once. -/
def placeAll (s : Setup) : Progress Setup SetupError :=
  if s.placed then .finished s
  else (Progress.steps placeStart s s.starts).andThen fun s => .finished { s with placed := true }

end Setup

end GridGame
