import GridGame.Setup
import GridGame.Tree

/-!
# Declarations

Boards and pieces are declared by assignments, anywhere in a program. They are collected into the
setup in program order before any code is written. Only a board that is declared directly in the
setup section is one to place pieces on.
-/

namespace GridGame

/-! ### Properties of pieces -/

/-- A property in the declaration of a piece: whose it is, what it is called, and the node of its
value. -/
structure Property where
  piece : String
  name : String
  value : Nat

namespace Property

variable (t : Tree) (p : Property)

/-- The error that a node of the property is at fault. -/
def faultAt (n : Nat) (fault : PropertyFault) : SetupError :=
  .invalidProperty p.piece p.name fault (t.span n)

/-- The error that the value of the property is at fault. -/
def fault (fault : PropertyFault) : SetupError := p.faultAt t p.value fault

def text : Except SetupError String :=
  if t.kind p.value = .string then
    match t.text? p.value with
    | some s => .ok s
    | none => .error (p.fault t .stringWithoutText)
  else .error (p.fault t (.expectedString (t.kind p.value)))

/-- The number that an integer in the range of 32 bits stands for. -/
def natural? (v : Int64) : Option UInt32 :=
  if 0 ≤ v.toInt ∧ v.toInt < 4294967296 then some (UInt32.ofNat v.toInt.toNat) else none

def count : Except SetupError UInt32 :=
  match t.payload p.value with
  | .integer v =>
    match natural? v with
    | some n => .ok n
    | none => .error (p.fault t (.invalidCount v))
  | _ => .error (p.fault t (.expectedInteger (t.kind p.value)))

def flag : Except SetupError Bool :=
  match t.payload p.value with
  | .boolean b => .ok b
  | _ => .error (p.fault t (.expectedBoolean (t.kind p.value)))

def coordinate (item i : Nat) : Except SetupError Int64 :=
  match (t.child? item i).map t.payload with
  | some (.integer v) => .ok v
  | _ => .error (p.faultAt t item .expectedIntegers)

def pair (item : Nat) : Except SetupError (Int64 × Int64) := do
  if t.kind item = .pair then
    return (← p.coordinate t item 0, ← p.coordinate t item 1)
  else
    throw (p.faultAt t item (.expectedPair (t.kind item)))

/-- The nodes of the pairs in a list of pairs; a single pair is a list of one. -/
def pairNodes : Except SetupError (List Nat) :=
  match t.kind p.value with
  | .list => .ok (t.children p.value)
  | .pair => .ok [p.value]
  | found => .error (p.fault t (.expectedPairs found))

/-- The pairs of integers in a list of pairs, with their nodes. -/
def pairs : Except SetupError (List (Nat × Int64 × Int64)) := do
  (← p.pairNodes t).mapM fun item => do return (item, ← p.pair t item)

/-- A square, counted from 1. -/
def position (item : Nat) (x y : Int64) : Except SetupError Position :=
  match natural? x, natural? y with
  | some a, some b =>
    if 0 < a ∧ 0 < b then .ok ⟨a, b⟩ else .error (p.faultAt t item (.invalidPosition x y))
  | _, _ => .error (p.faultAt t item (.invalidPosition x y))

def positions : Except SetupError (List Position) := do
  (← p.pairs t).mapM fun (item, x, y) => p.position t item x y

def offsets : Except SetupError (List Offset) := do
  return (← p.pairs t).map fun (_, dx, dy) => ⟨dx, dy⟩

/-- The piece with the property set. -/
def setOn (piece : Piece) : Except SetupError Piece := do
  match p.name with
  | "name" => return { piece with label := some (← p.text t) }
  | "limit" => return { piece with limit := ← p.count t }
  | "capture" => return { piece with capture := ← p.flag t }
  | "placeable" => return { piece with placeable := ← p.flag t }
  | "can_jump" => return { piece with canJump := ← p.flag t }
  | "start" => return { piece with starts := ← p.positions t }
  | "moves" => return { piece with moves := some (← p.offsets t) }
  | _ => throw (p.fault t .unknownProperty)

end Property

/-! ### Declarations -/

/-- Something that an assignment declares. -/
inductive Declaration where
  /-- A board to place pieces on. -/
  | board (name : String) (width height : UInt32)
  /-- A board that lies outside the setup section. -/
  | innerBoard (name : String) (width height : UInt32)
  /-- A piece with the nodes of its properties. -/
  | piece (name : String) (table : List (Nat × Nat))

namespace Tree

variable (t : Tree)

/-- What a value declares for a name that is assigned by the node `n`. -/
def declarationOf? (n : Nat) (name : String) (value : Nat) : Option Declaration :=
  match t.kind value, t.payload value with
  | .board, .dimensions w h =>
    some (if t.parent? n = some t.root then .board name w h else .innerBoard name w h)
  | .piece, .properties table => some (.piece name table)
  | .piece, _ => some (.piece name [])
  | _, _ => none

def declaration? (n : Nat) : Option Declaration := do
  guard (t.kind n = .assign)
  let target ← t.child? n 0
  let value ← t.child? n 1
  let name ← t.identName? target
  t.declarationOf? n name value

/-- All that a program declares, in program order. -/
def declarations : List Declaration := t.preorder.filterMap t.declaration?

/-- The template of a declared piece. Later properties of one name win. -/
def pieceTemplate (defaults : PieceDefaults) (name : String) (table : List (Nat × Nat)) :
    Except SetupError Piece :=
  table.foldlM
    (fun piece (key, value) =>
      Property.setOn t ⟨name, (t.identName? key).getD "", value⟩ piece)
    (Piece.template name defaults)

end Tree

namespace Setup

/-- Take up one declaration. -/
def declare (t : Tree) (s : Setup) : Declaration → Except SetupError (Notice × Setup)
  | .board name width height => s.initBoard name width height
  | .innerBoard name width height => do
    checkDimensions name width height
    return (.boardOutsideSetup name, s)
  | .piece name table => do
    let template ← t.pieceTemplate s.defaults name table
    s.register template

/-- Take up all that a program declares. -/
def collect (t : Tree) (s : Setup) : Progress Setup SetupError :=
  (Progress.steps (declare t) s t.declarations).andThen fun s =>
    ⟨s, [.collected s.catalog.size (s.board.map Board.name)], none⟩

end Setup

end GridGame
