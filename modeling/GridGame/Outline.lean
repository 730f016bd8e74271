import GridGame.Code.Statement
import GridGame.Declarations
import GridGame.Settings

/-!
# Outlines of programs

A generated program has two sections: the setup, which declares the players' pieces and places
them, and the game, a loop that ends after some rounds or on a condition. Around them stand the
same opening and closing lines in every program.
-/

namespace GridGame

/-- When a game ends. -/
inductive Ending where
  /-- After the first round and so many further ones. -/
  | rounds (count : UInt32)
  /-- As soon as a condition of the generated code fails. -/
  | condition (text : String)
deriving DecidableEq

/-- The game section: what is done in every round, and when the game ends. -/
structure Loop where
  body : String
  ending : Ending

/-- The two sections of a program. -/
structure Outline where
  setup : Setup
  loop : Loop

namespace Outline

/-- The outline of a program of which nothing is known yet. -/
def new (settings : Settings) : Outline :=
  ⟨.new settings.pieces, ⟨"", .rounds settings.rounds⟩⟩

def withSetup (o : Outline) (setup : Setup) : Outline := { o with setup := setup }

def collect (t : Tree) (o : Outline) : Progress Outline SetupError :=
  (o.setup.collect t).lift o.withSetup

def placeAll (o : Outline) : Progress Outline SetupError := o.setup.placeAll.lift o.withSetup

def appendSetup (o : Outline) (code : String) : Outline :=
  { o with setup := { o.setup with body := o.setup.body ++ code } }

def appendGame (o : Outline) (code : String) : Outline :=
  { o with loop := { o.loop with body := o.loop.body ++ code } }

end Outline

/-! ### The code of the sections -/

namespace Code

/-- The line that opens the setup section. -/
def setupMarker : String := "/*    SETUP    */"

/-- The line that opens the game section. -/
def gameMarker : String := "/*    GAME    */"

def opening : String :=
  "/* === Code generated by Griddy compiler === */\n" ++
  "#include <limits.h>\n" ++
  "#include <stdio.h>\n" ++
  "#include <stdlib.h>\n" ++
  "#include <string.h>\n" ++
  "\n" ++
  "int main(int argc, char *argv[])\x7b\n" ++
  "struct Piece \x7b char* name; unsigned int limit; unsigned int count; int capture; " ++
    "int placeable; int can_jump; \x7d;\n" ++
  "struct Piece empty_piece;\n" ++
  "empty_piece.name = calloc(2, sizeof(char));\n" ++
  "strcpy(empty_piece.name, \" \");\n" ++
  "empty_piece.limit = 0;\n" ++
  "empty_piece.count = 0;\n" ++
  "empty_piece.capture = 0;\n" ++
  "empty_piece.placeable = 0;\n" ++
  "empty_piece.can_jump = 0;\n" ++
  "\n"

def closing : String := "\nreturn 0;\n\x7d\n"

def renderCopy (p : Piece) : String := renderPiece p.qualifiedName (copyFields p)

def renderCopies (c : Catalog) : String :=
  String.join ((Owner.players.flatMap c.pieces).map renderCopy)

/-- The statement that puts an occupant on a square of a board. -/
def renderOccupant (board : String) (x y : Nat) (occupant : Occupant) : String :=
  s!"{board}[{y}][{x}] = &{occupant.piece}{occupant.owner.suffix};\n"

def renderOccupants (board : Board) : String :=
  String.join (board.occupied.map fun (x, y, occupant) => renderOccupant board.name x y occupant)

def renderSetup (s : Setup) : String :=
  setupMarker ++ "\n" ++ s.body ++ renderCopies s.catalog ++
    match s.board with
    | some board => renderOccupants board
    | none => ""

def renderLoop (loop : Loop) : String :=
  match loop.ending with
  | .rounds count =>
    gameMarker ++ s!"\nint griddy_round = {count.toNat};\ndo \x7b\n" ++ loop.body ++
      "\x7d while (0 < griddy_round--);\n"
  | .condition text => gameMarker ++ "\ndo \x7b\n" ++ loop.body ++ s!"\x7d while ({text});\n"

def renderOutline (o : Outline) : String := renderSetup o.setup ++ renderLoop o.loop

end Code

end GridGame
