import GridGame.Lowering

/-!
# Compilations

Compiling a program collects its declarations, lowers its statements, places its pieces and writes
both sections between the opening and closing lines.
-/

namespace GridGame

open Code

/-- What writing the code of a node came to: the outline it left behind, its notices, the text
that was written, and why it stopped early. -/
structure Emission where
  outline : Outline
  notices : List Notice
  written : String
  failure : Option LowerError

namespace Emission

/-- The emission of code that leaves the outline alone. -/
def ofLowering (o : Outline) (x : Lowering String) : Emission :=
  match x.outcome with
  | .ok text => ⟨o, x.notices, text, none⟩
  | .error f => ⟨o, x.notices, f.written, some f.error⟩

/-- The text of an emission that was not stopped. -/
def toReported (e : Emission) : Reported LowerError String :=
  ⟨e.notices, match e.failure with
    | some error => .error error
    | none => .ok e.written⟩

end Emission

namespace Outline

/-- The outline with statements appended to its sections. -/
def append (o : Outline) (s : Sections) : Outline :=
  (o.appendSetup (Statement.renderAll s.setup)).appendGame (Statement.renderAll s.game)

/-- Place all pieces and write both sections after the opening lines. -/
def emit (o : Outline) : Emission :=
  let p := o.placeAll
  match p.failure with
  | some error => ⟨p.state, p.notices, opening, some (.setup error)⟩
  | none => ⟨p.state, p.notices, opening ++ renderOutline p.state ++ closing, none⟩

end Outline

namespace Tree

variable (t : Tree)

/-- Write the program of a start node. Its statements go to the sections of the outline. -/
def emitProgram (o : Outline) (n : Nat) : Emission :=
  let lowered := t.lowerSections o.setup.defaults n
  let notices := .lowering t.size :: lowered.notices
  match lowered.outcome with
  | .error f => ⟨o, notices, opening, some f.error⟩
  | .ok sections =>
    let e := (o.append sections).emit
    { e with notices := notices ++ e.notices }

/-- Write the code of any node. -/
def emit (o : Outline) (n : Nat) : Emission :=
  let defaults := o.setup.defaults
  match t.kind n with
  | .start => t.emitProgram o n
  | .game => .ofLowering o do return Statement.renderAll (← t.lowerGame defaults n)
  | .assign | .output | .place =>
    .ofLowering o do return Statement.render (← t.lowerStatement defaults n)
  | .board => .ofLowering o (pure "")
  | _ => .ofLowering o do return Expr.render (← t.lowerExpr n)

def program (o : Outline) : Reported LowerError String := do
  let text ← (t.emit o t.root).toReported
  Reported.tell (.generated text.utf8ByteSize)
  return text

/-- The outline that holds what a tree declares. -/
def outline (settings : Settings) : Reported LowerError Outline :=
  ((Outline.new settings).collect t).toReported.mapError .setup

def generate (settings : Settings) : Reported LowerError String := do
  t.program (← t.outline settings)

end Tree

/-- The generated code of a program, with the board and the number of pieces of the game. -/
structure Compilation where
  program : String
  board : Option BoardSummary
  pieces : Nat
deriving DecidableEq

def Board.summary (b : Board) : BoardSummary := ⟨b.name, b.width, b.height⟩

def Tree.compile (t : Tree) (settings : Settings) : Reported LowerError Compilation := do
  let o ← t.outline settings
  let board := o.setup.board.map Board.summary
  let pieces := o.setup.catalog.size
  Reported.tell (.summarized pieces board)
  let program ← t.program o
  return ⟨program, board, pieces⟩

end GridGame
