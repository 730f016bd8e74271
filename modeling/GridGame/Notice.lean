import GridGame.Piece
import GridGame.Span
import GridGame.Text.Quoted

/-!
# Notices

Compiling reports what it does as it goes. A notice says which part of the work it comes from,
how much it matters, and in what words it is told. A `Reported` result keeps the notices of a
computation in order, also of one that fails.
-/

namespace GridGame

/-- The part of the work a notice comes from. -/
inductive Stage where
  | scope
  | catalog
  | setup
  | declarations
  | lowering
  | program
  | project
deriving DecidableEq, Inhabited

/-- How much a notice matters. -/
inductive Level where
  | trace
  | debug
  | info
  | warn
deriving DecidableEq, Inhabited

/-- The name, width and height of the board that pieces are placed on. -/
structure BoardSummary where
  name : String
  width : UInt32
  height : UInt32
deriving DecidableEq, Inhabited

/-- Something worth telling about a compilation. -/
inductive Notice where
  /-- A name that is used at a node and its `site` refers to an assignment, which is described. -/
  | bound (name : String) (node : Nat) (site : Span) (assignment : Nat) (description : String)
  | registered (piece : String) (starts : Nat)
  | boardIgnored (name existing : String)
  | boardChosen (name : String) (width height : UInt32)
  | placed (owner : Owner) (piece : String) (x y : UInt32)
  | boardOutsideSetup (name : String)
  | collected (pieces : Nat) (board : Option String)
  | lowering (nodes : Nat)
  | output (argument : String)
  | declaring (name value : String)
  | reassigning (name value : String)
  | boardKept (name : String) (site : Span)
  | placing (piece board : String)
  | generated (bytes : Nat)
  | summarized (pieces : Nat) (board : Option BoardSummary)
  | compiling (path : String)
  | settingsAbsent (input : String)
  | settingsLoaded (path : String)
deriving DecidableEq

namespace Notice

def stage : Notice → Stage
  | .bound .. => .scope
  | .registered .. => .catalog
  | .boardIgnored .. | .boardChosen .. | .placed .. => .setup
  | .boardOutsideSetup .. | .collected .. => .declarations
  | .lowering .. | .output .. | .declaring .. | .reassigning .. | .boardKept .. | .placing .. =>
    .lowering
  | .generated .. => .program
  | .summarized .. | .compiling .. | .settingsAbsent .. | .settingsLoaded .. => .project

def level : Notice → Level
  | .bound .. | .output .. | .declaring .. | .reassigning .. | .placing .. => .trace
  | .boardIgnored .. | .boardKept .. => .warn
  | .compiling .. => .info
  | _ => .debug

def summaryText : Option BoardSummary → String
  | none => "None"
  | some b =>
    "Some(BoardSummary \x7b name: " ++ Text.quoted b.name ++
      s!", width: {b.width.toNat}, height: {b.height.toNat} \x7d)"

def message : Notice → String
  | .bound name _ site _ description => s!"`{name}` used at {site.text} bound by {description}"
  | .registered piece starts =>
    s!"registered piece `{piece}` with {starts} start positions per player"
  | .boardIgnored name existing =>
    s!"board `{name}` ignored for placement, `{existing}` is already the game board"
  | .boardChosen name width height => s!"game board `{name}` is {width.toNat}x{height.toNat}"
  | .placed owner piece x y => s!"placed {owner.label} `{piece}` at ({x.toNat}, {y.toNat})"
  | .boardOutsideSetup name =>
    s!"board `{name}` is declared in the game section and is not used for placement"
  | .collected pieces board => s!"collected {pieces} piece templates, board: " ++ board.getD "none"
  | .lowering nodes => s!"lowering program with {nodes} nodes"
  | .output argument => s!"output of {argument}"
  | .declaring name value => s!"declaring `{name}` as {value}"
  | .reassigning name value => s!"re-assigning `{name}` to {value}"
  | .boardKept name site =>
    s!"board `{name}` re-assigned at {site.text}; keeping the original board"
  | .placing piece board => s!"placing `{piece}` on `{board}`"
  | .generated bytes => s!"generated {bytes} bytes of C"
  | .summarized pieces board =>
    s!"collected {pieces} piece definitions, board " ++ summaryText board
  | .compiling path => s!"compiling {path}"
  | .settingsAbsent input => s!"no griddy.toml next to {input}, using defaults"
  | .settingsLoaded path => s!"loaded settings from {path}"

end Notice

/-! ### Computations that report -/

/-- The outcome of a computation together with the notices it gave on the way. -/
structure Reported (ε α : Type) where
  notices : List Notice
  outcome : Except ε α

namespace Reported

variable {ε ε' α β : Type}

def ok (a : α) : Reported ε α := ⟨[], .ok a⟩

def fail (e : ε) : Reported ε α := ⟨[], .error e⟩

/-- A result without notices, or a failure. -/
def of (outcome : Except ε α) : Reported ε α := ⟨[], outcome⟩

/-- A notice and nothing else. -/
def tell (n : Notice) : Reported ε Unit := ⟨[n], .ok ()⟩

/-- Go on with a result. The notices of what follows come after those given so far. -/
def bind (x : Reported ε α) (f : α → Reported ε β) : Reported ε β :=
  match x.outcome with
  | .error e => ⟨x.notices, .error e⟩
  | .ok a =>
    let y := f a
    ⟨x.notices ++ y.notices, y.outcome⟩

instance : Monad (Reported ε) where
  pure := ok
  bind := bind

/-- The same computation with its failure put in other terms. -/
def mapError (f : ε → ε') (x : Reported ε α) : Reported ε' α := ⟨x.notices, x.outcome.mapError f⟩

@[simp] theorem outcome_pure (a : α) : (pure a : Reported ε α).outcome = .ok a := rfl

/-- Notices have no influence on outcomes. -/
@[simp] theorem outcome_bind (x : Reported ε α) (f : α → Reported ε β) :
    (x >>= f).outcome = x.outcome >>= fun a => (f a).outcome := by
  show (bind x f).outcome = _
  unfold bind
  cases x.outcome <;> rfl

@[simp] theorem outcome_mapError (f : ε → ε') (x : Reported ε α) :
    (x.mapError f).outcome = x.outcome.mapError f := rfl

end Reported

end GridGame
