import GridGame.Outline
import GridGame.Scope

/-!
# Lowering

Statements of a program tree become statements of the generated code. Nothing is remembered from
one statement to the next: what a name holds is found by looking back from the place of its use,
and an assignment declares its name exactly when the name is not yet visible.

A failure keeps the text that had been written when it arose.
-/

namespace GridGame

open Code

/-! ### Errors -/

/-- What is being lowered. -/
inductive Context where
  | statement
  | output
  | declaration
  | expression
  | operand
  | pieceLiteral
  | assignment (name : String)
  | reassignment (name : String)
  | reassignmentOf (name : String) (declared : ValueType)
  | property (name piece : String)
  | cellAccess
  | cellColumn
  | cellRow
  | placement
  | placementColumn
  | placementRow
  /-- A place where only values of one type may stand. -/
  | typed (context : Context) (expected : ValueType)
deriving DecidableEq

def Context.label : Context → String
  | .statement => "statement"
  | .output => "output"
  | .declaration => "declaration"
  | .expression => "expression"
  | .operand => "expression operand"
  | .pieceLiteral => "piece literal outside an assignment"
  | .assignment name => s!"assignment to `{name}`"
  | .reassignment name => s!"re-assignment of `{name}`"
  | .reassignmentOf name declared => s!"re-assignment of `{name}`, declared as {declared.label}"
  | .property name piece => s!"property `{name}` of piece `{piece}`"
  | .cellAccess => "cell access"
  | .cellColumn => "cell column"
  | .cellRow => "cell row"
  | .placement => "placement"
  | .placementColumn => "placement column"
  | .placementRow => "placement row"
  | .typed context expected => s!"{context.label} expects {expected.label}"

/-- A part of a construct. -/
inductive Part where
  | outputArgument
  | assignmentTarget
  | assignmentValue
  | assignedValue
  | identifier
  | pieceProperty
  | cellPosition
  | accessedBoard
  | board
  | column
  | row
  | placedPiece
deriving DecidableEq

def Part.label : Part → String
  | .outputArgument => "output argument"
  | .assignmentTarget => "assignment target"
  | .assignmentValue => "assignment value"
  | .assignedValue => "assigned value"
  | .identifier => "identifier"
  | .pieceProperty => "piece property"
  | .cellPosition => "cell position"
  | .accessedBoard => "accessed board"
  | .board => "board"
  | .column => "column"
  | .row => "row"
  | .placedPiece => "placed piece"

/-- What is wrong with a node. -/
inductive Malformation where
  | missing (part : Part)
  | notIdentifier (part : Part)
  | boardWithoutDimensions
  | operatorWithoutSymbol
  | integerWithoutValue
  | booleanWithoutValue
deriving DecidableEq

def Malformation.message : Malformation → String
  | .missing part => s!"missing {part.label}"
  | .notIdentifier part => s!"{part.label} is not an identifier"
  | .boardWithoutDimensions => "board without dimensions"
  | .operatorWithoutSymbol => "operator without a symbol"
  | .integerWithoutValue => "integer without a value"
  | .booleanWithoutValue => "boolean without a value"

/-- Why a program cannot be lowered. -/
inductive LowerError where
  | resolve (error : ResolveError)
  | setup (error : SetupError)
  | unsupportedValue (context : Context) (found : Kind) (span : Span)
  | unrefined (kind : Kind) (span : Span)
  | malformed (kind : Kind) (span : Span) (malformation : Malformation)
deriving DecidableEq

def LowerError.message : LowerError → String
  | .resolve error => error.message
  | .setup error => error.message
  | .unsupportedValue context found span =>
    s!"{context.label}: cannot lower a {found.label} value at {span.text}"
  | .unrefined kind span =>
    s!"internal error: unrefined {kind.label} node at {span.text} reached code generation"
  | .malformed kind span malformation =>
    s!"malformed {kind.label} node at {span.text}: {malformation.message}"

/-- A failure to lower, with the text that had been written when it arose. -/
structure Failure where
  written : String
  error : LowerError
deriving DecidableEq

/-- Code for a part of a program, or a failure. -/
abbrev Lowering (α : Type) := Reported Failure α

namespace Lowering

variable {α β : Type}

/-- Fail before anything is written. -/
def fail (error : LowerError) : Lowering α := Reported.fail ⟨"", error⟩

/-- A step that writes nothing. -/
def ofExcept (x : Except LowerError α) : Lowering α :=
  Reported.of (x.mapError fun error => ⟨"", error⟩)

/-- A search for names. -/
def ofResolve (x : Reported ResolveError α) : Lowering α :=
  x.mapError fun error => ⟨"", .resolve error⟩

/-- Lower something after a text has been written. -/
def after (text : String) (x : Lowering α) : Lowering α :=
  x.mapError fun f => { f with written := text ++ f.written }

/-- Lower the members of a list one after the other, where `render` says what is written for
one that is done. -/
def each (render : β → String) (lower : α → Lowering β) : List α → Lowering (List β)
  | [] => pure []
  | x :: xs => do
    let y ← lower x
    let ys ← after (render y) (each render lower xs)
    return y :: ys

end Lowering

namespace Tree

variable (t : Tree)

/-! ### Parts of nodes -/

/-- The error that a value of this kind cannot stand here. -/
def unsupported (n : Nat) (context : Context) : LowerError :=
  .unsupportedValue context (t.kind n) (t.span n)

/-- The error that a construct was left open by the parser. -/
def unrefinedAt (n : Nat) : LowerError := .unrefined (t.kind n) (t.span n)

/-- The error that a node is not as it should be. -/
def malformedAt (n : Nat) (malformation : Malformation) : LowerError :=
  .malformed (t.kind n) (t.span n) malformation

/-- A child that has to be there. -/
def requiredChild (n i : Nat) (part : Part) : Lowering { c // c ∈ t.children n } :=
  match h : t.child? n i with
  | some c => pure ⟨c, mem_children_of_child? h⟩
  | none => Lowering.fail (t.malformedAt n (.missing part))

/-- The name of a node that has to be an identifier. -/
def requiredName (n : Nat) (part : Part) : Except LowerError String :=
  match t.identName? n with
  | some name => .ok name
  | none => .error (t.malformedAt n (.notIdentifier part))

def dimensions (n : Nat) : Except LowerError (UInt32 × UInt32) :=
  match t.payload n with
  | .dimensions w h => .ok (w, h)
  | _ => .error (t.malformedAt n .boardWithoutDimensions)

/-! ### Types -/

/-- What an empty value is a value of. -/
def blankType? (n : Nat) : Option Blank :=
  match t.text? n with
  | some "number" | some "boolean" => some .number
  | some "string" => some .text
  | _ => none

/-- The type of a value that is no name. -/
def classify (n : Nat) (context : Context) : Except LowerError ValueType :=
  match t.kind n with
  | .integer | .boolean | .expr => .ok .integer
  | .string => .ok .text
  | .piece | .access => .ok .piece
  | .board => .ok .board
  | .empty =>
    match t.blankType? n with
    | some .number => .ok .integer
    | some .text => .ok .text
    | none => .error (t.unsupported n context)
  | .unrefined => .error (t.unrefinedAt n)
  | _ => .error (t.unsupported n context)

/-- The type of a value, and the value itself after following names. -/
def valueType (n : Nat) (context : Context) : Lowering (ValueType × Nat) := do
  let effective ← match t.identName? n with
    | some name => Lowering.ofResolve (t.effectiveValue n name)
    | none => pure n
  let type ← Lowering.ofExcept (t.classify effective context)
  return (type, effective)

/-- Check that a value has the type that has to stand here. -/
def expectType (n : Nat) (expected : ValueType) (context : Context) : Lowering Unit := do
  let (found, _) ← t.valueType n context
  if found = expected then return ()
  else Lowering.fail (t.unsupported n (.typed context expected))

/-! ### Expressions -/

/-- Check that a node may stand as an operand or operator. -/
def checkOperand (n : Nat) : Lowering Unit :=
  match t.kind n with
  | .ident => t.expectType n .integer .operand
  | .operator | .integer | .boolean | .expr => pure ()
  | .unrefined => Lowering.fail (t.unrefinedAt n)
  | _ => Lowering.fail (t.unsupported n .operand)

def lowerExpr (n : Nat) : Lowering Expr :=
  match t.kind n with
  | .expr => Lowering.after "(" do
    let parts ← Lowering.each Expr.render
      (fun c => do
        t.checkOperand c.1
        lowerExpr c.1)
      (t.children n).attach
    return .group parts
  | .access => do
    let position ← t.requiredChild n 0 .cellPosition
    let boardNode ← t.requiredChild n 1 .board
    let x ← t.requiredChild position.1 0 .column
    let y ← t.requiredChild position.1 1 .row
    let board ← Lowering.ofExcept (t.requiredName boardNode.1 .accessedBoard)
    t.expectType boardNode.1 .board .cellAccess
    t.expectType x.1 .integer .cellColumn
    t.expectType y.1 .integer .cellRow
    Lowering.after (Expr.cellOpening board) do
      let row ← lowerExpr y.1
      Lowering.after (row.render ++ Expr.squareMiddle) do
        let column ← lowerExpr x.1
        return .cell board row column
  | .operator =>
    match t.text? n with
    | some symbol => pure (.operator symbol)
    | none => Lowering.fail (t.malformedAt n .operatorWithoutSymbol)
  | .string => pure (.text ((t.text? n).getD ""))
  | .ident => do return .name (← Lowering.ofExcept (t.requiredName n .identifier))
  | .integer =>
    match t.payload n with
    | .integer v => pure (.integer v)
    | _ => Lowering.fail (t.malformedAt n .integerWithoutValue)
  | .boolean =>
    match t.payload n with
    | .boolean b => pure (.flag b)
    | _ => Lowering.fail (t.malformedAt n .booleanWithoutValue)
  | .empty =>
    match t.blankType? n with
    | some blank => pure (.blank blank)
    | none => Lowering.fail (t.unsupported n .declaration)
  | .piece => Lowering.fail (t.unsupported n .pieceLiteral)
  | .unrefined => Lowering.fail (t.unrefinedAt n)
  | _ => Lowering.fail (t.unsupported n .expression)
termination_by t.size - n
decreasing_by
  · exact size_sub_lt c.2
  · exact Nat.lt_trans (size_sub_lt y.2) (size_sub_lt position.2)
  · exact Nat.lt_trans (size_sub_lt x.2) (size_sub_lt position.2)

/-- Lower the two coordinates of a square after a text has been written, the row first. -/
def lowerSquare (opening : String) (x y : Nat) : Lowering (Expr × Expr) :=
  Lowering.after opening do
    let row ← t.lowerExpr y
    Lowering.after (row.render ++ Expr.squareMiddle) do
      let column ← t.lowerExpr x
      return (row, column)

/-! ### Pieces -/

/-- Lower a flag after its member has been written. -/
def lowerFlag (member : String) (value : Nat) : Lowering Bool :=
  Lowering.after (Statement.changeOpening member) <|
    match t.payload value with
    | .boolean b => pure b
    | _ => Lowering.fail (t.malformedAt value .booleanWithoutValue)

/-- Lower a limit after its member has been written. -/
def lowerLimit (member : String) (value : Nat) : Lowering Int64 :=
  Lowering.after (Statement.changeOpening member) <|
    match t.payload value with
    | .integer v => pure v
    | _ => Lowering.fail (t.malformedAt value .integerWithoutValue)

/-- Lower a property of a piece to the setting of a member. The squares of a piece are no
members. -/
def lowerProperty (piece : String) (key value : Nat) : Lowering (Option PieceField) := do
  let property ← Lowering.ofExcept (t.requiredName key .pieceProperty)
  let member := piece ++ "." ++ property
  match property, t.kind value with
  | "start", _ => return none
  | "moves", _ => return none
  | "name", .string => return some (.name ((t.text? value).getD ""))
  | "limit", .integer => return some (.writtenLimit (← t.lowerLimit member value))
  | "capture", .boolean => return some (.capture (← t.lowerFlag member value))
  | "placeable", .boolean => return some (.placeable (← t.lowerFlag member value))
  | "can_jump", .boolean => return some (.canJump (← t.lowerFlag member value))
  | _, .unrefined => Lowering.fail (t.unrefinedAt value)
  | _, _ => Lowering.fail (t.unsupported value (.property property piece))

def propertyTable (n : Nat) : List (Nat × Nat) :=
  match t.payload n with
  | .properties table => table
  | _ => []

/-- The members that a declaration leaves to the defaults, and the count. -/
def defaultFields (defaults : PieceDefaults) (piece : String) (written : List PieceField) :
    List PieceField :=
  let fields : List PieceField :=
    [.name piece, .limit defaults.limit, .capture defaults.capture,
      .placeable defaults.placeable, .canJump defaults.canJump]
  fields.filter (fun f => !(written.map PieceField.member).contains f.member) ++ [.count 0]

/-- Lower the members of a declared piece: its properties as written, then the defaults. -/
def lowerPiece (defaults : PieceDefaults) (piece : String) (n : Nat) :
    Lowering (List PieceField) :=
  Lowering.after (pieceOpening piece) do
    let properties ← Lowering.each
      (fun field => (field.map (PieceField.render piece)).getD "")
      (fun (key, value) => t.lowerProperty piece key value)
      (t.propertyTable n)
    let written := properties.filterMap id
    return written ++ defaultFields defaults piece written

/-! ### Assignments -/

/-- Lower the value of a name that is declared here. -/
def lowerInitial (defaults : PieceDefaults) (name : String) (value : Nat) : Lowering Initial :=
  let context := Context.assignment name
  match t.kind value with
  | .string => pure (.text ((t.text? value).getD ""))
  | .integer | .boolean | .expr =>
    Lowering.after (Statement.integerOpening name) do return .integer (← t.lowerExpr value)
  | .empty =>
    match t.blankType? value with
    | some blank => pure (.blank blank)
    | none => Lowering.fail (t.unsupported value .declaration)
  | .board => do
    let (width, height) ← Lowering.ofExcept (t.dimensions value)
    return .board width height
  | .piece => do return .piece (← t.lowerPiece defaults name value)
  | .access =>
    Lowering.after (Statement.pieceOfOpening name) do return .pieceOf (← t.lowerExpr value)
  | .ident => do
    let other ← Lowering.ofExcept (t.requiredName value .assignedValue)
    match (← t.valueType value context).1 with
    | .integer => return .integer (.name other)
    | .text => return .textOf other
    | .piece => return .pieceOf (.name other)
    | .board => Lowering.fail (t.unsupported value context)
  | .unrefined => Lowering.fail (t.unrefinedAt value)
  | _ => Lowering.fail (t.unsupported value context)

/-- The types of a name's present value and of the value it is to have. They have to agree. -/
def changeType (target : Nat) (name : String) (value : Nat) : Lowering ValueType := do
  let context := Context.reassignment name
  let previous ← Lowering.ofResolve (t.effectiveValue target name)
  let declared ← Lowering.ofExcept (t.classify previous context)
  let (type, _) ← t.valueType value context
  if declared = type then return type
  else Lowering.fail (t.unsupported value (.reassignmentOf name declared))

/-- Lower the value of a name that is declared already. -/
def lowerChange (target : Nat) (name : String) (value : Nat) : Lowering Change :=
  match t.kind value with
  | .empty | .piece => Lowering.fail (t.unsupported value (.reassignment name))
  | .unrefined => Lowering.fail (t.unrefinedAt value)
  | kind => do
    match ← t.changeType target name value with
    | .board =>
      Reported.tell (.boardKept name (t.span value))
      return .keepBoard
    | .text =>
      if kind = .string then return .text ((t.text? value).getD "")
      else return .textOf (← Lowering.ofExcept (t.requiredName value .assignedValue))
    | .integer | .piece =>
      Lowering.after (Statement.changeOpening name) do return .value (← t.lowerExpr value)

/-- Lower an assignment. It declares its name unless the name is visible already. -/
def lowerAssign (defaults : PieceDefaults) (n : Nat) : Lowering Statement := do
  let target ← t.requiredChild n 0 .assignmentTarget
  let value ← t.requiredChild n 1 .assignmentValue
  let name ← Lowering.ofExcept (t.requiredName target.1 .assignmentTarget)
  if ← t.isDeclared target.1 name then
    Reported.tell (.reassigning name (t.describe value.1))
    return .change name (← t.lowerChange target.1 name value.1)
  else
    Reported.tell (.declaring name (t.describe value.1))
    return .declare name (← t.lowerInitial defaults name value.1)

/-! ### Other statements -/

def lowerOutput (n : Nat) : Lowering Statement := do
  let argument ← t.requiredChild n 0 .outputArgument
  let value := argument.1
  Reported.tell (.output (t.describe value))
  if t.kind value = .empty ∨ t.kind value = .piece ∨ t.kind value = .board then
    Lowering.fail (t.unsupported value .output)
  else
    match ← t.valueType value .output with
    | (.integer, _) =>
      Lowering.after Statement.integerPrintOpening do
        return .print (.integer (← t.lowerExpr value))
    | (.text, _) =>
      Lowering.after Statement.textPrintOpening do
        return .print (.text (← t.lowerExpr value))
    | (.piece, _) =>
      Lowering.after Statement.textPrintOpening do
        return .print (.piece (← t.lowerExpr value))
    | (.board, effective) =>
      match t.identName? value with
      | none => Lowering.fail (t.unsupported value .output)
      | some name =>
        let (width, height) ← Lowering.ofExcept (t.dimensions effective)
        return .print (.board name width height)

def lowerPlace (n : Nat) : Lowering Statement := do
  let pieceNode ← t.requiredChild n 0 .placedPiece
  let boardNode ← t.requiredChild n 1 .board
  let position ← t.requiredChild n 2 .cellPosition
  let x ← t.requiredChild position.1 0 .column
  let y ← t.requiredChild position.1 1 .row
  let piece ← Lowering.ofExcept (t.requiredName pieceNode.1 .placedPiece)
  let board ← Lowering.ofExcept (t.requiredName boardNode.1 .board)
  t.expectType pieceNode.1 .piece .placement
  t.expectType boardNode.1 .board .placement
  t.expectType x.1 .integer .placementColumn
  t.expectType y.1 .integer .placementRow
  Reported.tell (.placing piece board)
  let (row, column) ← t.lowerSquare (Statement.placeOpening piece board) x.1 y.1
  return .place piece board row column

def lowerStatement (defaults : PieceDefaults) (n : Nat) : Lowering Statement :=
  match t.kind n with
  | .assign => t.lowerAssign defaults n
  | .output => t.lowerOutput n
  | .place => t.lowerPlace n
  | .unrefined => Lowering.fail (t.unrefinedAt n)
  | _ => Lowering.fail (t.unsupported n .statement)

def lowerGame (defaults : PieceDefaults) (n : Nat) : Lowering (List Statement) :=
  Lowering.each Statement.render (t.lowerStatement defaults) (t.children n)

end Tree

/-! ### Sections -/

structure Sections where
  setup : List Statement
  game : List Statement

/-- The statements of several parts of a program, each section in program order. -/
def Sections.join (parts : List Sections) : Sections :=
  ⟨parts.flatMap Sections.setup, parts.flatMap Sections.game⟩

namespace Tree

variable (t : Tree)

/-- Lower a game or a statement of the setup. -/
def lowerSection (defaults : PieceDefaults) (n : Nat) : Lowering Sections := do
  if t.kind n = .game then return ⟨[], ← t.lowerGame defaults n⟩
  else return ⟨[← t.lowerStatement defaults n], []⟩

/-- Lower all statements below a start node. -/
def lowerSections (defaults : PieceDefaults) (n : Nat) : Lowering Sections := do
  let parts ← Lowering.each (fun _ => "") (t.lowerSection defaults) (t.children n)
  return .join parts

end Tree

end GridGame
