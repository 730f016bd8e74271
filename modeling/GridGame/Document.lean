import GridGame.Tree.Builder

/-!
# Tree documents

Parsers hand a program over as a document: nodes that contain their children, and pieces that
contain their properties as pairs of a name and a value. Building the tree of a document numbers
its nodes in the order written, properties before children. Properties become the first children
of their node, which then holds the table of their numbers.
-/

namespace GridGame

/-- What a node of a document holds. -/
inductive Literal where
  | none
  | integer (value : Int64)
  | boolean (value : Bool)
  | text (value : String)
  | dimensions (width height : UInt32)
deriving DecidableEq, Inhabited

/-- What a node with that literal holds in a tree. -/
def Literal.payload : Literal → Payload
  | .none => .none
  | .integer v => .integer v
  | .boolean v => .boolean v
  | .text v => .text v
  | .dimensions w h => .dimensions w h

inductive Document where
  | node (kind : Kind) (literal : Literal) (span : Span) (children : List Document)
      (properties : List (Document × Document))

namespace Document

/-- What holds of a node if it holds of all nodes in it holds of every document. -/
@[elab_as_elim]
theorem contents_induction {P : Document → Prop}
    (node : ∀ kind literal span children properties, (∀ child ∈ children, P child) →
      (∀ property ∈ properties, P property.1 ∧ P property.2) →
      P (.node kind literal span children properties)) (d : Document) : P d := by
  refine @Document.rec P (fun children => ∀ child ∈ children, P child)
    (fun properties => ∀ property ∈ properties, P property.1 ∧ P property.2)
    (fun property => P property.1 ∧ P property.2) node ?_ ?_ ?_ ?_ ?_ d
  · intro child hchild
    cases hchild
  · intro child children hchild hchildren
    exact List.forall_mem_cons.mpr ⟨hchild, hchildren⟩
  · intro property hproperty
    cases hproperty
  · intro property properties hproperty hproperties
    exact List.forall_mem_cons.mpr ⟨hproperty, hproperties⟩
  · intro name value hname hvalue
    exact ⟨hname, hvalue⟩

/-- The kind of the outermost node. -/
def kind : Document → Kind
  | .node kind .. => kind

mutual

/-- Add a document to a tree under construction. The number is that of its outermost node. -/
def build : Document → Builder → Except TreeError (Nat × Builder)
  | .node kind literal span children properties, b => do
    let (n, b) := b.openNode kind literal.payload span
    let b ← buildProperties n properties b
    let b ← buildChildren children b
    Builder.granted b.close

def buildChildren : List Document → Builder → Except TreeError Builder
  | [], b => .ok b
  | child :: children, b => do
    let (_, b) ← build child b
    buildChildren children b

/-- Add the properties of the open node `n`, if it has any, and store their table there. -/
def buildProperties (n : Nat) : List (Document × Document) → Builder → Except TreeError Builder
  | [], b => .ok b
  | (name, value) :: properties, b => do
    let (nameNode, b) ← build name b
    let (valueNode, b) ← build value b
    let (table, b) ← buildTable properties b
    let (_, b) ← Builder.granted (b.setPayload n (.properties ((nameNode, valueNode) :: table)))
    return b

/-- Add pairs of names and values, and list their numbers. -/
def buildTable :
    List (Document × Document) → Builder → Except TreeError (List (Nat × Nat) × Builder)
  | [], b => .ok ([], b)
  | (name, value) :: properties, b => do
    let (nameNode, b) ← build name b
    let (valueNode, b) ← build value b
    let (table, b) ← buildTable properties b
    return ((nameNode, valueNode) :: table, b)

end

def toTree (d : Document) : Except TreeError Tree := do
  let (_, b) ← d.build .empty
  b.finish

end Document

end GridGame
