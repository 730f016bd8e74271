import GridGame.Kind
import GridGame.Span

/-!
# Program trees

A program tree is a table of nodes, numbered in the order in which they were opened, so that a
parent always comes before its children. Nodes refer to each other by number: a node lists its
children and knows its parent, and a table of properties pairs up the numbers of keys and values.

Every tree carries the order of its table. It makes walks terminate: towards the children numbers
grow and stay inside the table, towards the parent they shrink, and a node comes before its later
siblings together with its own children.
-/

namespace GridGame

/-- What a node holds besides its children. -/
inductive Payload where
  | none
  | integer (value : Int64)
  | boolean (value : Bool)
  | text (value : String)
  | dimensions (width height : UInt32)
  | properties (table : List (Nat × Nat))
deriving DecidableEq, Inhabited

/-- One numbered construct of a program. -/
structure Node where
  kind : Kind
  payload : Payload
  span : Span
  /-- The numbers of the children, in program order. -/
  children : Array Nat
  /-- The number of the node that lists this one as a child. -/
  parent : Option Nat
  /-- A closed node takes no further children and keeps its payload. -/
  closed : Bool

/-- The node that every number outside a table stands for. -/
def Node.absent : Node := ⟨.empty, .none, .detached, #[], none, true⟩

def nodeAt (nodes : Array Node) (n : Nat) : Node := nodes.getD n .absent

/-- The numbers of a node's children, in program order. -/
def childrenAt (nodes : Array Node) (n : Nat) : List Nat := (nodeAt nodes n).children.toList

/-- The order of a table of nodes. -/
structure Ordered (nodes : Array Node) : Prop where
  /-- Children come after their parent, inside the table. -/
  child : ∀ n, ∀ c ∈ childrenAt nodes n, n < c ∧ c < nodes.size
  /-- A parent lists the node as a child. -/
  parent : ∀ n p, (nodeAt nodes n).parent = some p → n ∈ childrenAt nodes p
  /-- A node and its children come before the later siblings of the node. -/
  siblings : ∀ n, (childrenAt nodes n).Pairwise fun a b => ∀ c ∈ a :: childrenAt nodes a, c < b

/-- A finished table of nodes with its root. -/
structure Tree where
  nodes : Array Node
  root : Nat
  ordered : Ordered nodes

namespace Tree

variable (t : Tree)

def size : Nat := t.nodes.size

def node (n : Nat) : Node := nodeAt t.nodes n

def kind (n : Nat) : Kind := (t.node n).kind

def payload (n : Nat) : Payload := (t.node n).payload

def span (n : Nat) : Span := (t.node n).span

/-- The children of a node, in program order. -/
def children (n : Nat) : List Nat := childrenAt t.nodes n

def child? (n i : Nat) : Option Nat := (t.children n)[i]?

def parent? (n : Nat) : Option Nat := (t.node n).parent

def text? (n : Nat) : Option String :=
  match t.payload n with
  | .text s => some s
  | _ => none

/-- The name an identifier node stands for. -/
def identName? (n : Nat) : Option String :=
  if t.kind n = .ident then t.text? n else none

/-- A node as messages name it: its kind, its text if it has one, and its span. -/
def describe (n : Nat) : String :=
  match t.text? n with
  | some s => s!"{(t.kind n).label} `{s}` at {(t.span n).text}"
  | none => s!"{(t.kind n).label} at {(t.span n).text}"

/-! ### Walks -/

theorem lt_of_mem_children {t : Tree} {n c : Nat} (h : c ∈ t.children n) : n < c :=
  (t.ordered.child n c h).1

theorem lt_size_of_mem_children {t : Tree} {n c : Nat} (h : c ∈ t.children n) : c < t.size :=
  (t.ordered.child n c h).2

theorem size_sub_lt {t : Tree} {n c : Nat} (h : c ∈ t.children n) : t.size - c < t.size - n := by
  have := lt_of_mem_children h
  have := lt_size_of_mem_children h
  omega

theorem mem_children_of_parent? {t : Tree} {n p : Nat} (h : t.parent? n = some p) :
    n ∈ t.children p :=
  t.ordered.parent n p h

theorem lt_of_parent? {t : Tree} {n p : Nat} (h : t.parent? n = some p) : p < n :=
  lt_of_mem_children (mem_children_of_parent? h)

theorem mem_children_of_child? {t : Tree} {n i c : Nat} (h : t.child? n i = some c) :
    c ∈ t.children n :=
  List.mem_of_getElem? h

/-- The nodes above `n`, innermost first. -/
def ancestors (n : Nat) : List Nat :=
  match _h : t.parent? n with
  | some p => p :: ancestors p
  | none => []
termination_by n
decreasing_by exact lt_of_parent? _h

/-- The nodes of the subtree at `n` in program order: `n` itself, then its children's subtrees. -/
def subtree (n : Nat) : List Nat :=
  n :: (t.children n).attach.flatMap fun c => subtree c.1
termination_by t.size - n
decreasing_by exact size_sub_lt c.2

theorem subtree_eq (n : Nat) : t.subtree n = n :: (t.children n).flatMap t.subtree := by
  rw [subtree]
  simp

/-- The nodes that a walk takes up, where `pending` are those to be visited next. It takes the
first of them, and puts the children of that node in front of the others. -/
def walk (pending : List Nat) : List Nat :=
  match pending with
  | [] => []
  | n :: rest => n :: walk (t.children n ++ rest)
termination_by (pending.flatMap t.subtree).length
decreasing_by
  simp only [List.flatMap_append, List.flatMap_cons, t.subtree_eq n, List.length_append,
    List.length_cons]
  omega

def preorder : List Nat := t.walk [t.root]

/-- The positions of all nodes in program order, by number. -/
def positions : Array Nat :=
  t.preorder.zipIdx.foldl (fun positions (n, i) => positions.setIfInBounds n i)
    (Array.replicate t.size 0)

def preorderIndex (n : Nat) : Nat := t.positions.getD n 0

/-- The positions of all nodes in program order as a list. -/
def preorderIndices : List Nat := t.positions.toList

end Tree

end GridGame
