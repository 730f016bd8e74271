import GridGame.Proofs.DocumentTrees

/-!
# Reading documents back

A tree can be read back as a document: a node with a table of properties has their names and values
as its first children, two for each property, and every other child is a child of the document. The
tree of a document reads back as that document, apart from the literals whose place tables have
taken (`document_of_shows`). So nothing else is lost on the way into a tree.
-/

namespace GridGame

/-- The literal that a payload comes from. A table of properties comes from none. -/
def Payload.literal : Payload → Literal
  | .none => .none
  | .integer v => .integer v
  | .boolean v => .boolean v
  | .text v => .text v
  | .dimensions w h => .dimensions w h
  | .properties _ => .none

/-- How many properties a payload lists. -/
def Payload.propertyCount : Payload → Nat
  | .properties table => table.length
  | .none | .integer _ | .boolean _ | .text _ | .dimensions _ _ => 0

lemma Literal.literal_payload (l : Literal) : l.payload.literal = l := by
  cases l <;> rfl

lemma Literal.propertyCount_payload (l : Literal) : l.payload.propertyCount = 0 := by
  cases l <;> rfl

namespace Document

/-- Documents two by two. -/
def pairUp : List Document → List (Document × Document)
  | name :: value :: rest => (name, value) :: pairUp rest
  | [_] | [] => []

mutual

/-- The document without the literals of nodes with properties. -/
def stripped : Document → Document
  | .node kind literal span children properties =>
    .node kind (if properties.isEmpty then literal else .none) span (strippedAll children)
      (strippedPairs properties)

def strippedAll : List Document → List Document
  | [] => []
  | d :: ds => stripped d :: strippedAll ds

def strippedPairs : List (Document × Document) → List (Document × Document)
  | [] => []
  | (name, value) :: properties => (stripped name, stripped value) :: strippedPairs properties

end

lemma strippedAll_eq_map (ds : List Document) : strippedAll ds = ds.map stripped := by
  induction ds with
  | nil => rfl
  | cons d ds ih => rw [strippedAll, ih, List.map_cons]

/-- Pairing up undoes the listing of names and values. -/
lemma pairUp_stripped (properties : List (Document × Document)) :
    pairUp ((pairs properties).map stripped) = strippedPairs properties := by
  induction properties with
  | nil => rfl
  | cons property properties ih =>
    obtain ⟨name, value⟩ := property
    rw [pairs_cons, List.map_cons, List.map_cons, pairUp, ih, strippedPairs]

section Row

variable (parent : Option Nat) (first : Nat) (kind : Kind) (literal : Literal) (span : Span)
  (children : List Document) (properties : List (Document × Document))

lemma propertyCount_row :
    (row parent first (.node kind literal span children properties)).payload.propertyCount =
      properties.length := by
  cases properties with
  | nil => exact literal.propertyCount_payload
  | cons property properties => exact length_table ..

lemma literal_row :
    (row parent first (.node kind literal span children properties)).payload.literal =
      if properties.isEmpty then literal else .none := by
  cases properties with
  | nil => exact literal.literal_payload
  | cons property properties => rfl

end Row

end Document

open Document

namespace Tree

/-- The document that the subtree of a node is read back as. -/
def document (t : Tree) (n : Nat) : Document :=
  let contents := (t.children n).attach.map fun c => document t c.1
  let count := 2 * (t.payload n).propertyCount
  .node (t.kind n) (t.payload n).literal (t.span n) (contents.drop count)
    (pairUp (contents.take count))
termination_by t.size - n
decreasing_by exact size_sub_lt c.2

lemma document_eq (t : Tree) (n : Nat) :
    t.document n = .node (t.kind n) (t.payload n).literal (t.span n)
      (((t.children n).map t.document).drop (2 * (t.payload n).propertyCount))
      (pairUp (((t.children n).map t.document).take (2 * (t.payload n).propertyCount))) := by
  rw [document, List.attach_map_val]

/-! ### Parts of a table -/

/-- The table of a tree has some rows from a number on. -/
def Shows (t : Tree) (first : Nat) (rows : List Node) : Prop := rows <+: t.nodes.toList.drop first

variable {t : Tree} {first : Nat}

lemma Shows.node {x : Node} {rows : List Node} (h : t.Shows first (x :: rows)) :
    t.node first = x := by
  obtain ⟨rest, hrest⟩ := h
  have hget : t.nodes.toList[first]? = some x := by
    rw [← List.head?_drop, ← hrest]
    rfl
  rw [Tree.node, nodeAt_eq_getD, List.getD_eq_getElem?_getD, hget]
  rfl

lemma Shows.tail {x : Node} {rows : List Node} (h : t.Shows first (x :: rows)) :
    t.Shows (first + 1) rows := by
  obtain ⟨rest, hrest⟩ := h
  refine ⟨rest, ?_⟩
  rw [← List.drop_drop, ← hrest]
  rfl

lemma Shows.left {rows rows' : List Node} (h : t.Shows first (rows ++ rows')) :
    t.Shows first rows :=
  (List.prefix_append rows rows').trans h

lemma Shows.right {rows rows' : List Node} (h : t.Shows first (rows ++ rows')) :
    t.Shows (first + rows.length) rows' := by
  obtain ⟨rest, hrest⟩ := h
  refine ⟨rest, ?_⟩
  rw [← List.drop_drop, ← hrest, List.append_assoc, List.drop_left]

/-! ### Documents of rows -/

lemma map_document_numbers {ds : List Document}
    (h : ∀ d ∈ ds, ∀ parent first, t.Shows first (d.rows parent first) →
      t.document first = d.stripped)
    {parent first : Nat} (hshows : t.Shows first (rowsOfAll parent first ds)) :
    (numbers first ds).map t.document = ds.map stripped := by
  induction ds generalizing first with
  | nil => rfl
  | cons d ds ih =>
    obtain ⟨hd, hds⟩ := List.forall_mem_cons.mp h
    rw [rowsOfAll] at hshows
    have hrest := hshows.right
    rw [length_rows] at hrest
    rw [numbers, List.map_cons, List.map_cons, hd _ _ hshows.left, ih hds hrest]

/-- Where a table has the rows of a document, that document is read back. -/
lemma document_of_shows {d : Document} {parent : Option Nat}
    (h : t.Shows first (d.rows parent first)) :
    t.document first = d.stripped := by
  induction d using members_induction generalizing parent first with
  | node d ih =>
    rw [rows_eq] at h
    have hnode := h.node
    have hcontents : (numbers (first + 1) d.members).map t.document = d.members.map stripped :=
      map_document_numbers (fun m hm _ _ => ih m hm) h.tail
    cases d with
    | node kind literal span children properties =>
      have hchildren : t.children first = numbers (first + 1) (pairs properties ++ children) := by
        rw [Tree.children, childrenAt, ← Tree.node, hnode]
        rfl
      have hcount : 2 * properties.length = ((pairs properties).map stripped).length := by
        rw [List.length_map, length_pairs]
      rw [members, List.map_append] at hcontents
      rw [document_eq, hchildren, hcontents, Tree.kind, Tree.payload, Tree.span, hnode,
        propertyCount_row, literal_row, hcount, List.drop_left, List.take_left, pairUp_stripped,
        stripped, strippedAll_eq_map]
      rfl

end Tree

namespace Document

/-- A document has a tree exactly if its outermost node is a start node, and is refused for the kind
of that node otherwise. Read back from the root, the tree gives the document, less the literals of
nodes with properties. Every table of properties lists the first children of its node in order. -/
theorem toTree_reads_back (d : Document) :
    ((∃ t, d.toTree = .ok t) ↔ d.kind = .start) ∧
    (∀ e, d.toTree = .error e ↔ d.kind ≠ .start ∧ e = .rootNotStart d.kind) ∧
    ∀ t, d.toTree = .ok t →
      t.document t.root = d.stripped ∧
      ∀ n table, t.payload n = .properties table →
        (table.flatMap fun p => [p.1, p.2]) = (t.children n).take (2 * table.length) := by
  by_cases hd : d.kind = .start
  · obtain ⟨t, ht, hroot, hrows⟩ := exists_toTree hd
    refine ⟨by simp [ht, hd], by simp [ht, hd], ?_⟩
    intro t' ht'
    rw [ht] at ht'
    cases ht'
    constructor
    · have hshows : t.Shows 0 (d.rows none 0) := by
        simp [Tree.Shows, hrows]
      rw [hroot]
      exact Tree.document_of_shows hshows
    · intro n table hpayload
      exact flatMap_of_payload hrows hpayload
  · have herror := toTree_of_kind_ne hd
    refine ⟨by simp [herror, hd], ?_, ?_⟩
    · intro e
      simp [herror, hd, eq_comm]
    · intro t ht
      rw [herror] at ht
      cases ht

end Document

end GridGame
