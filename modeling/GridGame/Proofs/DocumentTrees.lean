import GridGame.Document
import GridGame.Proofs.Numbering

/-!
# Trees of documents

The tree of a document is known in advance: the row of a node in the table depends on the document
of the node, on its number and on the number of its parent, and the rows of a document stand next to
each other (`rows`). Building a document below an open node adds its rows at the end of the table
and its number to the children of the open node, and changes nothing else (`Added`). So every
document with a start node has a tree, whose table is the list of its rows (`exists_toTree`). Any
other document is refused (`toTree_of_kind_ne`).
-/

namespace GridGame

namespace Document

/-- The documents of all names and values, in the order of the properties. -/
def pairs (properties : List (Document × Document)) : List Document :=
  properties.flatMap fun p => [p.1, p.2]

/-- The documents right below the outermost node, properties before children. -/
def members : Document → List Document
  | .node _ _ _ children properties => pairs properties ++ children

mutual

/-- The number of nodes in a document. -/
def size : Document → Nat
  | .node _ _ _ children properties => sizeOfPairs properties + sizeOfAll children + 1

def sizeOfAll : List Document → Nat
  | [] => 0
  | d :: ds => size d + sizeOfAll ds

def sizeOfPairs : List (Document × Document) → Nat
  | [] => 0
  | (name, value) :: properties => size name + size value + sizeOfPairs properties

end

/-- The numbers of documents that are built one after the other. -/
def numbers (first : Nat) : List Document → List Nat
  | [] => []
  | d :: ds => first :: numbers (first + d.size) ds

/-- The numbers of the names and values of properties that are built one after the other. -/
def table (first : Nat) : List (Document × Document) → List (Nat × Nat)
  | [] => []
  | (name, value) :: properties =>
    (first, first + name.size) :: table (first + name.size + value.size) properties

/-- The row of the outermost node in the table of a tree, where the node has the number `first`. -/
def row (parent : Option Nat) (first : Nat) : Document → Node
  | .node kind literal span children properties =>
    { kind := kind
      payload :=
        if properties.isEmpty then literal.payload else .properties (table (first + 1) properties)
      span := span
      children := (numbers (first + 1) (pairs properties ++ children)).toArray
      parent := parent
      closed := true }

mutual

/-- The rows of a document in the table of a tree, where its outermost node has the number
`first`. -/
def rows (parent : Option Nat) (first : Nat) : Document → List Node
  | .node kind literal span children properties =>
    row parent first (.node kind literal span children properties) ::
      (rowsOfPairs first (first + 1) properties ++
        rowsOfAll first (first + 1 + sizeOfPairs properties) children)

/-- The rows of documents one after the other, all with the same parent. -/
def rowsOfAll (parent first : Nat) : List Document → List Node
  | [] => []
  | d :: ds => rows (some parent) first d ++ rowsOfAll parent (first + d.size) ds

/-- The rows of properties one after the other, all with the same parent. -/
def rowsOfPairs (parent first : Nat) : List (Document × Document) → List Node
  | [] => []
  | (name, value) :: properties =>
    rows (some parent) first name ++ (rows (some parent) (first + name.size) value ++
      rowsOfPairs parent (first + name.size + value.size) properties)

end

/-! ### Sizes and numbers -/

lemma pairs_cons (name value : Document) (properties : List (Document × Document)) :
    pairs ((name, value) :: properties) = name :: value :: pairs properties := rfl

lemma sizeOfAll_singleton (d : Document) : sizeOfAll [d] = d.size := rfl

lemma sizeOfAll_append (ds ds' : List Document) :
    sizeOfAll (ds ++ ds') = sizeOfAll ds + sizeOfAll ds' := by
  induction ds with
  | nil => simp [sizeOfAll]
  | cons d ds ih => rw [List.cons_append, sizeOfAll, sizeOfAll, ih, Nat.add_assoc]

lemma sizeOfPairs_eq (properties : List (Document × Document)) :
    sizeOfPairs properties = sizeOfAll (pairs properties) := by
  induction properties with
  | nil => rfl
  | cons property properties ih =>
    obtain ⟨name, value⟩ := property
    rw [sizeOfPairs, pairs_cons, sizeOfAll, sizeOfAll, ih, Nat.add_assoc]

lemma numbers_append (first : Nat) (ds ds' : List Document) :
    numbers first (ds ++ ds') = numbers first ds ++ numbers (first + sizeOfAll ds) ds' := by
  induction ds generalizing first with
  | nil => simp [numbers, sizeOfAll]
  | cons d ds ih => simp [numbers, sizeOfAll, ih, Nat.add_assoc]

lemma length_numbers (first : Nat) (ds : List Document) :
    (numbers first ds).length = ds.length := by
  induction ds generalizing first with
  | nil => rfl
  | cons d ds ih => rw [numbers, List.length_cons, List.length_cons, ih]

lemma take_numbers (n first : Nat) (ds : List Document) :
    (numbers first ds).take n = numbers first (ds.take n) := by
  induction ds generalizing n first with
  | nil => simp [numbers]
  | cons d ds ih =>
    cases n with
    | zero => rfl
    | succ n => rw [numbers, List.take_succ_cons, List.take_succ_cons, numbers, ih]

/-! ### Rows -/

lemma rowsOfAll_append (parent first : Nat) (ds ds' : List Document) :
    rowsOfAll parent first (ds ++ ds') =
      rowsOfAll parent first ds ++ rowsOfAll parent (first + sizeOfAll ds) ds' := by
  induction ds generalizing first with
  | nil => simp [rowsOfAll, sizeOfAll]
  | cons d ds ih => simp [rowsOfAll, sizeOfAll, ih, Nat.add_assoc]

lemma rowsOfPairs_eq (parent first : Nat) (properties : List (Document × Document)) :
    rowsOfPairs parent first properties = rowsOfAll parent first (pairs properties) := by
  induction properties generalizing first with
  | nil => rfl
  | cons property properties ih =>
    obtain ⟨name, value⟩ := property
    rw [rowsOfPairs, pairs_cons, rowsOfAll, rowsOfAll, ih]

/-- The rows of a document are that of its outermost node and those of its members. -/
lemma rows_eq (parent : Option Nat) (first : Nat) (d : Document) :
    rows parent first d = row parent first d :: rowsOfAll first (first + 1) d.members := by
  cases d with
  | node kind literal span children properties =>
    rw [rows, rowsOfPairs_eq, members, rowsOfAll_append, sizeOfPairs_eq]

lemma size_eq (d : Document) : d.size = sizeOfAll d.members + 1 := by
  cases d with
  | node kind literal span children properties =>
    rw [size, sizeOfPairs_eq, members, sizeOfAll_append]

/-- What holds of a document if it holds of its members holds of every document. -/
@[elab_as_elim]
lemma members_induction {P : Document → Prop} (node : ∀ d, (∀ m ∈ d.members, P m) → P d)
    (d : Document) : P d := by
  induction d using contents_induction with
  | node kind literal span children properties hchildren hproperties =>
    apply node
    intro m hm
    rcases List.mem_append.mp hm with hm | hm
    · obtain ⟨property, hproperty, hm⟩ := List.mem_flatMap.mp hm
      obtain ⟨hname, hvalue⟩ := hproperties property hproperty
      simp only [List.mem_cons, List.not_mem_nil, or_false] at hm
      rcases hm with rfl | rfl
      · exact hname
      · exact hvalue
    · exact hchildren m hm

lemma length_rowsOfAll_of {ds : List Document}
    (h : ∀ d ∈ ds, ∀ parent first, (rows parent first d).length = d.size) (parent first : Nat) :
    (rowsOfAll parent first ds).length = sizeOfAll ds := by
  induction ds generalizing first with
  | nil => rfl
  | cons d ds ih =>
    obtain ⟨hd, hds⟩ := List.forall_mem_cons.mp h
    rw [rowsOfAll, sizeOfAll, List.length_append, hd, ih hds]

lemma length_rows (d : Document) (parent : Option Nat) (first : Nat) :
    (rows parent first d).length = d.size := by
  induction d using members_induction generalizing parent first with
  | node d ih => rw [rows_eq, List.length_cons, length_rowsOfAll_of ih, size_eq]

lemma length_rowsOfAll (parent first : Nat) (ds : List Document) :
    (rowsOfAll parent first ds).length = sizeOfAll ds :=
  length_rowsOfAll_of (fun d _ => length_rows d) parent first

lemma exists_mem_of_mem_rowsOfAll {parent first : Nat} {ds : List Document} {x : Node}
    (hx : x ∈ rowsOfAll parent first ds) :
    ∃ d ∈ ds, ∃ first', x ∈ rows (some parent) first' d := by
  induction ds generalizing first with
  | nil => cases hx
  | cons d ds ih =>
    rw [rowsOfAll, List.mem_append] at hx
    rcases hx with hx | hx
    · exact ⟨d, List.mem_cons_self, first, hx⟩
    · obtain ⟨d', hd', hrest⟩ := ih hx
      exact ⟨d', List.mem_cons_of_mem _ hd', hrest⟩

/-- Every row is that of a document. -/
lemma exists_row_of_mem_rows {d : Document} {parent : Option Nat} {first : Nat} {x : Node}
    (hx : x ∈ rows parent first d) : ∃ parent' first' d', x = row parent' first' d' := by
  induction d using members_induction generalizing parent first with
  | node d ih =>
    rw [rows_eq] at hx
    rcases List.mem_cons.mp hx with rfl | hx
    · exact ⟨parent, first, d, rfl⟩
    · obtain ⟨m, hm, first', hx⟩ := exists_mem_of_mem_rowsOfAll hx
      exact ih m hm hx

/-! ### Tables of properties -/

lemma length_pairs (properties : List (Document × Document)) :
    (pairs properties).length = 2 * properties.length := by
  simp [pairs, Nat.mul_comm]

lemma length_table (first : Nat) (properties : List (Document × Document)) :
    (table first properties).length = properties.length := by
  induction properties generalizing first with
  | nil => rfl
  | cons property properties ih => rw [table, List.length_cons, List.length_cons, ih]

/-- A table has the numbers of the names and values in the order in which they are built. -/
lemma flatMap_table (first : Nat) (properties : List (Document × Document)) :
    ((table first properties).flatMap fun p => [p.1, p.2]) = numbers first (pairs properties) := by
  induction properties generalizing first with
  | nil => rfl
  | cons property properties ih =>
    obtain ⟨name, value⟩ := property
    rw [table, List.flatMap_cons, ih, pairs_cons, numbers, numbers]
    rfl

/-- The table of a row has the first children, two for each property. -/
lemma flatMap_table_row {parent : Option Nat} {first : Nat} {d : Document}
    {properties : List (Nat × Nat)}
    (hpayload : (row parent first d).payload = .properties properties) :
    (properties.flatMap fun p => [p.1, p.2]) =
      (row parent first d).children.toList.take (2 * properties.length) := by
  cases d with
  | node kind literal span children props =>
    simp only [row] at hpayload ⊢
    split at hpayload
    · cases literal <;> cases hpayload
    · cases hpayload
      rw [flatMap_table, numbers_append, length_table, ← length_pairs,
        ← length_numbers (first + 1) (pairs props), List.take_left]

end Document

/-! ### Lists that are changed at one place -/

lemma modify_append_of_lt {α : Type} {l : List α} {i : Nat} (h : i < l.length) (f : α → α)
    (l' : List α) : (l ++ l').modify i f = l.modify i f ++ l' := by
  induction l generalizing i with
  | nil => cases h
  | cons a l ih =>
    cases i with
    | zero => rfl
    | succ i => simp [ih (Nat.lt_of_succ_lt_succ h)]

lemma modify_length_append {α : Type} (l : List α) (a : α) (f : α → α) (l' : List α) :
    (l ++ a :: l').modify l.length f = l ++ f a :: l' := by
  induction l with
  | nil => rfl
  | cons b l ih => simp [ih]

lemma nodeAt_eq_getD (nodes : Array Node) (n : Nat) :
    nodeAt nodes n = nodes.toList.getD n .absent := by
  simp [nodeAt]

namespace Builder

/-- Documents have been added below the innermost open node `n`: their rows stand at the end of the
table. The open node itself has changed by `f`. -/
structure Added (n : Nat) (f : Node → Node) (ds : List Document) (b b' : Builder) : Prop where
  coherent : b'.Coherent
  opened : b'.opened = b.opened
  roots : b'.roots = b.roots
  nodes : b'.nodes.toList =
    b.nodes.toList.modify n f ++ Document.rowsOfAll n b.nodes.size ds

/-- The node with more children at the end. -/
def addChildren (numbers : List Nat) (x : Node) : Node :=
  { x with children := x.children ++ numbers.toArray }

variable {b b' b'' : Builder} {n : Nat} {outer : List Nat}

lemma Added.size_nodes {f : Node → Node} {ds : List Document} (h : Added n f ds b b') :
    b'.nodes.size = b.nodes.size + Document.sizeOfAll ds := by
  have hlength := congrArg List.length h.nodes
  simpa [Document.length_rowsOfAll] using hlength

lemma Added.refl (hb : b.Coherent) : Added n id [] b b where
  coherent := hb
  opened := rfl
  roots := rfl
  nodes := by simp [Document.rowsOfAll]

lemma Added.trans {f f' : Node → Node} {ds ds' : List Document} (hn : n < b.nodes.size)
    (h : Added n f ds b b') (h' : Added n f' ds' b' b'') :
    Added n (f' ∘ f) (ds ++ ds') b b'' where
  coherent := h'.coherent
  opened := h'.opened.trans h.opened
  roots := h'.roots.trans h.roots
  nodes := by
    have hlength : n < (b.nodes.toList.modify n f).length := by simpa using hn
    rw [h'.nodes, h.nodes, h.size_nodes, modify_append_of_lt hlength, List.modify_modify_eq,
      Document.rowsOfAll_append, List.append_assoc]

/-- An open node may be given another payload. -/
lemma added_setPayload (hb : b.Coherent) (hopened : b.opened = n :: outer) (payload : Payload) :
    ∃ b', b.setPayload n payload = (.ok (), b') ∧ Added n (Node.withPayload payload) [] b b' := by
  have hopen := (hb.mem_opened n).mp (hopened ▸ List.mem_cons_self)
  have hcoherent := hb.setPayload n payload
  unfold closedAt at hopen
  unfold setPayload at hcoherent ⊢
  simp only [hopen, Bool.false_eq_true, and_false, if_false] at hcoherent ⊢
  refine ⟨_, rfl, hcoherent, rfl, rfl, ?_⟩
  simp [Document.rowsOfAll]

lemma lt_size_of_opened (hopened : b.opened = n :: outer) : n < b.nodes.size :=
  b.growing.lt_size n (hopened ▸ List.mem_cons_self)

lemma addChildren_comp (ns ns' : List Nat) :
    addChildren ns' ∘ addChildren ns = addChildren (ns ++ ns') := by
  funext x
  simp [addChildren]

end Builder

open Builder

lemma except_bind_ok {ε α β : Type} (a : α) (f : α → Except ε β) :
    ((Except.ok a : Except ε α) >>= f) = f a := rfl

namespace Document

/-- Below an open node, a document gets the next number, and only its rows are added. -/
def Builds (d : Document) : Prop :=
  ∀ {b : Builder} {n : Nat} {outer : List Nat}, b.Coherent → b.opened = n :: outer →
    ∃ b', d.build b = .ok (b.nodes.size, b') ∧ Added n (addChildren [b.nodes.size]) [d] b b'

variable {b : Builder} {n : Nat} {outer : List Nat}

lemma exists_buildChildren {ds : List Document} (h : ∀ d ∈ ds, d.Builds) (hb : b.Coherent)
    (hopened : b.opened = n :: outer) :
    ∃ b', buildChildren ds b = .ok b' ∧
      Added n (addChildren (numbers b.nodes.size ds)) ds b b' := by
  induction ds generalizing b with
  | nil => exact ⟨b, rfl, .refl hb⟩
  | cons d ds ih =>
    obtain ⟨hd, hds⟩ := List.forall_mem_cons.mp h
    obtain ⟨b₁, hbuild, hadded⟩ := hd hb hopened
    obtain ⟨b₂, hrest, hadded'⟩ := ih hds hadded.coherent (hadded.opened.trans hopened)
    refine ⟨b₂, ?_, ?_⟩
    · rw [buildChildren, hbuild]
      exact hrest
    · have hall := hadded.trans (lt_size_of_opened hopened) hadded'
      rw [addChildren_comp, hadded.size_nodes, sizeOfAll_singleton] at hall
      exact hall

lemma exists_buildTable {properties : List (Document × Document)}
    (h : ∀ d ∈ pairs properties, d.Builds) (hb : b.Coherent) (hopened : b.opened = n :: outer) :
    ∃ b', buildTable properties b = .ok (table b.nodes.size properties, b') ∧
      Added n (addChildren (numbers b.nodes.size (pairs properties))) (pairs properties) b b' := by
  induction properties generalizing b with
  | nil => exact ⟨b, rfl, .refl hb⟩
  | cons property properties ih =>
    obtain ⟨name, value⟩ := property
    rw [pairs_cons] at h ⊢
    obtain ⟨hname, h⟩ := List.forall_mem_cons.mp h
    obtain ⟨hvalue, hrest⟩ := List.forall_mem_cons.mp h
    have hn := lt_size_of_opened hopened
    obtain ⟨b₁, hbuild₁, hadded₁⟩ := hname hb hopened
    obtain ⟨b₂, hbuild₂, hadded₂⟩ := hvalue hadded₁.coherent (hadded₁.opened.trans hopened)
    have hadded := hadded₁.trans hn hadded₂
    obtain ⟨b₃, hbuild₃, hadded₃⟩ := ih hrest hadded.coherent (hadded.opened.trans hopened)
    have hsize₁ : b₁.nodes.size = b.nodes.size + name.size := hadded₁.size_nodes
    have hsize₂ : b₂.nodes.size = b.nodes.size + name.size + value.size := by
      rw [hadded₂.size_nodes, hsize₁, sizeOfAll_singleton]
    refine ⟨b₃, ?_, ?_⟩
    · simp only [buildTable, hbuild₁, hbuild₂, hbuild₃, except_bind_ok, hsize₁, hsize₂]
      rfl
    · have hall := hadded.trans hn hadded₃
      rw [addChildren_comp, addChildren_comp, hsize₁, hsize₂] at hall
      exact hall

/-- What a node with properties has besides its children. -/
def withTable (first : Nat) (properties : List (Document × Document)) (x : Node) : Node :=
  { x with
    payload := if properties.isEmpty then x.payload else .properties (table first properties) }

/-- The table of properties is stored once all of them are built. -/
lemma buildProperties_cons (n : Nat) (property : Document × Document)
    (properties : List (Document × Document)) (b : Builder) :
    buildProperties n (property :: properties) b =
      buildTable (property :: properties) b >>= fun built =>
        (granted (built.2.setPayload n (.properties built.1))).map Prod.snd := by
  obtain ⟨name, value⟩ := property
  rw [buildProperties, buildTable]
  cases name.build b with
  | error e => rfl
  | ok built =>
    simp only [except_bind_ok]
    cases value.build built.2 with
    | error e => rfl
    | ok built =>
      simp only [except_bind_ok]
      cases buildTable properties built.2 with
      | error e => rfl
      | ok built => rfl

lemma exists_buildProperties {properties : List (Document × Document)}
    (h : ∀ d ∈ pairs properties, d.Builds) (hb : b.Coherent) (hopened : b.opened = n :: outer) :
    ∃ b', buildProperties n properties b = .ok b' ∧
      Added n (withTable b.nodes.size properties ∘
        addChildren (numbers b.nodes.size (pairs properties))) (pairs properties) b b' := by
  obtain ⟨b₁, hbuild, hadded⟩ := exists_buildTable h hb hopened
  cases properties with
  | nil =>
    cases hbuild
    exact ⟨b, rfl, hadded⟩
  | cons property properties =>
    obtain ⟨name, value⟩ := property
    obtain ⟨b₂, hset, hadded'⟩ := added_setPayload hadded.coherent (hadded.opened.trans hopened)
      (.properties (table b.nodes.size ((name, value) :: properties)))
    have hall := hadded.trans (lt_size_of_opened hopened) hadded'
    rw [List.append_nil] at hall
    refine ⟨b₂, ?_, hall⟩
    rw [buildProperties_cons, hbuild, except_bind_ok, hset]
    rfl

/-- Opening a node and adding its members leaves the node open, and nothing else to be done. -/
lemma exists_filled {d : Document} (h : ∀ m ∈ d.members, m.Builds) (hb : b.Coherent) :
    ∃ (b' : Builder) (x : Node), d.build b = granted b'.close ∧ b'.Coherent ∧
      b'.opened = b.nodes.size :: b.opened ∧ b'.roots = b.roots ∧
      b'.nodes.toList = b.nodes.toList ++ x ::
        rowsOfAll b.nodes.size (b.nodes.size + 1) d.members ∧
      ∀ parent, { x with parent := parent, closed := true } = row parent b.nodes.size d := by
  cases d with
  | node kind literal span children properties =>
    obtain ⟨b₁, hopen, hb₁⟩ : ∃ b₁, b.openNode kind literal.payload span = (b.nodes.size, b₁) ∧
        b₁.Coherent := ⟨_, rfl, hb.openNode kind literal.payload span⟩
    obtain ⟨hnodes₁, hopened, hroots⟩ : b₁.nodes.toList = b.nodes.toList ++
        [⟨kind, literal.payload, span, #[], none, false⟩] ∧
        b₁.opened = b.nodes.size :: b.opened ∧ b₁.roots = b.roots := by
      cases hopen
      exact ⟨Array.toList_push, rfl, rfl⟩
    have hsize₁ : b₁.nodes.size = b.nodes.size + 1 := by
      simpa using congrArg List.length hnodes₁
    obtain ⟨b₂, hproperties, hadded⟩ := exists_buildProperties
      (fun d hd => h d (List.mem_append_left _ hd)) hb₁ hopened
    obtain ⟨b₃, hchildren, hadded'⟩ := exists_buildChildren
      (fun d hd => h d (List.mem_append_right _ hd)) hadded.coherent (hadded.opened.trans hopened)
    have hall := hadded.trans (lt_size_of_opened hopened) hadded'
    have hnodes := hall.nodes
    rw [hnodes₁, hsize₁, ← Array.length_toList, modify_length_append, Array.length_toList,
      List.append_assoc, List.singleton_append] at hnodes
    refine ⟨b₃, _, ?_, hall.coherent, hall.opened.trans hopened, hall.roots.trans hroots, hnodes,
      ?_⟩
    · simp only [build, hopen, hproperties, hchildren, except_bind_ok]
    · intro parent
      have hsize₂ := hadded.size_nodes
      simp only [row, Function.comp_apply, addChildren, withTable, hsize₁, hsize₂, numbers_append,
        List.append_toArray, List.nil_append]

/-- Every document builds. -/
lemma builds (d : Document) : d.Builds := by
  induction d using members_induction with
  | node d ih =>
    intro b n outer hb hopened
    obtain ⟨b₁, x, hbuild, hcoherent, hopened₁, hroots, hnodes, hrow⟩ := exists_filled ih hb
    rw [hopened] at hopened₁
    rcases hcoherent.close_cases with ⟨hnone, -⟩ | ⟨_, _, hone, -⟩ |
      ⟨k, p, outer', b₂, htwo, hclose, hlink, hopened₂, hroots₂⟩
    · rw [hopened₁] at hnone
      cases hnone
    · rw [hopened₁] at hone
      cases hone
    · rw [hopened₁] at htwo
      cases htwo
      have hb₂ := hcoherent.close
      rw [hclose] at hb₂
      refine ⟨b₂, ?_, hb₂, hopened₂.trans hopened.symm, hroots₂.trans hroots, ?_⟩
      · rw [hbuild, hclose]
        rfl
      · have hn : n < b.nodes.toList.length := by simpa using lt_size_of_opened hopened
        have hchild : Node.addChild b.nodes.size = addChildren [b.nodes.size] := by
          funext x
          simp [Node.addChild, addChildren]
        rw [hlink, link, Array.toList_modify, Array.toList_modify, Array.toList_modify, hnodes,
          ← Array.length_toList, modify_length_append, modify_length_append,
          modify_append_of_lt hn, rowsOfAll, rowsOfAll, List.append_nil, rows_eq,
          Array.length_toList, ← hrow, hchild]
        rfl

/-- A document that is built on its own is the only top-level node, and the table consists of its
rows. -/
lemma exists_build_empty (d : Document) :
    ∃ b, d.build .empty = .ok (0, b) ∧ b.opened = [] ∧ b.roots = [0] ∧
      b.nodes.toList = d.rows none 0 := by
  obtain ⟨b₁, x, hbuild, hcoherent, hopened, hroots, hnodes, hrow⟩ :=
    exists_filled (fun m (_ : m ∈ d.members) => builds m) coherent_empty
  rcases hcoherent.close_cases with ⟨hnone, -⟩ | ⟨k, b₂, hone, hclose, hclosed, hopened₂, hroots₂⟩ |
    ⟨_, _, _, _, htwo, -⟩
  · rw [hopened] at hnone
    cases hnone
  · rw [hopened] at hone
    cases hone
    have hparent : x.parent = none := by
      have hnone : parentAt b₁.nodes 0 = none :=
        hcoherent.parentAt_of_mem_opened (hopened ▸ List.mem_cons_self)
      rw [parentAt, nodeAt_eq_getD, hnodes] at hnone
      exact hnone
    refine ⟨b₂, ?_, hopened₂, ?_, ?_⟩
    · rw [hbuild, hclose]
      rfl
    · rw [hroots₂, hroots]
      rfl
    · have hx : x.close = row none 0 d := by
        rw [← hparent]
        exact hrow x.parent
      rw [hclosed, Array.toList_modify, hnodes, rows_eq, ← hx]
      rfl
  · rw [hopened] at htwo
    cases htwo

lemma kind_of_rows {d : Document} {nodes : Array Node} (h : nodes.toList = d.rows none 0) :
    (nodeAt nodes 0).kind = d.kind := by
  rw [nodeAt_eq_getD, h, rows_eq]
  cases d
  rfl

/-- A document with a start node has a tree, whose table consists of its rows. -/
lemma exists_toTree {d : Document} (hd : d.kind = .start) :
    ∃ t, d.toTree = .ok t ∧ t.root = 0 ∧ t.nodes.toList = d.rows none 0 := by
  obtain ⟨b, hbuild, hopened, hroots, hrows⟩ := d.exists_build_empty
  refine ⟨⟨b.nodes, 0, b.growing.ordered⟩, ?_, rfl, hrows⟩
  rw [toTree, hbuild]
  exact finish_eq_ok_iff.mpr ⟨hopened, hroots, rfl, (kind_of_rows hrows).trans hd⟩

/-- Any other document is refused for its outermost node. -/
lemma toTree_of_kind_ne {d : Document} (hd : d.kind ≠ .start) :
    d.toTree = .error (.rootNotStart d.kind) := by
  obtain ⟨b, hbuild, hopened, hroots, hrows⟩ := d.exists_build_empty
  rw [toTree, hbuild, except_bind_ok]
  simp only [finish, hopened, hroots, kind_of_rows hrows, if_neg hd]

/-- A table of properties has the first children of its node, two for each property. -/
lemma flatMap_of_payload {d : Document} {t : Tree} (ht : t.nodes.toList = d.rows none 0)
    {n : Nat} {properties : List (Nat × Nat)} (hpayload : t.payload n = .properties properties) :
    (properties.flatMap fun p => [p.1, p.2]) = (t.children n).take (2 * properties.length) := by
  rw [Tree.payload, Tree.node, nodeAt_eq_getD, ht, List.getD_eq_getElem?_getD] at hpayload
  rw [Tree.children, childrenAt, nodeAt_eq_getD, ht, List.getD_eq_getElem?_getD]
  cases hx : (d.rows none 0)[n]? with
  | none =>
    rw [hx] at hpayload
    cases hpayload
  | some x =>
    rw [hx] at hpayload
    obtain ⟨_, _, _, rfl⟩ := exists_row_of_mem_rows (List.mem_of_getElem? hx)
    exact flatMap_table_row hpayload

end Document

end GridGame
