import GridGame.Tree

/-!
# Building trees

A builder grows a table of nodes the way a parser recognises constructs: a node is opened, the
nodes opened and closed in the meantime become its children, and it is closed. Closing attaches
a node to the innermost node still open, or makes it a top-level node when none is.

Open nodes are listed innermost first. An open node comes after the outer ones and after all that
is attached to them, which is why every table a builder produces is in order.
-/

namespace GridGame

/-- Why a step of building a tree, or finishing it, is refused. -/
inductive TreeError where
  | nodeClosed (kind : Kind) (span : Span)
  | alreadyParented (kind : Kind) (span : Span)
  | unbalancedClose
  | unclosed (kind : Kind) (span : Span)
  | emptyTree
  | multipleRoots (count : Nat)
  | rootNotStart (kind : Kind)
deriving DecidableEq, Inhabited

def TreeError.message : TreeError → String
  | .nodeClosed kind span => s!"{kind.label} node at {span.text} is closed and can no longer change"
  | .alreadyParented kind span => s!"{kind.label} node at {span.text} already has a parent"
  | .unbalancedClose => "close called without a matching open"
  | .unclosed kind span => s!"{kind.label} node at {span.text} was never closed"
  | .emptyTree => "tree is empty"
  | .multipleRoots count => s!"tree has {count} top-level nodes, expected a single Start node"
  | .rootNotStart kind => s!"tree is rooted at a {kind.label} node, expected Start"

/-! ### Tables of nodes -/

def Node.close (x : Node) : Node := { x with closed := true }

def Node.withPayload (payload : Payload) (x : Node) : Node := { x with payload := payload }

def Node.withParent (parent : Nat) (x : Node) : Node := { x with parent := some parent }

def Node.addChild (child : Nat) (x : Node) : Node := { x with children := x.children.push child }

theorem nodeAt_push (nodes : Array Node) (x : Node) (n : Nat) :
    nodeAt (nodes.push x) n = if n = nodes.size then x else nodeAt nodes n := by
  simp only [nodeAt, Array.getD_eq_getD_getElem?, Array.getElem?_push]
  split <;> simp_all

theorem nodeAt_modify (nodes : Array Node) (i : Nat) (f : Node → Node) (n : Nat) :
    nodeAt (nodes.modify i f) n =
      if i = n ∧ n < nodes.size then f (nodeAt nodes n) else nodeAt nodes n := by
  simp only [nodeAt, Array.getD_eq_getD_getElem?, Array.getElem?_modify]
  by_cases hi : i = n
  · subst hi
    by_cases hn : i < nodes.size
    · simp [hn]
    · simp [hn]
  · simp [hi]

def link (nodes : Array Node) (parent child : Nat) : Array Node :=
  (nodes.modify child (Node.withParent parent)).modify parent (Node.addChild child)

@[simp] theorem size_link (nodes : Array Node) (parent child : Nat) :
    (link nodes parent child).size = nodes.size := by
  simp [link]

/-- A link adds the child at the end of its parent's list. -/
theorem childrenAt_link (nodes : Array Node) {parent child : Nat} (h : parent < nodes.size)
    (n : Nat) :
    childrenAt (link nodes parent child) n =
      if n = parent then childrenAt nodes n ++ [child] else childrenAt nodes n := by
  have hparent : ∀ x : Node, (Node.withParent parent x).children = x.children := fun _ => rfl
  have hchildren : ∀ x : Node, (Node.addChild child x).children = x.children.push child :=
    fun _ => rfl
  simp only [childrenAt, link, nodeAt_modify, Array.size_modify]
  by_cases hn : n = parent
  · subst hn
    simp only [true_and, h, ↓reduceIte, hchildren]
    split <;> simp [hparent]
  · have hn' : ¬parent = n := fun e => hn e.symm
    simp only [hn, hn', false_and, ↓reduceIte]
    split <;> simp [hparent]

/-- A link makes one node a child of one other, and changes nothing else about who is whose
child. -/
theorem mem_childrenAt_link (nodes : Array Node) {parent child : Nat} (h : parent < nodes.size)
    {n c : Nat} :
    c ∈ childrenAt (link nodes parent child) n ↔
      c ∈ childrenAt nodes n ∨ n = parent ∧ c = child := by
  rw [childrenAt_link nodes h]
  by_cases hn : n = parent
  · simp [hn]
  · simp [hn]

/-- A link sets the child's parent. -/
theorem parent_link {nodes : Array Node} {parent child n p : Nat}
    (h : (nodeAt (link nodes parent child) n).parent = some p) :
    (nodeAt nodes n).parent = some p ∨ (n = child ∧ p = parent) := by
  have hadd : ∀ x : Node, (Node.addChild child x).parent = x.parent := fun _ => rfl
  simp only [link, nodeAt_modify] at h
  rw [apply_ite Node.parent, hadd, ite_self] at h
  split at h
  · rename_i hn
    exact .inr ⟨hn.1.symm, (Option.some.inj h).symm⟩
  · exact .inl h

/-! ### Tables that are still growing -/

/-- The order of a table of which some nodes are still open, innermost first. -/
structure Growing (nodes : Array Node) (opened : List Nat) : Prop where
  ordered : Ordered nodes
  /-- Open nodes are in the table. -/
  lt_size : ∀ n ∈ opened, n < nodes.size
  /-- No open node has been attached. -/
  detached : ∀ n, ∀ c ∈ childrenAt nodes n, c ∉ opened
  /-- An open node comes after every outer one, and after what is attached there. -/
  sorted : opened.Pairwise fun n p =>
    p < n ∧ ∀ a ∈ childrenAt nodes p, ∀ c ∈ a :: childrenAt nodes a, c < n

namespace Growing

theorem empty : Growing #[] [] where
  ordered := ⟨by simp [childrenAt, nodeAt, Node.absent], by simp [nodeAt, Node.absent],
    by simp [childrenAt, nodeAt, Node.absent]⟩
  lt_size := by simp
  detached := by simp
  sorted := .nil

/-- The table may be replaced by one with the same relations. -/
theorem of_eq {nodes nodes' : Array Node} {opened : List Nat} (h : Growing nodes opened)
    (hsize : nodes'.size = nodes.size)
    (hchildren : ∀ n, (nodeAt nodes' n).children = (nodeAt nodes n).children)
    (hparent : ∀ n, (nodeAt nodes' n).parent = (nodeAt nodes n).parent) :
    Growing nodes' opened := by
  have hc : childrenAt nodes' = childrenAt nodes := funext fun n => by
    simp [childrenAt, hchildren]
  refine ⟨⟨?_, ?_, ?_⟩, ?_, ?_, ?_⟩
  · rw [hc, hsize]
    exact h.ordered.child
  · intro n p hp
    rw [hc]
    exact h.ordered.parent n p (hparent n ▸ hp)
  · rw [hc]
    exact h.ordered.siblings
  · rw [hsize]
    exact h.lt_size
  · rw [hc]
    exact h.detached
  · rw [hc]
    exact h.sorted

/-- A change of a node that keeps its relations keeps the order. -/
theorem modify {nodes : Array Node} {opened : List Nat} (h : Growing nodes opened) (i : Nat)
    (f : Node → Node) (hc : ∀ x, (f x).children = x.children)
    (hp : ∀ x, (f x).parent = x.parent) : Growing (nodes.modify i f) opened := by
  refine h.of_eq (Array.size_modify ..) (fun n => ?_) (fun n => ?_)
  · rw [nodeAt_modify]
    split
    · exact hc _
    · rfl
  · rw [nodeAt_modify]
    split
    · exact hp _
    · rfl

/-- A fresh node without relations may be opened. -/
theorem push {nodes : Array Node} {opened : List Nat} (h : Growing nodes opened) {x : Node}
    (hc : x.children = #[]) (hp : x.parent = none) :
    Growing (nodes.push x) (nodes.size :: opened) := by
  have hnil : childrenAt nodes nodes.size = [] := by
    simp [childrenAt, nodeAt, Node.absent]
  have hchildren : childrenAt (nodes.push x) = childrenAt nodes := funext fun n => by
    by_cases hn : n = nodes.size
    · subst hn
      rw [hnil]
      simp [childrenAt, nodeAt_push, hc]
    · simp [childrenAt, nodeAt_push, hn]
  have hlt : ∀ n, ∀ c ∈ childrenAt nodes n, c < nodes.size :=
    fun n c hmem => (h.ordered.child n c hmem).2
  refine ⟨⟨?_, ?_, ?_⟩, ?_, ?_, ?_⟩
  · intro n c hmem
    rw [hchildren] at hmem
    have := h.ordered.child n c hmem
    rw [Array.size_push]
    omega
  · intro n p hpar
    rw [nodeAt_push] at hpar
    rw [hchildren]
    split at hpar
    · simp [hp] at hpar
    · exact h.ordered.parent n p hpar
  · rw [hchildren]
    exact h.ordered.siblings
  · intro n hn
    rw [Array.size_push]
    rcases List.mem_cons.1 hn with rfl | hn
    · omega
    · have := h.lt_size n hn
      omega
  · intro n c hmem
    rw [hchildren] at hmem
    have := hlt n c hmem
    have := h.detached n c hmem
    simp only [List.mem_cons, not_or]
    exact ⟨by omega, this⟩
  · rw [hchildren]
    refine List.pairwise_cons.2 ⟨fun p hmem => ⟨h.lt_size p hmem, ?_⟩, h.sorted⟩
    intro a ha c hc
    rcases List.mem_cons.1 hc with rfl | hc
    · exact hlt _ _ ha
    · exact hlt _ _ hc

/-- The innermost open node may be taken off the list as it is. -/
theorem tail {nodes : Array Node} {n : Nat} {outer : List Nat} (h : Growing nodes (n :: outer)) :
    Growing nodes outer where
  ordered := h.ordered
  lt_size := fun m hm => h.lt_size m (List.mem_cons_of_mem _ hm)
  detached := fun m c hc hm => h.detached m c hc (List.mem_cons_of_mem _ hm)
  sorted := (List.pairwise_cons.1 h.sorted).2

/-- The innermost open node may be attached to the one around it. -/
theorem link {nodes : Array Node} {n p : Nat} {outer : List Nat}
    (h : Growing nodes (n :: p :: outer)) : Growing (GridGame.link nodes p n) (p :: outer) := by
  obtain ⟨hn, hsorted⟩ := List.pairwise_cons.1 h.sorted
  obtain ⟨hp, _⟩ := List.pairwise_cons.1 hsorted
  have hpn : p < n := (hn p (by simp)).1
  have hnsize : n < nodes.size := h.lt_size n (by simp)
  have hpsize : p < nodes.size := by omega
  -- the parent is open, so it is nobody's child, and children's own lists stay as they are
  have hsame : ∀ m, ∀ a ∈ childrenAt nodes m,
      childrenAt (GridGame.link nodes p n) a = childrenAt nodes a := by
    intro m a ha
    rw [childrenAt_link nodes hpsize, if_neg]
    rintro rfl
    exact h.detached m a ha (by simp)
  refine ⟨⟨?_, ?_, ?_⟩, ?_, ?_, ?_⟩
  · intro m c hmem
    rw [size_link]
    rcases (mem_childrenAt_link nodes hpsize).1 hmem with hmem | ⟨rfl, rfl⟩
    · exact h.ordered.child m c hmem
    · exact ⟨hpn, hnsize⟩
  · intro m q hq
    rw [mem_childrenAt_link nodes hpsize]
    exact (parent_link hq).imp (h.ordered.parent m q) And.symm
  · intro m
    have hold : (childrenAt nodes m).Pairwise fun a b =>
        ∀ c ∈ a :: childrenAt (GridGame.link nodes p n) a, c < b := by
      refine (h.ordered.siblings m).imp_of_mem fun {a b} ha _ hab => ?_
      rw [hsame m a ha]
      exact hab
    rw [childrenAt_link nodes hpsize]
    split
    · rename_i hm
      subst hm
      refine List.pairwise_append.2 ⟨hold, List.pairwise_singleton .., ?_⟩
      intro a ha b hb
      rw [List.mem_singleton] at hb
      subst hb
      rw [hsame m a ha]
      exact (hn m (by simp)).2 a ha
    · exact hold
  · intro m hm
    rw [size_link]
    exact h.lt_size m (List.mem_cons_of_mem _ hm)
  · intro m c hmem hc
    rcases (mem_childrenAt_link nodes hpsize).1 hmem with hmem | ⟨rfl, rfl⟩
    · exact h.detached m c hmem (List.mem_cons_of_mem _ hc)
    · exact Nat.lt_irrefl c (hn c hc).1
  · refine hsorted.imp_of_mem fun {m q} hm hq hmq => ⟨hmq.1, ?_⟩
    intro a ha c hc
    rcases (mem_childrenAt_link nodes hpsize).1 ha with ha | ⟨rfl, rfl⟩
    · rw [hsame q a ha] at hc
      exact hmq.2 a ha c hc
    · -- an open node around the parent would come before it
      exfalso
      rcases List.mem_cons.1 hm with rfl | hm
      · exact Nat.lt_irrefl _ hmq.1
      · exact Nat.lt_asymm hmq.1 (hp m hm).1

end Growing

/-! ### Builders -/

/-- A tree under construction. -/
structure Builder where
  nodes : Array Node
  /-- The nodes not yet closed, innermost first. -/
  opened : List Nat
  /-- The closed nodes that have no parent, in the order of closing. -/
  roots : List Nat
  growing : Growing nodes opened

namespace Builder

def empty : Builder := ⟨#[], [], [], .empty⟩

/-- Open a node. It gets the next number. -/
def openNode (b : Builder) (kind : Kind) (payload : Payload) (span : Span) : Nat × Builder :=
  (b.nodes.size,
    { nodes := b.nodes.push ⟨kind, payload, span, #[], none, false⟩
      opened := b.nodes.size :: b.opened
      roots := b.roots
      growing := b.growing.push rfl rfl })

/-- Close the innermost open node. It becomes the last child of the node opened before it, or a
top-level node. A node that cannot be attached is off the list and closed all the same. -/
def close (b : Builder) : Except TreeError Nat × Builder :=
  match h : b.opened with
  | [] => (.error .unbalancedClose, b)
  | [n] =>
    (.ok n,
      { nodes := b.nodes.modify n Node.close
        opened := []
        roots := b.roots ++ [n]
        growing := ((h ▸ b.growing).modify n Node.close (fun _ => rfl) fun _ => rfl).tail })
  | n :: p :: outer =>
    let nodes := b.nodes.modify n Node.close
    have growing : Growing nodes (n :: p :: outer) :=
      (h ▸ b.growing).modify n Node.close (fun _ => rfl) fun _ => rfl
    let detached : Builder := ⟨nodes, p :: outer, b.roots, growing.tail⟩
    let parent := nodeAt nodes p
    let child := nodeAt nodes n
    if parent.closed then
      (.error (.nodeClosed parent.kind parent.span), detached)
    else if child.parent.isSome then
      (.error (.alreadyParented child.kind child.span), detached)
    else
      (.ok n, ⟨link nodes p n, p :: outer, b.roots, growing.link⟩)

/-- Open a node and close it at once. -/
def leaf (b : Builder) (kind : Kind) (payload : Payload) (span : Span) :
    Except TreeError Nat × Builder :=
  (b.openNode kind payload span).2.close

/-- Replace what a node holds, as long as it is open. -/
def setPayload (b : Builder) (n : Nat) (payload : Payload) : Except TreeError Unit × Builder :=
  let x := nodeAt b.nodes n
  if n < b.nodes.size ∧ x.closed = true then
    (.error (.nodeClosed x.kind x.span), b)
  else
    (.ok (),
      { b with
        nodes := b.nodes.modify n (Node.withPayload payload)
        growing := b.growing.modify n (Node.withPayload payload) (fun _ => rfl) fun _ => rfl })

/-- What a step answers, together with the builder to go on with, unless it was refused. -/
def granted {α : Type} (step : Except TreeError α × Builder) : Except TreeError (α × Builder) :=
  step.1.map fun answer => (answer, step.2)

/-- Hand over the tree: every node must be closed, and the only top-level node must be a start
node. -/
def finish (b : Builder) : Except TreeError Tree :=
  match b.opened with
  | n :: _ => .error (.unclosed (nodeAt b.nodes n).kind (nodeAt b.nodes n).span)
  | [] =>
    match b.roots with
    | [] => .error .emptyTree
    | [root] =>
      if (nodeAt b.nodes root).kind = .start then
        .ok ⟨b.nodes, root, b.growing.ordered⟩
      else
        .error (.rootNotStart (nodeAt b.nodes root).kind)
    | roots => .error (.multipleRoots roots.length)

end Builder

/-! ### Events -/

/-- A step of a parser that reports what it recognises. -/
inductive BuildEvent where
  | opened (kind : Kind) (payload : Payload) (span : Span)
  | leaf (kind : Kind) (payload : Payload) (span : Span)
  | closed
  | payload (node : Nat) (payload : Payload)
deriving DecidableEq, Inhabited

namespace Builder

/-- Take one event. The number is that of the node concerned. -/
def apply (b : Builder) : BuildEvent → Except TreeError Nat × Builder
  | .opened kind payload span =>
    let (n, b') := b.openNode kind payload span
    (.ok n, b')
  | .leaf kind payload span => b.leaf kind payload span
  | .closed => b.close
  | .payload n payload =>
    let (answer, b') := b.setPayload n payload
    (answer.map fun _ => n, b')

/-- Take every event up to the first that is refused. -/
def applyAll (b : Builder) : List BuildEvent → Except TreeError Builder
  | [] => .ok b
  | e :: es =>
    match b.apply e with
    | (.ok _, b') => b'.applyAll es
    | (.error err, _) => .error err

/-- The answer to every event in turn, and the builder after all of them. Events are taken also
after one that is refused. -/
def answers (b : Builder) : List BuildEvent → List (Except TreeError Nat) × Builder
  | [] => ([], b)
  | e :: es =>
    let (answer, b') := b.apply e
    let (rest, last) := b'.answers es
    (answer :: rest, last)

end Builder

def Tree.ofEvents (events : List BuildEvent) : Except TreeError Tree :=
  match Builder.empty.applyAll events with
  | .ok b => b.finish
  | .error err => .error err

end GridGame
