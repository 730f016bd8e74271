import GridGame.Tree.Builder
import Mathlib.Data.List.Basic

/-!
# Tables of a builder

A builder keeps four things: the table of nodes, the list of open nodes, the list of top-level
nodes, and in each node the links to its parent and its children. `Linked` says how they hang
together. Every event keeps it, also one that is refused, so it holds of every builder that starts
out empty.

Numbers are given out when a node is opened, and a node is attached when it is closed. Between a
node and its parent there are therefore only nodes that were closed in the meantime, below that
parent. `Enclosed` says this of two nodes; it is what makes numbers follow program order.
-/

namespace GridGame

/-! ### Links of a table -/

def parentAt (nodes : Array Node) (n : Nat) : Option Nat := (nodeAt nodes n).parent

def closedAt (nodes : Array Node) (n : Nat) : Bool := (nodeAt nodes n).closed

lemma parentAt_of_size_le {nodes : Array Node} {n : Nat} (h : nodes.size ≤ n) :
    parentAt nodes n = none := by
  simp [parentAt, nodeAt, Node.absent, h]

lemma lt_size_of_parentAt {nodes : Array Node} {n p : Nat} (h : parentAt nodes n = some p) :
    n < nodes.size := by
  by_contra hn
  rw [parentAt_of_size_le (by omega)] at h
  cases h

section Changes

variable (nodes : Array Node)

lemma parentAt_push {x : Node} (hx : x.parent = none) (n : Nat) :
    parentAt (nodes.push x) n = parentAt nodes n := by
  simp only [parentAt, nodeAt_push]
  split_ifs with hn
  · rw [hx, ← parentAt, parentAt_of_size_le (by omega)]
  · rfl

lemma closedAt_push (x : Node) (n : Nat) :
    closedAt (nodes.push x) n = if n = nodes.size then x.closed else closedAt nodes n := by
  simp only [closedAt, nodeAt_push]
  split_ifs <;> rfl

lemma childrenAt_push {x : Node} (hx : x.children = #[]) (n : Nat) :
    childrenAt (nodes.push x) n = childrenAt nodes n := by
  simp only [childrenAt, nodeAt_push]
  split_ifs with hn
  · subst hn
    simp [hx, nodeAt, Node.absent]
  · rfl

/-- A change of a node shows in a field only if it changes that field. -/
lemma apply_nodeAt_modify {α : Type} (field : Node → α) {f : Node → Node}
    (hf : ∀ x, field (f x) = field x) (i n : Nat) :
    field (nodeAt (nodes.modify i f) n) = field (nodeAt nodes n) := by
  rw [nodeAt_modify]
  split_ifs
  · exact hf _
  · rfl

lemma closedAt_close {i : Nat} (h : i < nodes.size) (n : Nat) :
    closedAt (nodes.modify i Node.close) n = if n = i then true else closedAt nodes n := by
  simp only [closedAt, nodeAt_modify]
  by_cases hn : n = i
  · subst hn
    simp [h, Node.close]
  · simp [hn, Ne.symm hn]

lemma parentAt_close (i : Nat) : parentAt (nodes.modify i Node.close) = parentAt nodes :=
  funext fun n => apply_nodeAt_modify nodes Node.parent (f := Node.close) (fun _ => rfl) i n

lemma childrenAt_close (i : Nat) : childrenAt (nodes.modify i Node.close) = childrenAt nodes :=
  funext fun n => congrArg Array.toList
    (apply_nodeAt_modify nodes Node.children (f := Node.close) (fun _ => rfl) i n)

lemma closedAt_link (parent child n : Nat) :
    closedAt (link nodes parent child) n = closedAt nodes n := by
  unfold closedAt link
  rw [apply_nodeAt_modify _ Node.closed (f := Node.addChild child) (fun _ => rfl),
    apply_nodeAt_modify _ Node.closed (f := Node.withParent parent) (fun _ => rfl)]

lemma parentAt_link {parent child : Nat} (h : child < nodes.size) (n : Nat) :
    parentAt (link nodes parent child) n = if n = child then some parent else parentAt nodes n := by
  unfold parentAt link
  rw [apply_nodeAt_modify _ Node.parent (f := Node.addChild child) (fun _ => rfl), nodeAt_modify]
  by_cases hn : n = child
  · subst hn
    simp [h, Node.withParent]
  · simp [hn, Ne.symm hn]

/-- Linking a node that has no parent keeps parents and lists of children in agreement. -/
lemma mem_childrenAt_link_iff {parent child : Nat} (hparent : parent < nodes.size)
    (hchild : child < nodes.size) (hnone : parentAt nodes child = none)
    (h : ∀ n p, n ∈ childrenAt nodes p ↔ parentAt nodes n = some p) (n p : Nat) :
    n ∈ childrenAt (link nodes parent child) p ↔
      parentAt (link nodes parent child) n = some p := by
  rw [mem_childrenAt_link nodes hparent, parentAt_link nodes hchild, h n p]
  by_cases hn : n = child
  · subst hn
    simp [hnone, eq_comm]
  · simp [hn]

end Changes

/-! ### How the parts of a builder hang together -/

/-- Whatever lies strictly between two numbers has a parent that is not before the first. -/
def Enclosed (nodes : Array Node) (p n : Nat) : Prop :=
  ∀ m, p < m → m < n → ∃ q, parentAt nodes m = some q ∧ p ≤ q

/-- The table of nodes, the open nodes (innermost first) and the top-level nodes of a builder agree
with each other. -/
structure Linked (nodes : Array Node) (opened roots : List Nat) : Prop where
  /-- The open nodes are those that are not closed. -/
  mem_opened : ∀ n, n ∈ opened ↔ n < nodes.size ∧ closedAt nodes n = false
  /-- The top-level nodes are the closed nodes without a parent. -/
  mem_roots : ∀ n, n ∈ roots ↔ n < nodes.size ∧ closedAt nodes n = true ∧ parentAt nodes n = none
  roots_sorted : roots.Pairwise (· < ·)
  /-- No node was open when a top-level node was closed. -/
  roots_lt : ∀ r ∈ roots, ∀ n ∈ opened, r < n
  /-- Attached nodes are closed. -/
  closed : ∀ n p, parentAt nodes n = some p → closedAt nodes n = true
  mem_children : ∀ n p, n ∈ childrenAt nodes p ↔ parentAt nodes n = some p
  enclosed : ∀ n p, parentAt nodes n = some p → Enclosed nodes p n
  /-- All that was opened inside an open node and is not on the way to the next one is attached. -/
  opened_enclosed : (nodes.size :: opened).IsChain fun n p => Enclosed nodes p n

lemma Enclosed.mono {nodes nodes' : Array Node} {p n : Nat} (h : Enclosed nodes p n)
    (hp : ∀ m q, parentAt nodes m = some q → parentAt nodes' m = some q) :
    Enclosed nodes' p n := by
  intro m hpm hmn
  obtain ⟨q, hq, hpq⟩ := h m hpm hmn
  exact ⟨q, hp m q hq, hpq⟩

/-- What a node encloses goes on behind one of its children as far as the child encloses it. -/
lemma Enclosed.extend {nodes : Array Node} {p n k : Nat} (hbefore : Enclosed nodes p n)
    (hchild : parentAt nodes n = some p) (hpn : p < n) (hafter : Enclosed nodes n k) :
    Enclosed nodes p k := by
  intro m hpm hmk
  rcases Nat.lt_trichotomy m n with hmn | rfl | hmn
  · exact hbefore m hpm hmn
  · exact ⟨p, hchild, Nat.le_refl p⟩
  · obtain ⟨q, hq, hnq⟩ := hafter m hmn hmk
    exact ⟨q, hq, Nat.le_trans (Nat.le_of_lt hpn) hnq⟩

namespace Linked

variable {nodes : Array Node} {opened roots : List Nat}

lemma empty : Linked #[] [] [] where
  mem_opened := by simp
  mem_roots := by simp
  roots_sorted := .nil
  roots_lt := by simp
  closed := by simp [parentAt, nodeAt, Node.absent]
  mem_children := by simp [childrenAt, parentAt, nodeAt, Node.absent]
  enclosed := by simp [parentAt, nodeAt, Node.absent]
  opened_enclosed := .singleton _

/-- An open node has no parent. -/
lemma parentAt_of_mem_opened (h : Linked nodes opened roots) {n : Nat} (hn : n ∈ opened) :
    parentAt nodes n = none := by
  by_contra hp
  obtain ⟨p, hp⟩ := Option.ne_none_iff_exists'.mp hp
  have hclosed := h.closed n p hp
  rw [((h.mem_opened n).mp hn).2] at hclosed
  cases hclosed

/-- What nodes hold besides their links is of no account. -/
lemma of_eq {nodes' : Array Node} (h : Linked nodes opened roots)
    (hsize : nodes'.size = nodes.size) (hclosed : closedAt nodes' = closedAt nodes)
    (hparent : parentAt nodes' = parentAt nodes)
    (hchildren : childrenAt nodes' = childrenAt nodes) : Linked nodes' opened roots := by
  have hmono : ∀ m q, parentAt nodes m = some q → parentAt nodes' m = some q := by
    intro m q hq
    rw [hparent]
    exact hq
  refine ⟨?_, ?_, h.roots_sorted, h.roots_lt, ?_, ?_, ?_, ?_⟩
  · rw [hsize, hclosed]
    exact h.mem_opened
  · rw [hsize, hclosed, hparent]
    exact h.mem_roots
  · rw [hclosed, hparent]
    exact h.closed
  · rw [hchildren, hparent]
    exact h.mem_children
  · intro n p hp
    rw [hparent] at hp
    exact (h.enclosed n p hp).mono hmono
  · rw [hsize]
    exact h.opened_enclosed.imp fun _ _ he => he.mono hmono

/-- A fresh node may be opened. -/
lemma push (h : Linked nodes opened roots) {x : Node} (hchildren : x.children = #[])
    (hparent : x.parent = none) (hopen : x.closed = false) :
    Linked (nodes.push x) (nodes.size :: opened) roots := by
  have hmono : ∀ m q, parentAt nodes m = some q → parentAt (nodes.push x) m = some q := by
    intro m q hq
    rw [parentAt_push nodes hparent]
    exact hq
  have hlt : ∀ n ∈ opened, n < nodes.size := fun n hn => ((h.mem_opened n).mp hn).1
  have hroots : ∀ r ∈ roots, r < nodes.size := fun r hr => ((h.mem_roots r).mp hr).1
  refine ⟨?_, ?_, h.roots_sorted, ?_, ?_, ?_, ?_, ?_⟩
  · intro n
    rw [Array.size_push, closedAt_push, List.mem_cons, h.mem_opened n]
    by_cases hn : n = nodes.size
    · simp [hn, hopen]
    · simp only [hn, if_false, false_or]
      constructor
      · rintro ⟨hsize, hc⟩
        exact ⟨by omega, hc⟩
      · rintro ⟨hsize, hc⟩
        exact ⟨by omega, hc⟩
  · intro n
    rw [Array.size_push, closedAt_push, parentAt_push nodes hparent, h.mem_roots n]
    by_cases hn : n = nodes.size
    · simp [hn, hopen]
    · simp only [hn, if_false]
      constructor
      · rintro ⟨hsize, hc⟩
        exact ⟨by omega, hc⟩
      · rintro ⟨hsize, hc⟩
        exact ⟨by omega, hc⟩
  · intro r hr n hn
    rcases List.mem_cons.mp hn with rfl | hn
    · exact hroots r hr
    · exact h.roots_lt r hr n hn
  · intro n p hp
    rw [parentAt_push nodes hparent] at hp
    have hn := lt_size_of_parentAt hp
    rw [closedAt_push, if_neg (by omega)]
    exact h.closed n p hp
  · intro n p
    rw [childrenAt_push nodes hchildren, parentAt_push nodes hparent]
    exact h.mem_children n p
  · intro n p hp
    rw [parentAt_push nodes hparent] at hp
    exact (h.enclosed n p hp).mono hmono
  · rw [Array.size_push]
    refine List.isChain_cons_cons.mpr ⟨?_, h.opened_enclosed.imp fun _ _ he => he.mono hmono⟩
    -- nothing was opened since
    intro m hm hm'
    omega

/-- The only open node may become a top-level node. -/
lemma close_root {n : Nat} (h : Linked nodes [n] roots) :
    Linked (nodes.modify n Node.close) [] (roots ++ [n]) := by
  have hn : n < nodes.size := ((h.mem_opened n).mp (by simp)).1
  have hnone : parentAt nodes n = none := h.parentAt_of_mem_opened (by simp)
  have hmono : ∀ m q, parentAt nodes m = some q →
      parentAt (nodes.modify n Node.close) m = some q := by
    intro m q hq
    rw [parentAt_close]
    exact hq
  refine ⟨?_, ?_, ?_, ?_, ?_, ?_, ?_, ?_⟩
  · intro m
    have := h.mem_opened m
    rw [closedAt_close nodes hn, Array.size_modify]
    by_cases hm : m = n <;> simp_all
  · intro m
    rw [closedAt_close nodes hn, Array.size_modify, parentAt_close, List.mem_append,
      List.mem_singleton, h.mem_roots m]
    by_cases hm : m = n
    · subst hm
      simp [hn, hnone]
    · simp [hm]
  · refine List.pairwise_append.mpr ⟨h.roots_sorted, List.pairwise_singleton .., ?_⟩
    intro r hr m hm
    exact h.roots_lt r hr m hm
  · simp
  · intro m p hp
    rw [parentAt_close] at hp
    rw [closedAt_close nodes hn, h.closed m p hp, ite_self]
  · rw [childrenAt_close, parentAt_close]
    exact h.mem_children
  · intro m p hp
    rw [parentAt_close] at hp
    exact (h.enclosed m p hp).mono hmono
  · exact .singleton _

/-- The innermost open node may become the last child of the one around it. -/
lemma close_inner {n p : Nat} {outer : List Nat} (h : Linked nodes (n :: p :: outer) roots)
    (hlt : ∀ m ∈ p :: outer, m < n) :
    Linked (link (nodes.modify n Node.close) p n) (p :: outer) roots := by
  have hn : n < nodes.size := ((h.mem_opened n).mp (by simp)).1
  have hopen : closedAt nodes n = false := ((h.mem_opened n).mp (by simp)).2
  have hnone : parentAt nodes n = none := h.parentAt_of_mem_opened (by simp)
  have hpn : p < n := hlt p (by simp)
  have hclosed : ∀ m, closedAt (link (nodes.modify n Node.close) p n) m =
      if m = n then true else closedAt nodes m := by
    intro m
    rw [closedAt_link, closedAt_close nodes hn]
  have hparent : ∀ m, parentAt (link (nodes.modify n Node.close) p n) m =
      if m = n then some p else parentAt nodes m := by
    intro m
    rw [parentAt_link _ (by simpa using hn), parentAt_close]
  have hmono : ∀ m q, parentAt nodes m = some q →
      parentAt (link (nodes.modify n Node.close) p n) m = some q := by
    intro m q hq
    rw [hparent, if_neg, hq]
    rintro rfl
    rw [hnone] at hq
    cases hq
  obtain ⟨hafter, hchain⟩ := List.isChain_cons_cons.mp h.opened_enclosed
  obtain ⟨hbetween, hchain⟩ := List.isChain_cons_cons.mp hchain
  refine ⟨?_, ?_, h.roots_sorted, ?_, ?_, ?_, ?_, ?_⟩
  · intro m
    rw [hclosed, size_link, Array.size_modify]
    by_cases hm : m = n
    · subst hm
      simp only [if_true, Bool.true_eq_false, and_false, iff_false]
      intro hmem
      exact absurd (hlt m hmem) (by omega)
    · rw [if_neg hm, ← h.mem_opened m, List.mem_cons (a := m) (b := n)]
      simp [hm]
  · intro m
    rw [hclosed, hparent, size_link, Array.size_modify, h.mem_roots m]
    by_cases hm : m = n
    · simp [hm, hopen]
    · simp [hm]
  · intro r hr m hm
    exact h.roots_lt r hr m (List.mem_cons_of_mem _ hm)
  · intro m q hq
    rw [hparent] at hq
    rw [hclosed]
    split_ifs with hm
    · rfl
    · rw [if_neg hm] at hq
      exact h.closed m q hq
  · refine mem_childrenAt_link_iff _ ?_ ?_ ?_ ?_
    · rw [Array.size_modify]
      exact Nat.lt_trans hpn hn
    · rwa [Array.size_modify]
    · rwa [parentAt_close]
    · rw [childrenAt_close, parentAt_close]
      exact h.mem_children
  · intro m q hq
    rw [hparent] at hq
    split_ifs at hq with hm
    · cases hq
      subst hm
      exact hbetween.mono hmono
    · exact (h.enclosed m q hq).mono hmono
  · rw [size_link, Array.size_modify]
    refine List.isChain_cons_cons.mpr ⟨?_, hchain.imp fun _ _ he => he.mono hmono⟩
    -- what follows the parent came before the node, is the node, or came inside it
    exact (hbetween.mono hmono).extend (by rw [hparent, if_pos rfl]) hpn (hafter.mono hmono)

end Linked

/-! ### Steps of a builder -/

namespace Builder

/-- The parts of a builder hang together. -/
def Coherent (b : Builder) : Prop := Linked b.nodes b.opened b.roots

lemma coherent_empty : empty.Coherent := Linked.empty

lemma opened_sorted (b : Builder) : b.opened.Pairwise (· > ·) :=
  b.growing.sorted.imp fun h => h.1

lemma Coherent.openNode {b : Builder} (h : b.Coherent) (kind : Kind) (payload : Payload)
    (span : Span) : (b.openNode kind payload span).2.Coherent :=
  h.push rfl rfl rfl

/-- What closing does to coherent builders: it is refused when no node is open; otherwise it makes
the innermost open node a top-level node or the last child of the node around it. -/
lemma Coherent.close_cases {b : Builder} (h : b.Coherent) :
    (b.opened = [] ∧ b.close = (.error .unbalancedClose, b)) ∨
    (∃ n b', b.opened = [n] ∧ b.close = (.ok n, b') ∧
      b'.nodes = b.nodes.modify n Node.close ∧ b'.opened = [] ∧ b'.roots = b.roots ++ [n]) ∨
    (∃ n p outer b', b.opened = n :: p :: outer ∧ b.close = (.ok n, b') ∧
      b'.nodes = link (b.nodes.modify n Node.close) p n ∧ b'.opened = p :: outer ∧
      b'.roots = b.roots) := by
  unfold Builder.close
  split
  case h_1 hopened => exact .inl ⟨hopened, rfl⟩
  case h_2 n hopened => exact .inr (.inl ⟨n, _, hopened, rfl, rfl, rfl, rfl⟩)
  case h_3 n p outer hopened =>
    refine .inr (.inr ⟨n, p, outer, ?_⟩)
    have hsorted := b.opened_sorted
    rw [hopened] at hsorted
    have hpn : p < n := (List.pairwise_cons.mp hsorted).1 p (by simp)
    have hn : n < b.nodes.size := ((h.mem_opened n).mp (by simp [hopened])).1
    -- the parent is open and the child is not attached, so neither refusal is possible
    have hparent : closedAt (b.nodes.modify n Node.close) p = false := by
      rw [closedAt_close _ hn, if_neg (by omega)]
      exact ((h.mem_opened p).mp (by simp [hopened])).2
    have hchild : parentAt (b.nodes.modify n Node.close) n = none := by
      rw [parentAt_close]
      exact h.parentAt_of_mem_opened (by simp [hopened])
    unfold closedAt at hparent
    unfold parentAt at hchild
    simp only [hparent, hchild, Bool.false_eq_true, if_false, Option.isSome_none]
    exact ⟨_, hopened, rfl, rfl, rfl, rfl⟩

lemma Coherent.close {b : Builder} (h : b.Coherent) : b.close.2.Coherent := by
  rcases h.close_cases with ⟨-, hclose⟩ | ⟨n, b', hopened, hclose, hnodes, hrest, hroots⟩ |
    ⟨n, p, outer, b', hopened, hclose, hnodes, hrest, hroots⟩
  · rw [hclose]
    exact h
  · rw [hclose]
    unfold Coherent at h ⊢
    rw [hopened] at h
    rw [hnodes, hrest, hroots]
    exact h.close_root
  · rw [hclose]
    have hsorted := b.opened_sorted
    unfold Coherent at h ⊢
    rw [hopened] at h hsorted
    rw [hnodes, hrest, hroots]
    exact h.close_inner (List.pairwise_cons.mp hsorted).1

lemma Coherent.close_eq_error_iff {b : Builder} (h : b.Coherent) (err : TreeError) :
    b.close.1 = .error err ↔ b.opened = [] ∧ err = .unbalancedClose := by
  rcases h.close_cases with ⟨hopened, hclose⟩ | ⟨n, b', hopened, hclose, -⟩ |
    ⟨n, p, outer, b', hopened, hclose, -⟩
  · simp [hopened, hclose, eq_comm]
  · simp [hopened, hclose]
  · simp [hopened, hclose]

lemma Coherent.close_of_error {b : Builder} (h : b.Coherent) {err : TreeError}
    (he : b.close.1 = .error err) : b.close.2 = b := by
  have hopened := ((h.close_eq_error_iff err).mp he).1
  rcases h.close_cases with ⟨-, hclose⟩ | ⟨n, b', hsome, -⟩ | ⟨n, p, outer, b', hsome, -⟩
  · rw [hclose]
  · simp [hopened] at hsome
  · simp [hopened] at hsome

/-- A leaf is never refused. -/
lemma Coherent.leaf_ne_error {b : Builder} (h : b.Coherent) (kind : Kind) (payload : Payload)
    (span : Span) (err : TreeError) : (b.leaf kind payload span).1 ≠ .error err := by
  intro he
  have hopened := (((h.openNode kind payload span).close_eq_error_iff err).mp he).1
  simp [Builder.openNode] at hopened

lemma Coherent.setPayload {b : Builder} (h : b.Coherent) (n : Nat) (payload : Payload) :
    (b.setPayload n payload).2.Coherent := by
  simp only [Builder.setPayload]
  split_ifs
  · exact h
  · have hsame {α : Type} (field : Node → α)
        (hf : ∀ x, field (Node.withPayload payload x) = field x) (m : Nat) :
        field (nodeAt (b.nodes.modify n (Node.withPayload payload)) m) =
          field (nodeAt b.nodes m) :=
      apply_nodeAt_modify b.nodes field hf n m
    refine Linked.of_eq h (Array.size_modify ..) ?_ ?_ ?_
    · exact funext (hsame Node.closed fun _ => rfl)
    · exact funext (hsame Node.parent fun _ => rfl)
    · exact funext (hsame (fun x => x.children.toList) fun _ => rfl)

/-- The payload of a node may be replaced exactly as long as the node is open. -/
lemma setPayload_eq_error_iff (b : Builder) {n : Nat} (hn : n < b.nodes.size) (payload : Payload) :
    (∃ err, (b.setPayload n payload).1 = .error err) ↔ closedAt b.nodes n = true := by
  unfold Builder.setPayload closedAt
  by_cases hc : (nodeAt b.nodes n).closed = true
  · simp [hn, hc]
  · simp [hc]

lemma setPayload_of_error (b : Builder) {n : Nat} {payload : Payload} {err : TreeError}
    (he : (b.setPayload n payload).1 = .error err) : (b.setPayload n payload).2 = b := by
  simp only [Builder.setPayload] at he ⊢
  split_ifs at he ⊢
  rfl

/-! ### Runs of a builder -/

lemma Coherent.apply {b : Builder} (h : b.Coherent) (e : BuildEvent) :
    (b.apply e).2.Coherent := by
  cases e with
  | opened kind payload span => exact h.openNode kind payload span
  | leaf kind payload span => exact (h.openNode kind payload span).close
  | closed => exact h.close
  | payload n payload => exact h.setPayload n payload

lemma Coherent.apply_of_error {b : Builder} (h : b.Coherent) {e : BuildEvent} {err : TreeError}
    (he : (b.apply e).1 = .error err) : (b.apply e).2 = b := by
  cases e with
  | opened kind payload span => cases he
  | leaf kind payload span => exact absurd he (h.leaf_ne_error kind payload span err)
  | closed => exact h.close_of_error he
  | payload n payload =>
    have hset : (b.setPayload n payload).1 = .error err := by
      simp only [Builder.apply] at he
      cases hset : (b.setPayload n payload).1 with
      | ok u => simp [hset, Except.map] at he
      | error err' => simpa [hset, Except.map] using he
    exact b.setPayload_of_error hset

lemma Coherent.answers {b : Builder} (h : b.Coherent) (events : List BuildEvent) :
    (b.answers events).2.Coherent := by
  induction events generalizing b with
  | nil => exact h
  | cons e es ih => exact ih (h.apply e)

/-- What the table and the lists of a builder say about each other. -/
structure Consistent (b : Builder) : Prop where
  /-- An inner open node has a higher number than the open nodes around it. -/
  opened_sorted : b.opened.reverse.Pairwise (· < ·)
  mem_opened : ∀ n, n ∈ b.opened ↔ n < b.nodes.size ∧ closedAt b.nodes n = false
  roots_sorted : b.roots.Pairwise (· < ·)
  mem_roots : ∀ n, n ∈ b.roots ↔
    n < b.nodes.size ∧ closedAt b.nodes n = true ∧ parentAt b.nodes n = none
  /-- A closed node that is no top-level node is listed once by its parent and by no other node. -/
  count_children : ∀ n < b.nodes.size, closedAt b.nodes n = true → n ∉ b.roots →
    ∃ p < n, parentAt b.nodes n = some p ∧
      ∀ q, (childrenAt b.nodes q).count n = if q = p then 1 else 0
  children_sorted : ∀ n, (childrenAt b.nodes n).Pairwise (· < ·)
  /-- All that is listed is closed, comes after its parent and is no top-level node. -/
  of_mem_children : ∀ n, ∀ c ∈ childrenAt b.nodes n,
    n < c ∧ c < b.nodes.size ∧ closedAt b.nodes c = true ∧ c ∉ b.roots

lemma children_sorted (b : Builder) (n : Nat) : (childrenAt b.nodes n).Pairwise (· < ·) :=
  (b.growing.ordered.siblings n).imp fun h => h _ (List.mem_cons_self ..)

lemma Coherent.count_children {b : Builder} (h : b.Coherent) {n p : Nat}
    (hp : parentAt b.nodes n = some p) (q : Nat) :
    (childrenAt b.nodes q).count n = if q = p then 1 else 0 := by
  have hnodup : (childrenAt b.nodes q).Nodup := (b.children_sorted q).imp Nat.ne_of_lt
  rw [hnodup.count]
  simp only [h.mem_children n q, hp, Option.some.injEq, eq_comm]

lemma Coherent.consistent {b : Builder} (h : b.Coherent) : b.Consistent where
  opened_sorted := List.pairwise_reverse.mpr b.opened_sorted
  mem_opened := h.mem_opened
  roots_sorted := h.roots_sorted
  mem_roots := h.mem_roots
  count_children := by
    intro n hn hclosed hroot
    obtain ⟨p, hp⟩ : ∃ p, parentAt b.nodes n = some p := by
      apply Option.ne_none_iff_exists'.mp
      intro hnone
      exact hroot ((h.mem_roots n).mpr ⟨hn, hclosed, hnone⟩)
    have hmem : n ∈ childrenAt b.nodes p := (h.mem_children n p).mpr hp
    exact ⟨p, (b.growing.ordered.child p n hmem).1, hp, h.count_children hp⟩
  children_sorted := b.children_sorted
  of_mem_children := by
    intro n c hc
    have hp := (h.mem_children c n).mp hc
    obtain ⟨hlt, hsize⟩ := b.growing.ordered.child n c hc
    refine ⟨hlt, hsize, h.closed c n hp, ?_⟩
    intro hroot
    rw [((h.mem_roots c).mp hroot).2.2] at hp
    cases hp

/-- Whatever events a builder has seen, refused ones included, its parts agree with each other. So
a further event that is refused changes nothing, closing is refused only for want of an open node,
and a payload is kept exactly by the nodes that are closed. -/
theorem consistent_after_events (events : List BuildEvent) :
    let b := (empty.answers events).2
    b.Consistent ∧
      (∀ e err, (b.apply e).1 = .error err → (b.apply e).2 = b) ∧
      (∀ err, b.close.1 = .error err ↔ b.opened = [] ∧ err = .unbalancedClose) ∧
      (∀ kind payload span err, (b.leaf kind payload span).1 ≠ .error err) ∧
      ∀ n < b.nodes.size, ∀ payload,
        (∃ err, (b.setPayload n payload).1 = .error err) ↔ closedAt b.nodes n = true := by
  intro b
  have h : b.Coherent := coherent_empty.answers events
  refine ⟨h.consistent, ?_, h.close_eq_error_iff, h.leaf_ne_error, ?_⟩
  · intro e err he
    exact h.apply_of_error he
  · intro n hn payload
    exact b.setPayload_eq_error_iff hn payload

end Builder

end GridGame
