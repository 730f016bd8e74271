import GridGame.Proofs.Building
import Mathlib.Data.List.Induction
import Mathlib.Data.List.Sort

/-!
# Numbers follow program order

In a finished tree the links lead from the root to every node in exactly one way, and a node has
the number that it has in program order. The subtree of a node is a range of numbers that starts at
the node, and numbers fall along the way from a node to the root.

All of this rests on one fact that a builder keeps: whatever lies between a node and its parent is
below that parent (`Enclosed`).
-/

namespace GridGame

namespace Tree

/-- A tree that a builder hands over after some events, refused ones included. -/
def Finished (t : Tree) : Prop :=
  ∃ events, (Builder.empty.answers events).2.finish = .ok t

/-- The links of a finished tree. -/
structure Numbered (t : Tree) : Prop where
  root_lt : t.root < t.size
  /-- Only the root has no parent. -/
  parent_eq_none : ∀ n < t.size, t.parent? n = none ↔ n = t.root
  mem_children : ∀ n p, n ∈ t.children p ↔ t.parent? n = some p
  enclosed : ∀ n p, t.parent? n = some p → Enclosed t.nodes p n

/-! ### Ancestors -/

variable {t : Tree}

lemma ancestors_of_parent {n p : Nat} (h : t.parent? n = some p) :
    t.ancestors n = p :: t.ancestors p := by
  rw [ancestors]
  split
  · next q hq =>
    rw [h] at hq
    cases hq
    rfl
  · next hq =>
    rw [h] at hq
    cases hq

lemma ancestors_of_top {n : Nat} (h : t.parent? n = none) : t.ancestors n = [] := by
  rw [ancestors]
  split
  · next q hq =>
    rw [h] at hq
    cases hq
  · rfl

/-- The node `n` is `a` or lies below it. -/
def Within (t : Tree) (a n : Nat) : Prop := a ∈ n :: t.ancestors n

lemma within_refl (a : Nat) : t.Within a a := List.mem_cons_self ..

lemma within_of_parent {a n p : Nat} (h : t.parent? n = some p) :
    t.Within a n ↔ a = n ∨ t.Within a p := by
  unfold Within
  rw [List.mem_cons, ancestors_of_parent h]

lemma within_top {a n : Nat} (h : t.parent? n = none) : t.Within a n ↔ a = n := by
  unfold Within
  rw [ancestors_of_top h, List.mem_singleton]

/-- Numbers fall on the way to the root. -/
lemma pairwise_ancestors (t : Tree) (n : Nat) : (n :: t.ancestors n).Pairwise (· > ·) := by
  fun_induction ancestors t n with
  | case1 n p hp ih =>
    refine List.pairwise_cons.mpr ⟨?_, ih⟩
    have hpn := lt_of_parent? hp
    intro a ha
    rcases List.mem_cons.mp ha with rfl | ha
    · exact hpn
    · have := (List.pairwise_cons.mp ih).1 a ha
      omega
  | case2 n hp => exact List.pairwise_singleton ..

lemma le_of_within {a n : Nat} (h : t.Within a n) : a ≤ n := by
  rcases List.mem_cons.mp h with rfl | h
  · exact Nat.le_refl _
  · exact Nat.le_of_lt ((List.pairwise_cons.mp (t.pairwise_ancestors n)).1 a h)

lemma Within.trans {a b c : Nat} (hab : t.Within a b) (hbc : t.Within b c) : t.Within a c := by
  induction c using Nat.strong_induction_on with
  | _ c ih =>
    cases hp : t.parent? c with
    | none =>
      rw [within_top hp] at hbc
      exact hbc ▸ hab
    | some p =>
      rcases (within_of_parent hp).mp hbc with rfl | hbp
      · exact hab
      · exact (within_of_parent hp).mpr (.inr (ih p (lt_of_parent? hp) hbp))

namespace Numbered

variable (h : t.Numbered)
include h

lemma within_of_mem_children {n c : Nat} (hc : c ∈ t.children n) : t.Within n c :=
  (within_of_parent ((h.mem_children c n).mp hc)).mpr (.inr (within_refl n))

/-- What lies between a node and its parent is below that parent. -/
lemma within_of_between_parent {n p m : Nat} (hp : t.parent? n = some p) (hpm : p ≤ m)
    (hmn : m < n) : t.Within p m := by
  induction m using Nat.strong_induction_on with
  | _ m ih =>
    rcases Nat.eq_or_lt_of_le hpm with rfl | hpm
    · exact within_refl _
    · obtain ⟨q, hq, hpq⟩ := h.enclosed n p hp m hpm hmn
      have hqm : q < m := lt_of_parent? (show t.parent? m = some q from hq)
      exact (within_of_parent hq).mpr (.inr (ih q hqm hpq (by omega)))

/-- A subtree contains all numbers between its first node and any other. -/
lemma within_of_between {a n m : Nat} (han : t.Within a n) (ham : a ≤ m) (hmn : m ≤ n) :
    t.Within a m := by
  induction n using Nat.strong_induction_on with
  | _ n ih =>
    rcases Nat.eq_or_lt_of_le hmn with rfl | hmn
    · exact han
    · cases hp : t.parent? n with
      | none =>
        have := (within_top hp).mp han
        omega
      | some p =>
        rcases (within_of_parent hp).mp han with rfl | hap
        · omega
        · have hpn := lt_of_parent? hp
          rcases Nat.lt_or_ge m p with hmp | hpm
          · exact ih p hpn hap (Nat.le_of_lt hmp)
          · exact hap.trans (h.within_of_between_parent hp hpm hmn)

lemma within_root {n : Nat} : t.Within t.root n ↔ n < t.size := by
  constructor
  · intro hn
    by_contra hsize
    have hnone : t.parent? n = none := parentAt_of_size_le (by unfold size at hsize; omega)
    have hroot := h.root_lt
    rw [within_top hnone] at hn
    omega
  · intro hn
    induction n using Nat.strong_induction_on with
    | _ n ih =>
      cases hp : t.parent? n with
      | none =>
        rw [(h.parent_eq_none n hn).mp hp]
        exact within_refl _
      | some p =>
        have hpn := lt_of_parent? hp
        exact (within_of_parent hp).mpr (.inr (ih p hpn (by omega)))

lemma lt_size_below {n m : Nat} (hn : n < t.size) (hm : t.Within n m) : m < t.size :=
  h.within_root.mp ((h.within_root.mpr hn).trans hm)

end Numbered

/-! ### Subtrees -/

/-- What holds of a node whenever it holds of its children holds of every node. -/
lemma children_induction (t : Tree) {P : Nat → Prop}
    (hP : ∀ n, (∀ c ∈ t.children n, P c) → P n) (n : Nat) : P n := by
  induction hk : t.size - n using Nat.strong_induction_on generalizing n with
  | _ k ih =>
    apply hP
    intro c hc
    exact ih (t.size - c) (hk ▸ size_sub_lt hc) c rfl

lemma mem_subtree_self (t : Tree) (n : Nat) : n ∈ t.subtree n := by
  rw [subtree_eq]
  exact List.mem_cons_self ..

lemma mem_subtree_of_mem_children {n p c : Nat} (hp : p ∈ t.subtree n)
    (hc : c ∈ t.children p) : c ∈ t.subtree n := by
  induction n using t.children_induction with
  | hP n ih =>
    rw [subtree_eq, List.mem_cons, List.mem_flatMap] at hp ⊢
    rcases hp with rfl | ⟨b, hb, hp⟩
    · exact .inr ⟨c, hc, t.mem_subtree_self c⟩
    · exact .inr ⟨b, hb, ih b hb hp⟩

/-- A walk goes through the subtrees of the nodes it starts with, one after the other. -/
lemma walk_eq_flatMap (t : Tree) (pending : List Nat) :
    t.walk pending = pending.flatMap t.subtree := by
  fun_induction walk t pending with
  | case1 => rfl
  | case2 n rest ih =>
    rw [ih, List.flatMap_append, List.flatMap_cons, t.subtree_eq n, List.cons_append]

lemma preorder_eq_subtree (t : Tree) : t.preorder = t.subtree t.root := by
  rw [preorder, walk_eq_flatMap, List.flatMap_singleton]

lemma subtree_infix_of_mem_children {n c : Nat} (hc : c ∈ t.children n) :
    t.subtree c <:+: t.subtree n := by
  obtain ⟨before, after, hsplit⟩ := List.append_of_mem hc
  refine ⟨n :: before.flatMap t.subtree, after.flatMap t.subtree, ?_⟩
  rw [t.subtree_eq n, hsplit]
  simp

namespace Numbered

variable (h : t.Numbered)
include h

lemma mem_subtree {n m : Nat} : m ∈ t.subtree n ↔ t.Within n m := by
  constructor
  · intro hm
    induction n using t.children_induction with
    | hP n ih =>
      rw [subtree_eq, List.mem_cons, List.mem_flatMap] at hm
      rcases hm with rfl | ⟨c, hc, hm⟩
      · exact within_refl _
      · exact (h.within_of_mem_children hc).trans (ih c hc hm)
  · intro hm
    induction m using Nat.strong_induction_on with
    | _ m ih =>
      cases hp : t.parent? m with
      | none =>
        rw [(within_top hp).mp hm]
        exact t.mem_subtree_self m
      | some p =>
        rcases (within_of_parent hp).mp hm with rfl | hm
        · exact t.mem_subtree_self _
        · exact mem_subtree_of_mem_children (ih p (lt_of_parent? hp) hm)
            (mem_children_of_parent? hp)

/-- All nodes below a child come before the next child. -/
lemma lt_of_mem_subtree {n a b m : Nat} (ha : a ∈ t.children n) (hb : b ∈ t.children n)
    (hab : a < b) (hm : m ∈ t.subtree a) : m < b := by
  by_contra hbm
  have hwithin : t.Within a b :=
    h.within_of_between (h.mem_subtree.mp hm) (Nat.le_of_lt hab) (by omega)
  rcases (within_of_parent ((h.mem_children b n).mp hb)).mp hwithin with rfl | han
  · omega
  · have := le_of_within han
    have := lt_of_mem_children ha
    omega

lemma subtree_sorted (n : Nat) : (t.subtree n).Pairwise (· < ·) := by
  induction n using t.children_induction with
  | hP n ih =>
    rw [subtree_eq]
    refine List.pairwise_cons.mpr ⟨?_, List.pairwise_flatMap.mpr ⟨ih, ?_⟩⟩
    · intro m hm
      obtain ⟨c, hc, hm⟩ := List.mem_flatMap.mp hm
      have := lt_of_mem_children hc
      have := le_of_within (h.mem_subtree.mp hm)
      omega
    · refine (t.ordered.siblings n).imp_of_mem fun {a b} ha hb hab x hx y hy => ?_
      have hlt := h.lt_of_mem_subtree ha hb (hab a (List.mem_cons_self ..)) hx
      have hle := le_of_within (h.mem_subtree.mp hy)
      omega

/-- The walk through the whole tree takes up every node once, in the order of numbers. -/
lemma preorder_eq_range : t.preorder = List.range t.size := by
  rw [preorder_eq_subtree]
  refine (h.subtree_sorted t.root).eq_of_mem_iff List.pairwise_lt_range ?_
  intro m
  rw [h.mem_subtree, h.within_root, List.mem_range]

lemma subtree_infix_range {n : Nat} (hn : n < t.size) :
    t.subtree n <:+: List.range t.size := by
  rw [← h.preorder_eq_range, preorder_eq_subtree]
  induction n using Nat.strong_induction_on with
  | _ n ih =>
    cases hp : t.parent? n with
    | none =>
      obtain rfl := (h.parent_eq_none n hn).mp hp
      exact List.infix_refl _
    | some p =>
      have hpn := lt_of_parent? hp
      exact (subtree_infix_of_mem_children (mem_children_of_parent? hp)).trans
        (ih p hpn (by omega))

/-- A subtree is a range of numbers. -/
lemma subtree_eq_range' {n : Nat} (hn : n < t.size) :
    t.subtree n = List.range' n (t.subtree n).length := by
  obtain ⟨before, after, hsplit⟩ := h.subtree_infix_range hn
  have hget : ∀ i (hi : i < (t.subtree n).length),
      (t.subtree n)[i] = before.length + i := by
    intro i hi
    have hrange : (List.range t.size)[before.length + i]? = some (t.subtree n)[i] := by
      rw [← hsplit, List.append_assoc, List.getElem?_append_right (by omega),
        List.getElem?_append_left (by omega), Nat.add_sub_cancel_left,
        List.getElem?_eq_getElem hi]
    rw [List.getElem?_eq_some_iff] at hrange
    obtain ⟨_, hrange⟩ := hrange
    rw [← hrange, List.getElem_range]
  have hfirst : n = before.length := by
    have := hget 0 (by rw [subtree_eq]; exact Nat.succ_pos _)
    simpa [t.subtree_eq n] using this
  apply List.ext_getElem
  · simp
  · intro i hi hi'
    rw [hget i hi, List.getElem_range', ← hfirst]
    omega

end Numbered

/-! ### Positions -/

/-- Writing numbers to their own places leaves them there. -/
lemma getD_foldl_setIfInBounds (numbers : List Nat) (places : Array Nat) (n : Nat) :
    ((numbers.map fun i => (i, i)).foldl (fun places (i, k) => places.setIfInBounds i k)
      places).getD n 0 = if n ∈ numbers ∧ n < places.size then n else places.getD n 0 := by
  induction numbers generalizing places with
  | nil => simp
  | cons i rest ih =>
    rw [List.map_cons, List.foldl_cons, ih]
    simp only [Array.size_setIfInBounds, List.mem_cons, Array.getD_eq_getD_getElem?,
      Array.getElem?_setIfInBounds]
    by_cases hi : i = n
    · subst hi
      by_cases hsize : i < places.size
      · simp [hsize]
      · simp [hsize]
    · simp [hi, Ne.symm hi]

lemma zipIdx_range (k : Nat) : (List.range k).zipIdx = (List.range k).map fun i => (i, i) := by
  apply List.ext_getElem
  · simp
  · intro i hi hi'
    simp

lemma Numbered.preorderIndex_eq (h : t.Numbered) {n : Nat} (hn : n < t.size) :
    t.preorderIndex n = n := by
  rw [preorderIndex, positions, h.preorder_eq_range, zipIdx_range, getD_foldl_setIfInBounds,
    if_pos ⟨List.mem_range.mpr hn, by simpa using hn⟩]

/-! ### Paths -/

/-- The node to which a path leads that names at each node the position of the child to go to. -/
def descend? (t : Tree) (n : Nat) : List Nat → Option Nat
  | [] => some n
  | i :: path => (t.child? n i).bind fun c => t.descend? c path

lemma descend?_append (t : Tree) (n : Nat) (path rest : List Nat) :
    t.descend? n (path ++ rest) = (t.descend? n path).bind fun m => t.descend? m rest := by
  induction path generalizing n with
  | nil => rfl
  | cons i path ih =>
    rw [List.cons_append, descend?, descend?, Option.bind_assoc]
    congr 1
    funext c
    exact ih c

lemma descend?_concat_eq_some {t : Tree} {n m i : Nat} {path : List Nat} :
    t.descend? n (path ++ [i]) = some m ↔
      ∃ p, t.descend? n path = some p ∧ t.child? p i = some m := by
  rw [descend?_append, Option.bind_eq_some_iff]
  simp [descend?]

lemma nodup_children (t : Tree) (n : Nat) : (t.children n).Nodup :=
  (t.ordered.siblings n).imp fun hab => Nat.ne_of_lt (hab _ (List.mem_cons_self ..))

/-- The subtree of a node is what paths from the node lead to. -/
lemma mem_subtree_iff_descend? {n m : Nat} :
    m ∈ t.subtree n ↔ ∃ path, t.descend? n path = some m := by
  constructor
  · intro hm
    induction n using t.children_induction with
    | hP n ih =>
      rw [subtree_eq, List.mem_cons, List.mem_flatMap] at hm
      rcases hm with rfl | ⟨c, hc, hm⟩
      · exact ⟨[], rfl⟩
      · obtain ⟨i, hi⟩ := List.mem_iff_getElem?.mp hc
        obtain ⟨path, hpath⟩ := ih c hc hm
        refine ⟨i :: path, ?_⟩
        rw [descend?, show t.child? n i = some c from hi, Option.bind_some, hpath]
  · rintro ⟨path, hpath⟩
    induction path generalizing n with
    | nil =>
      cases hpath
      exact t.mem_subtree_self _
    | cons i path ih =>
      obtain ⟨c, hc, hpath⟩ := Option.bind_eq_some_iff.mp hpath
      rw [subtree_eq, List.mem_cons, List.mem_flatMap]
      exact .inr ⟨c, mem_children_of_child? hc, ih hpath⟩

namespace Numbered

variable (h : t.Numbered)
include h

/-- No two paths from the root lead to the same node. -/
lemma descend?_root_injective {n : Nat} {path path' : List Nat}
    (hpath : t.descend? t.root path = some n) (hpath' : t.descend? t.root path' = some n) :
    path = path' := by
  -- a path that goes anywhere ends with a step from the parent, which the root does not have
  have hroot : t.parent? t.root = none := (h.parent_eq_none _ h.root_lt).mpr rfl
  have hlast : ∀ {path : List Nat} {i m : Nat}, t.descend? t.root (path ++ [i]) = some m →
      ∃ p, t.parent? m = some p ∧ t.descend? t.root path = some p ∧ t.child? p i = some m := by
    intro path i m hm
    obtain ⟨p, hp, hi⟩ := descend?_concat_eq_some.mp hm
    exact ⟨p, (h.mem_children m p).mp (mem_children_of_child? hi), hp, hi⟩
  induction path using List.reverseRecOn generalizing n path' with
  | nil =>
    cases hpath
    rcases List.eq_nil_or_concat path' with rfl | ⟨rest, i, rfl⟩
    · rfl
    · obtain ⟨p, hp, -⟩ := hlast (by simpa using hpath')
      rw [hroot] at hp
      cases hp
  | append_singleton path i ih =>
    obtain ⟨p, hp, hpath, hi⟩ := hlast hpath
    rcases List.eq_nil_or_concat path' with rfl | ⟨path', i', rfl⟩
    · cases hpath'
      rw [hroot] at hp
      cases hp
    · rw [List.concat_eq_append] at hpath' ⊢
      obtain ⟨p', hp', hpath', hi'⟩ := hlast hpath'
      rw [hp] at hp'
      cases hp'
      have hii : i = i' :=
        (List.getElem?_inj (List.getElem?_eq_some_iff.mp hi).1 (t.nodup_children p)).mp
          (hi.trans hi'.symm)
      rw [ih hpath hpath', hii]

lemma existsUnique_path {n : Nat} (hn : n < t.size) :
    ∃! path, t.descend? t.root path = some n := by
  have hmem : n ∈ t.subtree t.root := h.mem_subtree.mpr (h.within_root.mpr hn)
  obtain ⟨path, hpath⟩ := mem_subtree_iff_descend?.mp hmem
  exact ⟨path, hpath, fun path' hpath' => h.descend?_root_injective hpath' hpath⟩

lemma getLast?_ancestors {n : Nat} (hn : n < t.size) :
    (n :: t.ancestors n).getLast? = some t.root := by
  induction n using Nat.strong_induction_on with
  | _ n ih =>
    cases hp : t.parent? n with
    | none =>
      rw [ancestors_of_top hp, (h.parent_eq_none n hn).mp hp]
      rfl
    | some p =>
      have hpn := lt_of_parent? hp
      rw [ancestors_of_parent hp, List.getLast?_cons_cons]
      exact ih p hpn (by omega)

end Numbered

end Tree

/-! ### Finished trees -/

namespace Builder

lemma finish_eq_ok_iff {b : Builder} {t : Tree} :
    b.finish = .ok t ↔
      b.opened = [] ∧ b.roots = [t.root] ∧ t.nodes = b.nodes ∧
        (nodeAt b.nodes t.root).kind = .start := by
  obtain ⟨nodes, root, ordered⟩ := t
  unfold finish
  split
  · next n _ hopened => simp [hopened]
  · next hopened =>
    split
    · next hroots => simp [hroots]
    · next r hroots =>
      simp only [hopened, hroots, List.cons.injEq, and_true, true_and]
      split_ifs with hkind
      · simp only [Except.ok.injEq, Tree.mk.injEq]
        constructor
        · rintro ⟨rfl, rfl⟩
          exact ⟨rfl, rfl, hkind⟩
        · rintro ⟨rfl, rfl, -⟩
          exact ⟨rfl, rfl⟩
      · simp only [false_iff]
        rintro ⟨rfl, -, hstart⟩
        exact hkind hstart
    · next roots hnil hone =>
      simp only [reduceCtorEq, false_iff]
      rintro ⟨-, hroots, -⟩
      exact hone _ hroots

/-- A builder hands its tree over exactly when no node is open and the only node without a parent
is a start node. -/
lemma Coherent.exists_finish_iff {b : Builder} (h : b.Coherent) :
    (∃ t, b.finish = .ok t) ↔
      (∀ n < b.nodes.size, closedAt b.nodes n = true) ∧
        ∃ root, (nodeAt b.nodes root).kind = .start ∧
          ∀ n, n < b.nodes.size ∧ parentAt b.nodes n = none ↔ n = root := by
  have hopened : b.opened = [] ↔ ∀ n < b.nodes.size, closedAt b.nodes n = true := by
    simp [List.eq_nil_iff_forall_not_mem, h.mem_opened]
  constructor
  · rintro ⟨t, ht⟩
    obtain ⟨hnil, hroots, -, hkind⟩ := finish_eq_ok_iff.mp ht
    have hclosed := hopened.mp hnil
    refine ⟨hclosed, t.root, hkind, ?_⟩
    intro n
    have hmem := h.mem_roots n
    rw [hroots, List.mem_singleton] at hmem
    rw [hmem]
    constructor
    · rintro ⟨hn, hp⟩
      exact ⟨hn, hclosed n hn, hp⟩
    · rintro ⟨hn, -, hp⟩
      exact ⟨hn, hp⟩
  · rintro ⟨hclosed, root, hkind, honly⟩
    have hroots : b.roots = [root] := by
      refine h.roots_sorted.eq_of_mem_iff (List.pairwise_singleton ..) ?_
      intro n
      rw [h.mem_roots n, List.mem_singleton, ← honly n]
      constructor
      · rintro ⟨hn, -, hp⟩
        exact ⟨hn, hp⟩
      · rintro ⟨hn, hp⟩
        exact ⟨hn, hclosed n hn, hp⟩
    exact ⟨⟨b.nodes, root, b.growing.ordered⟩,
      finish_eq_ok_iff.mpr ⟨hopened.mpr hclosed, hroots, rfl, hkind⟩⟩

lemma Coherent.numbered {b : Builder} (h : b.Coherent) {t : Tree} (ht : b.finish = .ok t) :
    t.Numbered := by
  obtain ⟨hopened, hroots, hnodes, -⟩ := finish_eq_ok_iff.mp ht
  have hroot : ∀ n, n = t.root ↔ n ∈ b.roots := by simp [hroots]
  unfold Coherent at h
  rw [← hnodes] at h
  refine ⟨?_, ?_, h.mem_children, h.enclosed⟩
  · exact ((h.mem_roots _).mp ((hroot _).mp rfl)).1
  · intro n hn
    rw [hroot, h.mem_roots]
    constructor
    · intro hp
      refine ⟨hn, ?_, hp⟩
      by_contra hopen
      have hmem := (h.mem_opened n).mpr ⟨hn, by simpa using hopen⟩
      simp [hopened] at hmem
    · rintro ⟨-, -, hp⟩
      exact hp

/-- After any events, a builder hands over a tree exactly when no node is open and there is one
top-level node, a start node. In that tree one path leads from the root to each node, the walk
from the root takes up each node once, in the order of numbers, a subtree is a range of numbers
that starts at its node, and numbers fall from a node to the root. -/
theorem finish_numbers_in_preorder (events : List BuildEvent) :
    let b := (empty.answers events).2
    ((∃ t, b.finish = .ok t) ↔
        (∀ n < b.nodes.size, closedAt b.nodes n = true) ∧
          ∃ root, (nodeAt b.nodes root).kind = .start ∧
            ∀ n, n < b.nodes.size ∧ parentAt b.nodes n = none ↔ n = root) ∧
      ∀ t, b.finish = .ok t →
        t.nodes = b.nodes ∧ t.walk [t.root] = List.range t.size ∧
          ∀ n < t.size,
            (∃! path, t.descend? t.root path = some n) ∧
              t.preorderIndex n = n ∧
              t.subtree n = List.range' n (t.subtree n).length ∧
              (∀ m, m ∈ t.subtree n ↔ ∃ path, t.descend? n path = some m) ∧
              (n :: t.ancestors n).Pairwise (· > ·) ∧
              (n :: t.ancestors n).getLast? = some t.root := by
  intro b
  have hb : b.Coherent := coherent_empty.answers events
  refine ⟨hb.exists_finish_iff, ?_⟩
  intro t ht
  have h : t.Numbered := hb.numbered ht
  refine ⟨(finish_eq_ok_iff.mp ht).2.2.1, h.preorder_eq_range, ?_⟩
  intro n hn
  exact ⟨h.existsUnique_path hn, h.preorderIndex_eq hn, h.subtree_eq_range' hn,
    fun m => Tree.mem_subtree_iff_descend?, t.pairwise_ancestors n, h.getLast?_ancestors hn⟩

end Builder

namespace Tree

lemma Finished.numbered {t : Tree} (h : t.Finished) : t.Numbered := by
  obtain ⟨events, ht⟩ := h
  exact (Builder.coherent_empty.answers events).numbered ht

/-- A tree that is built from events, and passes a check. -/
lemma exists_finished_of_check (events : List BuildEvent) (P : Tree → Prop) [DecidablePred P]
    (h : (Builder.empty.answers events).2.finish.toOption.any fun t => decide (P t)) :
    ∃ t : Tree, t.Finished ∧ P t := by
  cases hfinish : (Builder.empty.answers events).2.finish with
  | error e => simp [hfinish, Except.toOption] at h
  | ok t => exact ⟨t, ⟨events, hfinish⟩, by simpa [hfinish, Except.toOption] using h⟩

end Tree

end GridGame
