import GridGame.Proofs.Numbering
import GridGame.Tree.Visit
import Mathlib.Data.List.Flatten

/-!
# What visitors see

A walk with a visitor comes to nodes in the order of their numbers. It leaves out what is below a
node where the visitor does not go on, and ends at the first node where the visitor fails. So the
walk is the same as asking about the nodes of a list one after the other (`visit_eq_each`), and the
list is told by numbers and by what lies above a node (`reached_eq_filter`).
-/

namespace GridGame

/-! ### Lists of visits -/

namespace Visit

/-- What a visit to a single node comes to, without the nodes below it. -/
def alone : Visit → Visited
  | .descend text => ⟨text, none⟩
  | .skip text => ⟨text, none⟩
  | .fail message => ⟨"", some message⟩

/-- Whether the walk goes on below the node. -/
def descends : Visit → Bool
  | .descend _ => true
  | .skip _ => false
  | .fail _ => false

end Visit

namespace Visited

variable {α β : Type}

@[simp] lemma andThen_nothing (v : Visited) : v.andThen (fun _ => ⟨"", none⟩) = v := by
  obtain ⟨text, _ | message⟩ := v
  · simp [andThen]
  · rfl

lemma andThen_assoc (u v w : Visited) : (u.andThen fun _ => v).andThen (fun _ => w) =
    u.andThen fun _ => v.andThen fun _ => w := by
  obtain ⟨text, _ | message⟩ := u
  · obtain ⟨text', _ | message'⟩ := v
    · simp [andThen, String.append_assoc]
    · rfl
  · rfl

lemma each_append (f : α → Visited) (l l' : List α) :
    each f (l ++ l') = (each f l).andThen fun _ => each f l' := by
  induction l with
  | nil => simp [each, andThen]
  | cons a l ih => rw [List.cons_append, each, ih, each, andThen_assoc]

lemma each_flatMap (f : β → Visited) (g : α → List β) (l : List α) :
    each f (l.flatMap g) = each (fun a => each f (g a)) l := by
  induction l with
  | nil => rfl
  | cons a l ih => rw [List.flatMap_cons, each_append, ih, each]

lemma each_congr {f g : α → Visited} {l : List α} (h : ∀ a ∈ l, f a = g a) :
    each f l = each g l := by
  induction l with
  | nil => rfl
  | cons a l ih =>
    obtain ⟨ha, hl⟩ := List.forall_mem_cons.mp h
    rw [each, each, ha, ih hl]

lemma each_map (f : β → Visited) (g : α → β) (l : List α) :
    each f (l.map g) = each (fun a => f (g a)) l := by
  induction l with
  | nil => rfl
  | cons a l ih => rw [List.map_cons, each, each, ih]

lemma each_of_succeeds {f : α → Visited} {l : List α} (h : ∀ a ∈ l, (f a).failure = none) :
    each f l = ⟨String.join (l.map fun a => (f a).text), none⟩ := by
  induction l with
  | nil => rfl
  | cons a l ih =>
    obtain ⟨ha, hl⟩ := List.forall_mem_cons.mp h
    rw [each, ih hl]
    simp [andThen, ha, String.join_cons]

/-- The first visit that fails ends the walk. -/
lemma each_of_first {f : α → Visited} {l l' : List α} {a : α} {message : String}
    (hbefore : ∀ b ∈ l, (f b).failure = none) (hfails : (f a).failure = some message) :
    each f (l ++ a :: l') =
      ⟨String.join (l.map fun b => (f b).text) ++ (f a).text, some message⟩ := by
  rw [each_append, each_of_succeeds hbefore, each]
  simp [andThen, hfails]

end Visited

/-! ### The nodes of a walk -/

namespace Tree

variable {t : Tree} {visitor : Nat → Visit}

/-- The nodes that a walk comes to unless it fails before, in the order in which it does. -/
def reached (t : Tree) (visitor : Nat → Visit) (n : Nat) : List Nat :=
  n :: if (visitor n).descends then
    (t.children n).attach.flatMap fun c => t.reached visitor c.1
  else []
termination_by t.size - n
decreasing_by exact size_sub_lt c.2

lemma reached_eq (t : Tree) (visitor : Nat → Visit) (n : Nat) :
    t.reached visitor n =
      n :: if (visitor n).descends then (t.children n).flatMap (t.reached visitor) else [] := by
  rw [reached]
  simp

lemma visit_of_descend {n : Nat} {text : String} (h : visitor n = .descend text) :
    t.visit visitor n = (⟨text, none⟩ : Visited).andThen fun _ =>
      Visited.each (t.visit visitor) (t.children n) := by
  rw [visit, h]
  have hchildren := Visited.each_map (t.visit visitor) Subtype.val (t.children n).attach
  rw [List.attach_map_subtype_val] at hchildren
  rw [hchildren]

/-- A walk asks about the nodes that it comes to, one after the other. -/
lemma visit_eq_each (t : Tree) (visitor : Nat → Visit) (n : Nat) :
    t.visit visitor n = Visited.each (fun m => (visitor m).alone) (t.reached visitor n) := by
  induction n using t.children_induction with
  | hP n ih =>
    rw [reached_eq, Visited.each]
    cases hvisit : visitor n with
    | descend text =>
      rw [visit_of_descend hvisit, Visited.each_congr ih, ← Visited.each_flatMap]
      rfl
    | skip text =>
      rw [visit, hvisit]
      simp [Visit.alone, Visit.descends, Visited.each]
    | fail message =>
      rw [visit, hvisit]
      rfl

lemma reached_sublist (t : Tree) (visitor : Nat → Visit) (n : Nat) :
    (t.reached visitor n).Sublist (t.subtree n) := by
  induction n using t.children_induction with
  | hP n ih =>
    rw [reached_eq, subtree_eq]
    refine List.Sublist.cons_cons n ?_
    split
    · exact List.Sublist.flatMap_right _ ih
    · exact List.nil_sublist _

lemma mem_reached_of_mem_children {n p c : Nat} (hp : p ∈ t.reached visitor n)
    (hdescends : (visitor p).descends) (hc : c ∈ t.children p) : c ∈ t.reached visitor n := by
  induction n using t.children_induction with
  | hP n ih =>
    rw [reached_eq, List.mem_cons] at hp ⊢
    right
    rcases hp with rfl | hp
    · rw [if_pos hdescends, List.mem_flatMap]
      refine ⟨c, hc, ?_⟩
      rw [reached_eq]
      exact List.mem_cons_self
    · split at hp
      · next hn =>
        obtain ⟨b, hb, hp⟩ := List.mem_flatMap.mp hp
        rw [if_pos hn]
        exact List.mem_flatMap.mpr ⟨b, hb, ih b hb hp⟩
      · cases hp

namespace Numbered

variable (h : t.Numbered)
include h

/-- What is above a node and within another is that other one, or within the child of it that the
node is within. -/
lemma within_child {n c a m : Nat} (hc : c ∈ t.children n) (hcm : t.Within c m)
    (ham : t.Within a m) (hna : t.Within n a) : a = n ∨ t.Within c a := by
  rcases Nat.lt_or_ge a c with hlt | hge
  · have hac : t.Within a c := h.within_of_between ham (Nat.le_of_lt hlt) (le_of_within hcm)
    rcases (within_of_parent ((h.mem_children c n).mp hc)).mp hac with rfl | han
    · exact absurd hlt (Nat.lt_irrefl _)
    · exact .inl (Nat.le_antisymm (le_of_within han) (le_of_within hna))
  · exact .inr (h.within_of_between hcm hge (le_of_within ham))

lemma descends_of_mem_reached {n m a : Nat} (hm : m ∈ t.reached visitor n)
    (ha : a ∈ t.ancestors m) (hna : t.Within n a) : (visitor a).descends := by
  induction n using t.children_induction with
  | hP n ih =>
    have ham : t.Within a m := List.mem_cons_of_mem _ ha
    rw [reached_eq, List.mem_cons] at hm
    rcases hm with rfl | hm
    · have hlt := (List.pairwise_cons.mp (t.pairwise_ancestors m)).1 a ha
      exact absurd (le_of_within hna) (Nat.not_le.mpr hlt)
    · split at hm
      · next hn =>
        obtain ⟨c, hc, hm⟩ := List.mem_flatMap.mp hm
        have hcm := h.mem_subtree.mp ((t.reached_sublist visitor c).mem hm)
        rcases h.within_child hc hcm ham hna with rfl | hca
        · exact hn
        · exact ih c hc hm hca
      · cases hm

/-- A walk comes to the nodes of a subtree below which it always goes on. -/
lemma mem_reached {n m : Nat} : m ∈ t.reached visitor n ↔
    t.Within n m ∧ ∀ a ∈ t.ancestors m, t.Within n a → (visitor a).descends := by
  constructor
  · intro hm
    exact ⟨h.mem_subtree.mp ((t.reached_sublist visitor n).mem hm),
      fun a ha hna => h.descends_of_mem_reached hm ha hna⟩
  · rintro ⟨hwithin, habove⟩
    induction m using Nat.strong_induction_on with
    | _ m ih =>
      cases hp : t.parent? m with
      | none =>
        rw [(within_top hp).mp hwithin, reached_eq]
        exact List.mem_cons_self
      | some p =>
        rw [ancestors_of_parent hp] at habove
        rcases (within_of_parent hp).mp hwithin with rfl | hnp
        · rw [reached_eq]
          exact List.mem_cons_self
        · have hreached := ih p (lt_of_parent? hp) hnp
            fun a ha => habove a (List.mem_cons_of_mem _ ha)
          exact mem_reached_of_mem_children hreached (habove p List.mem_cons_self hnp)
            (mem_children_of_parent? hp)

end Numbered

instance (t : Tree) (a n : Nat) : Decidable (t.Within a n) :=
  inferInstanceAs (Decidable (a ∈ n :: t.ancestors n))

/-- The nodes that a walk comes to, by their numbers. -/
lemma Numbered.reached_eq_filter (h : t.Numbered) {n : Nat} (hn : n < t.size) :
    t.reached visitor n = (List.range t.size).filter fun m =>
      t.Within n m ∧ ∀ a ∈ t.ancestors m, t.Within n a → (visitor a).descends := by
  refine ((h.subtree_sorted n).sublist (t.reached_sublist visitor n)).eq_of_mem_iff
    (List.pairwise_lt_range.filter _) ?_
  intro m
  rw [h.mem_reached, List.mem_filter, List.mem_range, decide_eq_true_eq]
  refine (and_iff_right_of_imp ?_).symm
  rintro ⟨hwithin, -⟩
  exact h.lt_size_below hn hwithin

/-! ### Two visitors -/

variable {write : Nat → String}

/-- Nodes about which nothing is written can be left out. -/
lemma join_map_eq_join_filter {f : Nat → Visited} {p : Nat → Bool} {nodes : List Nat}
    (hp : ∀ m ∈ nodes, p m → (f m).text = write m)
    (hnot : ∀ m ∈ nodes, ¬ p m → (f m).text = "") :
    String.join (nodes.map fun m => (f m).text) = String.join ((nodes.filter p).map write) := by
  induction nodes with
  | nil => rfl
  | cons m nodes ih =>
    obtain ⟨hpm, hpnodes⟩ := List.forall_mem_cons.mp hp
    obtain ⟨hnotm, hnotnodes⟩ := List.forall_mem_cons.mp hnot
    rw [List.map_cons, String.join_cons, ih hpnodes hnotnodes]
    by_cases hm : p m
    · rw [hpm hm, List.filter_cons_of_pos hm, List.map_cons, String.join_cons]
    · rw [hnotm hm, List.filter_cons_of_neg hm, String.empty_append]

/-- A node that the second visitor takes for a literal or a name. -/
def isLeaf (t : Tree) (m : Nat) : Bool :=
  t.kind m ∈ [.operator, .string, .ident, .integer, .boolean]

lemma nameLeaves_of_isLeaf {m : Nat} (h : t.isLeaf m) :
    t.nameLeaves write m = .skip (write m) := by
  simp only [isLeaf, List.mem_cons, List.not_mem_nil, or_false, decide_eq_true_eq] at h
  rcases h with h | h | h | h | h
  all_goals simp only [nameLeaves, h]

lemma nameLeaves_of_unrefined {m : Nat} (h : t.kind m = .unrefined) :
    t.nameLeaves write m = .fail (t.describe m) := by
  simp only [nameLeaves, h]

lemma nameLeaves_of_inner {m : Nat} (hleaf : ¬ t.isLeaf m) (hkind : t.kind m ≠ .unrefined) :
    t.nameLeaves write m = .descend "" := by
  simp only [isLeaf, List.mem_cons, List.not_mem_nil, or_false, decide_eq_true_eq, not_or] at hleaf
  unfold nameLeaves
  split
  all_goals simp_all

/-- A node of the subtree at `n` that is not below a leaf of that subtree. -/
def Exposed (t : Tree) (n m : Nat) : Prop :=
  t.Within n m ∧ ∀ a ∈ t.ancestors m, t.Within n a → ¬ t.isLeaf a

instance (t : Tree) (n m : Nat) : Decidable (t.Exposed n m) :=
  inferInstanceAs (Decidable (_ ∧ _))

/-- The leaves that are not below other leaves, by their numbers. -/
def topLeaves (t : Tree) (n : Nat) : List Nat :=
  (List.range t.size).filter fun m => t.Exposed n m ∧ t.isLeaf m

/-- An unrefined node that is not below a leaf. -/
def ExposesUnrefined (t : Tree) (n u : Nat) : Prop := t.Exposed n u ∧ t.kind u = .unrefined

instance (t : Tree) (n u : Nat) : Decidable (t.ExposesUnrefined n u) :=
  inferInstanceAs (Decidable (_ ∧ _))

lemma mem_ancestors_of_lt {a m : Nat} (h : t.Within a m) (hlt : a < m) : a ∈ t.ancestors m :=
  (List.mem_cons.mp h).resolve_left (Nat.ne_of_lt hlt)

lemma lt_of_mem_ancestors {a m : Nat} (h : a ∈ t.ancestors m) : a < m :=
  (List.pairwise_cons.mp (t.pairwise_ancestors m)).1 a h

/-- What is above a node that is not below a leaf is not below a leaf either. -/
lemma Exposed.above {n m a : Nat} (h : t.Exposed n m) (ha : a ∈ t.ancestors m)
    (hna : t.Within n a) : t.Exposed n a := by
  refine ⟨hna, ?_⟩
  intro b hb hnb
  have hbm : t.Within b m := Within.trans (List.mem_cons_of_mem _ hb) (List.mem_cons_of_mem _ ha)
  have hlt := Nat.lt_trans (lt_of_mem_ancestors hb) (lt_of_mem_ancestors ha)
  exact h.2 b (mem_ancestors_of_lt hbm hlt) hnb

lemma descends_nameLeaves {a : Nat} :
    (t.nameLeaves write a).descends ↔ ¬ t.isLeaf a ∧ t.kind a ≠ .unrefined := by
  by_cases hleaf : t.isLeaf a
  · simp [nameLeaves_of_isLeaf hleaf, hleaf, Visit.descends]
  · by_cases hkind : t.kind a = .unrefined
    · simp [nameLeaves_of_unrefined hkind, hkind, Visit.descends]
    · simp [nameLeaves_of_inner hleaf hkind, hleaf, hkind, Visit.descends]

lemma failure_nameLeaves {m : Nat} :
    (t.nameLeaves write m).alone.failure =
      if t.kind m = .unrefined then some (t.describe m) else none := by
  by_cases hkind : t.kind m = .unrefined
  · rw [nameLeaves_of_unrefined hkind, if_pos hkind]
    rfl
  · rw [if_neg hkind]
    by_cases hleaf : t.isLeaf m
    · rw [nameLeaves_of_isLeaf hleaf]
      rfl
    · rw [nameLeaves_of_inner hleaf hkind]
      rfl

lemma text_nameLeaves_of_isLeaf {m : Nat} (h : t.isLeaf m) :
    (t.nameLeaves write m).alone.text = write m := by
  rw [nameLeaves_of_isLeaf h]
  rfl

lemma text_nameLeaves_of_not_isLeaf {m : Nat} (h : ¬ t.isLeaf m) :
    (t.nameLeaves write m).alone.text = "" := by
  by_cases hkind : t.kind m = .unrefined
  · rw [nameLeaves_of_unrefined hkind]
    rfl
  · rw [nameLeaves_of_inner h hkind]
    rfl

namespace Numbered

variable (h : t.Numbered) {n : Nat}
include h

lemma exposed_of_mem_reached {m : Nat} (hm : m ∈ t.reached (t.nameLeaves write) n) :
    t.Exposed n m := by
  obtain ⟨hwithin, habove⟩ := h.mem_reached.mp hm
  exact ⟨hwithin, fun a ha hna => (descends_nameLeaves.mp (habove a ha hna)).1⟩

/-- Until there is an unrefined node, the walk comes to all nodes that are not below a leaf. -/
lemma mem_reached_of_exposed {m : Nat} (hm : t.Exposed n m)
    (hfirst : ∀ u, t.ExposesUnrefined n u → m ≤ u) : m ∈ t.reached (t.nameLeaves write) n := by
  refine h.mem_reached.mpr ⟨hm.1, ?_⟩
  intro a ha hna
  refine descends_nameLeaves.mpr ⟨hm.2 a ha hna, ?_⟩
  intro hkind
  have hle := hfirst a ⟨hm.above ha hna, hkind⟩
  exact absurd (lt_of_mem_ancestors ha) (Nat.not_lt.mpr hle)

lemma reached_sorted : (t.reached visitor n).Pairwise (· < ·) :=
  (h.subtree_sorted n).sublist (t.reached_sublist visitor n)

lemma visit_nameLeaves_of_refined (hn : n < t.size) (hrefined : ¬ ∃ u, t.ExposesUnrefined n u) :
    t.visit (t.nameLeaves write) n = ⟨String.join ((t.topLeaves n).map write), none⟩ := by
  have hleaves : (t.reached (t.nameLeaves write) n).filter t.isLeaf = t.topLeaves n := by
    refine (h.reached_sorted.filter _).eq_of_mem_iff (List.pairwise_lt_range.filter _) ?_
    intro m
    simp only [topLeaves, List.mem_filter, List.mem_range, decide_eq_true_eq]
    constructor
    · rintro ⟨hm, hleaf⟩
      have hexposed := h.exposed_of_mem_reached hm
      exact ⟨h.lt_size_below hn hexposed.1, hexposed, hleaf⟩
    · rintro ⟨-, hexposed, hleaf⟩
      exact ⟨h.mem_reached_of_exposed hexposed fun u hu => absurd ⟨u, hu⟩ hrefined, hleaf⟩
  rw [visit_eq_each, Visited.each_of_succeeds, join_map_eq_join_filter (p := t.isLeaf), hleaves]
  · exact fun m _ => text_nameLeaves_of_isLeaf
  · exact fun m _ => text_nameLeaves_of_not_isLeaf
  · intro m hm
    rw [failure_nameLeaves, if_neg]
    intro hkind
    exact hrefined ⟨m, h.exposed_of_mem_reached hm, hkind⟩

lemma visit_nameLeaves_of_unrefined (hn : n < t.size) {u : Nat} (hu : t.ExposesUnrefined n u)
    (hfirst : ∀ u', t.ExposesUnrefined n u' → u ≤ u') :
    t.visit (t.nameLeaves write) n =
      ⟨String.join (((t.topLeaves n).filter (· < u)).map write), some (t.describe u)⟩ := by
  obtain ⟨before, after, hsplit⟩ :=
    List.append_of_mem (h.mem_reached_of_exposed hu.1 hfirst)
  have hsorted : (t.reached (t.nameLeaves write) n).Pairwise (· < ·) := h.reached_sorted
  rw [hsplit, List.pairwise_append, List.pairwise_cons] at hsorted
  obtain ⟨hbefore, ⟨hafter, -⟩, hlt⟩ := hsorted
  have hmem : ∀ m, m ∈ before ↔ m ∈ t.reached (t.nameLeaves write) n ∧ m < u := by
    intro m
    rw [hsplit, List.mem_append, List.mem_cons]
    constructor
    · intro hm
      exact ⟨.inl hm, hlt m hm u List.mem_cons_self⟩
    · rintro ⟨hm | rfl | hm, hmu⟩
      · exact hm
      · exact absurd hmu (Nat.lt_irrefl _)
      · exact absurd (hafter m hm) (Nat.lt_asymm hmu)
  have hleaves : before.filter t.isLeaf = (t.topLeaves n).filter (· < u) := by
    refine (hbefore.filter _).eq_of_mem_iff ((List.pairwise_lt_range.filter _).filter _) ?_
    intro m
    simp only [topLeaves, List.mem_filter, List.mem_range, decide_eq_true_eq, hmem]
    constructor
    · rintro ⟨⟨hm, hmu⟩, hleaf⟩
      have hexposed := h.exposed_of_mem_reached hm
      exact ⟨⟨h.lt_size_below hn hexposed.1, hexposed, hleaf⟩, hmu⟩
    · rintro ⟨⟨-, hexposed, hleaf⟩, hmu⟩
      refine ⟨⟨h.mem_reached_of_exposed hexposed ?_, hmu⟩, hleaf⟩
      exact fun u' hu' => Nat.le_trans (Nat.le_of_lt hmu) (hfirst u' hu')
  have hfails : (t.nameLeaves write u).alone.failure = some (t.describe u) := by
    rw [failure_nameLeaves, if_pos hu.2]
  have hsilent : (t.nameLeaves write u).alone.text = "" := by
    rw [nameLeaves_of_unrefined hu.2]
    rfl
  rw [visit_eq_each, hsplit,
    Visited.each_of_first (f := fun m => (t.nameLeaves write m).alone) _ hfails, hsilent,
    String.append_empty, join_map_eq_join_filter (p := t.isLeaf), hleaves]
  · exact fun m _ => text_nameLeaves_of_isLeaf
  · exact fun m _ => text_nameLeaves_of_not_isLeaf
  · intro m hm
    obtain ⟨hreached, hmu⟩ := (hmem m).mp hm
    rw [failure_nameLeaves, if_neg]
    intro hkind
    exact absurd (hfirst m ⟨h.exposed_of_mem_reached hreached, hkind⟩) (Nat.not_le.mpr hmu)

lemma visit_nameUnrefined (hn : n < t.size) :
    t.visit (t.nameUnrefined write) n = ⟨String.join (((List.range t.size).filter fun m =>
      t.Within n m ∧ t.kind m = .unrefined).map write), none⟩ := by
  have hdescends (m : Nat) : (t.nameUnrefined write m).descends := by
    unfold nameUnrefined
    split <;> rfl
  have hnodes : (t.reached (t.nameUnrefined write) n).filter (t.kind · = .unrefined) =
      (List.range t.size).filter fun m => t.Within n m ∧ t.kind m = .unrefined := by
    rw [h.reached_eq_filter hn, List.filter_filter]
    refine List.filter_congr ?_
    intro m _
    simp [hdescends, Bool.and_comm]
  rw [visit_eq_each, Visited.each_of_succeeds,
    join_map_eq_join_filter (p := fun m => t.kind m = .unrefined), hnodes]
  · intro m _ hkind
    rw [nameUnrefined, if_pos (of_decide_eq_true hkind)]
    rfl
  · intro m _ hkind
    rw [nameUnrefined, if_neg (by simpa using hkind)]
    rfl
  · intro m _
    unfold nameUnrefined
    split <;> rfl

end Numbered

/-- In a finished tree, the first visitor writes its texts for the unrefined nodes of a subtree, and
the second one for the leaves that are not below other leaves, both by number. The second fails
exactly if there is an unrefined node that is not below a leaf, with the name of the first of them
and after the texts for the leaves with smaller numbers. -/
theorem visits_by_number (hfinished : t.Finished) (write : Nat → String) {n : Nat}
    (hn : n < t.size) :
    t.visit (t.nameUnrefined write) n = ⟨String.join (((List.range t.size).filter fun m =>
      t.Within n m ∧ t.kind m = .unrefined).map write), none⟩ ∧
    ((t.visit (t.nameLeaves write) n).failure = none ↔ ¬ ∃ u, t.ExposesUnrefined n u) ∧
    ((¬ ∃ u, t.ExposesUnrefined n u) →
      t.visit (t.nameLeaves write) n = ⟨String.join ((t.topLeaves n).map write), none⟩) ∧
    ((∃ u, t.ExposesUnrefined n u) → ∃ u, t.ExposesUnrefined n u ∧
      (∀ u', t.ExposesUnrefined n u' → u ≤ u') ∧
      t.visit (t.nameLeaves write) n =
        ⟨String.join (((t.topLeaves n).filter (· < u)).map write), some (t.describe u)⟩) := by
  have h := hfinished.numbered
  have hfails : (∃ u, t.ExposesUnrefined n u) → ∃ u, t.ExposesUnrefined n u ∧
      (∀ u', t.ExposesUnrefined n u' → u ≤ u') ∧
      t.visit (t.nameLeaves write) n =
        ⟨String.join (((t.topLeaves n).filter (· < u)).map write), some (t.describe u)⟩ := by
    classical
    intro hexists
    have hfirst (u' : Nat) (hu' : t.ExposesUnrefined n u') : Nat.find hexists ≤ u' :=
      Nat.find_min' hexists hu'
    exact ⟨Nat.find hexists, Nat.find_spec hexists, hfirst,
      h.visit_nameLeaves_of_unrefined hn (Nat.find_spec hexists) hfirst⟩
  refine ⟨h.visit_nameUnrefined hn, ⟨?_, ?_⟩, h.visit_nameLeaves_of_refined hn, hfails⟩
  · intro hnone hexists
    obtain ⟨u, -, -, hvisit⟩ := hfails hexists
    rw [hvisit] at hnone
    cases hnone
  · intro hrefined
    rw [h.visit_nameLeaves_of_refined hn hrefined]

/-- Of three unrefined nodes one is below a name, and one below another that comes first. -/
def unrefinedNodes : List BuildEvent :=
  [.opened .start .none .detached, .opened .ident (.text "a") .detached,
    .leaf .unrefined .none .detached, .closed, .opened .list .none .detached,
    .leaf .integer (.integer 1) .detached, .closed, .opened .unrefined .none ⟨3, 9⟩,
    .leaf .integer (.integer 2) .detached, .leaf .unrefined .none .detached, .closed,
    .leaf .string (.text "s") .detached, .closed]

theorem visits_by_number_unrefinedNodes :
    ∃ t : Tree, t.Finished ∧ 0 < t.size ∧
      t.visit (t.nameUnrefined t.describe) 0 = ⟨String.join ([2, 5, 7].map t.describe), none⟩ ∧
      t.visit (t.nameLeaves t.describe) 0 =
        ⟨String.join ([1, 4].map t.describe), some "Unrefined at 3..9"⟩ ∧
      t.visit (t.nameLeaves t.describe) 3 = ⟨String.join ([4].map t.describe), none⟩ := by
  obtain ⟨t, hfinished, hsize, hnodes, hexposed, hleaves, hname, hleaf, hrefined⟩ :=
    exists_finished_of_check unrefinedNodes (fun t => t.size = 9 ∧
      ((List.range t.size).filter fun m => t.Within 0 m ∧ t.kind m = .unrefined) = [2, 5, 7] ∧
      (List.range t.size).filter (t.ExposesUnrefined 0) = [5, 7] ∧
      (t.topLeaves 0).filter (· < 5) = [1, 4] ∧ t.describe 5 = "Unrefined at 3..9" ∧
      t.topLeaves 3 = [4] ∧ (List.range t.size).filter (t.ExposesUnrefined 3) = [])
      (by decide +kernel)
  have hmem (n u : Nat) (hn : n < t.size) (hu : t.ExposesUnrefined n u) :
      u ∈ (List.range t.size).filter (t.ExposesUnrefined n) := by
    rw [List.mem_filter, List.mem_range, decide_eq_true_eq]
    exact ⟨hfinished.numbered.lt_size_below hn hu.1.1, hu⟩
  have hfirst : 0 < t.size := by omega
  have hfive : t.ExposesUnrefined 0 5 := by
    have hlisted : 5 ∈ (List.range t.size).filter (t.ExposesUnrefined 0) := by
      rw [hexposed]
      exact List.mem_cons_self
    exact of_decide_eq_true (List.mem_filter.mp hlisted).2
  obtain ⟨hunrefined, -, -, hfails⟩ := visits_by_number hfinished t.describe hfirst
  obtain ⟨-, -, hsucceeds, -⟩ := visits_by_number hfinished t.describe (n := 3) (by omega)
  refine ⟨t, hfinished, hfirst, ?_, ?_, ?_⟩
  · rw [hunrefined, hnodes]
  · obtain ⟨u, hu, hleast, hvisit⟩ := hfails ⟨5, hfive⟩
    have hle := hleast 5 hfive
    have hlisted := hmem 0 u hfirst hu
    rw [hexposed, List.mem_cons, List.mem_singleton] at hlisted
    have hsame : u = 5 := by omega
    rw [hvisit, hsame, hleaves, hname]
  · have hnone : ¬ ∃ u, t.ExposesUnrefined 3 u := by
      rintro ⟨u, hu⟩
      have hlisted := hmem 3 u (by omega) hu
      rw [hrefined] at hlisted
      cases hlisted
    rw [hsucceeds hnone, hleaf]

end Tree

end GridGame
