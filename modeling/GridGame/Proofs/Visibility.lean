import GridGame.Proofs.Numbering
import GridGame.Scope

/-!
# Visible assignments

The search for what a name refers to goes from scope to scope and looks at the siblings before the
branch that leads to the name. `Visible` says without a search which assignments can be seen from a
node. The search finds the last one of them in program order.
-/

namespace GridGame

namespace Tree

variable {t : Tree}

lemma assignedName?_eq_some {a : Nat} {name : String} :
    t.assignedName? a = some name ↔
      t.kind a = .assign ∧ ∃ target, t.child? a 0 = some target ∧
        t.identName? target = some name := by
  unfold assignedName?
  split_ifs with hkind
  · simp [hkind, Option.bind_eq_some_iff]
  · simp [hkind]

/-! ### Scopes -/

lemma scopes_of_parent {n p : Nat} (h : t.parent? n = some p) :
    t.scopes n = (p, n) :: t.scopes p := by
  rw [scopes]
  split
  · next q hq =>
    rw [h] at hq
    cases hq
    rfl
  · next hq =>
    rw [h] at hq
    cases hq

lemma scopes_of_top {n : Nat} (h : t.parent? n = none) : t.scopes n = [] := by
  rw [scopes]
  split
  · next q hq =>
    rw [h] at hq
    cases hq
  · rfl

lemma mem_scopes {n scope branch : Nat} :
    (scope, branch) ∈ t.scopes n ↔ t.Within branch n ∧ t.parent? branch = some scope := by
  induction n using Nat.strong_induction_on with
  | _ n ih =>
    cases hp : t.parent? n with
    | none =>
      rw [scopes_of_top hp, within_top hp]
      simp only [List.not_mem_nil, false_iff]
      rintro ⟨rfl, hscope⟩
      rw [hp] at hscope
      cases hscope
    | some p =>
      rw [scopes_of_parent hp, List.mem_cons, ih p (lt_of_parent? hp), within_of_parent hp]
      constructor
      · rintro (heq | ⟨hwithin, hscope⟩)
        · cases heq
          exact ⟨.inl rfl, hp⟩
        · exact ⟨.inr hwithin, hscope⟩
      · rintro ⟨rfl | hwithin, hscope⟩
        · rw [hp] at hscope
          cases hscope
          exact .inl rfl
        · exact .inr ⟨hwithin, hscope⟩

/-- Every scope has the branch that leads to the node among its children. -/
lemma before?_of_mem_scopes {n scope branch : Nat} (h : (scope, branch) ∈ t.scopes n) :
    t.before? scope branch = some (t.earlier scope branch) :=
  before?_eq (of_mem_scopes h).1

/-- The search looks among the earlier siblings of a node and then goes on from its parent. -/
lemma binding?_of_parent {n p : Nat} (h : t.parent? n = some p) (name : String) :
    t.binding? n name = (t.latest? (t.earlier p n) name).or (t.binding? p name) := by
  unfold binding?
  rw [scopes_of_parent h, List.findSome?_cons]
  simp only [before?_eq (mem_children_of_parent? h), Option.bind_some]
  cases t.latest? (t.earlier p n) name with
  | none => rfl
  | some a => rfl

lemma binding?_of_top {n : Nat} (h : t.parent? n = none) (name : String) :
    t.binding? n name = none := by
  unfold binding?
  rw [scopes_of_top h]
  rfl

/-! ### Earlier siblings -/

lemma takeWhile_ne_eq_filter_lt {l : List Nat} {b : Nat} (hsorted : l.Pairwise (· < ·))
    (hb : b ∈ l) : l.takeWhile (· != b) = l.filter (· < b) := by
  induction l with
  | nil => cases hb
  | cons a l ih =>
    obtain ⟨hlt, hsorted⟩ := List.pairwise_cons.mp hsorted
    rcases List.mem_cons.mp hb with rfl | hb
    · have hnone : l.filter (· < b) = [] := by
        rw [List.filter_eq_nil_iff]
        intro c hc
        have := hlt c hc
        simp only [decide_eq_true_eq]
        omega
      simp [hnone]
    · have hab := hlt b hb
      simp [hab, Nat.ne_of_lt hab, ih hsorted hb]

lemma sorted_children (t : Tree) (n : Nat) : (t.children n).Pairwise (· < ·) :=
  (t.ordered.siblings n).imp fun hab => hab _ (List.mem_cons_self ..)

lemma earlier_eq_filter {scope branch : Nat} (h : branch ∈ t.children scope) :
    t.earlier scope branch = (t.children scope).filter (· < branch) :=
  takeWhile_ne_eq_filter_lt (t.sorted_children scope) h

lemma mem_earlier {scope branch a : Nat} (h : branch ∈ t.children scope) :
    a ∈ t.earlier scope branch ↔ a ∈ t.children scope ∧ a < branch := by
  rw [earlier_eq_filter h, List.mem_filter, decide_eq_true_eq]

lemma sorted_earlier (t : Tree) (scope branch : Nat) :
    (t.earlier scope branch).Pairwise (· < ·) :=
  (t.sorted_children scope).sublist (List.takeWhile_sublist _)

/-! ### The latest of some nodes -/

lemma latest?_eq_none {nodes : List Nat} {name : String} :
    t.latest? nodes name = none ↔ ∀ a ∈ nodes, t.assignedName? a ≠ some name := by
  simp [latest?]

lemma latest?_append (nodes nodes' : List Nat) (name : String) :
    t.latest? (nodes ++ nodes') name = (t.latest? nodes' name).or (t.latest? nodes name) := by
  simp [latest?]

lemma assignedName?_of_latest? {nodes : List Nat} {name : String} {a : Nat}
    (h : t.latest? nodes name = some a) : a ∈ nodes ∧ t.assignedName? a = some name := by
  constructor
  · exact List.mem_reverse.mp (List.mem_of_find?_eq_some h)
  · simpa using List.find?_some h

/-- Among nodes in program order the latest has the highest number. -/
lemma le_of_latest? {nodes : List Nat} {name : String} {a b : Nat}
    (hsorted : nodes.Pairwise (· < ·)) (h : t.latest? nodes name = some a) (hb : b ∈ nodes)
    (hname : t.assignedName? b = some name) : b ≤ a := by
  induction nodes using List.reverseRecOn with
  | nil => cases hb
  | append_singleton nodes c ih =>
    obtain ⟨hsorted, -, hlt⟩ := List.pairwise_append.mp hsorted
    rw [latest?_append] at h
    by_cases hc : t.assignedName? c = some name
    · have hfound : t.latest? [c] name = some c := by simp [latest?, hc]
      rw [hfound] at h
      cases h
      rcases List.mem_append.mp hb with hb | hb
      · exact Nat.le_of_lt (hlt b hb _ (by simp))
      · rw [List.mem_singleton.mp hb]
    · have hnone : t.latest? [c] name = none := by simp [latest?, hc]
      rw [hnone, Option.none_or] at h
      rcases List.mem_append.mp hb with hb | hb
      · exact ih hsorted h hb
      · rw [List.mem_singleton.mp hb] at hname
        exact absurd hname hc

/-! ### What can be seen from a node -/

/-- The assignment `a` to a name can be seen from the node `n`: it stands in a scope around `n`,
does not itself surround `n`, and comes earlier. -/
structure Visible (t : Tree) (n : Nat) (name : String) (a : Nat) : Prop where
  assigns : t.kind a = .assign ∧ ∃ target, t.child? a 0 = some target ∧
    t.kind target = .ident ∧ t.text? target = some name
  scope : ∃ p ∈ t.ancestors n, t.parent? a = some p
  not_around : a ≠ n ∧ a ∉ t.ancestors n
  earlier : t.preorderIndex a < t.preorderIndex n

lemma identName?_eq_some {n : Nat} {name : String} :
    t.identName? n = some name ↔ t.kind n = .ident ∧ t.text? n = some name := by
  unfold identName?
  split_ifs with hkind
  · simp [hkind]
  · simp [hkind]

/-- The branch of a scope that leads to a node. -/
lemma exists_branch {n p : Nat} (h : p ∈ t.ancestors n) :
    ∃ branch, t.Within branch n ∧ t.parent? branch = some p := by
  induction n using Nat.strong_induction_on with
  | _ n ih =>
    cases hp : t.parent? n with
    | none =>
      rw [ancestors_of_top hp] at h
      cases h
    | some q =>
      rw [ancestors_of_parent hp] at h
      rcases List.mem_cons.mp h with rfl | h
      · exact ⟨n, within_refl n, hp⟩
      · obtain ⟨branch, hwithin, hbranch⟩ := ih q (lt_of_parent? hp) h
        exact ⟨branch, (within_of_parent hp).mpr (.inr hwithin), hbranch⟩

lemma mem_ancestors_of_within {n p branch : Nat} (h : t.Within branch n)
    (hp : t.parent? branch = some p) : p ∈ t.ancestors n := by
  have hpn : t.Within p n := ((within_of_parent hp).mpr (.inr (within_refl p))).trans h
  rcases List.mem_cons.mp hpn with rfl | hpn
  · have := le_of_within h
    have := lt_of_parent? hp
    omega
  · exact hpn

namespace Numbered

variable (h : t.Numbered)
include h

lemma lt_size_of_within {n p branch : Nat} (hwithin : t.Within branch n)
    (hbranch : t.parent? branch = some p) : n < t.size :=
  h.lt_size_below (lt_size_of_mem_children (mem_children_of_parent? hbranch)) hwithin

/-- A node of a scope comes before the node that looks exactly if it comes before the branch. -/
lemma lt_branch_iff {n p branch a : Nat} (hwithin : t.Within branch n)
    (hbranch : t.parent? branch = some p) (ha : t.parent? a = some p) (hne : a ≠ branch) :
    a < branch ↔ a < n := by
  have hle := le_of_within hwithin
  constructor
  · intro hlt
    omega
  · intro hlt
    by_contra hge
    -- then the node of the scope would lie below the branch
    have hbelow : t.Within branch a := h.within_of_between hwithin (by omega) (by omega)
    rcases (within_of_parent ha).mp hbelow with rfl | hbelow
    · exact hne rfl
    · have := le_of_within hbelow
      have := lt_of_parent? hbranch
      omega

/-- Two children of one scope do not both lead to the same node. -/
lemma eq_branch {n p branch a : Nat} (hwithin : t.Within branch n)
    (hbranch : t.parent? branch = some p) (ha : t.parent? a = some p) (haround : t.Within a n) :
    a = branch := by
  by_contra hne
  have hmem := (h.mem_children _ _).mpr ha
  have hmem' := (h.mem_children _ _).mpr hbranch
  rcases Nat.lt_or_gt_of_ne hne with hlt | hlt
  · have := h.lt_of_mem_subtree hmem hmem' hlt (h.mem_subtree.mpr haround)
    have := le_of_within hwithin
    omega
  · have := h.lt_of_mem_subtree hmem' hmem hlt (h.mem_subtree.mpr hwithin)
    have := le_of_within haround
    omega

/-- What can be seen from a node stands before the branch in one of the scopes. -/
lemma visible_iff {n a : Nat} {name : String} :
    t.Visible n name a ↔ t.assignedName? a = some name ∧
      ∃ scope branch, (scope, branch) ∈ t.scopes n ∧ a ∈ t.earlier scope branch := by
  have hindex {n p branch : Nat} (hwithin : t.Within branch n)
      (hbranch : t.parent? branch = some p) : t.preorderIndex n = n :=
    h.preorderIndex_eq (h.lt_size_of_within hwithin hbranch)
  have hname : t.assignedName? a = some name ↔ t.kind a = .assign ∧ ∃ target,
      t.child? a 0 = some target ∧ t.kind target = .ident ∧ t.text? target = some name := by
    simp only [assignedName?_eq_some, identName?_eq_some]
  constructor
  · rintro ⟨hassigns, ⟨p, hp, ha⟩, ⟨hne, hnot⟩, hlt⟩
    obtain ⟨branch, hwithin, hbranch⟩ := exists_branch hp
    rw [hindex (within_refl a) ha, hindex hwithin hbranch] at hlt
    have hab : a ≠ branch := by
      rintro rfl
      rcases List.mem_cons.mp hwithin with rfl | hmem
      · exact hne rfl
      · exact hnot hmem
    refine ⟨hname.mpr hassigns, p, branch, mem_scopes.mpr ⟨hwithin, hbranch⟩, ?_⟩
    rw [mem_earlier (mem_children_of_parent? hbranch)]
    exact ⟨mem_children_of_parent? ha, (h.lt_branch_iff hwithin hbranch ha hab).mpr hlt⟩
  · rintro ⟨hassigns, p, branch, hscope, hmem⟩
    obtain ⟨hwithin, hbranch⟩ := mem_scopes.mp hscope
    obtain ⟨hchild, hlt⟩ := (mem_earlier (mem_children_of_parent? hbranch)).mp hmem
    have ha := (h.mem_children a p).mp hchild
    have haround : ¬ t.Within a n := by
      intro haround
      have := h.eq_branch hwithin hbranch ha haround
      omega
    have hle := le_of_within hwithin
    refine ⟨hname.mp hassigns, ⟨p, mem_ancestors_of_within hwithin hbranch, ha⟩, ?_, ?_⟩
    · constructor
      · rintro rfl
        exact haround (within_refl _)
      · intro hmem
        exact haround (List.mem_cons_of_mem _ hmem)
    · rw [hindex (within_refl a) ha, hindex hwithin hbranch]
      omega

/-- The search gives something that can be seen, and nothing that can be seen comes later. -/
lemma visible_of_binding? {n a : Nat} {name : String} (hfound : t.binding? n name = some a) :
    t.Visible n name a ∧ ∀ b, t.Visible n name b → b ≤ a := by
  simp only [h.visible_iff]
  induction n using Nat.strong_induction_on with
  | _ n ih =>
    cases hp : t.parent? n with
    | none =>
      rw [binding?_of_top hp] at hfound
      cases hfound
    | some p =>
      have hpn := lt_of_parent? hp
      have hmem := mem_children_of_parent? hp
      simp only [scopes_of_parent hp, List.mem_cons, Prod.mk.injEq]
      rw [binding?_of_parent hp] at hfound
      cases hlatest : t.latest? (t.earlier p n) name with
      | none =>
        rw [hlatest, Option.none_or] at hfound
        obtain ⟨⟨hname, scope, branch, hscope, ha⟩, hmax⟩ := ih p hpn hfound
        refine ⟨⟨hname, scope, branch, .inr hscope, ha⟩, ?_⟩
        rintro b ⟨hname', scope', branch', ⟨rfl, rfl⟩ | hscope', hb⟩
        · exact absurd hname' (latest?_eq_none.mp hlatest b hb)
        · exact hmax b ⟨hname', scope', branch', hscope', hb⟩
      | some c =>
        rw [hlatest, Option.some_or] at hfound
        cases hfound
        obtain ⟨ha, hname⟩ := assignedName?_of_latest? hlatest
        refine ⟨⟨hname, p, n, .inl ⟨rfl, rfl⟩, ha⟩, ?_⟩
        rintro b ⟨hname', scope', branch', ⟨rfl, rfl⟩ | hscope', hb⟩
        · exact le_of_latest? (t.sorted_earlier _ _) hlatest hb hname'
        · -- what an outer scope shows comes before that scope's branch, hence before the inner one
          obtain ⟨hwithin, hbranch⟩ := mem_scopes.mp hscope'
          have := ((mem_earlier (mem_children_of_parent? hbranch)).mp hb).2
          have := le_of_within hwithin
          have := lt_of_mem_children ((mem_earlier hmem).mp ha).1
          omega

lemma binding?_eq_none {n : Nat} {name : String} :
    t.binding? n name = none ↔ ∀ a, ¬ t.Visible n name a := by
  simp only [h.visible_iff]
  unfold binding?
  rw [List.findSome?_eq_none_iff]
  constructor
  · rintro hnone a ⟨hname, scope, branch, hscope, ha⟩
    have hlatest := hnone (scope, branch) hscope
    simp only [before?_of_mem_scopes hscope, Option.bind_some] at hlatest
    exact latest?_eq_none.mp hlatest a ha hname
  · rintro hnone ⟨scope, branch⟩ hscope
    simp only [before?_of_mem_scopes hscope, Option.bind_some]
    refine latest?_eq_none.mpr fun a ha hname => ?_
    exact hnone a ⟨hname, scope, branch, hscope, ha⟩

end Numbered

/-- In a finished tree, the search for a name finds the assignment that comes last in program order
among all that can be seen from the node, and finds none exactly if none can be seen. Each scope it
goes through has the branch it looks for. -/
theorem binding?_eq_latest_visible (hfinished : t.Finished) (n : Nat) (name : String) :
    (∀ scope branch, (scope, branch) ∈ t.scopes n → t.before? scope branch ≠ none) ∧
      (t.binding? n name = none ↔ ∀ a, ¬ t.Visible n name a) ∧
      ∀ a, t.binding? n name = some a ↔
        t.Visible n name a ∧
          ∀ b, t.Visible n name b → t.preorderIndex b ≤ t.preorderIndex a := by
  have h := hfinished.numbered
  have hindex : ∀ {a}, t.Visible n name a → t.preorderIndex a = a := by
    rintro a ⟨-, ⟨p, -, ha⟩, -⟩
    exact h.preorderIndex_eq (h.lt_size_of_within (within_refl a) ha)
  refine ⟨?_, h.binding?_eq_none, ?_⟩
  · intro scope branch hscope
    rw [before?_of_mem_scopes hscope]
    exact Option.some_ne_none _
  · intro a
    constructor
    · intro hfound
      obtain ⟨hvisible, hmax⟩ := h.visible_of_binding? hfound
      refine ⟨hvisible, fun b hb => ?_⟩
      rw [hindex hb, hindex hvisible]
      exact hmax b hb
    · rintro ⟨hvisible, hmax⟩
      cases hfound : t.binding? n name with
      | none => exact absurd hvisible (h.binding?_eq_none.mp hfound a)
      | some b =>
        obtain ⟨hvisible', hmax'⟩ := h.visible_of_binding? hfound
        have hle := hmax b hvisible'
        rw [hindex hvisible, hindex hvisible'] at hle
        have hle' := hmax' a hvisible
        rw [Nat.le_antisymm hle hle']

/-- The events of an assignment whose value is a single node. -/
def assignmentEvents (name : String) (kind : Kind) (payload : Payload) : List BuildEvent :=
  [.opened .assign .none .detached, .leaf .ident (.text name) .detached,
    .leaf kind payload .detached, .closed]

/-- A name is assigned before a game, in the game before it is used there, and after the game. -/
def shadowing : List BuildEvent :=
  [.opened .start .none .detached] ++ assignmentEvents "x" .integer (.integer 1) ++
    [.opened .game .none .detached] ++ assignmentEvents "x" .boolean (.boolean true) ++
    [.opened .output .none .detached, .leaf .ident (.text "x") .detached, .closed, .closed] ++
    assignmentEvents "x" .string (.text "after") ++ [.closed]

/-- Of three assignments to a name, the one inside the game is seen from its use in the game. -/
theorem binding?_shadowing :
    ∃ t : Tree, t.Finished ∧ t.binding? 9 "x" = some 5 ∧ t.Visible 9 "x" 5 ∧
      ∀ b, t.Visible 9 "x" b → t.preorderIndex b ≤ t.preorderIndex 5 := by
  have hrun : ((Builder.empty.answers shadowing).2.finish.toOption.map
      fun t => t.binding? 9 "x") = some (some 5) := by decide +kernel
  cases hfinish : (Builder.empty.answers shadowing).2.finish with
  | error e => simp [hfinish, Except.toOption] at hrun
  | ok t =>
    have hfinished : t.Finished := ⟨shadowing, hfinish⟩
    have hfound : t.binding? 9 "x" = some 5 := by simpa [hfinish, Except.toOption] using hrun
    obtain ⟨hvisible, hlatest⟩ := ((binding?_eq_latest_visible hfinished 9 "x").2.2 5).mp hfound
    exact ⟨t, hfinished, hfound, hvisible, hlatest⟩

end Tree

end GridGame
