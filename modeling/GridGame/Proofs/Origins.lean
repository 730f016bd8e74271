import GridGame.Proofs.Builds

/-!
# Origins of variables

An assignment declares its name if no assignment to that name can be seen from it; the variable has
its origin there. Every assignment to a name leads back to such an origin, and all assignments on
the way keep the type that the origin gives to the variable (`exists_declares`). So the variables
that a program declares, and what they hold, can be told from the assignments of its tree.
-/

namespace GridGame

open Code

namespace Tree

/-- The assignment declares the name: no other assignment to it can be seen from there. -/
structure Origin (t : Tree) (name : String) (d : Nat) : Prop where
  assigns : t.assignedName? d = some name
  unseen : t.binding? d name = none

variable {t : Tree} {defaults : PieceDefaults}

/-! ### What can be seen from what can be seen -/

lemma scopes_subset_of_within {p n : Nat} (h : t.Within p n) : t.scopes p ⊆ t.scopes n := by
  rintro ⟨scope, branch⟩ hscope
  obtain ⟨hwithin, hbranch⟩ := mem_scopes.mp hscope
  exact mem_scopes.mpr ⟨hwithin.trans h, hbranch⟩

lemma within_of_mem_scopes {n scope branch : Nat} (h : (scope, branch) ∈ t.scopes n) :
    t.Within scope n := by
  obtain ⟨hwithin, hbranch⟩ := mem_scopes.mp h
  exact ((within_of_parent hbranch).mpr (.inr (within_refl scope))).trans hwithin

namespace Numbered

variable (h : t.Numbered)
include h

lemma lt_of_visible {n a : Nat} {name : String} (ha : t.Visible n name a) : a < n := by
  obtain ⟨-, scope, branch, hscope, ha⟩ := h.visible_iff.mp ha
  obtain ⟨hbranch, hle⟩ := of_mem_scopes hscope
  exact ((mem_earlier hbranch).mp ha).2.trans_le hle

lemma visible_trans {n a b : Nat} {name : String} (ha : t.Visible n name a)
    (hb : t.Visible a name b) : t.Visible n name b := by
  rw [h.visible_iff] at ha hb ⊢
  obtain ⟨-, p, branch, hscope, ha⟩ := ha
  obtain ⟨hname, p', branch', hscope', hb⟩ := hb
  refine ⟨hname, ?_⟩
  obtain ⟨hchild, hlt⟩ := (mem_earlier (of_mem_scopes hscope).1).mp ha
  rw [scopes_of_parent ((h.mem_children a p).mp hchild)] at hscope'
  rcases List.mem_cons.mp hscope' with heq | hscope'
  · -- a sibling before `a` stands before the branch as well
    cases heq
    obtain ⟨hchild', hlt'⟩ := (mem_earlier hchild).mp hb
    exact ⟨p, branch, hscope,
      (mem_earlier (of_mem_scopes hscope).1).mpr ⟨hchild', hlt'.trans hlt⟩⟩
  · exact ⟨p', branch', scopes_subset_of_within (within_of_mem_scopes hscope) hscope', hb⟩

/-! ### Origins -/

/-- The code of an origin declares the name. -/
lemma declares_of_origin {d : Nat} {name : String} {st : Statement} (hd : t.Origin name d)
    (hlowered : (t.lowerStatement defaults d).outcome = .ok st) :
    ∃ initial, st = .declare name initial ∧ t.AssignsType d initial.type := by
  have hcode := statementCode_of_lowerStatement hlowered
  cases hdeclared : st.declared? with
  | none =>
    obtain ⟨a, -, ha, -⟩ := h.of_not_declared? hcode hdeclared hd.assigns
    rw [hd.unseen] at ha
    cases ha
  | some entry =>
    obtain ⟨hassigns, -, htype⟩ := h.of_declared? hcode hdeclared
    rw [hd.assigns] at hassigns
    cases hassigns
    cases st with
    | declare x initial =>
      cases hdeclared
      exact ⟨initial, rfl, htype⟩
    | change => cases hdeclared
    | print => cases hdeclared
    | place => cases hdeclared

/-- A declaration stands at an origin. -/
lemma origin_of_declares {n : Nat} {name : String} {initial : Initial}
    (hlowered : (t.lowerStatement defaults n).outcome = .ok (.declare name initial)) :
    t.Origin name n := by
  have hcode := statementCode_of_lowerStatement hlowered
  obtain ⟨hassigns, hunseen, -⟩ := h.of_declared? hcode rfl
  exact ⟨hassigns, hunseen⟩

end Numbered

/-! ### What assignments declare -/

lemma declaration?_eq_some {n : Nat} {d : Declaration} :
    t.declaration? n = some d ↔ ∃ name value, t.assignedName? n = some name ∧
      t.child? n 1 = some value ∧ t.declarationOf? n name value = some d := by
  simp only [declaration?, assignedName?_eq_some, Option.bind_eq_bind, Option.bind_eq_some_iff,
    Option.guard_eq_some']
  constructor
  · rintro ⟨_, hkind, target, htarget, value, hvalue, name, hname, hd⟩
    exact ⟨name, value, ⟨hkind, target, htarget, hname⟩, hvalue, hd⟩
  · rintro ⟨name, value, ⟨hkind, target, htarget, hname⟩, hvalue, hd⟩
    exact ⟨(), hkind, target, htarget, value, hvalue, name, hname, hd⟩

lemma dimensions_eq_ok {n : Nat} {width height : UInt32} :
    t.dimensions n = .ok (width, height) ↔ t.payload n = .dimensions width height := by
  unfold dimensions
  split
  · next hpayload => simp [hpayload]
  · next hother =>
    simp only [reduceCtorEq, false_iff]
    exact hother width height

lemma assignsType_of_board {n value : Nat} (hvalue : t.child? n 1 = some value)
    (hkind : t.kind value = .board) : t.AssignsType n .board := by
  have hclassify : t.classify value .statement = .ok .board := by simp [classify, hkind]
  exact ⟨value, hvalue, hasType_of_classify (identName?_of_kind (by simp [hkind])) hclassify⟩

/-! ### Nodes of statements that see each other -/

/-- What can be seen from one of the nodes is one of the nodes. -/
def SelfContained (t : Tree) (nodes : List Nat) : Prop :=
  ∀ n ∈ nodes, ∀ name a, t.binding? n name = some a → a ∈ nodes

lemma mem_setupNodes_of_assigns {a : Nat} {name : String} (ha : a ∈ t.children t.root)
    (hname : t.assignedName? a = some name) : a ∈ t.setupNodes := by
  obtain ⟨hkind, -⟩ := assignedName?_eq_some.mp hname
  exact mem_setupNodes.mpr ⟨ha, by simp [hkind]⟩

namespace Numbered

variable (h : t.Numbered)
include h

/-- From below the root, only statements of the setup can be seen. -/
lemma mem_setupNodes_of_binding? {n a : Nat} {name : String} (hn : n ∈ t.children t.root)
    (ha : t.binding? n name = some a) : a ∈ t.setupNodes := by
  have htop : t.parent? t.root = none := (h.parent_eq_none t.root h.root_lt).mpr rfl
  rw [binding?_of_parent ((h.mem_children n t.root).mp hn), binding?_of_top htop,
    Option.or_none] at ha
  obtain ⟨hmem, hname⟩ := assignedName?_of_latest? ha
  exact mem_setupNodes_of_assigns ((mem_earlier hn).mp hmem).1 hname

lemma selfContained_setupNodes : t.SelfContained t.setupNodes := by
  intro n hn name a ha
  exact h.mem_setupNodes_of_binding? (mem_setupNodes.mp hn).1 ha

lemma selfContained_statementNodes : t.SelfContained t.statementNodes := by
  intro n hn name a ha
  rcases List.mem_append.mp hn with hn | hn
  · exact List.mem_append_left _ (h.selfContained_setupNodes n hn name a ha)
  · obtain ⟨game, hgame, hkind, hn⟩ := mem_gameNodes.mp hn
    rw [binding?_of_parent ((h.mem_children n game).mp hn)] at ha
    rcases Option.or_eq_some_iff.mp ha with ha | ⟨-, ha⟩
    · obtain ⟨hmem, -⟩ := assignedName?_of_latest? ha
      exact List.mem_append_right _
        (mem_gameNodes.mpr ⟨game, hgame, hkind, ((mem_earlier hn).mp hmem).1⟩)
    · exact List.mem_append_left _ (h.mem_setupNodes_of_binding? hgame ha)

/-- Every assignment among the nodes has the origin of its variable among them, and gives the
variable a value of the type it has there. -/
lemma exists_declares {nodes : List Nat} (hclosed : t.SelfContained nodes)
    (hlowered : ∀ n ∈ nodes, ∃ st, (t.lowerStatement defaults n).outcome = .ok st) {n : Nat}
    {name : String} (hn : n ∈ nodes) (hname : t.assignedName? n = some name) :
    ∃ d ∈ nodes, (d = n ∨ t.Visible n name d) ∧ ∃ initial,
      (t.lowerStatement defaults d).outcome = .ok (.declare name initial) ∧
        t.AssignsType n initial.type := by
  induction n using Nat.strong_induction_on with
  | _ n ih =>
    obtain ⟨st, hst⟩ := hlowered n hn
    cases hb : t.binding? n name with
    | none =>
      obtain ⟨initial, rfl, htype⟩ := h.declares_of_origin ⟨hname, hb⟩ hst
      exact ⟨n, hn, .inl rfl, initial, hst, htype⟩
    | some b =>
      have hvisible := (h.visible_of_binding? hb).1
      obtain ⟨d, hd, hseen, initial, hinitial, htype⟩ :=
        ih b (h.lt_of_visible hvisible) (hclosed n hn name b hb) (h.visible_iff.mp hvisible).1
      refine ⟨d, hd, .inr ?_, initial, hinitial, ?_⟩
      · rcases hseen with rfl | hseen
        · exact hvisible
        · exact h.visible_trans hvisible hseen
      · -- the assignment is a change, which keeps the type
        have hcode := statementCode_of_lowerStatement hst
        cases hdeclared : st.declared? with
        | none =>
          obtain ⟨a, type, ha, hatype, hntype⟩ := h.of_not_declared? hcode hdeclared hname
          rw [hb] at ha
          cases ha
          rw [htype.unique hatype]
          exact hntype
        | some entry =>
          obtain ⟨hassigns, hunseen, -⟩ := h.of_declared? hcode hdeclared
          rw [hname] at hassigns
          cases hassigns
          rw [hb] at hunseen
          cases hunseen

end Numbered

end Tree

/-! ### Declared names -/

namespace Code

lemma Initial.eq_board_of_type {initial : Initial} (h : initial.type = .board) :
    ∃ width height, initial = .board width height := by
  cases initial with
  | board width height => exact ⟨width, height, rfl⟩
  | blank blank => cases blank <;> cases h
  | _ => cases h

def declaredNames (statements : List Statement) : List String :=
  statements.filterMap fun st => st.declared?.map Prod.fst

lemma mem_declaredNames {statements : List Statement} {name : String} :
    name ∈ declaredNames statements ↔ ∃ initial, .declare name initial ∈ statements := by
  simp only [declaredNames, List.mem_filterMap, Option.map_eq_some_iff, Prod.exists]
  constructor
  · rintro ⟨st, hst, x, type, hdeclared, rfl⟩
    cases st with
    | declare y initial =>
      cases hdeclared
      exact ⟨initial, hst⟩
    | change => cases hdeclared
    | print => cases hdeclared
    | place => cases hdeclared
  · rintro ⟨initial, hmem⟩
    exact ⟨_, hmem, name, initial.type, rfl, rfl⟩

end Code

lemma forall₂_getElem? {α β : Type} {R : α → β → Prop} {l : List α} {l' : List β}
    (h : List.Forall₂ R l l') {i : Nat} {a : α} (ha : l[i]? = some a) :
    ∃ b, l'[i]? = some b ∧ R a b := by
  induction h generalizing i with
  | nil => cases ha
  | @cons x y _ _ hxy _ ih =>
    cases i with
    | zero =>
      cases ha
      exact ⟨y, rfl, hxy⟩
    | succ i => exact ih ha

lemma forall₂_exists_right {α β : Type} {R : α → β → Prop} {l : List α} {l' : List β}
    (h : List.Forall₂ R l l') {a : α} (ha : a ∈ l) : ∃ b ∈ l', R a b := by
  obtain ⟨i, hi⟩ := List.getElem?_of_mem ha
  obtain ⟨b, hb, hrel⟩ := forall₂_getElem? h hi
  exact ⟨b, List.mem_of_getElem? hb, hrel⟩

lemma forall₂_exists_left {α β : Type} {R : α → β → Prop} {l : List α} {l' : List β}
    (h : List.Forall₂ R l l') {b : β} (hb : b ∈ l') : ∃ a ∈ l, R a b :=
  forall₂_exists_right h.flip hb

namespace Tree

variable {t : Tree} {defaults : PieceDefaults} {nodes : List Nat} {statements : List Statement}

lemma exists_lowered
    (h : List.Forall₂ (fun n st => (t.lowerStatement defaults n).outcome = .ok st) nodes
      statements) :
    ∀ n ∈ nodes, ∃ st, (t.lowerStatement defaults n).outcome = .ok st := by
  intro n hn
  obtain ⟨st, -, hst⟩ := forall₂_exists_right h hn
  exact ⟨st, hst⟩

/-- The declared names are those with an origin. -/
lemma mem_declaredNames_iff_origin (h : t.Numbered)
    (hlowered : List.Forall₂ (fun n st => (t.lowerStatement defaults n).outcome = .ok st) nodes
      statements) {name : String} :
    name ∈ declaredNames statements ↔ ∃ d ∈ nodes, t.Origin name d := by
  rw [mem_declaredNames]
  constructor
  · rintro ⟨initial, hmem⟩
    obtain ⟨d, hd, hst⟩ := forall₂_exists_left hlowered hmem
    exact ⟨d, hd, h.origin_of_declares hst⟩
  · rintro ⟨d, hd, horigin⟩
    obtain ⟨st, hmem, hst⟩ := forall₂_exists_right hlowered hd
    obtain ⟨initial, rfl, -⟩ := h.declares_of_origin horigin hst
    exact ⟨initial, hmem⟩

/-- Where all lookups stay within the statements, the declared names are the names that are
assigned. -/
lemma mem_declaredNames_iff (h : t.Numbered) (hclosed : t.SelfContained nodes)
    (hlowered : List.Forall₂ (fun n st => (t.lowerStatement defaults n).outcome = .ok st) nodes
      statements) {name : String} :
    name ∈ declaredNames statements ↔ ∃ n ∈ nodes, t.assignedName? n = some name := by
  rw [mem_declaredNames_iff_origin h hlowered]
  constructor
  · rintro ⟨d, hd, horigin⟩
    exact ⟨d, hd, horigin.assigns⟩
  · rintro ⟨n, hn, hname⟩
    obtain ⟨d, hd, -, initial, hinitial, -⟩ :=
      h.exists_declares hclosed (exists_lowered hlowered) hn hname
    exact ⟨d, hd, h.origin_of_declares hinitial⟩

end Tree

end GridGame
