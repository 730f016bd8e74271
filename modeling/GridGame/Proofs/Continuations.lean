import GridGame.Compilation
import GridGame.Proofs.Success
import GridGame.Proofs.Visibility
import Mathlib.Data.List.Find
import Mathlib.Data.List.Infix

/-!
# Programs that go on

A tree continues another one if it starts with the same statements: the nodes below the root of the
shorter tree are there with the same numbers, and what the longer tree has besides comes after them
(`Continues`). Lowering looks back from a node, never ahead. So every step of lowering a node of the
shorter tree comes to the same in both trees, with the same notices, the same code, and the same
failure if there is one.
-/

namespace GridGame

open Code

/-! ### Computations with equal steps -/

/-- Computations are equal if they start alike and go on alike from every result. -/
lemma Reported.bind_congr {ε α β : Type} {x y : Reported ε α} {f g : α → Reported ε β}
    (hxy : x = y) (hfg : ∀ a, y.outcome = .ok a → f a = g a) : x >>= f = y >>= g := by
  subst hxy
  show Reported.bind x f = Reported.bind x g
  unfold Reported.bind
  cases hx : x.outcome with
  | error e => rfl
  | ok a => simp only [hfg a hx]

lemma Lowering.each_congr {α β : Type} {render : β → String} {f g : α → Lowering β} {xs : List α}
    (h : ∀ x ∈ xs, f x = g x) : each render f xs = each render g xs := by
  induction xs with
  | nil => rfl
  | cons x xs ih =>
    obtain ⟨hx, hxs⟩ := List.forall_mem_cons.mp h
    rw [each, each, hx, ih hxs]

namespace Tree

/-- The search for a member of a list does not see what is appended. -/
lemma takeWhile_ne_append {l l' : List Nat} {b : Nat} (hb : b ∈ l) :
    (l ++ l').takeWhile (· != b) = l.takeWhile (· != b) := by
  rw [List.takeWhile_append, if_neg]
  intro hlength
  have hprefixed := List.takeWhile_prefix (l := l) (· != b)
  have hall := List.all_takeWhile (p := (· != b)) (l := l)
  rw [hprefixed.eq_of_length hlength] at hall
  simpa using List.all_eq_true.mp hall b hb

/-! ### Nodes below the root -/

/-- The node is in the table and is not the first one. -/
def Inner (s : Tree) (n : Nat) : Prop := 0 < n ∧ n < s.size

section Inner

variable {s : Tree} {n a c i : Nat} {name : String}

lemma inner_of_mem_children (h : c ∈ s.children n) : s.Inner c :=
  ⟨Nat.zero_lt_of_lt (lt_of_mem_children h), lt_size_of_mem_children h⟩

lemma inner_of_child? (h : s.child? n i = some c) : s.Inner c :=
  inner_of_mem_children (mem_children_of_child? h)

lemma inner_of_mem_earlier {scope branch : Nat} (h : a ∈ s.earlier scope branch) : s.Inner a :=
  inner_of_mem_children (List.takeWhile_subset _ h)

lemma inner_of_binding? (h : s.binding? n name = some a) : s.Inner a := by
  obtain ⟨⟨scope, branch⟩, hscope, ha⟩ := List.exists_of_findSome?_eq_some h
  simp only [before?_of_mem_scopes hscope, Option.bind_some] at ha
  exact inner_of_mem_earlier (List.mem_reverse.mp (List.mem_of_find?_eq_some ha))

lemma inner_of_require (h : (s.require n name).outcome = .ok a) : s.Inner a := by
  simp only [require, lookup, Reported.bind_eq_ok, Except.ok.injEq] at h
  obtain ⟨found, rfl, ha⟩ := h
  split at ha
  · next b hb =>
    cases ha
    exact inner_of_binding? hb
  · cases ha

lemma inner_of_valueOf (h : (s.valueOf n name).outcome = .ok c) : s.Inner c := by
  obtain ⟨a, -, hc⟩ := valueOf_eq_ok.mp h
  exact inner_of_child? hc

lemma inner_of_finalValue (hn : s.Inner n) (h : (s.finalValue n).outcome = .ok c) :
    s.Inner c := by
  induction n using Nat.strong_induction_on with
  | _ n ih =>
    unfold finalValue at h
    split at h
    · rw [effectiveValue_eq, Reported.bind_eq_ok] at h
      obtain ⟨v, hv, hc⟩ := h
      exact ih v (lt_of_valueOf hv) (inner_of_valueOf hv) hc
    · cases h
      exact hn

lemma inner_of_effectiveValue (h : (s.effectiveValue n name).outcome = .ok c) : s.Inner c := by
  rw [effectiveValue_eq, Reported.bind_eq_ok] at h
  obtain ⟨v, hv, hc⟩ := h
  exact inner_of_finalValue (inner_of_valueOf hv) hc

end Inner

/-! ### Continuations -/

/-- The tree `t` starts with the statements of `s`. -/
structure Continues (t s : Tree) : Prop where
  node : ∀ {n}, s.Inner n → t.node n = s.node n
  outermost : s.children 0 <+: t.children 0
  /-- The properties of a node are children of it. -/
  table : ∀ {n p}, p ∈ s.propertyTable n → p.1 ∈ s.children n ∧ p.2 ∈ s.children n

namespace Continues

variable {s t : Tree} {n : Nat}

lemma kind (h : t.Continues s) (hn : s.Inner n) : t.kind n = s.kind n :=
  congrArg Node.kind (h.node hn)

lemma payload (h : t.Continues s) (hn : s.Inner n) : t.payload n = s.payload n :=
  congrArg Node.payload (h.node hn)

lemma span (h : t.Continues s) (hn : s.Inner n) : t.span n = s.span n :=
  congrArg Node.span (h.node hn)

lemma children (h : t.Continues s) (hn : s.Inner n) : t.children n = s.children n :=
  congrArg (fun x => x.children.toList) (h.node hn)

lemma child? (h : t.Continues s) (hn : s.Inner n) (i : Nat) : t.child? n i = s.child? n i := by
  rw [Tree.child?, h.children hn, Tree.child?]

lemma text? (h : t.Continues s) (hn : s.Inner n) : t.text? n = s.text? n := by
  rw [Tree.text?, h.payload hn, Tree.text?]

lemma identName? (h : t.Continues s) (hn : s.Inner n) : t.identName? n = s.identName? n := by
  rw [Tree.identName?, h.kind hn, h.text? hn, Tree.identName?]

lemma describe (h : t.Continues s) (hn : s.Inner n) : t.describe n = s.describe n := by
  rw [Tree.describe, h.kind hn, h.text? hn, h.span hn, Tree.describe]

lemma propertyTable (h : t.Continues s) (hn : s.Inner n) :
    t.propertyTable n = s.propertyTable n := by
  rw [Tree.propertyTable, h.payload hn, Tree.propertyTable]

lemma unsupported (h : t.Continues s) (hn : s.Inner n) (context : Context) :
    t.unsupported n context = s.unsupported n context := by
  rw [Tree.unsupported, h.kind hn, h.span hn, Tree.unsupported]

lemma unrefinedAt (h : t.Continues s) (hn : s.Inner n) : t.unrefinedAt n = s.unrefinedAt n := by
  rw [Tree.unrefinedAt, h.kind hn, h.span hn, Tree.unrefinedAt]

lemma malformedAt (h : t.Continues s) (hn : s.Inner n) (malformation : Malformation) :
    t.malformedAt n malformation = s.malformedAt n malformation := by
  rw [Tree.malformedAt, h.kind hn, h.span hn, Tree.malformedAt]

lemma requiredName (h : t.Continues s) (hn : s.Inner n) (part : Part) :
    t.requiredName n part = s.requiredName n part := by
  rw [Tree.requiredName, h.identName? hn, h.malformedAt hn, Tree.requiredName]

lemma dimensions (h : t.Continues s) (hn : s.Inner n) : t.dimensions n = s.dimensions n := by
  rw [Tree.dimensions, h.payload hn, h.malformedAt hn, Tree.dimensions]

lemma blankType? (h : t.Continues s) (hn : s.Inner n) : t.blankType? n = s.blankType? n := by
  rw [Tree.blankType?, h.text? hn, Tree.blankType?]

lemma classify (h : t.Continues s) (hn : s.Inner n) (context : Context) :
    t.classify n context = s.classify n context := by
  rw [Tree.classify, h.kind hn, h.blankType? hn, h.unsupported hn, h.unrefinedAt hn, Tree.classify]

/-- A child that has to be there is the same in both trees. -/
lemma requiredChild_bind {β : Type} (h : t.Continues s) (hn : s.Inner n) (i : Nat) (part : Part)
    {f : { c // c ∈ t.children n } → Lowering β} {g : { c // c ∈ s.children n } → Lowering β}
    (hfg : ∀ c hc hc', s.Inner c → f ⟨c, hc⟩ = g ⟨c, hc'⟩) :
    t.requiredChild n i part >>= f = s.requiredChild n i part >>= g := by
  have hchild := h.child? hn i
  unfold requiredChild
  split
  · next c hc =>
    split
    · next c' hc' =>
      cases hc.symm.trans (hchild.trans hc')
      exact hfg c _ _ (inner_of_child? hc')
    · next hnone => cases hc.symm.trans (hchild.trans hnone)
  · next hnone =>
    split
    · next c' hc' => cases hnone.symm.trans (hchild.trans hc')
    · rw [h.malformedAt hn]
      rfl

/-! ### Names -/

lemma assignedName? (h : t.Continues s) (hn : s.Inner n) :
    t.assignedName? n = s.assignedName? n := by
  rw [Tree.assignedName?, h.kind hn, h.child? hn, Tree.assignedName?]
  cases hc : s.child? n 0 with
  | none => rfl
  | some c => rw [Option.bind_some, Option.bind_some, h.identName? (inner_of_child? hc)]

lemma parent?_zero (t : Tree) : t.parent? 0 = none := by
  cases hp : t.parent? 0 with
  | none => rfl
  | some p => exact absurd (lt_of_parent? hp) (Nat.not_lt_zero p)

/-- The first node has no parent in either tree. -/
lemma parent? (h : t.Continues s) (hn : n < s.size) : t.parent? n = s.parent? n := by
  rcases Nat.eq_zero_or_pos n with rfl | hpos
  · rw [parent?_zero, parent?_zero]
  · exact congrArg Node.parent (h.node ⟨hpos, hn⟩)

lemma scopes (h : t.Continues s) (hn : n < s.size) : t.scopes n = s.scopes n := by
  induction n using Nat.strong_induction_on with
  | _ n ih =>
    have hparent := h.parent? hn
    cases hp : s.parent? n with
    | none => rw [scopes_of_top hp, scopes_of_top (hparent.trans hp)]
    | some p =>
      have hlt := lt_of_parent? hp
      rw [scopes_of_parent hp, scopes_of_parent (hparent.trans hp), ih p hlt (hlt.trans hn)]

/-- What comes before a branch is the same in both trees. -/
lemma earlier (h : t.Continues s) {scope branch : Nat} (hbranch : branch ∈ s.children scope) :
    t.earlier scope branch = s.earlier scope branch := by
  unfold Tree.earlier
  rcases Nat.eq_zero_or_pos scope with rfl | hpos
  · obtain ⟨rest, hrest⟩ := h.outermost
    rw [← hrest, takeWhile_ne_append hbranch]
  · have hlt := (lt_of_mem_children hbranch).trans (lt_size_of_mem_children hbranch)
    rw [h.children ⟨hpos, hlt⟩]

lemma latest? (h : t.Continues s) {nodes : List Nat} (hnodes : ∀ a ∈ nodes, s.Inner a)
    (name : String) : t.latest? nodes name = s.latest? nodes name := by
  apply List.find?_congr
  intro a ha
  rw [h.assignedName? (hnodes a (List.mem_reverse.mp ha))]

lemma binding? (h : t.Continues s) (hn : n < s.size) (name : String) :
    t.binding? n name = s.binding? n name := by
  induction n using Nat.strong_induction_on with
  | _ n ih =>
    have hparent := h.parent? hn
    cases hp : s.parent? n with
    | none => rw [binding?_of_top hp, binding?_of_top (hparent.trans hp)]
    | some p =>
      have hlt := lt_of_parent? hp
      rw [binding?_of_parent hp, binding?_of_parent (hparent.trans hp),
        h.earlier (mem_children_of_parent? hp), h.latest? fun a => inner_of_mem_earlier,
        ih p hlt (hlt.trans hn)]

lemma visibleNames (h : t.Continues s) (hn : n < s.size) :
    t.visibleNames n = s.visibleNames n := by
  rw [Tree.visibleNames, h.scopes hn, Tree.visibleNames]
  apply List.flatMap_congr
  rintro ⟨scope, branch⟩ hscope
  simp only [h.earlier (of_mem_scopes hscope).1]
  apply List.filterMap_congr
  intro a ha
  exact h.assignedName? (inner_of_mem_earlier ha)

lemma lookup {ε : Type} (h : t.Continues s) (hn : s.Inner n) (name : String) :
    (t.lookup n name : Reported ε _) = s.lookup n name := by
  rw [Tree.lookup, h.binding? hn.2, h.span hn, Tree.lookup]
  cases ha : s.binding? n name with
  | none => rfl
  | some a => simp [h.describe (inner_of_binding? ha)]

lemma isDeclared {ε : Type} (h : t.Continues s) (hn : s.Inner n) (name : String) :
    (t.isDeclared n name : Reported ε _) = s.isDeclared n name := by
  rw [Tree.isDeclared, h.lookup hn, Tree.isDeclared]

lemma require (h : t.Continues s) (hn : s.Inner n) (name : String) :
    t.require n name = s.require n name := by
  rw [Tree.require, h.lookup hn, h.span hn, h.visibleNames hn.2, Tree.require]

lemma valueOf (h : t.Continues s) (hn : s.Inner n) (name : String) :
    t.valueOf n name = s.valueOf n name := by
  rw [Tree.valueOf, h.require hn, Tree.valueOf]
  refine Reported.bind_congr rfl fun a ha => ?_
  have hinner := inner_of_require ha
  rw [h.child? hinner, h.span hinner]

lemma effectiveValue (h : t.Continues s) (hn : s.Inner n) (name : String) :
    t.effectiveValue n name = s.effectiveValue n name := by
  induction n using Nat.strong_induction_on generalizing name with
  | _ n ih =>
    rw [effectiveValue_eq, effectiveValue_eq]
    refine Reported.bind_congr (h.valueOf hn name) fun v hv => ?_
    have hinner := inner_of_valueOf hv
    rw [Tree.finalValue, h.identName? hinner, Tree.finalValue]
    cases s.identName? v with
    | none => rfl
    | some other => exact ih v (lt_of_valueOf hv) hinner other

lemma finalValue (h : t.Continues s) (hn : s.Inner n) : t.finalValue n = s.finalValue n := by
  rw [Tree.finalValue, h.identName? hn, Tree.finalValue]
  cases s.identName? n with
  | none => rfl
  | some name => exact h.effectiveValue hn name

/-! ### Types -/

lemma valueType (h : t.Continues s) (hn : s.Inner n) (context : Context) :
    t.valueType n context = s.valueType n context := by
  rw [valueType_eq, valueType_eq, h.finalValue hn]
  refine Reported.bind_congr rfl fun e he => ?_
  rw [h.classify (inner_of_finalValue hn (Lowering.ofResolve_eq_ok.mp he))]

lemma expectType (h : t.Continues s) (hn : s.Inner n) (expected : ValueType) (context : Context) :
    t.expectType n expected context = s.expectType n expected context := by
  rw [Tree.expectType, h.valueType hn, h.unsupported hn, Tree.expectType]

lemma checkOperand (h : t.Continues s) (hn : s.Inner n) : t.checkOperand n = s.checkOperand n := by
  rw [Tree.checkOperand, h.kind hn, h.expectType hn, h.unrefinedAt hn, h.unsupported hn,
    Tree.checkOperand]

/-! ### Expressions -/

lemma lowerExpr (h : t.Continues s) (hn : s.Inner n) : t.lowerExpr n = s.lowerExpr n := by
  -- the nodes inside an expression have larger numbers
  induction hm : s.size - n using Nat.strong_induction_on generalizing n with
  | _ m ih =>
    subst hm
    have ih (c : Nat) (hlt : n < c) (hc : s.Inner c) : t.lowerExpr c = s.lowerExpr c :=
      ih (s.size - c) (Nat.sub_lt_sub_left hn.2 hlt) hc rfl
    rw [Tree.lowerExpr, Tree.lowerExpr.eq_def s]
    rw [h.kind hn, h.text? hn, h.payload hn, h.blankType? hn, h.unrefinedAt hn]
    cases hkind : s.kind n
    case expr =>
      refine congrArg (Lowering.after "(") (Reported.bind_congr ?_ fun _ _ => rfl)
      rw [Lowering.each_attach fun c => do t.checkOperand c; t.lowerExpr c,
        Lowering.each_attach fun c => do s.checkOperand c; s.lowerExpr c, h.children hn]
      apply Lowering.each_congr
      intro c hc
      have hinner := inner_of_mem_children hc
      rw [h.checkOperand hinner, ih c (lt_of_mem_children hc) hinner]
    case access =>
      refine h.requiredChild_bind hn 0 _ fun position _ hposition hinner => ?_
      refine h.requiredChild_bind hn 1 _ fun boardNode _ _ hboardNode => ?_
      refine h.requiredChild_bind hinner 0 _ fun x _ hx hinnerx => ?_
      refine h.requiredChild_bind hinner 1 _ fun y _ hy hinnery => ?_
      have hlt := lt_of_mem_children hposition
      have hx := ih x (hlt.trans (lt_of_mem_children hx)) hinnerx
      have hy := ih y (hlt.trans (lt_of_mem_children hy)) hinnery
      simp only [h.requiredName hboardNode, h.expectType hboardNode, h.expectType hinnerx,
        h.expectType hinnery, hx, hy]
    all_goals simp only [h.unsupported hn, h.malformedAt hn, h.requiredName hn]

lemma lowerSquare (h : t.Continues s) {x y : Nat} (hx : s.Inner x) (hy : s.Inner y)
    (opening : String) : t.lowerSquare opening x y = s.lowerSquare opening x y := by
  rw [Tree.lowerSquare, h.lowerExpr hx, h.lowerExpr hy, Tree.lowerSquare]

/-! ### Pieces -/

lemma lowerFlag (h : t.Continues s) (hn : s.Inner n) (member : String) :
    t.lowerFlag member n = s.lowerFlag member n := by
  rw [Tree.lowerFlag, h.payload hn, h.malformedAt hn, Tree.lowerFlag]

lemma lowerLimit (h : t.Continues s) (hn : s.Inner n) (member : String) :
    t.lowerLimit member n = s.lowerLimit member n := by
  rw [Tree.lowerLimit, h.payload hn, h.malformedAt hn, Tree.lowerLimit]

lemma lowerProperty (h : t.Continues s) {key value : Nat} (hkey : s.Inner key)
    (hvalue : s.Inner value) (piece : String) :
    t.lowerProperty piece key value = s.lowerProperty piece key value := by
  rw [Tree.lowerProperty, h.requiredName hkey, h.kind hvalue, h.text? hvalue, h.unrefinedAt hvalue,
    Tree.lowerProperty]
  refine Reported.bind_congr rfl fun property _ => ?_
  simp only [h.lowerLimit hvalue, h.lowerFlag hvalue, h.unsupported hvalue]

lemma lowerPiece (h : t.Continues s) (hn : s.Inner n) (defaults : PieceDefaults) (piece : String) :
    t.lowerPiece defaults piece n = s.lowerPiece defaults piece n := by
  rw [Tree.lowerPiece, h.propertyTable hn, Tree.lowerPiece]
  refine congrArg _ (Reported.bind_congr (Lowering.each_congr ?_) fun _ _ => rfl)
  rintro ⟨key, value⟩ hproperty
  obtain ⟨hkey, hvalue⟩ := h.table hproperty
  exact h.lowerProperty (inner_of_mem_children hkey) (inner_of_mem_children hvalue) piece

/-! ### Statements -/

lemma lowerInitial (h : t.Continues s) (hn : s.Inner n) (defaults : PieceDefaults)
    (name : String) : t.lowerInitial defaults name n = s.lowerInitial defaults name n := by
  simp only [Tree.lowerInitial, h.kind hn, h.text? hn, h.lowerExpr hn, h.blankType? hn,
    h.dimensions hn, h.lowerPiece hn, h.requiredName hn, h.valueType hn, h.unrefinedAt hn,
    h.unsupported hn]

lemma changeType (h : t.Continues s) {target value : Nat} (htarget : s.Inner target)
    (hvalue : s.Inner value) (name : String) :
    t.changeType target name value = s.changeType target name value := by
  rw [Tree.changeType, h.effectiveValue htarget, h.valueType hvalue, Tree.changeType]
  refine Reported.bind_congr rfl fun previous hprevious => ?_
  have hinner := inner_of_effectiveValue (Lowering.ofResolve_eq_ok.mp hprevious)
  simp only [h.classify hinner, h.unsupported hvalue]

lemma lowerChange (h : t.Continues s) {target value : Nat} (htarget : s.Inner target)
    (hvalue : s.Inner value) (name : String) :
    t.lowerChange target name value = s.lowerChange target name value := by
  simp only [Tree.lowerChange, h.kind hvalue, h.text? hvalue, h.span hvalue, h.lowerExpr hvalue,
    h.changeType htarget hvalue, h.requiredName hvalue, h.unrefinedAt hvalue, h.unsupported hvalue]

lemma lowerAssign (h : t.Continues s) (hn : s.Inner n) (defaults : PieceDefaults) :
    t.lowerAssign defaults n = s.lowerAssign defaults n := by
  refine h.requiredChild_bind hn 0 _ fun target _ _ htarget => ?_
  refine h.requiredChild_bind hn 1 _ fun value _ _ hvalue => ?_
  simp only [h.requiredName htarget, h.isDeclared htarget, h.describe hvalue,
    h.lowerChange htarget hvalue, h.lowerInitial hvalue]

lemma lowerOutput (h : t.Continues s) (hn : s.Inner n) : t.lowerOutput n = s.lowerOutput n := by
  refine h.requiredChild_bind hn 0 _ fun value _ _ hvalue => ?_
  simp only [h.describe hvalue, h.kind hvalue, h.valueType hvalue, h.lowerExpr hvalue,
    h.identName? hvalue, h.unsupported hvalue]
  refine Reported.bind_congr rfl fun _ _ => ?_
  split
  · rfl
  · refine Reported.bind_congr rfl fun found hfound => ?_
    obtain ⟨type, effective⟩ := found
    have heffective := inner_of_finalValue hvalue (valueType_eq_ok.mp hfound).1
    cases type with
    | integer => rfl
    | text => rfl
    | piece => rfl
    | board => simp only [h.dimensions heffective]

lemma lowerPlace (h : t.Continues s) (hn : s.Inner n) : t.lowerPlace n = s.lowerPlace n := by
  refine h.requiredChild_bind hn 0 _ fun pieceNode _ _ hpieceNode => ?_
  refine h.requiredChild_bind hn 1 _ fun boardNode _ _ hboardNode => ?_
  refine h.requiredChild_bind hn 2 _ fun position _ _ hposition => ?_
  refine h.requiredChild_bind hposition 0 _ fun x _ _ hx => ?_
  refine h.requiredChild_bind hposition 1 _ fun y _ _ hy => ?_
  simp only [h.requiredName hpieceNode, h.requiredName hboardNode, h.expectType hpieceNode,
    h.expectType hboardNode, h.expectType hx, h.expectType hy, h.lowerSquare hx hy]

lemma lowerStatement (h : t.Continues s) (hn : s.Inner n) (defaults : PieceDefaults) :
    t.lowerStatement defaults n = s.lowerStatement defaults n := by
  rw [Tree.lowerStatement, h.kind hn, h.lowerAssign hn, h.lowerOutput hn, h.lowerPlace hn,
    h.unrefinedAt hn, h.unsupported hn, Tree.lowerStatement]

/-! ### Games and sections -/

lemma lowerGame (h : t.Continues s) (hn : s.Inner n) (defaults : PieceDefaults) :
    t.lowerGame defaults n = s.lowerGame defaults n := by
  rw [Tree.lowerGame, h.children hn, Tree.lowerGame]
  apply Lowering.each_congr
  intro c hc
  exact h.lowerStatement (inner_of_mem_children hc) defaults

lemma lowerSection (h : t.Continues s) (hn : s.Inner n) (defaults : PieceDefaults) :
    t.lowerSection defaults n = s.lowerSection defaults n := by
  rw [Tree.lowerSection, h.kind hn, h.lowerGame hn, h.lowerStatement hn, Tree.lowerSection]

lemma lowerSections (h : t.Continues s) (hn : s.Inner n) (defaults : PieceDefaults) :
    t.lowerSections defaults n = s.lowerSections defaults n := by
  rw [Tree.lowerSections, h.children hn, Tree.lowerSections]
  refine Reported.bind_congr (Lowering.each_congr ?_) fun _ _ => rfl
  intro c hc
  exact h.lowerSection (inner_of_mem_children hc) defaults

/-- The same is written for a node, as far as it can be written. Only the notices of a program
differ, which tell the number of nodes. -/
lemma emit (h : t.Continues s) (hn : s.Inner n) (o : Outline) :
    (t.emit o n).written = (s.emit o n).written ∧ (t.emit o n).failure = (s.emit o n).failure := by
  rw [Tree.emit, h.kind hn, h.lowerGame hn, h.lowerStatement hn, h.lowerExpr hn, Tree.emit]
  cases s.kind n
  case start =>
    dsimp only [emitProgram]
    rw [h.lowerSections hn]
    cases (s.lowerSections o.setup.defaults n).outcome with
    | error f => exact ⟨rfl, rfl⟩
    | ok sections => exact ⟨rfl, rfl⟩
  all_goals exact ⟨rfl, rfl⟩

/-- If the longer program can be lowered, so can the shorter one, and its sections come first. -/
lemma exists_lowerSections (h : t.Continues s) {defaults : PieceDefaults} {sections : Sections}
    (hsections : (t.lowerSections defaults 0).outcome = .ok sections) :
    ∃ first, (s.lowerSections defaults 0).outcome = .ok first ∧
      first.setup <+: sections.setup ∧ first.game <+: sections.game := by
  obtain ⟨parts, hparts, rfl⟩ := lowerSections_eq_ok.mp hsections
  have hfirst := List.forall₂_take (s.children 0).length hparts
  rw [← List.prefix_iff_eq_take.mp h.outermost] at hfirst
  have hlower : Lowering.each (fun _ => "") (t.lowerSection defaults) (s.children 0) =
      Lowering.each (fun _ => "") (s.lowerSection defaults) (s.children 0) :=
    Lowering.each_congr fun c hc => h.lowerSection (inner_of_mem_children hc) defaults
  rw [← Lowering.each_eq_ok, hlower, Lowering.each_eq_ok] at hfirst
  have hparts := List.take_prefix (s.children 0).length parts
  exact ⟨_, lowerSections_eq_ok.mpr ⟨_, hfirst, rfl⟩, hparts.flatMap _, hparts.flatMap _⟩

end Continues

end Tree

end GridGame
