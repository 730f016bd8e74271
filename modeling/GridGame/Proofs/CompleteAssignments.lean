import GridGame.Proofs.Lookups
import GridGame.Proofs.Origins

/-!
# Assignments without a value

A search for a name may find an assignment that has no value. While a program is lowered this never
happens. Lowering goes from one statement to the next, and an assignment without a value is refused
where it stands; within a statement, whatever is looked at before a search for a name has passed a
check that no such assignment passes. So every place from which a name is searched for has nothing
but complete assignments in view (`Clear`).

The argument follows the lowering. `Reported.Only` says what a computation may tell and how it may
fail, and has a rule for each way to put computations together.
-/

namespace GridGame

open Code

/-- The error that an assignment which was found has no value. -/
def LowerError.isValueless : LowerError → Bool
  | .resolve (.malformedAssignment ..) => true
  | _ => false

namespace Tree

variable {t : Tree} {n : Nat}

/-! ### Complete assignments -/

/-- If the node is an assignment, it has a value. -/
def Complete (t : Tree) (n : Nat) : Prop := t.kind n = .assign → ∃ value, t.child? n 1 = some value

lemma complete_of_kind (h : t.kind n ≠ .assign) : t.Complete n := fun hkind => absurd hkind h

lemma complete_of_identName? {name : String} (h : t.identName? n = some name) : t.Complete n :=
  complete_of_kind (kind_ne_assign_of_identName? h)

lemma complete_of_hasType {type : ValueType} (h : t.HasType n type) : t.Complete n := by
  apply complete_of_kind
  intro hkind
  obtain ⟨e, he⟩ := h .statement
  obtain ⟨hfinal, hclassify⟩ := valueType_eq_ok.mp he
  rw [finalValue, identName?_of_kind (by simp [hkind])] at hfinal
  cases hfinal
  simp [classify, hkind] at hclassify

lemma complete_of_lowerExpr {e : Expr} (h : (t.lowerExpr n).outcome = .ok e) : t.Complete n :=
  complete_of_kind (exprCode_of_lowerExpr h).kind_ne_assign

lemma complete_of_lowerStatement {defaults : PieceDefaults} {st : Statement}
    (h : (t.lowerStatement defaults n).outcome = .ok st) : t.Complete n := by
  cases statementCode_of_lowerStatement h with
  | declare _ _ hvalue => exact fun _ => ⟨_, hvalue⟩
  | change _ _ hvalue => exact fun _ => ⟨_, hvalue⟩
  | print hkind => exact complete_of_kind (by simp [hkind])
  | place hkind => exact complete_of_kind (by simp [hkind])

lemma requiredChild_of_none {i : Nat} (h : t.child? n i = none) (part : Part) :
    t.requiredChild n i part = Lowering.fail (t.malformedAt n (.missing part)) := by
  unfold requiredChild
  split
  · next hc =>
    rw [h] at hc
    cases hc
  · rfl

/-- An assignment without a value is refused as malformed where it stands. -/
lemma lowerStatement_of_valueless (defaults : PieceDefaults) (hkind : t.kind n = .assign)
    (hvalue : t.child? n 1 = none) :
    ∃ part, (t.lowerStatement defaults n).outcome =
      .error ⟨"", t.malformedAt n (.missing part)⟩ := by
  rw [lowerStatement, hkind]
  simp only [lowerAssign, requiredChild_of_none hvalue]
  unfold requiredChild
  split
  · exact ⟨.assignmentValue, rfl⟩
  · exact ⟨.assignmentTarget, rfl⟩

/-- From the node only complete assignments can be seen. -/
def Clear (t : Tree) (n : Nat) : Prop :=
  ∀ scope branch, (scope, branch) ∈ t.scopes n → ∀ a ∈ t.earlier scope branch, t.Complete a

lemma clear_of_top (h : t.parent? n = none) : t.Clear n := by
  simp [Clear, scopes_of_top h]

lemma clear_of_parent {p : Nat} (h : t.parent? n = some p) :
    t.Clear n ↔ (∀ a ∈ t.earlier p n, t.Complete a) ∧ t.Clear p := by
  simp only [Clear, scopes_of_parent h, List.mem_cons, Prod.mk.injEq]
  constructor
  · intro hn
    exact ⟨hn p n (.inl ⟨rfl, rfl⟩), fun scope branch hscope => hn scope branch (.inr hscope)⟩
  · rintro ⟨hsiblings, hp⟩ scope branch (⟨rfl, rfl⟩ | hscope)
    · exact hsiblings
    · exact hp scope branch hscope

namespace Numbered

variable (h : t.Numbered)
include h

lemma clear_of_mem_children {c : Nat} (hn : t.Clear n) (hc : c ∈ t.children n)
    (hearlier : ∀ a ∈ t.earlier n c, t.Complete a) : t.Clear c :=
  (clear_of_parent ((h.mem_children c n).mp hc)).mpr ⟨hearlier, hn⟩

/-- A child has a clear view if its parent has and the children before it are complete. -/
lemma clear_child {i c : Nat} (hn : t.Clear n) (hc : t.child? n i = some c)
    (hearlier : ∀ j < i, ∀ a, t.child? n j = some a → t.Complete a) : t.Clear c := by
  have hmem := mem_children_of_child? hc
  refine h.clear_of_mem_children hn hmem fun a ha => ?_
  obtain ⟨ha, hlt⟩ := (mem_earlier hmem).mp ha
  obtain ⟨j, hj, hchild⟩ := exists_child?_of_lt hc ha hlt
  exact hearlier j hj a hchild

lemma clear_first {c : Nat} (hn : t.Clear n) (hc : t.child? n 0 = some c) : t.Clear c :=
  h.clear_child hn hc (by simp)

lemma clear_second {a c : Nat} (hn : t.Clear n) (ha : t.child? n 0 = some a)
    (hcomplete : t.Complete a) (hc : t.child? n 1 = some c) : t.Clear c := by
  refine h.clear_child hn hc fun j hj b hb => ?_
  obtain rfl := Nat.lt_one_iff.mp hj
  cases ha.symm.trans hb
  exact hcomplete

/-- What is found from a node with a clear view has a value, which has a clear view in turn. -/
lemma exists_value_of_binding? {name : String} {a : Nat} (hn : t.Clear n)
    (ha : t.binding? n name = some a) : ∃ value, t.child? a 1 = some value ∧ t.Clear value := by
  induction n using Nat.strong_induction_on with
  | _ n ih =>
    cases hp : t.parent? n with
    | none =>
      rw [binding?_of_top hp] at ha
      cases ha
    | some p =>
      obtain ⟨hsiblings, hclear⟩ := (clear_of_parent hp).mp hn
      rw [binding?_of_parent hp] at ha
      cases hlatest : t.latest? (t.earlier p n) name with
      | none =>
        rw [hlatest, Option.none_or] at ha
        exact ih p (lt_of_parent? hp) hclear ha
      | some b =>
        rw [hlatest, Option.some_or] at ha
        cases ha
        obtain ⟨hmem, hname⟩ := assignedName?_of_latest? hlatest
        obtain ⟨hkind, target, htarget, hident⟩ := assignedName?_eq_some.mp hname
        obtain ⟨value, hvalue⟩ := hsiblings a hmem hkind
        -- the siblings before the assignment are among those before the node
        obtain ⟨hchild, hlt⟩ := (mem_earlier (mem_children_of_parent? hp)).mp hmem
        have hbefore : ∀ b ∈ t.earlier p a, t.Complete b := by
          intro b hb
          obtain ⟨hb, hba⟩ := (mem_earlier hchild).mp hb
          exact hsiblings b
            ((mem_earlier (mem_children_of_parent? hp)).mpr ⟨hb, hba.trans hlt⟩)
        have hview : t.Clear a := h.clear_of_mem_children hclear hchild hbefore
        exact ⟨value, hvalue,
          h.clear_second hview htarget (complete_of_identName? hident) hvalue⟩

end Numbered

/-! ### Searches that find values -/

/-- If a notice tells of an assignment that a name was found to refer to, this is the assignment
that the name refers to there, and it has a value. -/
def FoundComplete (t : Tree) : Notice → Prop
  | .bound name n site a description => t.binding? n name = some a ∧
      (∃ value, t.child? a 1 = some value) ∧ t.span n = site ∧ t.describe a = description
  | _ => True

lemma foundComplete_of_stage {notice : Notice} (h : notice.stage ≠ .scope) :
    t.FoundComplete notice := by
  cases notice with
  | bound => exact absurd rfl h
  | _ => trivial

/-- Whatever assignment a lowering finds has a value, and it does not fail for the lack of one. -/
abbrev FindsValues (t : Tree) {α : Type} (x : Lowering α) : Prop :=
  x.Only t.FoundComplete fun f => f.error.isValueless = false

namespace FindsValues

variable {α β : Type}

lemma fail {error : LowerError} (h : error.isValueless = false) :
    t.FindsValues (Lowering.fail error : Lowering α) :=
  Reported.Only.fail h

lemma ofExcept {x : Except LowerError α} (h : ∀ e, x = .error e → e.isValueless = false) :
    t.FindsValues (Lowering.ofExcept x) := by
  refine Reported.Only.of ?_
  cases x with
  | ok a => simp [Except.mapError]
  | error e =>
    rintro _ ⟨⟩
    exact h e rfl

lemma after {x : Lowering α} (text : String) (h : t.FindsValues x) :
    t.FindsValues (Lowering.after text x) :=
  Reported.Only.mapError h fun _ hf => hf

/-- A member of a list may rely on the lowering of those before it. -/
lemma each {render : β → String} {lower : α → Lowering β} {xs : List α}
    (h : ∀ before x later, xs = before ++ x :: later →
      (∀ y ∈ before, ∃ b, (lower y).outcome = .ok b) → t.FindsValues (lower x)) :
    t.FindsValues (Lowering.each render lower xs) := by
  induction xs with
  | nil => exact .pure _
  | cons x xs ih =>
    refine (h [] x xs rfl (by simp)).bind fun y hy => ?_
    refine (FindsValues.after _ (ih ?_)).bind fun _ _ => .pure _
    intro before x' later hsplit hbefore
    exact h (x :: before) x' later (by rw [hsplit, List.cons_append])
      (List.forall_mem_cons.mpr ⟨⟨y, hy⟩, hbefore⟩)

/-- A child may rely on the lowering of the children before it. -/
lemma eachChild {render : β → String} {lower : Nat → Lowering β}
    (h : ∀ c ∈ t.children n, (∀ a ∈ t.earlier n c, ∃ b, (lower a).outcome = .ok b) →
      t.FindsValues (lower c)) :
    t.FindsValues (Lowering.each render lower (t.children n)) := by
  refine each fun before c later hsplit hbefore => ?_
  have hc : c ∈ t.children n := by simp [hsplit]
  refine h c hc fun a ha => hbefore a ?_
  obtain ⟨ha, hlt⟩ := (mem_earlier hc).mp ha
  have hsorted := t.sorted_children n
  rw [hsplit] at ha hsorted
  rcases List.mem_append.mp ha with ha | ha
  · exact ha
  · -- a later child has a larger number
    have hge := List.pairwise_cons.mp (List.pairwise_append.mp hsorted).2.1
    rcases List.mem_cons.mp ha with rfl | ha
    · exact absurd hlt (Nat.lt_irrefl _)
    · exact absurd (hge.1 a ha) (Nat.lt_asymm hlt)

lemma requiredChild {i : Nat} {part : Part} {f : { c // c ∈ t.children n } → Lowering α}
    (h : ∀ c (hc : c ∈ t.children n), t.child? n i = some c → t.FindsValues (f ⟨c, hc⟩)) :
    t.FindsValues (t.requiredChild n i part >>= f) := by
  refine Reported.Only.bind ?_ fun c hc => h c.1 c.2 (requiredChild_eq_ok.mp hc)
  unfold Tree.requiredChild
  split
  · exact .pure _
  · exact fail rfl

lemma requiredName {part : Part} {f : String → Lowering α}
    (h : ∀ name, t.identName? n = some name → t.FindsValues (f name)) :
    t.FindsValues (Lowering.ofExcept (t.requiredName n part) >>= f) := by
  refine Reported.Only.bind (ofExcept ?_) fun name hname =>
    h name (requiredName_eq_ok.mp (Lowering.ofExcept_eq_ok.mp hname))
  intro e he
  unfold Tree.requiredName at he
  split at he
  · cases he
  · cases he
    rfl

lemma classify (n : Nat) (context : Context) :
    t.FindsValues (Lowering.ofExcept (t.classify n context)) := by
  refine ofExcept fun e he => ?_
  unfold Tree.classify at he
  split at he
  case h_8 =>
    split at he
    · cases he
    · cases he
    · cases he
      rfl
  case h_9 | h_10 =>
    cases he
    rfl
  all_goals cases he

lemma dimensions (n : Nat) : t.FindsValues (Lowering.ofExcept (t.dimensions n)) := by
  refine ofExcept fun e he => ?_
  unfold Tree.dimensions at he
  split at he
  · cases he
  · cases he
    rfl

end FindsValues

namespace Numbered

variable (h : t.Numbered)
include h

/-! ### Names -/

lemma lookup_only {ε : Type} {Q : ε → Prop} (hn : t.Clear n) (name : String) :
    (t.lookup n name).Only t.FoundComplete Q where
  notices := by
    intro notice hnotice
    obtain ⟨a, ha, rfl⟩ := List.mem_map.mp hnotice
    have hbinding := Option.mem_toList.mp ha
    obtain ⟨value, hvalue, -⟩ := h.exists_value_of_binding? hn hbinding
    exact ⟨hbinding, ⟨value, hvalue⟩, rfl, rfl⟩
  failure := by simp [lookup]

/-- A name is looked up, and its value is there. -/
lemma valueOf_only (hn : t.Clear n) (name : String) :
    (t.valueOf n name).Only t.FoundComplete
      fun e => (LowerError.resolve e).isValueless = false := by
  have hrequire : (t.require n name).Only t.FoundComplete
      fun e => (LowerError.resolve e).isValueless = false := by
    refine (h.lookup_only hn name).bind fun found _ => ?_
    cases found with
    | some a => exact .pure a
    | none => exact .fail rfl
  refine hrequire.bind fun a ha => ?_
  obtain ⟨b, hb⟩ := exists_require.mp ⟨a, ha⟩
  cases (require_of_binding? hb).symm.trans ha
  obtain ⟨value, hvalue, -⟩ := h.exists_value_of_binding? hn hb
  simp only [hvalue]
  exact .pure value

lemma effectiveValue_only (hn : t.Clear n) (name : String) :
    (t.effectiveValue n name).Only t.FoundComplete
      fun e => (LowerError.resolve e).isValueless = false := by
  induction n using Nat.strong_induction_on generalizing name with
  | _ n ih =>
    rw [effectiveValue_eq]
    refine (h.valueOf_only hn name).bind fun v hv => ?_
    obtain ⟨a, ha, hvalue⟩ := valueOf_eq_ok.mp hv
    obtain ⟨value, hvalue', hclear⟩ := h.exists_value_of_binding? hn ha
    cases hvalue.symm.trans hvalue'
    unfold finalValue
    split
    · next other _ => exact ih v (lt_of_valueOf hv) hclear other
    · exact .pure v

lemma findsValues_effectiveValue (hn : t.Clear n) (name : String) :
    t.FindsValues (Lowering.ofResolve (t.effectiveValue n name)) :=
  (h.effectiveValue_only hn name).mapError fun _ he => he

lemma findsValues_finalValue (hn : t.Clear n) :
    t.FindsValues (Lowering.ofResolve (t.finalValue n)) := by
  unfold finalValue
  split
  · exact h.findsValues_effectiveValue hn _
  · exact .pure n

lemma findsValues_valueType (hn : t.Clear n) (context : Context) :
    t.FindsValues (t.valueType n context) := by
  rw [valueType_eq]
  refine (h.findsValues_finalValue hn).bind fun e _ => ?_
  exact (FindsValues.classify e context).map _

lemma findsValues_expectType (hn : t.Clear n) (expected : ValueType) (context : Context) :
    t.FindsValues (t.expectType n expected context) := by
  refine (h.findsValues_valueType hn context).bind fun found _ => ?_
  obtain ⟨type, e⟩ := found
  dsimp only
  split_ifs
  · exact .pure ()
  · exact .fail rfl

lemma findsValues_checkOperand (hn : t.Clear n) : t.FindsValues (t.checkOperand n) := by
  unfold checkOperand
  split
  case h_1 => exact h.findsValues_expectType hn _ _
  case h_6 => exact .fail rfl
  case h_7 => exact .fail rfl
  all_goals exact .pure ()

/-! ### Expressions -/

lemma findsValues_lowerExpr (hn : t.Clear n) : t.FindsValues (t.lowerExpr n) := by
  -- the nodes inside an expression have larger numbers
  induction hm : t.size - n using Nat.strong_induction_on generalizing n with
  | _ m ih =>
    subst hm
    have ih {c : Nat} (hlt : t.size - c < t.size - n) (hc : t.Clear c) :
        t.FindsValues (t.lowerExpr c) := ih _ hlt hc rfl
    rw [lowerExpr]
    split
    · -- operands and operators
      rw [Lowering.each_attach fun c => do t.checkOperand c; t.lowerExpr c]
      refine .after _ (Reported.Only.map _ (FindsValues.eachChild fun c hc hearlier => ?_))
      have hclear : t.Clear c := h.clear_of_mem_children hn hc fun a ha => by
        obtain ⟨e, he⟩ := hearlier a ha
        obtain ⟨_, -, he⟩ := Reported.bind_eq_ok.mp he
        exact complete_of_lowerExpr he
      exact (h.findsValues_checkOperand hclear).bind fun _ _ => ih (size_sub_lt hc) hclear
    · -- a cell of a board
      refine .requiredChild fun position hmem hposition => ?_
      refine .requiredChild fun boardNode _ hboardNode => ?_
      refine .requiredChild fun x hxmem hx => ?_
      refine .requiredChild fun y hymem hy => ?_
      refine .requiredName fun board hboard => ?_
      have hclear := h.clear_first hn hposition
      have hclearx := h.clear_first hclear hx
      have hclearBoard := h.clear_second hn hposition (fun _ => ⟨y, hy⟩) hboardNode
      refine (h.findsValues_expectType hclearBoard _ _).bind fun _ _ => ?_
      refine (h.findsValues_expectType hclearx _ _).bind fun _ hxType => ?_
      have hcleary :=
        h.clear_second hclear hx (complete_of_hasType (hasType_of_expectType hxType)) hy
      refine (h.findsValues_expectType hcleary _ _).bind fun _ _ => FindsValues.after _ ?_
      have hlt := size_sub_lt hmem
      refine (ih ((size_sub_lt hymem).trans hlt) hcleary).bind fun row _ => FindsValues.after _ ?_
      exact (ih ((size_sub_lt hxmem).trans hlt) hclearx).map _
    case h_4 => exact .pure _
    case h_5 => exact .requiredName fun name _ => .pure _
    case h_3 | h_6 | h_7 | h_8 =>
      split
      · exact .pure _
      · exact .fail rfl
    all_goals exact .fail rfl

lemma findsValues_lowerSquare {x y : Nat} (hx : t.Clear x) (hy : t.Clear y) (opening : String) :
    t.FindsValues (t.lowerSquare opening x y) := by
  refine FindsValues.after _ ?_
  refine (h.findsValues_lowerExpr hy).bind fun row _ => FindsValues.after _ ?_
  exact (h.findsValues_lowerExpr hx).map _

end Numbered

/-! ### Pieces

No name is looked up for the members of a piece. -/

namespace FindsValues

lemma lowerFlag (member : String) (value : Nat) : t.FindsValues (t.lowerFlag member value) := by
  refine after _ ?_
  split
  · exact .pure _
  · exact .fail rfl

lemma lowerLimit (member : String) (value : Nat) : t.FindsValues (t.lowerLimit member value) := by
  refine after _ ?_
  split
  · exact .pure _
  · exact .fail rfl

lemma lowerProperty (piece : String) (key value : Nat) :
    t.FindsValues (t.lowerProperty piece key value) := by
  refine requiredName fun property _ => ?_
  dsimp only
  split
  case h_1 | h_2 | h_3 => exact .pure _
  case h_4 => exact (lowerLimit _ value).map _
  case h_5 | h_6 | h_7 => exact (lowerFlag _ value).map _
  all_goals exact .fail rfl

lemma lowerPiece (defaults : PieceDefaults) (piece : String) (n : Nat) :
    t.FindsValues (t.lowerPiece defaults piece n) := by
  refine after _ (Reported.Only.map _ (each fun _ property _ _ _ => ?_))
  exact lowerProperty piece property.1 property.2

end FindsValues

/-! ### Statements -/

namespace Numbered

variable (h : t.Numbered)
include h

lemma findsValues_lowerInitial (hn : t.Clear n) (defaults : PieceDefaults) (name : String) :
    t.FindsValues (t.lowerInitial defaults name n) := by
  have hexpr := h.findsValues_lowerExpr hn
  unfold lowerInitial
  dsimp only
  split
  case h_1 => exact .pure _
  case h_2 | h_3 | h_4 | h_8 => exact .after _ (hexpr.map _)
  case h_5 =>
    split
    · exact .pure _
    · exact .fail rfl
  case h_6 => exact (FindsValues.dimensions n).map _
  case h_7 => exact (FindsValues.lowerPiece defaults name n).map _
  case h_9 =>
    refine .requiredName fun other _ => ?_
    refine (h.findsValues_valueType hn _).bind fun found _ => ?_
    split
    case h_4 => exact .fail rfl
    all_goals exact .pure _
  all_goals exact .fail rfl

lemma findsValues_changeType {target : Nat} (htarget : t.Clear target) (hn : t.Clear n)
    (name : String) : t.FindsValues (t.changeType target name n) := by
  refine (h.findsValues_effectiveValue htarget name).bind fun previous _ => ?_
  refine (FindsValues.classify previous _).bind fun declared _ => ?_
  refine (h.findsValues_valueType hn _).bind fun found _ => ?_
  obtain ⟨type, e⟩ := found
  dsimp only
  split_ifs
  · exact .pure type
  · exact .fail rfl

lemma findsValues_lowerChange {target : Nat} (htarget : t.Clear target) (hn : t.Clear n)
    (name : String) : t.FindsValues (t.lowerChange target name n) := by
  unfold lowerChange
  split
  case h_4 =>
    refine (h.findsValues_changeType htarget hn name).bind fun type _ => ?_
    cases type with
    | board => exact (Reported.Only.tell trivial).bind fun _ _ => .pure _
    | text =>
      dsimp only
      split_ifs
      · exact .pure _
      · exact FindsValues.requiredName fun _ _ => .pure _
    | integer => exact FindsValues.after _ ((h.findsValues_lowerExpr hn).map _)
    | piece => exact FindsValues.after _ ((h.findsValues_lowerExpr hn).map _)
  all_goals exact .fail rfl

lemma findsValues_lowerAssign (hn : t.Clear n) (defaults : PieceDefaults) :
    t.FindsValues (t.lowerAssign defaults n) := by
  refine .requiredChild fun target _ htarget => ?_
  refine .requiredChild fun value _ hvalue => ?_
  refine .requiredName fun name hname => ?_
  have hclear := h.clear_first hn htarget
  have hclear' := h.clear_second hn htarget (complete_of_identName? hname) hvalue
  refine ((h.lookup_only hclear name).map _).bind fun declared _ => ?_
  split
  · refine (Reported.Only.tell trivial).bind fun _ _ => ?_
    exact (h.findsValues_lowerChange hclear hclear' name).map _
  · refine (Reported.Only.tell trivial).bind fun _ _ => ?_
    exact (h.findsValues_lowerInitial hclear' defaults name).map _

lemma findsValues_lowerOutput (hn : t.Clear n) : t.FindsValues (t.lowerOutput n) := by
  refine .requiredChild fun value _ hvalue => ?_
  have hclear := h.clear_first hn hvalue
  have hexpr := h.findsValues_lowerExpr hclear
  refine (Reported.Only.tell trivial).bind fun _ _ => ?_
  split
  · exact .fail rfl
  · refine (h.findsValues_valueType hclear _).bind fun found _ => ?_
    split
    case h_4 =>
      split
      · exact .fail rfl
      · exact (FindsValues.dimensions _).map _
    all_goals exact FindsValues.after _ (hexpr.map _)

lemma findsValues_lowerPlace (hn : t.Clear n) : t.FindsValues (t.lowerPlace n) := by
  refine .requiredChild fun pieceNode _ hpieceNode => ?_
  refine .requiredChild fun boardNode _ hboardNode => ?_
  refine .requiredChild fun position _ hposition => ?_
  refine .requiredChild fun x _ hx => ?_
  refine .requiredChild fun y _ hy => ?_
  refine .requiredName fun piece hpiece => ?_
  refine .requiredName fun board hboard => ?_
  have hclearPiece := h.clear_first hn hpieceNode
  have hclearBoard := h.clear_second hn hpieceNode (complete_of_identName? hpiece) hboardNode
  have hclear : t.Clear position := by
    refine h.clear_child hn hposition fun j hj a ha => ?_
    obtain rfl | rfl : j = 0 ∨ j = 1 := by omega
    · cases hpieceNode.symm.trans ha
      exact complete_of_identName? hpiece
    · cases hboardNode.symm.trans ha
      exact complete_of_identName? hboard
  have hclearx := h.clear_first hclear hx
  refine (h.findsValues_expectType hclearPiece _ _).bind fun _ _ => ?_
  refine (h.findsValues_expectType hclearBoard _ _).bind fun _ _ => ?_
  refine (h.findsValues_expectType hclearx _ _).bind fun _ hxType => ?_
  have hcleary :=
    h.clear_second hclear hx (complete_of_hasType (hasType_of_expectType hxType)) hy
  refine (h.findsValues_expectType hcleary _ _).bind fun _ _ => ?_
  refine (Reported.Only.tell trivial).bind fun _ _ => ?_
  exact (h.findsValues_lowerSquare hclearx hcleary _).map _

lemma findsValues_lowerStatement (hn : t.Clear n) (defaults : PieceDefaults) :
    t.FindsValues (t.lowerStatement defaults n) := by
  unfold lowerStatement
  split
  · exact h.findsValues_lowerAssign hn defaults
  · exact h.findsValues_lowerOutput hn
  · exact h.findsValues_lowerPlace hn
  · exact .fail rfl
  · exact .fail rfl

/-- Where a statement is reached, those before it have been lowered. -/
lemma findsValues_lowerGame (hn : t.Clear n) (defaults : PieceDefaults) :
    t.FindsValues (t.lowerGame defaults n) := by
  refine FindsValues.eachChild fun c hc hearlier => ?_
  refine h.findsValues_lowerStatement (h.clear_of_mem_children hn hc fun a ha => ?_) defaults
  obtain ⟨st, hst⟩ := hearlier a ha
  exact complete_of_lowerStatement hst

lemma findsValues_lowerSection (hn : t.Clear n) (defaults : PieceDefaults) :
    t.FindsValues (t.lowerSection defaults n) := by
  unfold lowerSection
  split_ifs
  · exact (h.findsValues_lowerGame hn defaults).map _
  · exact (h.findsValues_lowerStatement hn defaults).map _

lemma findsValues_lowerSections (hn : t.Clear n) (defaults : PieceDefaults) :
    t.FindsValues (t.lowerSections defaults n) := by
  refine Reported.Only.map _ (FindsValues.eachChild fun c hc hearlier => ?_)
  refine h.findsValues_lowerSection (h.clear_of_mem_children hn hc fun a ha => ?_) defaults
  obtain ⟨part, hpart⟩ := hearlier a ha
  rcases lowerSection_eq_ok.mp hpart with ⟨hkind, -⟩ | ⟨-, st, hst, -⟩
  · exact complete_of_kind (by simp [hkind])
  · exact complete_of_lowerStatement hst

end Numbered

end Tree

/-! ### Programs -/

lemma Progress.steps_notices {σ ε α : Type} {step : σ → α → Except ε (Notice × σ)}
    {P : Notice → Prop} (hstep : ∀ s a notice s', step s a = .ok (notice, s') → P notice) (s : σ)
    (l : List α) : ∀ notice ∈ (steps step s l).notices, P notice := by
  induction l generalizing s with
  | nil => simp [steps, finished]
  | cons a l ih =>
    unfold steps
    split
    · simp
    · next notice s' hs' => exact List.forall_mem_cons.mpr ⟨hstep s a notice s' hs', ih s'⟩

lemma Progress.andThen_notices {σ ε : Type} {P : Notice → Prop} {p : Progress σ ε}
    {next : σ → Progress σ ε} (hp : ∀ notice ∈ p.notices, P notice)
    (hnext : ∀ s, ∀ notice ∈ (next s).notices, P notice) :
    ∀ notice ∈ (p.andThen next).notices, P notice := by
  unfold andThen
  split
  · exact hp
  · exact List.forall_mem_append.mpr ⟨hp, hnext _⟩

namespace Setup

/-- No name is looked up while declarations are taken up. -/
lemma stage_of_declare {t : Tree} {s s' : Setup} {d : Declaration} {notice : Notice}
    (h : declare t s d = .ok (notice, s')) : notice.stage ≠ .scope := by
  cases d with
  | board name width height =>
    obtain ⟨_, -, h⟩ := except_bind_eq_ok.mp h
    split at h
    all_goals
      cases h
      simp [Notice.stage]
  | innerBoard name width height =>
    obtain ⟨_, -, h⟩ := except_bind_eq_ok.mp h
    cases h
    simp [Notice.stage]
  | piece name table =>
    obtain ⟨template, -, h⟩ := except_bind_eq_ok.mp h
    obtain ⟨catalog, -, h⟩ := except_bind_eq_ok.mp h
    cases h
    simp [Notice.stage]

lemma stage_of_placeStart {s s' : Setup} {start : Start} {notice : Notice}
    (h : s.placeStart start = .ok (notice, s')) : notice.stage ≠ .scope := by
  obtain ⟨⟨x, y⟩, -, h⟩ := except_bind_eq_ok.mp h
  simp only [place] at h
  split at h
  · cases h
  · split at h
    · cases h
    · cases h
      simp [Notice.stage]

lemma stage_of_collect (t : Tree) (s : Setup) :
    ∀ notice ∈ (s.collect t).notices, notice.stage ≠ .scope := by
  refine Progress.andThen_notices
    (Progress.steps_notices (fun _ _ _ _ h => stage_of_declare h) s _) fun s notice hnotice => ?_
  obtain rfl := List.mem_singleton.mp hnotice
  simp [Notice.stage]

lemma stage_of_placeAll (s : Setup) : ∀ notice ∈ s.placeAll.notices, notice.stage ≠ .scope := by
  unfold placeAll
  split_ifs
  · simp [Progress.finished]
  · refine Progress.andThen_notices
      (Progress.steps_notices (fun _ _ _ _ h => stage_of_placeStart h) s _) ?_
    simp [Progress.finished]

end Setup

namespace Tree

variable {t : Tree}

lemma outline_only (t : Tree) (settings : Settings) :
    (t.outline settings).Only t.FoundComplete fun e => e.isValueless = false := by
  have hcollect : ((Outline.new settings).collect t).toReported.Only t.FoundComplete
      fun _ => True :=
    ⟨fun notice hnotice => foundComplete_of_stage (Setup.stage_of_collect t _ notice hnotice),
      fun _ _ => trivial⟩
  exact hcollect.mapError fun _ _ => rfl

lemma emit_outline_only (t : Tree) (o : Outline) :
    o.emit.toReported.Only t.FoundComplete fun e => e.isValueless = false := by
  have hplaced : ∀ notice ∈ o.placeAll.notices, t.FoundComplete notice := fun notice hnotice =>
    foundComplete_of_stage (Setup.stage_of_placeAll o.setup notice hnotice)
  unfold Outline.emit
  dsimp only
  split
  · refine ⟨hplaced, ?_⟩
    rintro _ ⟨⟩
    rfl
  · refine ⟨hplaced, ?_⟩
    rintro _ ⟨⟩

lemma Numbered.program_only (h : t.Numbered) (hstart : t.kind t.root = .start) (o : Outline) :
    (t.program o).Only t.FoundComplete fun e => e.isValueless = false := by
  have htop : t.parent? t.root = none := (h.parent_eq_none _ h.root_lt).mpr rfl
  have hlowered := h.findsValues_lowerSections (clear_of_top htop) o.setup.defaults
  have hsize : t.FoundComplete (.lowering t.size) := trivial
  have hnotices := List.forall_mem_cons.mpr ⟨hsize, hlowered.notices⟩
  have hemit : (t.emit o t.root).toReported.Only t.FoundComplete
      fun e => e.isValueless = false := by
    rw [Tree.emit, hstart]
    dsimp only
    unfold emitProgram
    dsimp only
    split
    · next f hf =>
      refine ⟨hnotices, ?_⟩
      rintro _ ⟨⟩
      exact hlowered.failure f hf
    · next sections _ =>
      have hwritten := t.emit_outline_only (o.append sections)
      exact ⟨List.forall_mem_append.mpr ⟨hnotices, hwritten.notices⟩, hwritten.failure⟩
  exact hemit.bind fun _ _ => (Reported.Only.tell trivial).bind fun _ _ => .pure _

lemma generate_only (hfinished : t.Finished) (settings : Settings) :
    (t.generate settings).Only t.FoundComplete fun e => e.isValueless = false :=
  (t.outline_only settings).bind fun o _ => hfinished.numbered.program_only hfinished.kind_root o

lemma compile_only (hfinished : t.Finished) (settings : Settings) :
    (t.compile settings).Only t.FoundComplete fun e => e.isValueless = false := by
  refine (t.outline_only settings).bind fun o _ => ?_
  refine (Reported.Only.tell trivial).bind fun _ _ => ?_
  exact (hfinished.numbered.program_only hfinished.kind_root o).map _

/-! ### Statements that are reached -/

/-- All statements before a node can be lowered. -/
def Reached (t : Tree) (defaults : PieceDefaults) (n : Nat) : Prop :=
  ∀ m ∈ t.statementNodes, m < n → ∃ st, (t.lowerStatement defaults m).outcome = .ok st

lemma Reached.complete {defaults : PieceDefaults} {n m : Nat} (h : t.Reached defaults n)
    (hm : m ∈ t.statementNodes) (hlt : m < n) : t.Complete m := by
  obtain ⟨st, hst⟩ := h m hm hlt
  exact complete_of_lowerStatement hst

/-- A part of a program is in view of complete assignments only, if it is reached. -/
lemma Numbered.clear_of_reached_part (h : t.Numbered) {defaults : PieceDefaults} {n : Nat}
    (hreached : t.Reached defaults n) (hn : n ∈ t.children t.root) : t.Clear n := by
  have htop : t.parent? t.root = none := (h.parent_eq_none _ h.root_lt).mpr rfl
  refine h.clear_of_mem_children (clear_of_top htop) hn fun a ha => ?_
  obtain ⟨ha, hlt⟩ := (mem_earlier hn).mp ha
  by_cases hkind : t.kind a = .game
  · exact complete_of_kind (by simp [hkind])
  · exact hreached.complete (List.mem_append_left _ (mem_setupNodes.mpr ⟨ha, hkind⟩)) hlt

lemma Numbered.clear_of_reached (h : t.Numbered) {defaults : PieceDefaults} {n : Nat}
    (hreached : t.Reached defaults n) (hn : n ∈ t.statementNodes) : t.Clear n := by
  rcases List.mem_append.mp hn with hn | hn
  · exact h.clear_of_reached_part hreached (mem_setupNodes.mp hn).1
  · obtain ⟨game, hgame, hkind, hn⟩ := mem_gameNodes.mp hn
    have hlt := lt_of_mem_children hn
    have hgameReached : t.Reached defaults game := fun m hm hmlt => hreached m hm (hmlt.trans hlt)
    refine h.clear_of_mem_children (h.clear_of_reached_part hgameReached hgame) hn fun a ha => ?_
    obtain ⟨ha, hlt⟩ := (mem_earlier hn).mp ha
    exact hreached.complete
      (List.mem_append_right _ (mem_gameNodes.mpr ⟨game, hgame, hkind, ha⟩)) hlt

/-- No program fails because an assignment that was found has no value: every assignment that is
found has one, and whatever can be seen from a statement that is reached has one. An assignment
without a value is refused as malformed, and there is no program. -/
theorem lowering_finds_values (hfinished : t.Finished) (settings : Settings) :
    (∀ name span,
      (t.generate settings).outcome ≠ .error (.resolve (.malformedAssignment name span)) ∧
      (t.compile settings).outcome ≠ .error (.resolve (.malformedAssignment name span))) ∧
    (∀ notice ∈ (t.generate settings).notices ++ (t.compile settings).notices,
      t.FoundComplete notice) ∧
    (∀ n ∈ t.statementNodes, t.Reached settings.pieces n → ∀ name a,
      t.binding? n name = some a → ∃ value, t.child? a 1 = some value) ∧
    ∀ n ∈ t.statementNodes, t.kind n = .assign → t.child? n 1 = none →
      (∃ part, (t.lowerStatement settings.pieces n).outcome =
        .error ⟨"", t.malformedAt n (.missing part)⟩) ∧
      (∀ program, (t.generate settings).outcome ≠ .ok program) ∧
      ∀ c, (t.compile settings).outcome ≠ .ok c := by
  have hgenerate := generate_only hfinished settings
  have hcompile := compile_only hfinished settings
  refine ⟨fun name span => ⟨fun h => ?_, fun h => ?_⟩,
    List.forall_mem_append.mpr ⟨hgenerate.notices, hcompile.notices⟩, ?_, ?_⟩
  · cases hgenerate.failure _ h
  · cases hcompile.failure _ h
  · intro n hn hreached name a ha
    obtain ⟨value, hvalue, -⟩ := hfinished.numbered.exists_value_of_binding?
      (hfinished.numbered.clear_of_reached hreached hn) ha
    exact ⟨value, hvalue⟩
  · intro n hn hkind hvalue
    obtain ⟨part, hpart⟩ := lowerStatement_of_valueless settings.pieces hkind hvalue
    have hno : ∀ program, (t.generate settings).outcome ≠ .ok program := by
      intro program hprogram
      obtain ⟨b, -⟩ := exists_build_of_generate hfinished.kind_root hprogram
      obtain ⟨st, -, hst⟩ := forall₂_exists_right b.lowered hn
      rw [hpart] at hst
      cases hst
    refine ⟨⟨part, hpart⟩, hno, fun c hc => ?_⟩
    exact hno _ (exists_build_of_compile hfinished.kind_root hc).1

/-- A number, another name for it, an assignment without a value, and an output of what it should
have assigned. -/
def halfBuiltAssignment : List BuildEvent :=
  [.opened .start .none .detached] ++ assignmentEvents "x" .integer (.integer 1) ++
    assignmentEvents "y" .ident (.text "x") ++
    [.opened .assign .none ⟨7, 8⟩, .leaf .ident (.text "w") .detached, .closed,
      .opened .output .none .detached, .leaf .ident (.text "w") .detached, .closed, .closed]

/-- A search would find that there is no value. The program is refused before. -/
theorem halfBuiltAssignment_refused :
    ∃ t : Tree, t.Finished ∧
      (t.valueOf 10 "w").outcome = .error (.malformedAssignment "w" ⟨7, 8⟩) ∧
      (∀ name span, (t.generate {}).outcome ≠ .error (.resolve (.malformedAssignment name span))) ∧
      (∀ notice ∈ (t.compile {}).notices, t.FoundComplete notice) ∧
      ∀ program, (t.generate {}).outcome ≠ .ok program := by
  obtain ⟨t, hfinished, hbinding, hspan, hmem, hkind, hvalue⟩ :=
    exists_finished_of_check halfBuiltAssignment (fun t => t.binding? 10 "w" = some 7 ∧
      t.span 7 = ⟨7, 8⟩ ∧ 7 ∈ t.statementNodes ∧ t.kind 7 = .assign ∧ t.child? 7 1 = none)
      (by decide +kernel)
  obtain ⟨herrors, hnotices, -, hrefused⟩ := lowering_finds_values hfinished {}
  exact ⟨t, hfinished, hspan ▸ valueOf_of_valueless hbinding hvalue,
    fun name span => (herrors name span).1,
    fun notice hnotice => hnotices notice (List.mem_append_right _ hnotice),
    (hrefused 7 hmem hkind hvalue).2.1⟩

end Tree

end GridGame
