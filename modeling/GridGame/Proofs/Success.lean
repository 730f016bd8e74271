import GridGame.Lowering
import Mathlib.Data.List.Forall2

/-!
# Lowerings that succeed

What is known of a program when the lowering of one of its parts succeeds: which children are
there, which names they carry, which checks have been passed, and what the parts of the result come
from. The cases of values and statements are listed once (`ExprCode`, `StatementCode`), so that
later arguments need not go through the lowering itself again.
-/

namespace GridGame

open Code

/-! ### Outcomes -/

lemma except_bind_eq_ok {ε α β : Type} {x : Except ε α} {f : α → Except ε β} {b : β} :
    x >>= f = .ok b ↔ ∃ a, x = .ok a ∧ f a = .ok b := by
  cases x with
  | error e => simp [bind, Except.bind]
  | ok a => simp [bind, Except.bind]

namespace Reported

variable {ε ε' α β : Type}

lemma bind_eq_ok {x : Reported ε α} {f : α → Reported ε β} {b : β} :
    (x >>= f).outcome = .ok b ↔ ∃ a, x.outcome = .ok a ∧ (f a).outcome = .ok b := by
  rw [outcome_bind, except_bind_eq_ok]

/-- What is made of a result comes from that result. -/
lemma map_eq_ok {x : Reported ε α} {f : α → β} {b : β} :
    (do return f (← x)).outcome = .ok b ↔ ∃ a, x.outcome = .ok a ∧ f a = b := by
  simp only [bind_eq_ok, outcome_pure, Except.ok.injEq]

/-- Putting failures in other terms makes no failure a success. -/
lemma mapError_eq_ok {f : ε → ε'} {x : Reported ε α} {a : α} :
    (x.mapError f).outcome = .ok a ↔ x.outcome = .ok a := by
  rw [outcome_mapError]
  cases x.outcome with
  | error e => simp [Except.mapError]
  | ok b => simp [Except.mapError]

lemma outcome_tell (n : Notice) : (tell n : Reported ε Unit).outcome = .ok () := rfl

end Reported

/-! ### What a computation tells -/

/-- Every notice of a computation has the property `P`, and if it fails, its failure has the
property `Q`. -/
structure Reported.Only {ε α : Type} (P : Notice → Prop) (Q : ε → Prop) (x : Reported ε α) :
    Prop where
  notices : ∀ notice ∈ x.notices, P notice
  failure : ∀ e, x.outcome = .error e → Q e

namespace Reported.Only

variable {ε ε' α β : Type} {P : Notice → Prop} {Q : ε → Prop}

lemma pure (a : α) : (Pure.pure a : Reported ε α).Only P Q where
  notices := by simp [Pure.pure, ok]
  failure := by simp

lemma of {outcome : Except ε α} (h : ∀ e, outcome = .error e → Q e) : (of outcome).Only P Q where
  notices := by simp [Reported.of]
  failure := h

lemma fail {e : ε} (h : Q e) : (fail e : Reported ε α).Only P Q where
  notices := by simp [Reported.fail]
  failure := by
    rintro _ ⟨⟩
    exact h

lemma tell {notice : Notice} (h : P notice) : (tell notice : Reported ε Unit).Only P Q where
  notices := by simpa [Reported.tell] using h
  failure := by simp [outcome_tell]

/-- What follows may rely on the result so far. -/
lemma bind {x : Reported ε α} {f : α → Reported ε β} (hx : x.Only P Q)
    (hf : ∀ a, x.outcome = .ok a → (f a).Only P Q) : (x >>= f).Only P Q := by
  show (Reported.bind x f).Only P Q
  unfold Reported.bind
  split
  · next e he =>
    refine ⟨hx.notices, ?_⟩
    rintro _ ⟨⟩
    exact hx.failure e he
  · next a ha =>
    refine ⟨?_, (hf a ha).failure⟩
    intro notice hnotice
    rcases List.mem_append.mp hnotice with hnotice | hnotice
    · exact hx.notices notice hnotice
    · exact (hf a ha).notices notice hnotice

lemma map {x : Reported ε α} (f : α → β) (hx : x.Only P Q) : (do return f (← x)).Only P Q :=
  hx.bind fun _ _ => .pure _

lemma mapError {x : Reported ε α} {g : ε → ε'} {Q' : ε' → Prop} (hx : x.Only P Q)
    (hg : ∀ e, Q e → Q' (g e)) : (x.mapError g).Only P Q' where
  notices := hx.notices
  failure := by
    intro e he
    rw [outcome_mapError] at he
    cases houtcome : x.outcome with
    | ok a => simp [houtcome, Except.mapError] at he
    | error e' =>
      simp only [houtcome, Except.mapError, Except.error.injEq] at he
      exact he ▸ hg e' (hx.failure e' houtcome)

end Reported.Only

/-! ### Outcomes of lowerings -/

namespace Lowering

variable {α β : Type}

lemma fail_ne_ok (error : LowerError) (a : α) : (fail error : Lowering α).outcome ≠ .ok a := by
  intro h
  cases h

lemma ofExcept_eq_ok {x : Except LowerError α} {a : α} :
    (ofExcept x).outcome = .ok a ↔ x = .ok a := by
  cases x with
  | error e => simp [ofExcept, Reported.of, Except.mapError]
  | ok b => simp [ofExcept, Reported.of, Except.mapError]

lemma ofResolve_eq_ok {x : Reported ResolveError α} {a : α} :
    (ofResolve x).outcome = .ok a ↔ x.outcome = .ok a :=
  Reported.mapError_eq_ok

lemma after_eq_ok {text : String} {x : Lowering α} {a : α} :
    (after text x).outcome = .ok a ↔ x.outcome = .ok a :=
  Reported.mapError_eq_ok

lemma after_map_eq_ok {text : String} {x : Lowering α} {f : α → β} {b : β} :
    (after text do return f (← x)).outcome = .ok b ↔ ∃ a, x.outcome = .ok a ∧ f a = b :=
  after_eq_ok.trans Reported.map_eq_ok

/-- A list is lowered member by member. -/
lemma each_eq_ok {render : β → String} {lower : α → Lowering β} {xs : List α} {ys : List β} :
    (each render lower xs).outcome = .ok ys ↔
      List.Forall₂ (fun x y => (lower x).outcome = .ok y) xs ys := by
  induction xs generalizing ys with
  | nil => simp [each, eq_comm]
  | cons x xs ih =>
    simp only [each, Reported.bind_eq_ok, after_eq_ok, ih, Reported.outcome_pure,
      Except.ok.injEq, List.forall₂_cons_left_iff]
    constructor
    · rintro ⟨y, hy, rest, hrest, rfl⟩
      exact ⟨y, rest, hy, hrest, rfl⟩
    · rintro ⟨y, rest, hy, hrest, rfl⟩
      exact ⟨y, hy, rest, hrest, rfl⟩

lemma each_map {γ : Type} {render : β → String} (lower : α → Lowering β) (f : γ → α)
    (xs : List γ) : each render lower (xs.map f) = each render (fun x => lower (f x)) xs := by
  induction xs with
  | nil => rfl
  | cons x xs ih => rw [List.map_cons, each, each, ih]

/-- Lowering the members of a list does not depend on knowing that they are its members. -/
lemma each_attach {render : β → String} (lower : α → Lowering β) (xs : List α) :
    each render (fun x : { x // x ∈ xs } => lower x.1) xs.attach = each render lower xs := by
  rw [← each_map lower Subtype.val, List.attach_map_subtype_val]

end Lowering

namespace Tree

variable {t : Tree}

lemma requiredChild_eq_ok {n i : Nat} {part : Part} {c : { c // c ∈ t.children n }} :
    (t.requiredChild n i part).outcome = .ok c ↔ t.child? n i = some c.1 := by
  unfold requiredChild
  split
  · next c' hc' =>
    rw [Reported.outcome_pure, Except.ok.injEq, Subtype.ext_iff]
    simp [hc']
  · next hc' => simp [hc', Lowering.fail_ne_ok]

lemma requiredName_eq_ok {n : Nat} {part : Part} {name : String} :
    t.requiredName n part = .ok name ↔ t.identName? n = some name := by
  unfold requiredName
  cases t.identName? n with
  | none => simp
  | some other => simp

/-! ### Types -/

/-- The type of a value does not depend on the place it is wanted for. -/
lemma classify_of_classify {n : Nat} {context : Context} {type : ValueType}
    (h : t.classify n context = .ok type) (other : Context) : t.classify n other = .ok type := by
  grind [classify]

/-- The value that a node stands for: for a name what it holds in the end, otherwise the node. -/
def finalValue (t : Tree) (n : Nat) : Reported ResolveError Nat :=
  match t.identName? n with
  | some name => t.effectiveValue n name
  | none => pure n

lemma valueOf_eq_ok {n v : Nat} {name : String} :
    (t.valueOf n name).outcome = .ok v ↔
      ∃ a, t.binding? n name = some a ∧ t.child? a 1 = some v := by
  simp only [valueOf, require, lookup, Reported.bind_eq_ok, Except.ok.injEq]
  constructor
  · rintro ⟨a, ⟨found, rfl, hfound⟩, hv⟩
    split at hfound
    · next b hb =>
      cases hfound
      refine ⟨_, hb, ?_⟩
      split at hv
      · next value hvalue =>
        cases hv
        exact hvalue
      · cases hv
    · cases hfound
  · rintro ⟨a, ha, hv⟩
    exact ⟨a, ⟨_, rfl, by simp [ha]⟩, by simp [hv]⟩

/-- A name holds in the end what the value of its latest assignment stands for. -/
lemma effectiveValue_eq (t : Tree) (n : Nat) (name : String) :
    t.effectiveValue n name = t.valueOf n name >>= t.finalValue := by
  show _ = Reported.bind _ _
  rw [effectiveValue, Reported.bind]
  cases hvalue : (t.valueOf n name).outcome with
  | error e => rfl
  | ok v =>
    dsimp only
    cases hname : t.identName? v with
    | none => simp [finalValue, hname, pure, Reported.ok]
    | some other => simp [finalValue, hname]

lemma effectiveValue_eq_ok {n e : Nat} {name : String} :
    (t.effectiveValue n name).outcome = .ok e ↔
      ∃ a v, t.binding? n name = some a ∧ t.child? a 1 = some v ∧
        (t.finalValue v).outcome = .ok e := by
  simp only [effectiveValue_eq, Reported.bind_eq_ok, valueOf_eq_ok]
  constructor
  · rintro ⟨v, ⟨a, ha, hv⟩, he⟩
    exact ⟨a, v, ha, hv, he⟩
  · rintro ⟨a, v, ha, hv, he⟩
    exact ⟨v, ⟨a, ha, hv⟩, he⟩

lemma valueType_eq (t : Tree) (n : Nat) (context : Context) :
    t.valueType n context = (do
      let effective ← Lowering.ofResolve (t.finalValue n)
      let type ← Lowering.ofExcept (t.classify effective context)
      return (type, effective)) := by
  unfold valueType finalValue
  cases t.identName? n with
  | none => rfl
  | some name => rfl

lemma valueType_eq_ok {n e : Nat} {context : Context} {type : ValueType} :
    (t.valueType n context).outcome = .ok (type, e) ↔
      (t.finalValue n).outcome = .ok e ∧ t.classify e context = .ok type := by
  simp only [valueType_eq, Reported.bind_eq_ok, Lowering.ofResolve_eq_ok, Lowering.ofExcept_eq_ok,
    Reported.outcome_pure, Except.ok.injEq, Prod.mk.injEq]
  constructor
  · rintro ⟨e', he', type', htype', rfl, rfl⟩
    exact ⟨he', htype'⟩
  · rintro ⟨he, htype⟩
    exact ⟨e, he, type, htype, rfl, rfl⟩

/-- Looking back from a node, its value is found to have a type, wherever that type is wanted. -/
def HasType (t : Tree) (n : Nat) (type : ValueType) : Prop :=
  ∀ context, ∃ e, (t.valueType n context).outcome = .ok (type, e)

lemma hasType_of_valueType {n e : Nat} {context : Context} {type : ValueType}
    (h : (t.valueType n context).outcome = .ok (type, e)) : t.HasType n type := by
  obtain ⟨he, htype⟩ := valueType_eq_ok.mp h
  exact fun other => ⟨e, valueType_eq_ok.mpr ⟨he, classify_of_classify htype other⟩⟩

lemma HasType.unique {n : Nat} {type type' : ValueType} (h : t.HasType n type)
    (h' : t.HasType n type') : type = type' := by
  obtain ⟨e, he⟩ := h .statement
  obtain ⟨e', he'⟩ := h' .statement
  rw [he] at he'
  cases he'
  rfl

lemma hasType_of_expectType {n : Nat} {context : Context} {type : ValueType}
    (h : (t.expectType n type context).outcome = .ok ()) : t.HasType n type := by
  simp only [expectType, Reported.bind_eq_ok] at h
  obtain ⟨⟨found, e⟩, hfound, hcheck⟩ := h
  simp only at hcheck
  split_ifs at hcheck with heq
  · rw [← heq]
    exact hasType_of_valueType hfound
  · exact absurd hcheck (Lowering.fail_ne_ok _ _)

/-- The type of a value that is no name is told from the value alone. -/
lemma hasType_of_classify {n : Nat} {context : Context} {type : ValueType}
    (hname : t.identName? n = none) (h : t.classify n context = .ok type) : t.HasType n type := by
  have hfinal : (t.finalValue n).outcome = .ok n := by simp [finalValue, hname]
  exact hasType_of_valueType (valueType_eq_ok.mpr ⟨hfinal, h⟩)

/-- An assignment gives its name a value of a type. -/
def AssignsType (t : Tree) (a : Nat) (type : ValueType) : Prop :=
  ∃ v, t.child? a 1 = some v ∧ t.HasType v type

lemma AssignsType.unique {a : Nat} {type type' : ValueType} (h : t.AssignsType a type)
    (h' : t.AssignsType a type') : type = type' := by
  obtain ⟨v, hv, htype⟩ := h
  obtain ⟨v', hv', htype'⟩ := h'
  rw [hv] at hv'
  cases hv'
  exact htype.unique htype'

/-- A name has the type that its latest assignment gives it. -/
lemma hasType_of_identName? {n : Nat} {name : String} {type : ValueType}
    (hname : t.identName? n = some name) :
    t.HasType n type ↔ ∃ a, t.binding? n name = some a ∧ t.AssignsType a type := by
  have hfinal : t.finalValue n = t.effectiveValue n name := by simp [finalValue, hname]
  constructor
  · intro h
    obtain ⟨e, he⟩ := h .statement
    rw [valueType_eq_ok, hfinal, effectiveValue_eq_ok] at he
    obtain ⟨⟨a, v, ha, hv, he⟩, htype⟩ := he
    exact ⟨a, ha, v, hv, hasType_of_valueType (valueType_eq_ok.mpr ⟨he, htype⟩)⟩
  · rintro ⟨a, ha, v, hv, htype⟩ context
    obtain ⟨e, he⟩ := htype context
    obtain ⟨he, htype⟩ := valueType_eq_ok.mp he
    refine ⟨e, valueType_eq_ok.mpr ⟨?_, htype⟩⟩
    rw [hfinal]
    exact effectiveValue_eq_ok.mpr ⟨a, v, ha, hv, he⟩

/-! ### Values -/

/-- The code of a value: what it is for each kind of node, and what its parts come from. -/
inductive ExprCode (t : Tree) (n : Nat) : Expr → Prop
  | group {parts : List Expr} (hkind : t.kind n = .expr)
      (hparts : List.Forall₂ (fun c part => (t.checkOperand c).outcome = .ok () ∧
        (t.lowerExpr c).outcome = .ok part) (t.children n) parts) :
      ExprCode t n (.group parts)
  | cell {position boardNode x y : Nat} {board : String} {row column : Expr}
      (hkind : t.kind n = .access) (hposition : t.child? n 0 = some position)
      (hboardNode : t.child? n 1 = some boardNode) (hx : t.child? position 0 = some x)
      (hy : t.child? position 1 = some y) (hboard : t.identName? boardNode = some board)
      (hboardType : t.HasType boardNode .board) (hxType : t.HasType x .integer)
      (hyType : t.HasType y .integer) (hrow : (t.lowerExpr y).outcome = .ok row)
      (hcolumn : (t.lowerExpr x).outcome = .ok column) :
      ExprCode t n (.cell board row column)
  | name {name : String} (hname : t.identName? n = some name) : ExprCode t n (.name name)
  | operator {symbol : String} (hkind : t.kind n = .operator) (htext : t.text? n = some symbol) :
      ExprCode t n (.operator symbol)
  | text (hkind : t.kind n = .string) : ExprCode t n (.text ((t.text? n).getD ""))
  | integer {v : Int64} (hkind : t.kind n = .integer) (hpayload : t.payload n = .integer v) :
      ExprCode t n (.integer v)
  | flag {b : Bool} (hkind : t.kind n = .boolean) (hpayload : t.payload n = .boolean b) :
      ExprCode t n (.flag b)
  | blank {blank : Blank} (hkind : t.kind n = .empty) (hblank : t.blankType? n = some blank) :
      ExprCode t n (.blank blank)

lemma exprCode_of_lowerExpr {n : Nat} {e : Expr} (h : (t.lowerExpr n).outcome = .ok e) :
    t.ExprCode n e := by
  rw [lowerExpr] at h
  split at h
  · next hkind =>
    obtain ⟨parts, hparts, rfl⟩ := Lowering.after_map_eq_ok.mp h
    refine .group hkind ?_
    rw [Lowering.each_attach fun c => do t.checkOperand c; t.lowerExpr c,
      Lowering.each_eq_ok] at hparts
    refine hparts.imp fun c part hc => ?_
    obtain ⟨_, hcheck, hpart⟩ := Reported.bind_eq_ok.mp hc
    exact ⟨hcheck, hpart⟩
  · next hkind =>
    simp only [Reported.bind_eq_ok, requiredChild_eq_ok, Lowering.ofExcept_eq_ok,
      requiredName_eq_ok, Lowering.after_eq_ok, Reported.outcome_pure, Except.ok.injEq] at h
    obtain ⟨position, hposition, boardNode, hboardNode, x, hx, y, hy, board, hboard, _, hboardType,
      _, hxType, _, hyType, row, hrow, column, hcolumn, rfl⟩ := h
    exact .cell hkind hposition hboardNode hx hy hboard (hasType_of_expectType hboardType)
      (hasType_of_expectType hxType) (hasType_of_expectType hyType) hrow hcolumn
  · next hkind =>
    split at h
    · next symbol hsymbol =>
      cases h
      exact .operator hkind hsymbol
    · cases h
  · next hkind =>
    cases h
    exact .text hkind
  · simp only [Reported.bind_eq_ok, Lowering.ofExcept_eq_ok, requiredName_eq_ok,
      Reported.outcome_pure, Except.ok.injEq] at h
    obtain ⟨name, hname, rfl⟩ := h
    exact .name hname
  · next hkind =>
    split at h
    · next v hv =>
      cases h
      exact .integer hkind hv
    · cases h
  · next hkind =>
    split at h
    · next b hb =>
      cases h
      exact .flag hkind hb
    · cases h
  · next hkind =>
    split at h
    · next blank hblank =>
      cases h
      exact .blank hkind hblank
    · cases h
  all_goals cases h

/-! ### Assignments -/

/-- The code of the value of a declared name. -/
inductive InitialCode (t : Tree) (defaults : PieceDefaults) (name : String) (n : Nat) :
    Initial → Prop
  | text (hkind : t.kind n = .string) :
      InitialCode t defaults name n (.text ((t.text? n).getD ""))
  | integer {e : Expr} (hkind : t.kind n = .integer ∨ t.kind n = .boolean ∨ t.kind n = .expr)
      (he : (t.lowerExpr n).outcome = .ok e) : InitialCode t defaults name n (.integer e)
  | blank {blank : Blank} (hkind : t.kind n = .empty) (hblank : t.blankType? n = some blank) :
      InitialCode t defaults name n (.blank blank)
  | board {width height : UInt32} (hkind : t.kind n = .board)
      (hsize : t.dimensions n = .ok (width, height)) :
      InitialCode t defaults name n (.board width height)
  | piece {fields : List PieceField} (hkind : t.kind n = .piece)
      (hfields : (t.lowerPiece defaults name n).outcome = .ok fields) :
      InitialCode t defaults name n (.piece fields)
  | cell {e : Expr} (hkind : t.kind n = .access) (he : (t.lowerExpr n).outcome = .ok e) :
      InitialCode t defaults name n (.pieceOf e)
  | integerOf {other : String} (hother : t.identName? n = some other)
      (htype : t.HasType n .integer) : InitialCode t defaults name n (.integer (.name other))
  | textOf {other : String} (hother : t.identName? n = some other) (htype : t.HasType n .text) :
      InitialCode t defaults name n (.textOf other)
  | pieceOf {other : String} (hother : t.identName? n = some other)
      (htype : t.HasType n .piece) : InitialCode t defaults name n (.pieceOf (.name other))

lemma initialCode_of_lowerInitial {defaults : PieceDefaults} {name : String} {n : Nat}
    {initial : Initial} (h : (t.lowerInitial defaults name n).outcome = .ok initial) :
    t.InitialCode defaults name n initial := by
  unfold lowerInitial at h
  simp only at h
  split at h
  · next hkind =>
    cases h
    exact .text hkind
  iterate 3
    · next hkind =>
      obtain ⟨e, he, rfl⟩ := Lowering.after_map_eq_ok.mp h
      exact .integer (by simp [hkind]) he
  · next hkind =>
    split at h
    · next blank hblank =>
      cases h
      exact .blank hkind hblank
    · cases h
  · next hkind =>
    simp only [Reported.bind_eq_ok, Lowering.ofExcept_eq_ok, Reported.outcome_pure,
      Except.ok.injEq] at h
    obtain ⟨⟨width, height⟩, hsize, rfl⟩ := h
    exact .board hkind hsize
  · next hkind =>
    obtain ⟨fields, hfields, rfl⟩ := Reported.map_eq_ok.mp h
    exact .piece hkind hfields
  · next hkind =>
    obtain ⟨e, he, rfl⟩ := Lowering.after_map_eq_ok.mp h
    exact .cell hkind he
  · simp only [Reported.bind_eq_ok, Lowering.ofExcept_eq_ok, requiredName_eq_ok] at h
    obtain ⟨other, hother, ⟨type, e⟩, htype, h⟩ := h
    have htype := hasType_of_valueType htype
    cases type with
    | integer =>
      cases h
      exact .integerOf hother htype
    | text =>
      cases h
      exact .textOf hother htype
    | piece =>
      cases h
      exact .pieceOf hother htype
    | board => cases h
  all_goals cases h

lemma identName?_of_kind {n : Nat} (h : t.kind n ≠ .ident) : t.identName? n = none := by
  simp [identName?, h]

/-- A declared name holds what the value it is declared with has for a type. -/
lemma InitialCode.hasType {defaults : PieceDefaults} {name : String} {n : Nat} {initial : Initial}
    (h : t.InitialCode defaults name n initial) : t.HasType n initial.type := by
  -- where the value is no name, its kind says what it holds
  have hclassify {type : ValueType} (hkind : t.kind n ≠ .ident)
      (hclassify : t.classify n .statement = .ok type) : t.HasType n type :=
    hasType_of_classify (identName?_of_kind hkind) hclassify
  cases h with
  | text hkind => exact hclassify (by simp [hkind]) (by simp [classify, hkind, Initial.type])
  | integer hkind he =>
    rcases hkind with hkind | hkind | hkind
    all_goals exact hclassify (by simp [hkind]) (by simp [classify, hkind, Initial.type])
  | @blank blank hkind hblank =>
    cases blank with
    | number =>
      exact hclassify (by simp [hkind]) (by simp [classify, hkind, hblank, Initial.type])
    | text => exact hclassify (by simp [hkind]) (by simp [classify, hkind, hblank, Initial.type])
  | board hkind hsize =>
    exact hclassify (by simp [hkind]) (by simp [classify, hkind, Initial.type])
  | piece hkind hfields =>
    exact hclassify (by simp [hkind]) (by simp [classify, hkind, Initial.type])
  | cell hkind he => exact hclassify (by simp [hkind]) (by simp [classify, hkind, Initial.type])
  | integerOf hother htype => exact htype
  | textOf hother htype => exact htype
  | pieceOf hother htype => exact htype

/-- Before and after a change a name holds values of one type. -/
lemma hasType_of_changeType {target n : Nat} {name : String} {type : ValueType}
    (hname : t.identName? target = some name)
    (h : (t.changeType target name n).outcome = .ok type) :
    t.HasType target type ∧ t.HasType n type := by
  simp only [changeType, Reported.bind_eq_ok, Lowering.ofResolve_eq_ok,
    Lowering.ofExcept_eq_ok] at h
  obtain ⟨previous, hprevious, declared, hdeclared, ⟨found, e⟩, hfound, hcheck⟩ := h
  simp only at hcheck
  split_ifs at hcheck with heq
  · cases hcheck
    subst heq
    have hfinal : (t.finalValue target).outcome = .ok previous := by
      simpa [finalValue, hname] using hprevious
    exact ⟨hasType_of_valueType (valueType_eq_ok.mpr ⟨hfinal, hdeclared⟩),
      hasType_of_valueType hfound⟩
  · exact absurd hcheck (Lowering.fail_ne_ok _ _)

/-- The code of the value that a declared name is given later. -/
inductive ChangeCode (t : Tree) (n : Nat) : ValueType → Change → Prop
  | board : ChangeCode t n .board .keepBoard
  | text (hkind : t.kind n = .string) : ChangeCode t n .text (.text ((t.text? n).getD ""))
  | textOf {other : String} (hkind : t.kind n ≠ .string) (hother : t.identName? n = some other) :
      ChangeCode t n .text (.textOf other)
  | integer {e : Expr} (he : (t.lowerExpr n).outcome = .ok e) : ChangeCode t n .integer (.value e)
  | piece {e : Expr} (he : (t.lowerExpr n).outcome = .ok e) : ChangeCode t n .piece (.value e)

lemma changeCode_of_lowerChange {target n : Nat} {name : String} {change : Change}
    (hname : t.identName? target = some name)
    (h : (t.lowerChange target name n).outcome = .ok change) :
    t.kind n ≠ .empty ∧ t.kind n ≠ .piece ∧
      ∃ type, t.HasType target type ∧ t.HasType n type ∧ t.ChangeCode n type change := by
  unfold lowerChange at h
  split at h
  · cases h
  · cases h
  · cases h
  · next hempty hpiece _ =>
    obtain ⟨type, htype, h⟩ := Reported.bind_eq_ok.mp h
    obtain ⟨hold, hnew⟩ := hasType_of_changeType hname htype
    refine ⟨hempty, hpiece, type, hold, hnew, ?_⟩
    cases type with
    | board =>
      simp only [Reported.bind_eq_ok, Reported.outcome_pure, Except.ok.injEq] at h
      obtain ⟨_, -, rfl⟩ := h
      exact .board
    | text =>
      simp only at h
      split_ifs at h with hkind
      · cases h
        exact .text hkind
      · simp only [Reported.bind_eq_ok, Lowering.ofExcept_eq_ok, requiredName_eq_ok,
          Reported.outcome_pure, Except.ok.injEq] at h
        obtain ⟨other, hother, rfl⟩ := h
        exact .textOf hkind hother
    | integer =>
      obtain ⟨e, he, rfl⟩ := Lowering.after_map_eq_ok.mp h
      exact .integer he
    | piece =>
      obtain ⟨e, he, rfl⟩ := Lowering.after_map_eq_ok.mp h
      exact .piece he

/-! ### Statements -/

/-- The code that prints a value. -/
inductive PrintedCode (t : Tree) (n : Nat) : ValueType → Printed → Prop
  | integer {e : Expr} (he : (t.lowerExpr n).outcome = .ok e) :
      PrintedCode t n .integer (.integer e)
  | text {e : Expr} (he : (t.lowerExpr n).outcome = .ok e) : PrintedCode t n .text (.text e)
  | piece {e : Expr} (he : (t.lowerExpr n).outcome = .ok e) : PrintedCode t n .piece (.piece e)
  | board {name : String} {e : Nat} {width height : UInt32} (hname : t.identName? n = some name)
      (he : (t.valueType n .output).outcome = .ok (.board, e))
      (hsize : t.dimensions e = .ok (width, height)) :
      PrintedCode t n .board (.board name width height)

/-- The code of a statement: what it is for each kind of node, and what its parts come from. -/
inductive StatementCode (t : Tree) (defaults : PieceDefaults) (n : Nat) : Statement → Prop
  | declare {target value : Nat} {name : String} {initial : Initial} (hkind : t.kind n = .assign)
      (htarget : t.child? n 0 = some target) (hvalue : t.child? n 1 = some value)
      (hname : t.identName? target = some name) (hnew : t.binding? target name = none)
      (hinitial : t.InitialCode defaults name value initial) :
      StatementCode t defaults n (.declare name initial)
  | change {target value : Nat} {name : String} {type : ValueType} {change : Change}
      (hkind : t.kind n = .assign) (htarget : t.child? n 0 = some target)
      (hvalue : t.child? n 1 = some value) (hname : t.identName? target = some name)
      (hempty : t.kind value ≠ .empty) (hpiece : t.kind value ≠ .piece)
      (hold : t.HasType target type) (htype : t.HasType value type)
      (hchange : t.ChangeCode value type change) :
      StatementCode t defaults n (.change name change)
  | print {argument : Nat} {type : ValueType} {printed : Printed} (hkind : t.kind n = .output)
      (hargument : t.child? n 0 = some argument)
      (hprintable : ¬ (t.kind argument = .empty ∨ t.kind argument = .piece ∨
        t.kind argument = .board))
      (htype : t.HasType argument type) (hprinted : t.PrintedCode argument type printed) :
      StatementCode t defaults n (.print printed)
  | place {pieceNode boardNode position x y : Nat} {piece board : String} {row column : Expr}
      (hkind : t.kind n = .place) (hpieceNode : t.child? n 0 = some pieceNode)
      (hboardNode : t.child? n 1 = some boardNode) (hposition : t.child? n 2 = some position)
      (hx : t.child? position 0 = some x) (hy : t.child? position 1 = some y)
      (hpiece : t.identName? pieceNode = some piece)
      (hboard : t.identName? boardNode = some board)
      (hpieceType : t.HasType pieceNode .piece) (hboardType : t.HasType boardNode .board)
      (hxType : t.HasType x .integer) (hyType : t.HasType y .integer)
      (hrow : (t.lowerExpr y).outcome = .ok row)
      (hcolumn : (t.lowerExpr x).outcome = .ok column) :
      StatementCode t defaults n (.place piece board row column)

lemma statementCode_of_lowerAssign {defaults : PieceDefaults} {n : Nat} {st : Statement}
    (hkind : t.kind n = .assign) (h : (t.lowerAssign defaults n).outcome = .ok st) :
    t.StatementCode defaults n st := by
  simp only [lowerAssign, isDeclared, lookup, Reported.bind_eq_ok, requiredChild_eq_ok,
    Lowering.ofExcept_eq_ok, requiredName_eq_ok, Reported.outcome_pure, Except.ok.injEq] at h
  obtain ⟨target, htarget, value, hvalue, name, hname, declared, ⟨_, rfl, rfl⟩, h⟩ := h
  split_ifs at h with hdeclared
  · simp only [Reported.bind_eq_ok, Reported.outcome_tell, Reported.outcome_pure,
      Except.ok.injEq] at h
    obtain ⟨_, -, change, hchange, rfl⟩ := h
    obtain ⟨hempty, hpiece, type, hold, htype, hchange⟩ := changeCode_of_lowerChange hname hchange
    exact .change hkind htarget hvalue hname hempty hpiece hold htype hchange
  · simp only [Reported.bind_eq_ok, Reported.outcome_tell, Reported.outcome_pure,
      Except.ok.injEq] at h
    obtain ⟨_, -, initial, hinitial, rfl⟩ := h
    exact .declare hkind htarget hvalue hname (by simpa using hdeclared)
      (initialCode_of_lowerInitial hinitial)

lemma statementCode_of_lowerOutput {defaults : PieceDefaults} {n : Nat} {st : Statement}
    (hkind : t.kind n = .output) (h : (t.lowerOutput n).outcome = .ok st) :
    t.StatementCode defaults n st := by
  simp only [lowerOutput, Reported.bind_eq_ok, requiredChild_eq_ok] at h
  obtain ⟨argument, hargument, _, -, h⟩ := h
  split_ifs at h with hprintable
  · cases h
  obtain ⟨⟨type, e⟩, he, h⟩ := Reported.bind_eq_ok.mp h
  have hcode (printed : Printed) (hprinted : t.PrintedCode argument.1 type printed) :
      t.StatementCode defaults n (.print printed) :=
    .print hkind hargument hprintable (hasType_of_valueType he) hprinted
  cases type with
  | board =>
    simp only at h
    split at h
    · cases h
    · next name hname =>
      simp only [Reported.bind_eq_ok, Lowering.ofExcept_eq_ok, Reported.outcome_pure,
        Except.ok.injEq] at h
      obtain ⟨⟨width, height⟩, hsize, rfl⟩ := h
      exact hcode _ (.board hname he hsize)
  | integer =>
    obtain ⟨value, hvalue, rfl⟩ := Lowering.after_map_eq_ok.mp h
    exact hcode _ (.integer hvalue)
  | text =>
    obtain ⟨value, hvalue, rfl⟩ := Lowering.after_map_eq_ok.mp h
    exact hcode _ (.text hvalue)
  | piece =>
    obtain ⟨value, hvalue, rfl⟩ := Lowering.after_map_eq_ok.mp h
    exact hcode _ (.piece hvalue)

lemma statementCode_of_lowerPlace {defaults : PieceDefaults} {n : Nat} {st : Statement}
    (hkind : t.kind n = .place) (h : (t.lowerPlace n).outcome = .ok st) :
    t.StatementCode defaults n st := by
  simp only [lowerPlace, lowerSquare, Reported.bind_eq_ok, requiredChild_eq_ok,
    Lowering.ofExcept_eq_ok, requiredName_eq_ok, Lowering.after_eq_ok, Reported.outcome_pure,
    Except.ok.injEq] at h
  obtain ⟨pieceNode, hpieceNode, boardNode, hboardNode, position, hposition, x, hx, y, hy, piece,
    hpiece, board, hboard, _, hpieceType, _, hboardType, _, hxType, _, hyType, _, -, ⟨row, column⟩,
    ⟨_, hrow, _, hcolumn, heq⟩, rfl⟩ := h
  cases heq
  exact .place hkind hpieceNode hboardNode hposition hx hy hpiece hboard
    (hasType_of_expectType hpieceType) (hasType_of_expectType hboardType)
    (hasType_of_expectType hxType) (hasType_of_expectType hyType) hrow hcolumn

lemma statementCode_of_lowerStatement {defaults : PieceDefaults} {n : Nat} {st : Statement}
    (h : (t.lowerStatement defaults n).outcome = .ok st) : t.StatementCode defaults n st := by
  unfold lowerStatement at h
  split at h
  · next hkind => exact statementCode_of_lowerAssign hkind h
  · next hkind => exact statementCode_of_lowerOutput hkind h
  · next hkind => exact statementCode_of_lowerPlace hkind h
  all_goals cases h

/-! ### Sections -/

/-- A part of a program is a game with its statements, or one statement of the setup. -/
lemma lowerSection_eq_ok {defaults : PieceDefaults} {n : Nat} {part : Sections} :
    (t.lowerSection defaults n).outcome = .ok part ↔
      (t.kind n = .game ∧ ∃ game,
        List.Forall₂ (fun c st => (t.lowerStatement defaults c).outcome = .ok st)
          (t.children n) game ∧ ⟨[], game⟩ = part) ∨
      (t.kind n ≠ .game ∧ ∃ st,
        (t.lowerStatement defaults n).outcome = .ok st ∧ ⟨[st], []⟩ = part) := by
  unfold lowerSection lowerGame
  split_ifs with hkind
  · simp only [Reported.bind_eq_ok, Lowering.each_eq_ok, Reported.outcome_pure, Except.ok.injEq,
      hkind, true_and, ne_eq, not_true_eq_false, false_and, or_false]
  · simp only [Reported.bind_eq_ok, Reported.outcome_pure, Except.ok.injEq, hkind, false_and,
      ne_eq, not_false_eq_true, true_and, false_or]

lemma lowerSections_eq_ok {defaults : PieceDefaults} {n : Nat} {sections : Sections} :
    (t.lowerSections defaults n).outcome = .ok sections ↔
      ∃ parts, List.Forall₂ (fun c part => (t.lowerSection defaults c).outcome = .ok part)
        (t.children n) parts ∧ .join parts = sections := by
  simp only [lowerSections, Reported.bind_eq_ok, Lowering.each_eq_ok, Reported.outcome_pure,
    Except.ok.injEq]

end Tree

end GridGame
