import GridGame.Proofs.Builds
import GridGame.Proofs.Tokens

/-!
# Arithmetic expressions as tokens

An expression is written in parentheses, its operands and operators one after the other without
blanks. What is written is what the program has, part by part (`toList_render`). The parts are
neighbours that a compiler tells apart, with one exception: a minus in front of a negative number is
read as one token together with its sign.
-/

namespace GridGame

open Code

namespace Code

/-- The tokens of a number: a negative one has a sign. -/
def numberTokens (v : Int) : List String :=
  if v < 0 then ["-", v.natAbs.repr] else [v.natAbs.repr]

lemma toList_repr (v : Int) : v.repr.toList = (numberTokens v).flatMap String.toList := by
  cases v with
  | ofNat n =>
    have hsign : ¬ Int.ofNat n < 0 := by simp
    rw [numberTokens, if_neg hsign]
    simp [Int.repr]
  | negSucc n =>
    rw [numberTokens, if_pos (Int.negSucc_lt_zero n)]
    simp [Int.repr]

lemma isWord_repr (n : Nat) : isWord n.repr.toList := by
  have hdigits : (Nat.toDigits 10 n).all Char.isDigit := by
    rw [List.all_eq_true]
    intro c hc
    exact Nat.isDigit_of_mem_toDigits (by decide) (by decide) hc
  rw [Nat.toList_repr, isWord, hdigits]
  simp

lemma toList_renderAll (parts : List Expr) :
    (Expr.renderAll parts).toList = parts.flatMap fun e => e.render.toList := by
  induction parts with
  | nil => simp [Expr.renderAll]
  | cons e parts ih => simp [Expr.renderAll, ih]

end Code

namespace Tree

variable {t : Tree} {n : Nat}

/-! ### Operands and operators -/

def isOperator (t : Tree) (n : Nat) : Bool :=
  t.kind n = .operator && (t.text? n).any operators.contains

/-- An operand of arithmetic: a number, a flag, a name of the generated code, or an expression in
which operands and operators take turns. -/
def isOperand (t : Tree) (n : Nat) : Bool :=
  match t.kind n, t.payload n with
  | .integer, .integer _ => true
  | .boolean, .boolean _ => true
  | .ident, .text name => isName name.toList
  | .expr, _ =>
    decide ((t.children n).IsChain fun a b => t.isOperator a ≠ t.isOperator b) &&
      (t.children n).attach.all fun c => t.isOperator c.1 || isOperand t c.1
  | _, _ => false
termination_by t.size - n
decreasing_by exact size_sub_lt c.2

def isMinus (t : Tree) (n : Nat) : Bool := t.kind n = .operator && t.text? n = some "-"

def isNegative (t : Tree) (n : Nat) : Bool :=
  match t.kind n, t.payload n with
  | .integer, .integer v => v.toInt < 0
  | _, _ => false

/-- The tokens that an operand or operator is meant to have. -/
def spelling (t : Tree) (n : Nat) : List String :=
  match t.kind n, t.payload n with
  | .integer, .integer v => numberTokens v.toInt
  | .boolean, .boolean b => [if b then "1" else "0"]
  | .ident, .text name => [name]
  | .operator, .text symbol => [symbol]
  | .expr, _ => "(" :: (t.children n).attach.flatMap (fun c => spelling t c.1) ++ [")"]
  | _, _ => []
termination_by t.size - n
decreasing_by exact size_sub_lt c.2

lemma spelling_expr (h : t.kind n = .expr) :
    t.spelling n = "(" :: (t.children n).flatMap t.spelling ++ [")"] := by
  rw [spelling, h]
  simp

/-- What an operand of arithmetic is. -/
inductive Operand (t : Tree) (n : Nat) : Prop
  | integer {v : Int64} (hkind : t.kind n = .integer) (hpayload : t.payload n = .integer v)
  | boolean {b : Bool} (hkind : t.kind n = .boolean) (hpayload : t.payload n = .boolean b)
  | name {name : String} (hname : t.identName? n = some name) (hchars : isName name.toList)
  | expr (hkind : t.kind n = .expr)
      (hturns : (t.children n).IsChain fun a b => t.isOperator a ≠ t.isOperator b)
      (hchildren : ∀ c ∈ t.children n, t.isOperator c ∨ t.isOperand c)

lemma operand_of_isOperand (h : t.isOperand n) : t.Operand n := by
  rw [isOperand] at h
  split at h
  · next hkind hpayload => exact .integer hkind hpayload
  · next hkind hpayload => exact .boolean hkind hpayload
  · next hkind hpayload => exact .name (by simp [identName?, text?, hkind, hpayload]) h
  · next hkind =>
    simp only [Bool.and_eq_true, decide_eq_true_eq, List.all_eq_true, List.mem_attach,
      Bool.or_eq_true, true_imp_iff, Subtype.forall] at h
    exact .expr hkind h.1 h.2
  · cases h

lemma exists_symbol_of_isOperator (h : t.isOperator n) :
    t.kind n = .operator ∧ ∃ symbol ∈ operators, t.text? n = some symbol := by
  simp only [isOperator, Bool.and_eq_true, decide_eq_true_eq, Option.any_eq_true,
    List.contains_iff_mem] at h
  obtain ⟨hkind, symbol, htext, hsymbol⟩ := h
  exact ⟨hkind, symbol, hsymbol, htext⟩

lemma payload_eq_text {s : String} (h : t.text? n = some s) : t.payload n = .text s := by
  unfold text? at h
  split at h
  · next hpayload =>
    cases h
    exact hpayload
  · cases h

lemma spelling_operator {symbol : String} (hkind : t.kind n = .operator)
    (htext : t.text? n = some symbol) : t.spelling n = [symbol] := by
  rw [spelling, hkind, payload_eq_text htext]

lemma spelling_integer {v : Int64} (hkind : t.kind n = .integer)
    (hpayload : t.payload n = .integer v) : t.spelling n = numberTokens v.toInt := by
  rw [spelling, hkind, hpayload]

lemma spelling_boolean {b : Bool} (hkind : t.kind n = .boolean)
    (hpayload : t.payload n = .boolean b) : t.spelling n = [if b then "1" else "0"] := by
  rw [spelling, hkind, hpayload]

lemma spelling_name {name : String} (hname : t.identName? n = some name) :
    t.spelling n = [name] := by
  obtain ⟨hkind, htext⟩ := identName?_eq_some.mp hname
  rw [spelling, hkind, payload_eq_text htext]

/-- The code of an expression has the code of its children for its parts. -/
lemma exists_parts_of_lowerExpr {e : Expr} (hkind : t.kind n = .expr)
    (hlowered : (t.lowerExpr n).outcome = .ok e) :
    ∃ parts, List.Forall₂ (fun c part => (t.lowerExpr c).outcome = .ok part) (t.children n) parts ∧
      e = .group parts := by
  cases exprCode_of_lowerExpr hlowered with
  | group _ hparts => exact ⟨_, hparts.imp fun _ _ h => h.2, rfl⟩
  | name hname => simp [identName?, hkind] at hname
  | _ hkind' => simp [hkind] at hkind'

/-! ### What is written -/

lemma flatMap_of_forall₂ {α β γ : Type} {R : α → β → Prop} {f : β → List γ} {g : α → List γ}
    {xs : List α} {ys : List β} (h : List.Forall₂ R xs ys)
    (hfg : ∀ x ∈ xs, ∀ y, R x y → f y = g x) : ys.flatMap f = xs.flatMap g := by
  induction h with
  | nil => rfl
  | cons hxy _ ih =>
    obtain ⟨hx, hxs⟩ := List.forall_mem_cons.mp hfg
    rw [List.flatMap_cons, List.flatMap_cons, hx _ hxy, ih hxs]

/-- The code of an operand or operator is its tokens one after the other. -/
lemma toList_render {e : Expr} (hn : t.isOperator n ∨ t.isOperand n)
    (hlowered : (t.lowerExpr n).outcome = .ok e) :
    e.render.toList = (t.spelling n).flatMap String.toList := by
  induction n using t.children_induction generalizing e with
  | hP n ih =>
    rcases hn with hn | hn
    · obtain ⟨hkind, symbol, -, htext⟩ := exists_symbol_of_isOperator hn
      rw [lowerExpr, hkind, htext] at hlowered
      cases hlowered
      simp [Expr.render, spelling_operator hkind htext]
    · cases operand_of_isOperand hn with
      | integer hkind hpayload =>
        rw [lowerExpr, hkind, hpayload] at hlowered
        cases hlowered
        rw [Expr.render, toList_repr, spelling_integer hkind hpayload]
      | boolean hkind hpayload =>
        rw [lowerExpr, hkind, hpayload] at hlowered
        cases hlowered
        simp [Expr.render, flagText, spelling_boolean hkind hpayload]
      | name hname hchars =>
        rw [lowerExpr, (identName?_eq_some.mp hname).1] at hlowered
        obtain ⟨other, hother, rfl⟩ := Reported.map_eq_ok.mp hlowered
        rw [Lowering.ofExcept_eq_ok, requiredName_eq_ok, hname] at hother
        cases hother
        simp [Expr.render, spelling_name hname]
      | expr hkind hturns hchildren =>
        obtain ⟨parts, hparts, rfl⟩ := exists_parts_of_lowerExpr hkind hlowered
        have hinner : parts.flatMap (fun e => e.render.toList) =
            ((t.children n).flatMap t.spelling).flatMap String.toList := by
          rw [List.flatMap_assoc]
          exact flatMap_of_forall₂ hparts fun c hc e he => ih c hc (hchildren c hc) he
        rw [Expr.render, spelling_expr hkind]
        simp [toList_renderAll, hinner]

/-! ### Neighbours -/

/-- The tokens of an expression are a chain if those of its children are and go on from each to the
next. -/
lemma isChain_spelling_expr {R : String → String → Prop} (hkind : t.kind n = .expr)
    (hne : ∀ c ∈ t.children n, t.spelling c ≠ []) (hopen : ∀ x, R "(" x) (hclose : ∀ x, R x ")") :
    (t.spelling n).IsChain R ↔ (∀ c ∈ t.children n, (t.spelling c).IsChain R) ∧
      (t.children n).IsChain fun a b =>
        ∀ x ∈ (t.spelling a).getLast?, ∀ y ∈ (t.spelling b).head?, R x y := by
  have hinner : [] ∉ (t.children n).map t.spelling := by
    intro h
    obtain ⟨c, hc, hnil⟩ := List.mem_map.mp h
    exact hne c hc hnil
  rw [spelling_expr hkind, List.cons_append, List.isChain_cons, List.isChain_append,
    List.flatMap_def, List.isChain_flatten hinner, List.isChain_map]
  simp [hopen, hclose]

lemma isWord_of_isName {l : List Char} (h : isName l) : isWord l := by
  simp [isWord, h]

lemma isWord_flag (b : Bool) : isWord (if b then "1" else "0").toList := by
  cases b <;> decide

lemma isNegative_eq {v : Int64} (hkind : t.kind n = .integer)
    (hpayload : t.payload n = .integer v) : t.isNegative n = decide (v.toInt < 0) := by
  rw [isNegative, hkind, hpayload]

/-- What the tokens of an operand look like from outside: a word, a sign and a word, or
parentheses. -/
inductive Shape (t : Tree) (n : Nat) : Prop
  | word {a : String} (hword : isWord a.toList) (hkind : t.kind n ≠ .expr)
      (hsign : t.isNegative n = false) (hspelling : t.spelling n = [a])
  | negative {a : String} (hword : isWord a.toList) (hkind : t.kind n ≠ .expr)
      (hsign : t.isNegative n = true) (hspelling : t.spelling n = ["-", a])
  | group (hkind : t.kind n = .expr)
      (hturns : (t.children n).IsChain fun a b => t.isOperator a ≠ t.isOperator b)
      (hchildren : ∀ c ∈ t.children n, t.isOperator c ∨ t.isOperand c)

lemma shape_of_isOperand (hn : t.isOperand n) : t.Shape n := by
  cases operand_of_isOperand hn with
  | @integer v hkind hpayload =>
    have hspelling := spelling_integer hkind hpayload
    have hsign := isNegative_eq hkind hpayload
    unfold numberTokens at hspelling
    split at hspelling
    · next hlt => exact .negative (isWord_repr _) (by simp [hkind]) (by simp [hsign, hlt]) hspelling
    · next hle => exact .word (isWord_repr _) (by simp [hkind]) (by simp [hsign, hle]) hspelling
  | boolean hkind hpayload =>
    exact .word (isWord_flag _) (by simp [hkind]) (by simp [isNegative, hkind])
      (spelling_boolean hkind hpayload)
  | name hname hchars =>
    have hkind := (identName?_eq_some.mp hname).1
    exact .word (isWord_of_isName hchars) (by simp [hkind]) (by simp [isNegative, hkind])
      (spelling_name hname)
  | expr hkind hturns hchildren => exact .group hkind hturns hchildren

lemma not_isWord_of_mem_operators : ∀ a ∈ operators, ¬ isWord a.toList := by
  decide

lemma spelling_ne_nil (hn : t.isOperator n ∨ t.isOperand n) : t.spelling n ≠ [] := by
  rcases hn with hn | hn
  · obtain ⟨hkind, symbol, -, htext⟩ := exists_symbol_of_isOperator hn
    simp [spelling_operator hkind htext]
  · cases shape_of_isOperand hn with
    | word _ _ _ hspelling => simp [hspelling]
    | negative _ _ _ hspelling => simp [hspelling]
    | group hkind => simp [spelling_expr hkind]

/-- Of the operators, an operand starts at most with the sign of a negative number. -/
lemma head_spelling (hn : t.isOperand n) {a : String} (ha : a ∈ (t.spelling n).head?)
    (hoperator : a ∈ operators) : a = "-" ∧ t.isNegative n := by
  cases shape_of_isOperand hn with
  | word hword _ _ hspelling =>
    obtain rfl : _ = a := by simpa [hspelling] using ha
    exact absurd hword (not_isWord_of_mem_operators _ hoperator)
  | negative _ _ hsign hspelling =>
    obtain rfl : "-" = a := by simpa [hspelling] using ha
    exact ⟨rfl, hsign⟩
  | group hkind =>
    obtain rfl : "(" = a := by simpa [spelling_expr hkind] using ha
    exact absurd hoperator (by decide)

lemma head_spelling_of_isNegative (hn : t.isOperand n) (hsign : t.isNegative n) :
    (t.spelling n).head? = some "-" := by
  cases shape_of_isOperand hn with
  | word _ _ hsign' => simp [hsign'] at hsign
  | negative _ _ _ hspelling => simp [hspelling]
  | group hkind => simp [isNegative, hkind] at hsign

lemma last_spelling (hn : t.isOperand n) {a : String} (ha : a ∈ (t.spelling n).getLast?) :
    a ∉ operators := by
  intro hoperator
  have hword := not_isWord_of_mem_operators a hoperator
  cases shape_of_isOperand hn with
  | word hword' _ _ hspelling =>
    obtain rfl : _ = a := by simpa [hspelling] using ha
    exact hword hword'
  | negative hword' _ _ hspelling =>
    obtain rfl : _ = a := by simpa [hspelling] using ha
    exact hword hword'
  | group hkind =>
    rw [spelling_expr hkind, List.getLast?_concat] at ha
    obtain rfl : ")" = a := by simpa using ha
    exact absurd hoperator (by decide)

lemma isPart_spelling (hn : t.isOperator n ∨ t.isOperand n) : ∀ a ∈ t.spelling n, IsPart a := by
  induction n using t.children_induction with
  | hP n ih =>
    intro a ha
    rcases hn with hn | hn
    · obtain ⟨hkind, symbol, hsymbol, htext⟩ := exists_symbol_of_isOperator hn
      obtain rfl : a = symbol := by simpa [spelling_operator hkind htext] using ha
      exact .inr (by simp [symbols, hsymbol])
    · cases shape_of_isOperand hn with
      | word hword _ _ hspelling =>
        obtain rfl : a = _ := by simpa [hspelling] using ha
        exact .inl hword
      | negative hword _ _ hspelling =>
        obtain rfl | rfl : a = "-" ∨ a = _ := by simpa [hspelling] using ha
        · exact .inr (by decide)
        · exact .inl hword
      | group hkind _ hchildren =>
        simp only [spelling_expr hkind, List.cons_append, List.mem_cons, List.mem_append,
          List.mem_flatMap, List.not_mem_nil, or_false] at ha
        rcases ha with rfl | ⟨c, hc, hac⟩ | rfl
        · exact .inr (by decide)
        · exact ih c hc (hchildren c hc) a hac
        · exact .inr (by decide)

/-- An operator and an operand in any order, without a blank between them. -/
lemma apart_neighbours {c d : Nat} (hc : t.isOperator c ∨ t.isOperand c)
    (hd : t.isOperator d ∨ t.isOperand d) (hturn : t.isOperator c ≠ t.isOperator d) {a b : String}
    (ha : a ∈ (t.spelling c).getLast?) (hb : b ∈ (t.spelling d).head?) : Apart a b := by
  by_cases hop : t.isOperator c
  · obtain ⟨hkind, symbol, hsymbol, htext⟩ := exists_symbol_of_isOperator hop
    obtain rfl : symbol = a := by simpa [spelling_operator hkind htext] using ha
    have hoperand : t.isOperand d := hd.resolve_left fun h => hturn (hop.trans h.symm)
    exact ⟨fun h => not_isWord_of_mem_operators _ hsymbol h.1,
      fun _ hoperator => (head_spelling hoperand hb hoperator).1⟩
  · have hnext : t.isOperator d := by simpa [hop] using hturn
    obtain ⟨hkind, symbol, hsymbol, htext⟩ := exists_symbol_of_isOperator hnext
    obtain rfl : symbol = b := by simpa [spelling_operator hkind htext] using hb
    exact ⟨fun h => not_isWord_of_mem_operators _ hsymbol h.2,
      fun hoperator => absurd hoperator (last_spelling (hc.resolve_left hop) ha)⟩

lemma isChain_spelling (hn : t.isOperator n ∨ t.isOperand n) : (t.spelling n).IsChain Apart := by
  induction n using t.children_induction with
  | hP n ih =>
    rcases hn with hn | hn
    · obtain ⟨hkind, symbol, -, htext⟩ := exists_symbol_of_isOperator hn
      simp [spelling_operator hkind htext]
    · cases shape_of_isOperand hn with
      | word _ _ _ hspelling => simp [hspelling]
      | negative hword _ _ hspelling =>
        rw [hspelling, List.isChain_pair]
        exact ⟨fun h => absurd h.1 (by decide),
          fun _ hoperator => absurd hword (not_isWord_of_mem_operators _ hoperator)⟩
      | group hkind hturns hchildren =>
        have hopen : ∀ x, Apart "(" x := fun x =>
          ⟨fun h => absurd h.1 (by decide), fun h => absurd h (by decide)⟩
        have hclose : ∀ x, Apart x ")" := fun x =>
          ⟨fun h => absurd h.2 (by decide), fun _ h => absurd h (by decide)⟩
        rw [isChain_spelling_expr hkind (fun c hc => spelling_ne_nil (hchildren c hc)) hopen hclose]
        refine ⟨fun c hc => ih c hc (hchildren c hc), hturns.imp_of_mem_imp ?_⟩
        intro c d hc hd hturn a ha b hb
        exact apart_neighbours (hchildren c hc) (hchildren d hd) hturn ha hb

/-! ### Two minus signs -/

/-- No minus stands before a negative number, here and in the expressions inside. -/
def minusesApart (t : Tree) (n : Nat) : Bool :=
  match t.kind n with
  | .expr =>
    decide ((t.children n).IsChain fun a b => ¬ (t.isMinus a ∧ t.isNegative b)) &&
      (t.children n).attach.all fun c => minusesApart t c.1
  | _ => true
termination_by t.size - n
decreasing_by exact size_sub_lt c.2

lemma minusesApart_expr (hkind : t.kind n = .expr) :
    t.minusesApart n ↔ (∀ c ∈ t.children n, t.minusesApart c) ∧
      (t.children n).IsChain fun a b => ¬ (t.isMinus a ∧ t.isNegative b) := by
  rw [minusesApart, hkind]
  simp [and_comm]

lemma minusesApart_of_ne (hkind : t.kind n ≠ .expr) : t.minusesApart n := by
  rw [minusesApart]
  split
  · contradiction
  · rfl

/-- Chains agree where the relations agree on the links of a third chain. -/
lemma isChain_congr {α : Type} {l : List α} {T R S : α → α → Prop} (hl : l.IsChain T)
    (hRS : ∀ a ∈ l, ∀ b ∈ l, T a b → (R a b ↔ S a b)) : l.IsChain R ↔ l.IsChain S := by
  induction hl with
  | nil => simp
  | singleton => simp
  | @cons_cons a b l hab _ ih =>
    rw [List.isChain_cons_cons, List.isChain_cons_cons, hRS a (by simp) b (by simp) hab,
      ih fun c hc d hd => hRS c (List.mem_cons_of_mem _ hc) d (List.mem_cons_of_mem _ hd)]

lemma minus_neighbours {c d : Nat} (hc : t.isOperator c ∨ t.isOperand c)
    (hd : t.isOperator d ∨ t.isOperand d) (hturn : t.isOperator c ≠ t.isOperator d) :
    (∀ a ∈ (t.spelling c).getLast?, ∀ b ∈ (t.spelling d).head?, ¬ (a = "-" ∧ b = "-")) ↔
      ¬ (t.isMinus c ∧ t.isNegative d) := by
  by_cases hop : t.isOperator c
  · obtain ⟨hkind, symbol, hsymbol, htext⟩ := exists_symbol_of_isOperator hop
    have hoperand : t.isOperand d := hd.resolve_left fun h => hturn (hop.trans h.symm)
    have hlast : (t.spelling c).getLast? = some symbol := by
      simp [spelling_operator hkind htext]
    have hminus : t.isMinus c ↔ symbol = "-" := by
      simp [isMinus, hkind, htext]
    constructor
    · rintro h ⟨hc, hd⟩
      exact h symbol hlast "-" (head_spelling_of_isNegative hoperand hd) ⟨hminus.mp hc, rfl⟩
    · rintro h a ha b hb ⟨rfl, rfl⟩
      have hsign := (head_spelling hoperand hb (by decide)).2
      exact h ⟨hminus.mpr (Option.some.inj (hlast.symm.trans ha)), hsign⟩
  · -- An operand neither is a minus nor ends with one.
    have hlast : ∀ a ∈ (t.spelling c).getLast?, a ∉ operators := fun a =>
      last_spelling (hc.resolve_left hop)
    constructor
    · rintro - ⟨hminus, -⟩
      simp only [isMinus, Bool.and_eq_true, decide_eq_true_eq] at hminus
      exact hop (by simp [isOperator, hminus, operators])
    · rintro - a ha b - ⟨rfl, -⟩
      exact hlast "-" ha (by decide)

lemma isChain_minus_spelling (hn : t.isOperator n ∨ t.isOperand n) :
    (t.spelling n).IsChain (fun a b => ¬ (a = "-" ∧ b = "-")) ↔ t.minusesApart n := by
  induction n using t.children_induction with
  | hP n ih =>
    rcases hn with hn | hn
    · obtain ⟨hkind, symbol, -, htext⟩ := exists_symbol_of_isOperator hn
      simp [spelling_operator hkind htext, minusesApart_of_ne, hkind]
    · cases shape_of_isOperand hn with
      | word _ hkind _ hspelling => simp [hspelling, minusesApart_of_ne hkind]
      | @negative a hword hkind _ hspelling =>
        have hne : a ≠ "-" := by
          rintro rfl
          exact absurd hword (by decide)
        simp [hspelling, hne, minusesApart_of_ne hkind]
      | group hkind hturns hchildren =>
        rw [isChain_spelling_expr hkind (fun c hc => spelling_ne_nil (hchildren c hc)) (by simp)
          (by simp), minusesApart_expr hkind]
        have hinner : (∀ c ∈ t.children n,
            (t.spelling c).IsChain fun a b => ¬ (a = "-" ∧ b = "-")) ↔
              ∀ c ∈ t.children n, t.minusesApart c :=
          forall₂_congr fun c hc => ih c hc (hchildren c hc)
        rw [hinner, isChain_congr hturns fun c hc d hd hturn =>
          minus_neighbours (hchildren c hc) (hchildren d hd) hturn]

/-- The code of an expression is split into a parenthesis, the tokens of its children in their order
and a parenthesis, exactly if no minus stands before a negative number. Where one does, it is read
as one token together with the sign, and all other tokens are as they should be. -/
theorem tokens_of_operand {e : Expr} (hoperand : t.isOperand n)
    (hlowered : (t.lowerExpr n).outcome = .ok e) :
    tokens e.render = fuseMinuses (t.spelling n) ∧
      (tokens e.render = t.spelling n ↔ t.minusesApart n) ∧
      (t.kind n = .expr →
        t.spelling n = "(" :: (t.children n).flatMap t.spelling ++ [")"]) := by
  have htokens : tokens e.render = fuseMinuses (t.spelling n) :=
    tokens_eq (toList_render (.inr hoperand) hlowered) (isPart_spelling (.inr hoperand))
      (isChain_spelling (.inr hoperand))
  refine ⟨htokens, ?_, spelling_expr⟩
  rw [htokens, fuseMinuses_eq_self, isChain_minus_spelling (.inr hoperand)]

/-- A number is taken from a name, and the remainder of a negative one from that in turn. -/
def nestedRemainder : List BuildEvent :=
  [.opened .start .none .detached] ++ assignmentEvents "y" .integer (.integer 7) ++
    [.opened .assign .none .detached, .leaf .ident (.text "x") .detached,
      .opened .expr .none .detached, .leaf .ident (.text "y") .detached,
      .leaf .operator (.text "-") .detached, .opened .expr .none .detached,
      .leaf .integer (.integer (-5)) .detached, .leaf .operator (.text "%") .detached,
      .leaf .integer (.integer 3) .detached, .closed, .closed, .closed, .closed]

theorem tokens_nestedRemainder :
    ∃ (t : Tree) (e : Expr), t.Finished ∧ t.isOperand 6 ∧ (t.lowerExpr 6).outcome = .ok e ∧
      tokens e.render = ["(", "y", "-", "(", "-", "5", "%", "3", ")", ")"] := by
  obtain ⟨t, hfinished, hoperand, hlowered, hapart, hspelling⟩ :=
    exists_finished_of_check nestedRemainder (fun t => t.isOperand 6 ∧
      (t.lowerExpr 6).outcome.isOk ∧ t.minusesApart 6 ∧
      t.spelling 6 = ["(", "y", "-", "(", "-", "5", "%", "3", ")", ")"])
      (by decide +kernel)
  obtain ⟨e, he⟩ := exists_of_isOk hlowered
  exact ⟨t, e, hfinished, hoperand, he,
    ((tokens_of_operand hoperand he).2.1.mpr hapart).trans hspelling⟩

/-- A negative number is subtracted. -/
def subtractedNegative : List BuildEvent :=
  [.opened .start .none .detached, .opened .assign .none .detached,
    .leaf .ident (.text "x") .detached, .opened .expr .none .detached,
    .leaf .integer (.integer 2) .detached, .leaf .operator (.text "-") .detached,
    .leaf .integer (.integer (-3)) .detached, .closed, .closed, .closed]

/-- The minus and the sign are read as one token. -/
theorem minuses_fuse_subtractedNegative :
    ∃ (t : Tree) (e : Expr), t.Finished ∧ t.isOperand 3 ∧ (t.lowerExpr 3).outcome = .ok e ∧
      t.spelling 3 = ["(", "2", "-", "-", "3", ")"] ∧
      tokens e.render = ["(", "2", "--", "3", ")"] := by
  obtain ⟨t, hfinished, hoperand, hspelling, hlowered⟩ :=
    exists_finished_of_check subtractedNegative (fun t => t.isOperand 3 ∧
      t.spelling 3 = ["(", "2", "-", "-", "3", ")"] ∧
      (t.lowerExpr 3).outcome.toOption.any fun e =>
        tokens e.render = ["(", "2", "--", "3", ")"]) (by decide +kernel)
  obtain ⟨e, he, htokens⟩ := Option.any_eq_true _ _ |>.mp hlowered
  exact ⟨t, e, hfinished, hoperand, toOption_eq_some.mp he, hspelling, by simpa using htokens⟩

end Tree

end GridGame
