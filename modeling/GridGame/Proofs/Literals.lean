import GridGame.Code.Literal
import Mathlib.Tactic.Basic

/-!
# Written string literals

A text is written between double quotes, and a backslash before a character says that the two
together stand for one character of the text. Whether a character of the literal is escaped in this
way depends on all that stands before it (`Escaped`). What is written for a character never closes
the literal and leaves nothing escaped after it (`Inside`), so that only the last quote closes it.

Reading goes the other way: it stops at the first quote that is not escaped, and what it has read by
then is the text.
-/

namespace GridGame.Code

/-! ### Reading a literal -/

/-- The character that an escaped character stands for. -/
def escape? : Char → Option Char
  | '"' => some '"'
  | '\\' => some '\\'
  | 'n' => some '\n'
  | 't' => some '\t'
  | 'r' => some '\r'
  | _ => none

/-- The text up to the quote that closes a literal, and what follows the quote. -/
def scanText : List Char → Option (List Char × List Char)
  | [] => none
  | '"' :: rest => some ([], rest)
  | '\\' :: c :: rest => (escape? c).bind fun d => (scanText rest).map fun p => (d :: p.1, p.2)
  | c :: rest =>
    if c = '\\' ∨ c = '\n' ∨ c = '\r' then none
    else (scanText rest).map fun p => (c :: p.1, p.2)

/-- The text of the literal that some characters start with, and what follows the literal. -/
def scanLiteral : List Char → Option (String × List Char)
  | '"' :: rest => (scanText rest).map fun p => (String.ofList p.1, p.2)
  | _ => none

/-- The text that a literal stands for. -/
def decode? (s : String) : Option String :=
  (scanLiteral s.toList).bind fun p => if p.2 = [] then some p.1 else none

/-- A written character is an escape, or it is one that means nothing else in a literal. -/
lemma literalChar_cases (c : Char) :
    (∃ d, literalChar c = ['\\', d] ∧ escape? d = some c) ∨
      literalChar c = [c] ∧ c ≠ '"' ∧ c ≠ '\\' ∧ c ≠ '\n' ∧ c ≠ '\r' := by
  unfold literalChar
  split
  case h_6 hquote hslash hfeed _ hreturn => exact .inr ⟨rfl, hquote, hslash, hfeed, hreturn⟩
  all_goals exact .inl ⟨_, rfl, rfl⟩

lemma scanText_literalChar (c : Char) (s : List Char) :
    scanText (literalChar c ++ s) = (scanText s).map fun p => (c :: p.1, p.2) := by
  rcases literalChar_cases c with ⟨d, hwritten, hd⟩ | ⟨hwritten, hquote, hslash, hfeed, hreturn⟩
  · rw [hwritten, List.cons_append, List.singleton_append, scanText, hd, Option.bind_some]
  · rw [hwritten, List.singleton_append, scanText, if_neg (by simp [hslash, hfeed, hreturn])]
    · exact hquote
    · intro _ _ h
      exact absurd h hslash

lemma scanText_written (s rest : List Char) :
    scanText (s.flatMap literalChar ++ '"' :: rest) = some (s, rest) := by
  induction s with
  | nil => rfl
  | cons c s ih =>
    rw [List.flatMap_cons, List.append_assoc, scanText_literalChar, ih, Option.map_some]

lemma toList_literal (text : String) :
    (literal text).toList = '"' :: text.toList.flatMap literalChar ++ ['"'] :=
  String.toList_ofList

/-- Whatever follows the literal of a text, it is read back and the rest is left. -/
lemma scanLiteral_literal (text : String) (rest : List Char) :
    scanLiteral ((literal text).toList ++ rest) = some (text, rest) := by
  rw [toList_literal, List.cons_append, List.cons_append, List.append_assoc,
    List.singleton_append, scanLiteral, scanText_written, Option.map_some, String.ofList_toList]

lemma decode?_literal (text : String) : decode? (literal text) = some text := by
  have hread := scanLiteral_literal text []
  rw [List.append_nil] at hread
  simp [decode?, hread]

/-! ### Escaped characters -/

/-- A character is escaped if the one before it is a backslash that is not escaped itself. -/
def Escaped (l : List Char) : Nat → Prop
  | 0 => False
  | i + 1 => l[i]? = some '\\' ∧ ¬ Escaped l i

/-- What comes later has no influence on whether a character is escaped. -/
lemma escaped_append {l : List Char} (more : List Char) {i : Nat} (h : i ≤ l.length) :
    Escaped (l ++ more) i ↔ Escaped l i := by
  induction i with
  | zero => rfl
  | succ i ih => rw [Escaped, Escaped, List.getElem?_append_left h, ih (Nat.le_of_lt h)]

/-- After characters that leave the next one free, others are escaped as they are on their own. -/
lemma escaped_length_add {l : List Char} (hl : ¬ Escaped l l.length) (more : List Char) (j : Nat) :
    Escaped (l ++ more) (l.length + j) ↔ Escaped more j := by
  induction j with
  | zero => simpa [Escaped, escaped_append] using hl
  | succ j ih =>
    rw [← Nat.add_assoc, Escaped, Escaped, ih, List.getElem?_append_right (Nat.le_add_right ..),
      Nat.add_sub_cancel_left]

/-- A place in a concatenation is one of the first part or one of the second. -/
lemma place_cases {l : List Char} (hl : ¬ Escaped l l.length) (more : List Char) (i : Nat) :
    (i < l.length ∧ (l ++ more)[i]? = l[i]? ∧ (Escaped (l ++ more) i ↔ Escaped l i)) ∨
      ∃ j, i = l.length + j ∧ (l ++ more)[i]? = more[j]? ∧
        (Escaped (l ++ more) i ↔ Escaped more j) := by
  rcases Nat.lt_or_ge i l.length with hi | hi
  · exact .inl ⟨hi, List.getElem?_append_left hi, escaped_append more (Nat.le_of_lt hi)⟩
  · obtain ⟨j, rfl⟩ := Nat.exists_eq_add_of_le hi
    refine .inr ⟨j, rfl, ?_, escaped_length_add hl more j⟩
    rw [List.getElem?_append_right hi, Nat.add_sub_cancel_left]

/-! ### What stands between the quotes -/

/-- Every backslash that is not escaped has something to escape. -/
def EscapesSpelled (l : List Char) : Prop :=
  ∀ i, l[i]? = some '\\' → ¬ Escaped l i → ∃ c d, l[i + 1]? = some c ∧ escape? c = some d

/-- Characters that may stand inside a string literal. -/
structure Inside (l : List Char) : Prop where
  /-- What comes next is not escaped. -/
  settled : ¬ Escaped l l.length
  quotes : ∀ i, l[i]? = some '"' → Escaped l i
  no_breaks : '\n' ∉ l ∧ '\r' ∉ l
  escapes : EscapesSpelled l

lemma inside_nil : Inside [] where
  settled := id
  quotes := by simp
  no_breaks := by simp
  escapes := by simp [EscapesSpelled]

lemma EscapesSpelled.append {l more : List Char} (hl : ¬ Escaped l l.length)
    (hfirst : EscapesSpelled l) (hsecond : EscapesSpelled more) : EscapesSpelled (l ++ more) := by
  intro i hi hfree
  rcases place_cases hl more i with ⟨-, hsame, hescaped⟩ | ⟨j, rfl, hsame, hescaped⟩
  · obtain ⟨c, d, hc, hd⟩ := hfirst i (hsame ▸ hi) (mt hescaped.mpr hfree)
    refine ⟨c, d, ?_, hd⟩
    rw [List.getElem?_append_left (List.getElem?_eq_some_iff.mp hc).1, hc]
  · obtain ⟨c, d, hc, hd⟩ := hsecond j (hsame ▸ hi) (mt hescaped.mpr hfree)
    refine ⟨c, d, ?_, hd⟩
    rw [Nat.add_assoc, List.getElem?_append_right (Nat.le_add_right ..),
      Nat.add_sub_cancel_left, hc]

lemma Inside.append {l more : List Char} (hfirst : Inside l) (hsecond : Inside more) :
    Inside (l ++ more) where
  settled := by
    rw [List.length_append, escaped_length_add hfirst.settled]
    exact hsecond.settled
  quotes := by
    intro i hi
    rcases place_cases hfirst.settled more i with ⟨-, hsame, hescaped⟩ | ⟨j, rfl, hsame, hescaped⟩
    · exact hescaped.mpr (hfirst.quotes i (hsame ▸ hi))
    · exact hescaped.mpr (hsecond.quotes j (hsame ▸ hi))
  no_breaks := by simp [hfirst.no_breaks, hsecond.no_breaks]
  escapes := hfirst.escapes.append hfirst.settled hsecond.escapes

lemma inside_literalChar (c : Char) : Inside (literalChar c) := by
  rcases literalChar_cases c with ⟨d, hwritten, hd⟩ | ⟨hwritten, hquote, hslash, hfeed, hreturn⟩
  · have hbreaks : d ≠ '\n' ∧ d ≠ '\r' := by
      constructor
      all_goals
        rintro rfl
        cases hd
    rw [hwritten]
    refine ⟨?_, ?_, ?_, ?_⟩
    · simp [Escaped]
    · rintro (_ | _ | i) hi
      · simp at hi
      · simp [Escaped]
      · simp at hi
    · simp [hbreaks.1.symm, hbreaks.2.symm]
    · rintro (_ | _ | i) hi hfree
      · exact ⟨d, c, rfl, hd⟩
      · simp [Escaped] at hfree
      · simp at hi
  · rw [hwritten]
    refine ⟨?_, ?_, ?_, ?_⟩
    · simp [Escaped, hslash]
    · rintro (_ | i) hi
      · exact absurd (Option.some.inj hi) hquote
      · simp at hi
    · simp [hfeed.symm, hreturn.symm]
    · rintro (_ | i) hi hfree
      · exact absurd (Option.some.inj hi) hslash
      · simp at hi

lemma inside_written (s : List Char) : Inside (s.flatMap literalChar) := by
  induction s with
  | nil => exact inside_nil
  | cons c s ih =>
    rw [List.flatMap_cons]
    exact (inside_literalChar c).append ih

/-! ### Literals as tokens -/

/-- One complete string token: the quotes at its ends are the only ones that are not escaped, it
stands on one line, and every backslash in it belongs to an escape. -/
structure IsStringToken (l : List Char) : Prop where
  two_le : 2 ≤ l.length
  quotes : ∀ i, (l[i]? = some '"' ∧ ¬ Escaped l i) ↔ (i = 0 ∨ i + 1 = l.length)
  no_breaks : '\n' ∉ l ∧ '\r' ∉ l
  escapes : EscapesSpelled l

lemma Inside.isStringToken {l : List Char} (h : Inside l) : IsStringToken ('"' :: l ++ ['"']) := by
  have hopen : ¬ Escaped ['"'] 1 := by simp [Escaped]
  have hquote : EscapesSpelled ['"'] := by
    rintro (_ | i) hi
    · cases hi
    · simp at hi
  refine ⟨by simp, ?_, by simp [h.no_breaks], ?_⟩
  · intro i
    rw [List.cons_append, ← List.singleton_append]
    rcases place_cases hopen (l ++ ['"']) i with ⟨hlt, hsame, hescaped⟩ | ⟨j, rfl, hsame, hescaped⟩
    · obtain rfl : i = 0 := Nat.lt_one_iff.mp hlt
      simp [Escaped]
    · rw [hsame, hescaped]
      rcases place_cases h.settled ['"'] j with ⟨hlt, hsame, hescaped⟩ | ⟨k, rfl, hsame, hescaped⟩
      · -- between the quotes at the ends every quote is escaped
        rw [hsame, hescaped]
        constructor
        · rintro ⟨hj, hfree⟩
          exact absurd (h.quotes j hj) hfree
        · simp only [List.length_append, List.length_singleton]
          omega
      · rw [hsame, hescaped]
        cases k with
        | zero => simp [Escaped, Nat.add_comm, Nat.add_left_comm]
        | succ k =>
          simp only [List.length_append, List.length_singleton]
          constructor
          · simp
          · omega
  · have hbody : EscapesSpelled (l ++ ['"']) := h.escapes.append h.settled hquote
    rw [List.cons_append, ← List.singleton_append]
    exact hquote.append hopen hbody

lemma isStringToken_literal (text : String) : IsStringToken (literal text).toList := by
  rw [toList_literal]
  exact (inside_written text.toList).isStringToken

/-- The literal of a text is one complete string token. Wherever it stands, reading it gives the
text and ends where the literal ends, so different texts have different literals. A variable that is
given a copy of the text has room for the bytes that the literal stands for and the closing zero. -/
theorem literal_reads_back_and_fits (text : String) :
    IsStringToken (literal text).toList ∧
      (∀ rest, scanLiteral ((literal text).toList ++ rest) = some (text, rest)) ∧
      (∀ other, literal other = literal text → other = text) ∧
      ∃ decoded, decode? (literal text) = some decoded ∧ decoded = text ∧ ∀ target,
        copyText target text =
          s!"{target} = calloc({decoded.toUTF8.size + 1}, sizeof(char));\n" ++
            s!"strcpy({target}, {literal text});\n" ∧
        recopyText target text =
          s!"{target} = realloc({target}, {decoded.toUTF8.size + 1});\n" ++
            s!"strcpy({target}, {literal text});\n" := by
  refine ⟨isStringToken_literal text, scanLiteral_literal text, ?_, ?_⟩
  · intro other hsame
    have hother := decode?_literal other
    rw [hsame, decode?_literal] at hother
    exact (Option.some.inj hother).symm
  · refine ⟨text, decode?_literal text, rfl, ?_⟩
    intro target
    constructor
    · simp only [copyText, bufferSize, String.append_assoc]
      rfl
    · simp only [recopyText, bufferSize, String.append_assoc]
      rfl

end GridGame.Code
