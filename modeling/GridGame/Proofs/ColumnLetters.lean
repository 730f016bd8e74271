import GridGame.Proofs.Literals
import GridGame.Proofs.PrintoutLayouts

/-!
# The letters of columns

The columns of a printout are labelled with the characters from `A` on, and a label is written into
a string literal as it is. All characters from `A` on stand for themselves in a literal, except for
one: the backslash, which is the label of column 27. Where a number is no character the label is
`?`. It comes before `A`, so that labels differ otherwise.
-/

namespace GridGame.Code.Printout

variable {x x' : Nat}

/-! ### Labels -/

lemma toNat_columnLetter (h : (65 + x).isValidChar) : (columnLetter x).toNat = 65 + x := by
  rw [columnLetter, if_pos h, Char.ofNat, dif_pos h]
  rfl

lemma columnLetter_of_not_valid (h : ¬ (65 + x).isValidChar) : columnLetter x = '?' := by
  rw [columnLetter, if_neg h]

/-- No label comes before the question mark. -/
lemma le_toNat_columnLetter (x : Nat) : 63 ≤ (columnLetter x).toNat := by
  by_cases h : (65 + x).isValidChar
  · rw [toNat_columnLetter h]
    omega
  · rw [columnLetter_of_not_valid h]
    decide

/-- A column with a character of its own shares it with no other. -/
lemma columnLetter_ne (h : (65 + x).isValidChar) (hne : x ≠ x') :
    columnLetter x ≠ columnLetter x' := by
  intro hsame
  have hcode := toNat_columnLetter h
  rw [hsame] at hcode
  by_cases h' : (65 + x').isValidChar
  · rw [toNat_columnLetter h'] at hcode
    exact hne (Nat.add_left_cancel hcode).symm
  · have hquestion : '?'.toNat = 63 := rfl
    rw [columnLetter_of_not_valid h', hquestion] at hcode
    omega

lemma columnLetter_eq_iff (hne : x ≠ x') :
    columnLetter x = columnLetter x' ↔ ¬ (65 + x).isValidChar ∧ ¬ (65 + x').isValidChar := by
  constructor
  · intro hsame
    exact ⟨fun h => columnLetter_ne h hne hsame, fun h => columnLetter_ne h hne.symm hsame.symm⟩
  · rintro ⟨h, h'⟩
    rw [columnLetter_of_not_valid h, columnLetter_of_not_valid h']

lemma columnLetter_ne_backslash (hx : x ≠ 27) : columnLetter x ≠ '\\' := by
  have hbackslash : columnLetter 27 = '\\' := by decide
  rw [← hbackslash]
  exact (columnLetter_ne (by decide) hx.symm).symm

/-! ### Labels in literals -/

/-- What the statement of a label prints. -/
def labelText (letter : Char) : String := String.ofList [' ', ' ', letter, ' ']

/-- A character from the question mark on stands for itself in a literal, except for the one that
escapes others. -/
lemma literalChar_eq_self {c : Char} (hc : 63 ≤ c.toNat) (hbackslash : c ≠ '\\') :
    literalChar c = [c] := by
  unfold literalChar
  split
  case h_2 => exact absurd rfl hbackslash
  case h_6 => rfl
  all_goals exact absurd hc (by decide)

/-- A label that stands for itself is written as the literal of what is printed. -/
lemma render_columnLabel (board : String) {letter : Char}
    (hwritten : literalChar letter = [letter]) :
    (PrintItem.columnLabel letter).render board =
      "printf(" ++ literal (labelText letter) ++ ");\n" := by
  have hblank : literalChar ' ' = [' '] := rfl
  rw [← String.toList_inj, PrintItem.toList_render]
  simp [PrintItem.arguments, labelText, toList_literal, hwritten, hblank]

/-- The statement of a label comes after all lines with rows and borders. -/
lemma getElem?_columnLabel (board : String) (height : Nat) {width : Nat} (hx : x < width) :
    (statements board width height)[(width + 1) * (2 * height + 1) + x]? =
      some ((PrintItem.columnLabel (columnLetter x)).render board) :=
  getElem?_statements (Nat.one_le_of_lt hx) getElem?_lines_last (Nat.le_of_lt hx) (getElem?_line hx)

/-- The label of every column but number 27 is written in a complete string literal that stands for
the label between blanks. The label is the character at the number of the column, counted from `A`,
or `?` if there is none. So different columns have the same label exactly if there is a character
for neither of them. -/
theorem column_letters_read_back (board : String) (width height : UInt32) :
    render board width height = String.join (statements board width.toNat height.toNat) ∧
      (∀ x < width.toNat, x ≠ 27 → ∃ written,
        (statements board width.toNat height.toNat)[
            (width.toNat + 1) * (2 * height.toNat + 1) + x]? =
          some ("printf(" ++ written ++ ");\n") ∧
        IsStringToken written.toList ∧
        decode? written = some (String.ofList [' ', ' ', columnLetter x, ' ']) ∧
        ((65 + x).isValidChar → (columnLetter x).toNat = 65 + x) ∧
        (¬ (65 + x).isValidChar → columnLetter x = '?')) ∧
      ∀ x < width.toNat, ∀ x' < width.toNat, x ≠ x' →
        (columnLetter x = columnLetter x' ↔
          ¬ (65 + x).isValidChar ∧ ¬ (65 + x').isValidChar) := by
  refine ⟨rfl, ?_, ?_⟩
  · intro x hx hletter
    have hwritten :=
      literalChar_eq_self (le_toNat_columnLetter x) (columnLetter_ne_backslash hletter)
    refine ⟨literal (labelText (columnLetter x)), ?_, isStringToken_literal _, decode?_literal _,
      toNat_columnLetter, columnLetter_of_not_valid⟩
    rw [getElem?_columnLabel board _ hx, render_columnLabel board hwritten]
  · intro x _ x' _ hne
    exact columnLetter_eq_iff hne

/-- Columns next to the backslash, in the gap between characters and after it. -/
theorem column_letters_read_back_wide :
    (∃ written, (statements "b" 60000 1)[60001 * 3 + 28]? = some ("printf(" ++ written ++ ");\n") ∧
      IsStringToken written.toList ∧ decode? written = some "  ] ") ∧
    (columnLetter 59999).toNat = 60064 ∧ columnLetter 55230 ≠ columnLetter 59999 ∧
    columnLetter 55231 = columnLetter 57278 := by
  obtain ⟨-, hread, hsame⟩ := column_letters_read_back "b" 60000 1
  obtain ⟨written, hstatement, htoken, hdecode, -⟩ := hread 28 (by decide) (by decide)
  obtain ⟨-, -, -, -, hlast, -⟩ := hread 59999 (by decide) (by decide)
  refine ⟨⟨written, hstatement, htoken, hdecode⟩, hlast (by decide), ?_, ?_⟩
  · rw [Ne, hsame 55230 (by decide) 59999 (by decide) (by decide)]
    exact fun h => h.1 (by decide)
  · rw [hsame 55231 (by decide) 57278 (by decide) (by decide)]
    exact ⟨by decide, by decide⟩

/-- The label of column 27 is a backslash that escapes nothing, and two columns in the gap between
characters have the same label. -/
theorem column_letters_clash :
    (∃ written, (statements "b" 28 1)[29 * 3 + 27]? = some ("printf(" ++ written ++ ");\n") ∧
      ¬ IsStringToken written.toList ∧ decode? written = none) ∧
    (statements "b" 55233 1)[55234 * 3 + 55231]? = some "printf(\"  ? \");\n" ∧
    (statements "b" 55233 1)[55234 * 3 + 55232]? = some "printf(\"  ? \");\n" := by
  refine ⟨⟨"\"  \\ \"", ?_, ?_, ?_⟩, ?_, ?_⟩
  · exact getElem?_columnLabel "b" 1 (by decide)
  · intro htoken
    obtain ⟨c, d, hc, hd⟩ := htoken.escapes 3 rfl (by simp [Escaped])
    cases hc
    cases hd
  · rfl
  · exact getElem?_columnLabel "b" 1 (by decide)
  · exact getElem?_columnLabel "b" 1 (by decide)

end GridGame.Code.Printout
