import GridGame.Text.Digits

/-!
# JSON tokens

The lexical part of JSON: strict strings, numbers and words, with blanks between them. A string
may escape halves of surrogate pairs on their own; such a string is a token like any other, but
it names no text. Likewise a number with a fraction or an exponent, or a negative zero, is a
token that names no integer.
-/

namespace GridGame.Json

open Text (decimal hexNumber?)

inductive Token where
  | braceOpen
  | braceClose
  | bracketOpen
  | bracketClose
  | colon
  | comma
  | null
  | bool (value : Bool)
  | number (value : Option Int)
  | string (text : Option String)
deriving DecidableEq

/-! ### Strings -/

/-- What one character or escape of a string stands for. -/
inductive CodeUnit where
  | char (c : Char)
  /-- Half of a surrogate pair. -/
  | half (code : Nat)
deriving DecidableEq

/-- The unit that a four-digit escape stands for. -/
def CodeUnit.ofCode (code : Nat) : CodeUnit :=
  if 0xd800 ≤ code ∧ code ≤ 0xdfff then .half code else .char (Char.ofNat code)

/-- The character that a one-letter escape stands for. -/
def escaped? : Char → Option Char
  | '"' => some '"'
  | '\\' => some '\\'
  | '/' => some '/'
  | 'b' => some '\x08'
  | 'f' => some '\x0c'
  | 'n' => some '\n'
  | 'r' => some '\r'
  | 't' => some '\t'
  | _ => none

/-- The text that units spell, if every half has its other half next to it. -/
def text? : List CodeUnit → Option (List Char)
  | [] => some []
  | .char c :: rest => (text? rest).map (c :: ·)
  | .half high :: .half low :: rest =>
    if high < 0xdc00 ∧ 0xdc00 ≤ low then
      (text? rest).map (Char.ofNat (0x10000 + (high - 0xd800) * 0x400 + (low - 0xdc00)) :: ·)
    else none
  | .half _ :: _ => none

/-- The units of a string up to its closing quote, and what follows the quote. Control characters
have to be escaped. -/
def scanString : List Char → Option (List CodeUnit × List Char)
  | [] => none
  | '"' :: rest => some ([], rest)
  | '\\' :: 'u' :: a :: b :: c :: d :: rest =>
    match hexNumber? [a, b, c, d], scanString rest with
    | some code, some (units, rest) => some (.ofCode code :: units, rest)
    | _, _ => none
  | '\\' :: c :: rest =>
    match escaped? c, scanString rest with
    | some c, some (units, rest) => some (.char c :: units, rest)
    | _, _ => none
  | c :: rest =>
    if c.toNat < 0x20 ∨ c = '\\' then none
    else (scanString rest).map fun (units, rest) => (.char c :: units, rest)

theorem length_of_scanString {s rest : List Char} {units : List CodeUnit}
    (h : scanString s = some (units, rest)) : rest.length < s.length := by
  fun_induction scanString s generalizing units rest with
  | case1 => simp at h
  | case2 tail =>
    simp only [Option.some.injEq, Prod.mk.injEq] at h
    simp [← h.2]
  | case3 a b c d tail code units' rest' hscan _ ih =>
    simp only [Option.some.injEq, Prod.mk.injEq] at h
    have := ih hscan
    simp only [List.length_cons]
    rw [← h.2]
    omega
  | case4 => simp at h
  | case5 c tail _ c' units' rest' hscan _ ih =>
    simp only [Option.some.injEq, Prod.mk.injEq] at h
    have := ih hscan
    simp only [List.length_cons]
    rw [← h.2]
    omega
  | case6 => simp at h
  | case7 => simp at h
  | case8 c tail _ _ _ _ ih =>
    obtain ⟨⟨units', rest'⟩, hscan, heq⟩ := Option.map_eq_some_iff.1 h
    simp only [Prod.mk.injEq] at heq
    have := ih hscan
    simp only [List.length_cons]
    rw [← heq.2]
    omega

/-! ### Numbers -/

/-- Skip the digits that must stand at the front. -/
def skipDigits? (s : List Char) : Option (List Char) :=
  match s with
  | c :: rest => if c.isDigit then some (rest.dropWhile Char.isDigit) else none
  | [] => none

/-- Skip a fraction, and say whether there was one. -/
def skipFraction? : List Char → Option (Bool × List Char)
  | '.' :: rest => (skipDigits? rest).map (true, ·)
  | s => some (false, s)

def skipSign : List Char → List Char
  | '+' :: rest => rest
  | '-' :: rest => rest
  | s => s

/-- Skip an exponent, and say whether there was one. -/
def skipExponent? : List Char → Option (Bool × List Char)
  | 'e' :: rest => (skipDigits? (skipSign rest)).map (true, ·)
  | 'E' :: rest => (skipDigits? (skipSign rest)).map (true, ·)
  | s => some (false, s)

/-- The digits of a number without a leading zero, and what follows. -/
def scanDigits? (s : List Char) : Option (List Char × List Char) :=
  match s with
  | c :: rest =>
    if c = '0' then some (['0'], rest)
    else if c.isDigit then some (c :: rest.takeWhile Char.isDigit, rest.dropWhile Char.isDigit)
    else none
  | [] => none

/-- A number after its sign, and what follows it. -/
def scanUnsigned (negative : Bool) (s : List Char) : Option (Option Int × List Char) := do
  let (digits, rest) ← scanDigits? s
  let (fraction, rest) ← skipFraction? rest
  let (exponent, rest) ← skipExponent? rest
  let value := decimal digits
  if fraction || exponent || (negative && value == 0) then return (none, rest)
  return (some (if negative then -(value : Int) else value), rest)

def scanNumber : List Char → Option (Option Int × List Char)
  | '-' :: rest => scanUnsigned true rest
  | s => scanUnsigned false s

theorem length_dropWhile_le {α : Type} (p : α → Bool) (s : List α) :
    (s.dropWhile p).length ≤ s.length :=
  (List.dropWhile_sublist p).length_le

theorem length_of_skipDigits? {s rest : List Char} (h : skipDigits? s = some rest) :
    rest.length ≤ s.length := by
  unfold skipDigits? at h
  split at h
  · split at h
    · cases h
      have := length_dropWhile_le Char.isDigit ‹List Char›
      simp only [List.length_cons]
      omega
    · cases h
  · cases h

theorem length_of_skipFraction? {s rest : List Char} {b : Bool}
    (h : skipFraction? s = some (b, rest)) : rest.length ≤ s.length := by
  unfold skipFraction? at h
  split at h
  · obtain ⟨r, hr, heq⟩ := Option.map_eq_some_iff.1 h
    cases heq
    have := length_of_skipDigits? hr
    simp only [List.length_cons]
    omega
  · cases h
    exact Nat.le_refl _

theorem length_skipSign_le (s : List Char) : (skipSign s).length ≤ s.length := by
  unfold skipSign
  split <;> simp

theorem length_of_skipExponent? {s rest : List Char} {b : Bool}
    (h : skipExponent? s = some (b, rest)) : rest.length ≤ s.length := by
  have key : ∀ {tail : List Char},
      (skipDigits? (skipSign tail)).map (true, ·) = some (b, rest) →
        rest.length ≤ tail.length := by
    intro tail h
    obtain ⟨r, hr, heq⟩ := Option.map_eq_some_iff.1 h
    cases heq
    exact Nat.le_trans (length_of_skipDigits? hr) (length_skipSign_le tail)
  unfold skipExponent? at h
  split at h
  · exact Nat.le_succ_of_le (key h)
  · exact Nat.le_succ_of_le (key h)
  · cases h
    exact Nat.le_refl _

theorem length_of_scanDigits? {s digits rest : List Char}
    (h : scanDigits? s = some (digits, rest)) : rest.length < s.length := by
  unfold scanDigits? at h
  split at h
  · split at h
    · cases h
      simp
    · split at h
      · cases h
        have := length_dropWhile_le Char.isDigit ‹List Char›
        simp only [List.length_cons]
        omega
      · cases h
  · cases h

theorem length_of_scanUnsigned {negative : Bool} {s rest : List Char} {value : Option Int}
    (h : scanUnsigned negative s = some (value, rest)) : rest.length < s.length := by
  unfold scanUnsigned at h
  simp only [Option.bind_eq_bind, Option.bind_eq_some_iff, Option.pure_def] at h
  obtain ⟨⟨digits, r₁⟩, h₁, ⟨fraction, r₂⟩, h₂, ⟨exponent, r₃⟩, h₃, h⟩ := h
  have h₁ := length_of_scanDigits? h₁
  have h₂ : r₂.length ≤ r₁.length := length_of_skipFraction? h₂
  have h₃ : r₃.length ≤ r₂.length := length_of_skipExponent? h₃
  have hrest : r₃ = rest := by
    split at h
    · cases h
      rfl
    · cases h
      rfl
  subst hrest
  omega

theorem length_of_scanNumber {s rest : List Char} {value : Option Int}
    (h : scanNumber s = some (value, rest)) : rest.length < s.length := by
  unfold scanNumber at h
  split at h
  · have := length_of_scanUnsigned h
    simp only [List.length_cons]
    omega
  · exact length_of_scanUnsigned h

/-! ### Texts -/

def lex (s : List Char) : Option (List Token) :=
  match s with
  | [] => some []
  | ' ' :: rest | '\t' :: rest | '\n' :: rest | '\r' :: rest => lex rest
  | '\x7b' :: rest => (lex rest).map (.braceOpen :: ·)
  | '\x7d' :: rest => (lex rest).map (.braceClose :: ·)
  | '[' :: rest => (lex rest).map (.bracketOpen :: ·)
  | ']' :: rest => (lex rest).map (.bracketClose :: ·)
  | ':' :: rest => (lex rest).map (.colon :: ·)
  | ',' :: rest => (lex rest).map (.comma :: ·)
  | 'n' :: 'u' :: 'l' :: 'l' :: rest => (lex rest).map (.null :: ·)
  | 't' :: 'r' :: 'u' :: 'e' :: rest => (lex rest).map (.bool true :: ·)
  | 'f' :: 'a' :: 'l' :: 's' :: 'e' :: rest => (lex rest).map (.bool false :: ·)
  | '"' :: rest =>
    match _h : scanString rest with
    | none => none
    | some (units, rest) => (lex rest).map (.string ((text? units).map String.ofList) :: ·)
  | c :: rest =>
    match _h : scanNumber (c :: rest) with
    | none => none
    | some (value, rest) => (lex rest).map (.number value :: ·)
termination_by s.length
decreasing_by
  any_goals (simp only [List.length_cons]; omega)
  · have := length_of_scanString _h
    simp only [List.length_cons]
    omega
  · exact length_of_scanNumber _h

end GridGame.Json
