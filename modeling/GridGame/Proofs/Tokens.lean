import GridGame.Text.Search
import Mathlib.Data.List.Chain
import Mathlib.Data.List.Infix

/-!
# Tokens of the generated code

A compiler splits a program into tokens by the longest match: of all beginnings of the text that are
a name, a number, a punctuator or a comment, the longest one is taken off, and so on with the rest.
String literals and character constants are left out, as no text that is split here has a quote.

Neighbours without a blank between them may therefore grow together. Of what an arithmetic
expression is written with, only two minus signs do (`tokens_eq`).
-/

namespace GridGame.Code

/-! ### Lexemes -/

/-- A letter, a digit or an underscore. -/
def isNameChar (c : Char) : Bool := c.isAlphanum || c == '_'

/-- A name: it does not start with a digit. -/
def isName : List Char → Bool
  | [] => false
  | c :: rest => isNameChar c && !c.isDigit && rest.all isNameChar

/-- Whether a number goes on with some characters after one of its own. A sign belongs to a number
after the letter of an exponent. -/
def continuesNumber : Char → List Char → Bool
  | _, [] => true
  | before, c :: rest =>
    (isNameChar c || c == '.' || (c == '+' || c == '-') && ['e', 'E', 'p', 'P'].contains before) &&
      continuesNumber c rest

/-- A number in the wide sense in which texts are split. -/
def isNumber : List Char → Bool
  | [] => false
  | '.' :: c :: rest => c.isDigit && continuesNumber c rest
  | c :: rest => c.isDigit && continuesNumber c rest

def punctuators : List String :=
  ["[", "]", "(", ")", "\x7b", "\x7d", ".", "->", "++", "--", "&", "*", "+", "-", "~", "!", "/",
    "%", "<<", ">>", "<", ">", "<=", ">=", "==", "!=", "^", "|", "&&", "||", "?", ":", ";", "...",
    "=", "*=", "/=", "%=", "+=", "-=", "<<=", ">>=", "&=", "^=", "|=", ",", "#", "##", "<:", ":>",
    "<%", "%>", "%:", "%:%:"]

def isPunctuator (l : List Char) : Bool := punctuators.contains (String.ofList l)

/-- A comment: up to the end of the line, or up to the first closing mark. -/
def isComment : List Char → Bool
  | '/' :: '/' :: rest => !rest.contains '\n'
  | '/' :: '*' :: rest => (Text.breakFirst? ['*', '/'] rest).any (·.2.isEmpty)
  | _ => false

def isLexeme (l : List Char) : Bool := isName l || isNumber l || isPunctuator l || isComment l

/-! ### The longest match -/

/-- The longest beginning of a list with a property. -/
def longest? {α : Type} (p : List α → Bool) : List α → Option (List α)
  | [] => if p [] then some [] else none
  | a :: l =>
    match longest? (fun w => p (a :: w)) l with
    | some w => some (a :: w)
    | none => if p [] then some [] else none

section Longest

variable {α : Type} {p : List α → Bool} {l w : List α}

lemma longest?_eq_none : longest? p l = none ↔ ∀ v, v <+: l → p v = false := by
  induction l generalizing p with
  | nil => simp [longest?]
  | cons a l ih =>
    rw [longest?]
    cases hlonger : longest? (fun w => p (a :: w)) l with
    | some u =>
      have hsome := mt ih.mpr (hlonger ▸ Option.some_ne_none u)
      simp only [reduceCtorEq, false_iff]
      intro hnone
      exact hsome fun v hv => hnone (a :: v) (List.cons_prefix_cons.mpr ⟨rfl, hv⟩)
    | none =>
      have hnone := ih.mp hlonger
      constructor
      · intro h v hv
        rcases List.prefix_cons_iff.mp hv with rfl | ⟨u, rfl, hu⟩
        · simpa using h
        · exact hnone u hu
      · intro h
        simp [h [] List.nil_prefix]

/-- What is found has the property, and nothing longer has it. -/
lemma longest?_eq_some :
    longest? p l = some w ↔
      w <+: l ∧ p w = true ∧ ∀ v, v <+: l → p v = true → v.length ≤ w.length := by
  induction l generalizing p w with
  | nil =>
    constructor
    · intro h
      obtain ⟨hp, rfl⟩ : p [] = true ∧ [] = w := by simpa [longest?] using h
      exact ⟨List.nil_prefix, hp, fun v hv _ => hv.length_le⟩
    · rintro ⟨hw, hpw, -⟩
      obtain rfl := List.prefix_nil.mp hw
      simp [longest?, hpw]
  | cons a l ih =>
    rw [longest?]
    cases hlonger : longest? (fun w => p (a :: w)) l with
    | some u =>
      obtain ⟨hu, hpu, hmax⟩ := ih.mp hlonger
      constructor
      · rintro ⟨⟩
        refine ⟨List.cons_prefix_cons.mpr ⟨rfl, hu⟩, hpu, ?_⟩
        intro v hv hpv
        rcases List.prefix_cons_iff.mp hv with rfl | ⟨v', rfl, hv'⟩
        · exact Nat.zero_le _
        · exact Nat.succ_le_succ (hmax v' hv' hpv)
      · rintro ⟨hw, hpw, hmax'⟩
        have hle := hmax' (a :: u) (List.cons_prefix_cons.mpr ⟨rfl, hu⟩) hpu
        rcases List.prefix_cons_iff.mp hw with rfl | ⟨v, rfl, hv⟩
        · exact absurd hle (Nat.not_succ_le_zero _)
        · have hlength := Nat.le_antisymm (hmax v hv hpw) (Nat.le_of_succ_le_succ hle)
          rw [(List.prefix_of_prefix_length_le hv hu hlength.le).eq_of_length hlength]
    | none =>
      have hnone := longest?_eq_none.mp hlonger
      constructor
      · intro h
        obtain ⟨hp, rfl⟩ : p [] = true ∧ [] = w := by simpa using h
        refine ⟨List.nil_prefix, hp, ?_⟩
        intro v hv hpv
        rcases List.prefix_cons_iff.mp hv with rfl | ⟨v', rfl, hv'⟩
        · exact le_refl _
        · exact absurd hpv (by simp [hnone v' hv'])
      · rintro ⟨hw, hpw, -⟩
        rcases List.prefix_cons_iff.mp hw with rfl | ⟨v, rfl, hv⟩
        · simp [hpw]
        · exact absurd hpw (by simp [hnone v hv])

/-- A beginning with the property is taken if no character that follows prolongs it. -/
lemma longest?_append {rest : List α} (hw : p w = true)
    (hrest : ∀ d ∈ rest.head?, ∀ more, p (w ++ d :: more) = false) :
    longest? p (w ++ rest) = some w := by
  refine longest?_eq_some.mpr ⟨List.prefix_append .., hw, ?_⟩
  intro v hv hpv
  by_contra hlonger
  obtain ⟨u, rfl⟩ := List.prefix_of_prefix_length_le (List.prefix_append w rest) hv
    (Nat.le_of_not_le hlonger)
  cases u with
  | nil => simp at hlonger
  | cons d u =>
    obtain ⟨after, hafter⟩ := hv
    rw [List.append_assoc, List.append_cancel_left_eq] at hafter
    have hd := hrest d (by rw [← hafter]; rfl) u
    rw [hpv] at hd
    cases hd

end Longest

/-- The lexemes of a text without comments and blanks. A character that starts no lexeme stands on
its own. -/
def lex : List Char → List (List Char)
  | [] => []
  | c :: rest =>
    let lexeme := (longest? (fun w => isLexeme (c :: w)) rest).getD []
    let others := lex (rest.drop lexeme.length)
    if c.isWhitespace || isComment (c :: lexeme) then others else (c :: lexeme) :: others
termination_by l => l.length
decreasing_by
  rw [List.length_drop, List.length_cons]
  omega

/-- The tokens that a text is split into. -/
def tokens (s : String) : List String := (lex s.toList).map String.ofList

lemma lex_nil : lex [] = [] := by
  rw [lex]

/-- The first lexeme is taken off if no character that follows prolongs it. -/
lemma lex_append {w rest : List Char} {c : Char} (hblank : c.isWhitespace = false)
    (hcomment : isComment (c :: w) = false) (hw : isLexeme (c :: w) = true)
    (hrest : ∀ d ∈ rest.head?, ∀ more, isLexeme (c :: w ++ d :: more) = false) :
    lex (c :: w ++ rest) = (c :: w) :: lex rest := by
  have hlexeme : longest? (fun w => isLexeme (c :: w)) (w ++ rest) = some w :=
    longest?_append hw hrest
  rw [List.cons_append, lex]
  simp only [hlexeme, Option.getD_some, hblank, hcomment, Bool.or_self, Bool.false_eq_true,
    if_false, List.drop_left]

/-! ### Parts of arithmetic -/

/-- A name, or a number that is written with digits only. -/
def isWord (l : List Char) : Bool := isName l || !l.isEmpty && l.all Char.isDigit

def operators : List String := ["+", "-", "*", "/", "%"]

def symbols : List String := "(" :: ")" :: operators

/-- Something that arithmetic is written with. -/
def IsPart (s : String) : Prop := isWord s.toList ∨ s ∈ symbols

/-- Parts that may be neighbours: two words do not meet, and after an operator stands at most a
sign. -/
def Apart (a b : String) : Prop :=
  ¬ (isWord a.toList ∧ isWord b.toList) ∧ (a ∈ operators → b ∈ operators → b = "-")

lemma isNameChar_of_isDigit {c : Char} (h : c.isDigit) : isNameChar c := by
  simp [isNameChar, Char.isAlphanum, h]

/-- The first character tells a name from a number. -/
lemma exists_cons_of_isWord {l : List Char} (h : isWord l) :
    ∃ c rest, l = c :: rest ∧ isNameChar c ∧
      (c.isDigit = false ∧ rest.all isNameChar ∨ c.isDigit ∧ rest.all Char.isDigit) := by
  cases l with
  | nil => cases h
  | cons c rest =>
    refine ⟨c, rest, rfl, ?_⟩
    simp only [isWord, isName, List.isEmpty_cons, Bool.not_false, Bool.true_and, List.all_cons,
      Bool.or_eq_true, Bool.and_eq_true, Bool.not_eq_true'] at h
    rcases h with ⟨⟨hname, hdigit⟩, hrest⟩ | ⟨hdigit, hrest⟩
    · exact ⟨hname, .inl ⟨hdigit, hrest⟩⟩
    · exact ⟨isNameChar_of_isDigit hdigit, .inr ⟨hdigit, hrest⟩⟩

lemma continuesNumber_digits {c : Char} {l : List Char} (h : l.all Char.isDigit) :
    continuesNumber c l := by
  induction l generalizing c with
  | nil => rfl
  | cons d l ih =>
    rw [List.all_cons, Bool.and_eq_true] at h
    simp [continuesNumber, isNameChar_of_isDigit h.1, ih h.2]

/-- Digits go on with letters, digits, underscores and points only. -/
lemma continuesNumber_append {c d : Char} {l more : List Char} (hc : c.isDigit)
    (hl : l.all Char.isDigit) (hd : isNameChar d = false) (hpoint : d ≠ '.') :
    continuesNumber c (l ++ d :: more) = false := by
  induction l generalizing c with
  | nil =>
    have hexponent : ¬ (c = 'e' ∨ c = 'E' ∨ c = 'p' ∨ c = 'P') := by
      rintro (rfl | rfl | rfl | rfl)
      all_goals cases hc
    simp [continuesNumber, hd, hpoint, hexponent]
  | cons c' l ih =>
    rw [List.all_cons, Bool.and_eq_true] at hl
    simp [continuesNumber, ih hl.1 hl.2]

lemma isPunctuator_iff {l : List Char} :
    isPunctuator l = true ↔ ∃ s ∈ punctuators, s.toList = l := by
  rw [isPunctuator, List.contains_iff_mem]
  constructor
  · intro h
    exact ⟨_, h, String.toList_ofList⟩
  · rintro ⟨s, hs, rfl⟩
    rwa [String.ofList_toList]

lemma isComment_of_ne {c : Char} {l : List Char} (h : c ≠ '/') : isComment (c :: l) = false := by
  rw [isComment]
  · intro _ hslash
    exact h (List.cons.inj hslash).1
  · intro _ hslash
    exact h (List.cons.inj hslash).1

lemma isNumber_of_ne {c : Char} {l : List Char} (h : c ≠ '.') :
    isNumber (c :: l) = (c.isDigit && continuesNumber c l) := by
  rw [isNumber]
  intro _ _ hpoint
  exact absurd hpoint h

lemma head_punctuators : ∀ s ∈ punctuators, s.toList.head?.all (!isNameChar ·) := by
  decide

/-- A character that does not belong to a word ends it, except for a point. -/
lemma not_isLexeme_word_append {l more : List Char} {d : Char} (hl : isWord l)
    (hd : isNameChar d = false) (hpoint : d ≠ '.') : isLexeme (l ++ d :: more) = false := by
  obtain ⟨c, rest, rfl, hc, hrest⟩ := exists_cons_of_isWord hl
  have hpoint' : c ≠ '.' := by
    rintro rfl
    cases hc
  have hslash : c ≠ '/' := by
    rintro rfl
    cases hc
  have hname : isName (c :: rest ++ d :: more) = false := by simp [isName, hd]
  have hnumber : isNumber (c :: rest ++ d :: more) = false := by
    rw [List.cons_append, isNumber_of_ne hpoint']
    rcases hrest with ⟨hdigit, -⟩ | ⟨hdigit, hrest⟩
    · rw [hdigit, Bool.false_and]
    · rw [continuesNumber_append hdigit hrest hd hpoint, Bool.and_false]
  have hpunctuator : isPunctuator (c :: rest ++ d :: more) = false := by
    rw [Bool.eq_false_iff, Ne, isPunctuator_iff]
    rintro ⟨s, hs, hsame⟩
    simpa [hsame, hc] using head_punctuators s hs
  rw [isLexeme, hname, hnumber, hpunctuator, List.cons_append, isComment_of_ne hslash]
  rfl

/-- A symbol is not prolonged by a character with which it starts no longer punctuator. -/
lemma not_isLexeme_symbol_append {c d : Char} (more : List Char) (hname : isNameChar c = false)
    (hpoint : c ≠ '.') (hpunctuator : ∀ s ∈ punctuators, ¬ [c, d] <+: s.toList)
    (hcomment : c = '/' → d ≠ '/' ∧ d ≠ '*') : isLexeme (c :: d :: more) = false := by
  have hdigit : c.isDigit = false := by
    rw [Bool.eq_false_iff]
    intro hdigit
    rw [isNameChar_of_isDigit hdigit] at hname
    cases hname
  have hother : isPunctuator (c :: d :: more) = false := by
    rw [Bool.eq_false_iff, Ne, isPunctuator_iff]
    rintro ⟨s, hs, hsame⟩
    exact hpunctuator s hs ⟨more, hsame.symm⟩
  have hremark : isComment (c :: d :: more) = false := by
    rw [isComment]
    · rintro _ ⟨⟩
      exact (hcomment rfl).1 rfl
    · rintro _ ⟨⟩
      exact (hcomment rfl).2 rfl
  rw [isLexeme, hother, hremark, isNumber_of_ne hpoint, hdigit, isName, hname]
  rfl

lemma length_symbols : ∀ a ∈ symbols, a.toList.length = 1 := by decide

lemma all_symbols : ∀ a ∈ symbols,
    a.toList.all fun c => !isNameChar c && c != '.' && !c.isWhitespace := by
  decide

/-- A symbol is one character that neither belongs to a word nor is a point or a blank. -/
lemma exists_char_of_mem_symbols {a : String} (ha : a ∈ symbols) :
    ∃ c, a.toList = [c] ∧ isNameChar c = false ∧ c ≠ '.' ∧ c.isWhitespace = false := by
  obtain ⟨c, hc⟩ := List.length_eq_one_iff.mp (length_symbols a ha)
  exact ⟨c, hc, by simpa [hc, and_assoc] using all_symbols a ha⟩

lemma lexeme_symbols : ∀ a ∈ symbols,
    isComment a.toList = false ∧ isLexeme a.toList = true := by
  decide

/-- No symbol grows together with the word that follows it. -/
lemma symbols_before_words : ∀ a ∈ symbols, ∀ s ∈ punctuators,
    s.toList.head? = a.toList.head? → s.toList[1]?.all (!isNameChar ·) := by
  decide

/-- Of the symbols that may be neighbours, only two minus signs grow together. -/
lemma symbols_before_symbols : ∀ a ∈ symbols, ∀ b ∈ symbols,
    (a ∈ operators → b ∈ operators → b = "-") → ¬ (a = "-" ∧ b = "-") →
      (∀ s ∈ punctuators, ¬ a.toList ++ b.toList <+: s.toList) ∧
        (a.toList = ['/'] → b.toList ≠ ['/'] ∧ b.toList ≠ ['*']) := by
  decide

lemma punctuators_minuses : ∀ s ∈ punctuators, ['-', '-'] <+: s.toList → s.toList.length = 2 := by
  decide

/-- Parts that may be neighbours stay apart, except for two minus signs. -/
lemma not_isLexeme_append {a b : String} (ha : IsPart a) (hb : IsPart b) (hab : Apart a b)
    (hminus : ¬ (a = "-" ∧ b = "-")) :
    ∃ d tail, b.toList = d :: tail ∧ ∀ more, isLexeme (a.toList ++ d :: more) = false := by
  rcases ha with ha | ha
  · -- after a word comes a symbol
    have hb : b ∈ symbols := hb.resolve_left fun hb => hab.1 ⟨ha, hb⟩
    obtain ⟨d, hd, hname, hpoint, -⟩ := exists_char_of_mem_symbols hb
    exact ⟨d, [], hd, fun more => not_isLexeme_word_append ha hname hpoint⟩
  · obtain ⟨c, hc, hname, hpoint, -⟩ := exists_char_of_mem_symbols ha
    rw [hc]
    rcases hb with hb | hb
    · obtain ⟨d, tail, hd, hchar, -⟩ := exists_cons_of_isWord hb
      refine ⟨d, tail, hd, fun more => not_isLexeme_symbol_append more hname hpoint ?_ ?_⟩
      · rintro s hs ⟨rest, hrest⟩
        have hsecond := symbols_before_words a ha s hs (by simp [← hrest, hc])
        simp [← hrest, hchar] at hsecond
      · rintro -
        constructor
        all_goals
          rintro rfl
          cases hchar
    · obtain ⟨d, hd, -⟩ := exists_char_of_mem_symbols hb
      obtain ⟨hpunctuator, hcomment⟩ := symbols_before_symbols a ha b hb hab.2 hminus
      rw [hc, hd] at hpunctuator hcomment
      refine ⟨d, [], hd, fun more => not_isLexeme_symbol_append more hname hpoint hpunctuator ?_⟩
      simpa using hcomment

/-! ### Arithmetic split into tokens -/

/-- What becomes of parts whose minus signs grow together. -/
def fuseMinuses : List String → List String
  | "-" :: "-" :: rest => "--" :: fuseMinuses rest
  | a :: rest => a :: fuseMinuses rest
  | [] => []

/-- Nothing grows together exactly if no two minus signs are neighbours. -/
lemma fuseMinuses_eq_self {l : List String} :
    fuseMinuses l = l ↔ l.IsChain fun a b => ¬ (a = "-" ∧ b = "-") := by
  fun_induction fuseMinuses l with
  | case1 rest ih => simp
  | case2 a rest hpair ih =>
    rw [List.cons_inj_right, ih, List.isChain_cons]
    refine (and_iff_right ?_).symm
    intro b hb
    rintro ⟨rfl, rfl⟩
    cases rest with
    | nil => cases hb
    | cons b rest =>
      cases hb
      exact hpair rest rfl rfl
  | case3 => simp

/-- A part is a lexeme of its own. -/
lemma IsPart.exists_cons {a : String} (ha : IsPart a) :
    ∃ c w, a.toList = c :: w ∧ c.isWhitespace = false ∧ isComment (c :: w) = false ∧
      isLexeme (c :: w) = true := by
  rcases ha with ha | ha
  · obtain ⟨c, w, hsame, hc, hw⟩ := exists_cons_of_isWord ha
    have hblank : c.isWhitespace = false := by
      rw [Bool.eq_false_iff]
      intro hblank
      simp only [Char.isWhitespace, Bool.or_eq_true, decide_eq_true_eq] at hblank
      rcases hblank with ((rfl | rfl) | rfl) | rfl
      all_goals cases hc
    have hslash : c ≠ '/' := by
      rintro rfl
      cases hc
    have hpoint : c ≠ '.' := by
      rintro rfl
      cases hc
    refine ⟨c, w, hsame, hblank, isComment_of_ne hslash, ?_⟩
    rcases hw with ⟨hdigit, hw⟩ | ⟨hdigit, hw⟩
    · simp [isLexeme, isName, hc, hdigit, hw]
    · simp [isLexeme, isNumber_of_ne hpoint, hdigit, continuesNumber_digits hw]
  · obtain ⟨c, hc, -, -, hblank⟩ := exists_char_of_mem_symbols ha
    obtain ⟨hcomment, hlexeme⟩ := lexeme_symbols a ha
    rw [hc] at hcomment hlexeme
    exact ⟨c, [], hc, hblank, hcomment, hlexeme⟩

lemma IsPart.lex_append {a : String} (ha : IsPart a) {rest : List Char}
    (hrest : ∀ d ∈ rest.head?, ∀ more, isLexeme (a.toList ++ d :: more) = false) :
    lex (a.toList ++ rest) = a.toList :: lex rest := by
  obtain ⟨c, w, hsame, hblank, hcomment, hlexeme⟩ := ha.exists_cons
  rw [hsame] at hrest ⊢
  exact Code.lex_append hblank hcomment hlexeme hrest

/-- Two minus signs are one lexeme, whatever follows. -/
lemma lex_minuses (rest : List Char) : lex ('-' :: '-' :: rest) = ['-', '-'] :: lex rest := by
  have hminuses : isLexeme ['-', '-'] = true := by decide
  refine lex_append (w := ['-']) rfl (by decide) hminuses ?_
  intro d _ more
  have hpunctuator : isPunctuator ('-' :: '-' :: d :: more) = false := by
    rw [Bool.eq_false_iff, Ne, isPunctuator_iff]
    rintro ⟨s, hs, hsame⟩
    have hlonger := punctuators_minuses s hs ⟨d :: more, hsame.symm⟩
    rw [hsame] at hlonger
    simp at hlonger
  rw [List.cons_append, List.singleton_append, isLexeme, hpunctuator,
    isComment_of_ne (by decide), isNumber_of_ne (by decide), isName]
  rfl

/-- The parts of arithmetic are split as they were put together, except that neighbouring minus
signs become one token. -/
lemma lex_flatMap {l : List String} (hparts : ∀ a ∈ l, IsPart a) (hchain : l.IsChain Apart) :
    lex (l.flatMap String.toList) = (fuseMinuses l).map String.toList := by
  fun_induction fuseMinuses l with
  | case1 rest ih =>
    have hrest : ∀ a ∈ rest, IsPart a := fun a ha => hparts a (by simp [ha])
    rw [List.map_cons, ← ih hrest hchain.tail.tail, List.flatMap_cons, List.flatMap_cons]
    exact lex_minuses _
  | case2 a rest hpair ih =>
    obtain ⟨ha, hrest⟩ := List.forall_mem_cons.mp hparts
    rw [List.map_cons, ← ih hrest hchain.tail, List.flatMap_cons]
    apply ha.lex_append
    cases rest with
    | nil => simp
    | cons b rest =>
      have hminus : ¬ (a = "-" ∧ b = "-") := by
        rintro ⟨rfl, rfl⟩
        exact hpair rest rfl rfl
      obtain ⟨d, tail, hd, hend⟩ := not_isLexeme_append ha (hrest b List.mem_cons_self)
        (List.isChain_cons_cons.mp hchain).1 hminus
      intro d' hd'
      rw [List.flatMap_cons, hd] at hd'
      cases hd'
      exact hend
  | case3 => exact lex_nil

lemma tokens_eq {s : String} {l : List String} (hs : s.toList = l.flatMap String.toList)
    (hparts : ∀ a ∈ l, IsPart a) (hchain : l.IsChain Apart) : tokens s = fuseMinuses l := by
  rw [tokens, hs, lex_flatMap hparts hchain, List.map_map]
  simp [Function.comp_def]

end GridGame.Code
