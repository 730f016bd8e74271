import GridGame.Json
import Mathlib.Data.List.Chain

/-!
# Written JSON values

Every JSON value is read back from its text (`parse?_render`). A token is read back from its
spelling whatever follows it; only for a number the text must not go on with a digit, a fraction or
an exponent. No two numbers are neighbours among the tokens of a value, so they are all read back.
The value is then put together again from its tokens, container by container.
-/

namespace GridGame.Json

open Text

/-! ### Strings -/

lemma text?_map_char (s : List Char) : text? (s.map .char) = some s := by
  induction s with
  | nil => rfl
  | cons c s ih => rw [List.map_cons, text?, ih, Option.map_some]

lemma hexNumber?_control :
    ∀ n < 32, hexNumber? ['0', '0', hexChar (n / 16), hexChar (n % 16)] = some n := by
  decide

lemma scanString_escape {c c' : Char} (h : escaped? c = some c') (s : List Char) :
    scanString ('\\' :: c :: s) = (scanString s).map fun p => (.char c' :: p.1, p.2) := by
  have hu : c ≠ 'u' := by
    rintro rfl
    cases h
  rw [scanString, h]
  · cases scanString s <;> rfl
  · intro _ _ _ _ _ hc
    exact absurd hc hu

lemma scanString_written (c : Char) (s : List Char) :
    scanString (writtenChar c ++ s) = (scanString s).map fun p => (.char c :: p.1, p.2) := by
  unfold writtenChar
  split
  case h_8 hquote hslash _ _ _ _ _ =>
    split_ifs with hcontrol
    · have hcode : CodeUnit.ofCode c.toNat = .char c := by
        rw [CodeUnit.ofCode, if_neg (by omega), Char.ofNat_toNat]
      simp only [List.cons_append, List.nil_append]
      rw [scanString, hexNumber?_control _ hcontrol]
      cases scanString s with
      | none => rfl
      | some p =>
        rw [← hcode]
        rfl
    · rw [List.singleton_append, scanString, if_neg (not_or.mpr ⟨hcontrol, hslash⟩)]
      · exact hquote
      · intro _ _ _ _ _ hc
        exact absurd hc hslash
      · intro _ _ hc
        exact absurd hc hslash
  -- the other characters have an escape of one letter
  all_goals exact scanString_escape rfl s

lemma scanString_spelling (s rest : List Char) :
    scanString (s.flatMap writtenChar ++ '"' :: rest) = some (s.map .char, rest) := by
  induction s with
  | nil => rfl
  | cons c s ih =>
    rw [List.flatMap_cons, List.append_assoc, scanString_written, ih]
    rfl

/-! ### Numbers -/

/-- A number ends where this text follows it. -/
def EndsNumber (rest : List Char) : Prop :=
  ∀ c ∈ rest.head?, c ≠ '.' ∧ c ≠ 'e' ∧ c ≠ 'E' ∧ c.isDigit = false

lemma isDigit_of_mem_toDigits {n : Nat} {c : Char} (h : c ∈ Nat.toDigits 10 n) : c.isDigit :=
  Nat.isDigit_of_mem_toDigits (by decide) (by decide) h

lemma decimal_toDigits (n : Nat) : decimal (Nat.toDigits 10 n) = n := by
  have hsame : decimal (Nat.toDigits 10 n) = Nat.ofDigitChars 10 (Nat.toDigits 10 n) 0 := by
    simp only [decimal, Nat.ofDigitChars_eq_foldl, Nat.mul_comm 10]
    rfl
  rw [hsame, Nat.ofDigitChars_ten_toDigits]

lemma digitChar_ne_zero : ∀ n < 10, n ≠ 0 → n.digitChar ≠ '0' := by decide

/-- A positive number is written without a leading zero. -/
lemma exists_toDigits_eq_cons {n : Nat} (hn : n ≠ 0) :
    ∃ c digits, Nat.toDigits 10 n = c :: digits ∧ c ≠ '0' := by
  induction n using Nat.strong_induction_on with
  | h n ih =>
    rw [Nat.toDigits_eq_if (by decide)]
    split_ifs with hlt
    · exact ⟨_, [], rfl, digitChar_ne_zero n hlt hn⟩
    · obtain ⟨c, digits, hdigits, hc⟩ := ih (n / 10) (by omega) (by omega)
      exact ⟨c, digits ++ [(n % 10).digitChar], by rw [hdigits]; rfl, hc⟩

variable {rest : List Char}

lemma takeWhile_digits {digits : List Char} (hdigits : ∀ c ∈ digits, c.isDigit)
    (hrest : EndsNumber rest) : (digits ++ rest).takeWhile Char.isDigit = digits := by
  rw [List.takeWhile_append_of_pos hdigits]
  cases rest with
  | nil => simp
  | cons c rest => simp [hrest c rfl]

lemma dropWhile_digits {digits : List Char} (hdigits : ∀ c ∈ digits, c.isDigit)
    (hrest : EndsNumber rest) : (digits ++ rest).dropWhile Char.isDigit = rest := by
  rw [List.dropWhile_append_of_pos hdigits]
  cases rest with
  | nil => simp
  | cons c rest => simp [hrest c rfl]

lemma scanDigits?_toDigits (n : Nat) (hrest : EndsNumber rest) :
    scanDigits? (Nat.toDigits 10 n ++ rest) = some (Nat.toDigits 10 n, rest) := by
  by_cases hn : n = 0
  · subst hn
    rfl
  · have hdigits (c : Char) (hc : c ∈ Nat.toDigits 10 n) : c.isDigit := isDigit_of_mem_toDigits hc
    obtain ⟨c, digits, heq, hc⟩ := exists_toDigits_eq_cons hn
    rw [heq] at hdigits ⊢
    have htail (c : Char) (hc : c ∈ digits) : c.isDigit := hdigits c (List.mem_cons_of_mem _ hc)
    simp only [scanDigits?, List.cons_append]
    rw [if_neg hc, if_pos (hdigits c List.mem_cons_self), takeWhile_digits htail hrest,
      dropWhile_digits htail hrest]

lemma skipFraction?_of_endsNumber (hrest : EndsNumber rest) :
    skipFraction? rest = some (false, rest) := by
  rw [skipFraction?]
  rintro tail rfl
  exact (hrest '.' rfl).1 rfl

lemma skipExponent?_of_endsNumber (hrest : EndsNumber rest) :
    skipExponent? rest = some (false, rest) := by
  rw [skipExponent?]
  · rintro tail rfl
    exact (hrest 'e' rfl).2.1 rfl
  · rintro tail rfl
    exact (hrest 'E' rfl).2.2.1 rfl

/-- Digits are read back as their number, except for a zero with a sign. -/
lemma scanUnsigned_toDigits (negative : Bool) (n : Nat) (hrest : EndsNumber rest) :
    scanUnsigned negative (Nat.toDigits 10 n ++ rest) =
      some (if negative && n == 0 then none else some (if negative then -(n : Int) else n),
        rest) := by
  simp only [scanUnsigned, scanDigits?_toDigits n hrest, skipFraction?_of_endsNumber hrest,
    skipExponent?_of_endsNumber hrest, decimal_toDigits, Option.bind_eq_bind, Option.bind_some,
    Bool.false_or, Option.pure_def]
  split <;> rfl

lemma scanNumber_repr (v : Int) (hrest : EndsNumber rest) :
    scanNumber (v.repr.toList ++ rest) = some (some v, rest) := by
  cases v with
  | ofNat n =>
    have hrepr : (Int.ofNat n).repr.toList = Nat.toDigits 10 n := Nat.toList_repr
    rw [hrepr, scanNumber, scanUnsigned_toDigits false n hrest]
    · rfl
    · intro tail htail
      cases hdigits : Nat.toDigits 10 n with
      | nil => exact Nat.toDigits_ne_nil hdigits
      | cons c digits =>
        have hc : c.isDigit := isDigit_of_mem_toDigits (hdigits ▸ List.mem_cons_self)
        rw [hdigits] at htail
        cases htail
        cases hc
  | negSucc n =>
    have hrepr : (Int.negSucc n).repr.toList = '-' :: Nat.toDigits 10 (n + 1) := by
      simp [Int.repr]
    rw [hrepr, List.cons_append, scanNumber, scanUnsigned_toDigits true (n + 1) hrest]
    rfl

/-- A number starts with a sign or a digit. -/
lemma head_of_scanNumber {c : Char} {tail : List Char} {p : Option Int × List Char}
    (h : scanNumber (c :: tail) = some p) : c = '-' ∨ c.isDigit := by
  by_cases hc : c = '-'
  · exact .inl hc
  · rw [scanNumber, scanUnsigned, Option.bind_eq_bind, Option.bind_eq_some_iff] at h
    · obtain ⟨_, hdigits, -⟩ := h
      simp only [scanDigits?] at hdigits
      split_ifs at hdigits with hzero hdigit
      · rw [hzero]
        decide
      · exact .inr hdigit
    · rintro _ ⟨⟩
      exact hc rfl

/-! ### Tokens -/

lemma lex_of_scanString {tail : List Char} {units : List CodeUnit}
    (h : scanString tail = some (units, rest)) :
    lex ('"' :: tail) = (lex rest).map (.string ((text? units).map String.ofList) :: ·) := by
  rw [lex]
  split
  · next hnone =>
    rw [h] at hnone
    cases hnone
  · next hsome =>
    rw [h] at hsome
    cases hsome
    rfl

lemma lex_of_scanNumber {s : List Char} {value : Option Int}
    (h : scanNumber s = some (value, rest)) : lex s = (lex rest).map (.number value :: ·) := by
  rw [lex.eq_def]
  split
  case h_16 =>
    split
    · next hnone =>
      rw [h] at hnone
      cases hnone
    · next hsome =>
      rw [h] at hsome
      cases hsome
      rfl
  case h_1 => cases h
  -- no other text starts like a number
  all_goals exact absurd (head_of_scanNumber h) (by decide)

def Token.isNumber : Token → Bool
  | .number _ => true
  | _ => false

lemma spelling_string (s : String) (rest : List Char) :
    (Token.string (some s)).spelling ++ rest =
      '"' :: (s.toList.flatMap writtenChar ++ '"' :: rest) := by
  show '"' :: (s.toList.flatMap writtenChar ++ ['"']) ++ rest = _
  rw [List.cons_append, List.append_assoc, List.singleton_append]

/-- A token is read back from its spelling. -/
lemma lex_spelling (token : Token) (hrest : token.isNumber → EndsNumber rest) :
    lex (token.spelling ++ rest) = (lex rest).map (token :: ·) := by
  cases token with
  | number value =>
    apply lex_of_scanNumber
    cases value with
    | none => exact scanUnsigned_toDigits true 0 (hrest rfl)
    | some v => exact scanNumber_repr v (hrest rfl)
  | string text =>
    cases text with
    | none =>
      have hscan : scanString ('\\' :: 'u' :: 'd' :: '8' :: '0' :: '0' :: '"' :: rest) =
          some ([.half 0xd800], rest) := rfl
      exact lex_of_scanString hscan
    | some s =>
      rw [spelling_string, lex_of_scanString (scanString_spelling s.toList rest), text?_map_char,
        Option.map_some, String.ofList_toList]
  | bool value =>
    cases value with
    | false =>
      show lex ('f' :: 'a' :: 'l' :: 's' :: 'e' :: rest) = _
      rw [lex]
    | true =>
      show lex ('t' :: 'r' :: 'u' :: 'e' :: rest) = _
      rw [lex]
  | null =>
    show lex ('n' :: 'u' :: 'l' :: 'l' :: rest) = _
    rw [lex]
  | braceOpen =>
    show lex ('\x7b' :: rest) = _
    rw [lex]
  | braceClose =>
    show lex ('\x7d' :: rest) = _
    rw [lex]
  | bracketOpen =>
    show lex ('[' :: rest) = _
    rw [lex]
  | bracketClose =>
    show lex (']' :: rest) = _
    rw [lex]
  | colon =>
    show lex (':' :: rest) = _
    rw [lex]
  | comma =>
    show lex (',' :: rest) = _
    rw [lex]

/-- Only the spelling of a number goes on with one. -/
lemma endsNumber_spelling {token : Token} (htoken : token.isNumber = false) (rest : List Char) :
    EndsNumber (token.spelling ++ rest) := by
  cases token with
  | number value => cases htoken
  | string text =>
    cases text with
    | none =>
      rintro _ ⟨⟩
      decide
    | some s =>
      rw [spelling_string]
      rintro _ ⟨⟩
      decide
  | bool value =>
    cases value <;>
    · rintro _ ⟨⟩
      decide
  | _ =>
    rintro _ ⟨⟩
    decide

/-- No two numbers are neighbours. -/
def NumbersApart (tokens : List Token) : Prop :=
  tokens.IsChain fun a b => a.isNumber → b.isNumber = false

/-- Tokens are read back from their spellings, if no two numbers are neighbours. -/
lemma lex_flatMap_spelling {tokens : List Token} (h : NumbersApart tokens) :
    lex (tokens.flatMap Token.spelling) = some tokens := by
  induction tokens with
  | nil => rw [List.flatMap_nil, lex]
  | cons token tokens ih =>
    rw [List.flatMap_cons, lex_spelling, ih h.tail, Option.map_some]
    intro hnumber
    cases tokens with
    | nil =>
      rintro c ⟨⟩
    | cons next tokens =>
      rw [List.flatMap_cons]
      exact endsNumber_spelling (h.rel hnumber) _

/-! ### Values -/

/-- What holds of a container if it holds of its contents holds of every value. -/
@[elab_as_elim]
lemma contents_induction {P : Json → Prop} (null : P .null) (bool : ∀ b, P (.bool b))
    (number : ∀ v, P (.number v)) (string : ∀ s, P (.string s))
    (array : ∀ items, (∀ item ∈ items, P item) → P (.array items))
    (object : ∀ members, (∀ m ∈ members, P m.2) → P (.object members)) (v : Json) : P v := by
  refine (tokens.mutual_induct P (fun members => ∀ m ∈ members, P m.2)
    (fun items => ∀ item ∈ items, P item) null bool number string ?_ ?_ ?_ ?_ ?_ ?_ ?_ ?_).1 v
  · exact array [] (by simp)
  · intro item items hitem hitems
    exact array _ (by simpa using ⟨hitem, hitems⟩)
  · exact object [] (by simp)
  · intro name v members hv hmembers
    exact object _ (List.forall_mem_cons.mpr ⟨hv, hmembers⟩)
  · simp
  · intro item items hitem hitems
    exact List.forall_mem_cons.mpr ⟨hitem, hitems⟩
  · simp
  · intro name v members hv hmembers
    exact List.forall_mem_cons.mpr ⟨hv, hmembers⟩

lemma NumbersApart.cons {token : Token} {l : List Token} (h : NumbersApart l)
    (htoken : token.isNumber = false) : NumbersApart (token :: l) := by
  refine List.isChain_cons.mpr ⟨fun _ _ hnumber => ?_, h⟩
  rw [htoken] at hnumber
  cases hnumber

lemma NumbersApart.append {l l' : List Token} (h : NumbersApart l) (h' : NumbersApart l')
    (hhead : ∀ token ∈ l'.head?, token.isNumber = false) : NumbersApart (l ++ l') :=
  List.isChain_append.mpr ⟨h, h', fun _ _ token htoken _ => hhead token htoken⟩

lemma numbersApart_itemTokens {items : List Json} (h : ∀ item ∈ items, NumbersApart item.tokens) :
    NumbersApart (itemTokens items) ∧
      ∀ token ∈ (itemTokens items).head?, token.isNumber = false := by
  induction items with
  | nil =>
    rw [itemTokens]
    refine ⟨List.isChain_singleton _, ?_⟩
    rintro _ ⟨⟩
    rfl
  | cons item items ih =>
    obtain ⟨hitem, hitems⟩ := List.forall_mem_cons.mp h
    obtain ⟨hapart, hhead⟩ := ih hitems
    rw [itemTokens]
    refine ⟨(hitem.append hapart hhead).cons rfl, ?_⟩
    rintro _ ⟨⟩
    rfl

lemma numbersApart_memberTokens {members : List (Option String × Json)}
    (h : ∀ m ∈ members, NumbersApart m.2.tokens) :
    NumbersApart (memberTokens members) ∧
      ∀ token ∈ (memberTokens members).head?, token.isNumber = false := by
  induction members with
  | nil =>
    rw [memberTokens]
    refine ⟨List.isChain_singleton _, ?_⟩
    rintro _ ⟨⟩
    rfl
  | cons m members ih =>
    obtain ⟨name, v⟩ := m
    obtain ⟨hv, hmembers⟩ := List.forall_mem_cons.mp h
    obtain ⟨hapart, hhead⟩ := ih hmembers
    rw [memberTokens]
    refine ⟨(((hv.append hapart hhead).cons rfl).cons rfl).cons rfl, ?_⟩
    rintro _ ⟨⟩
    rfl

lemma numbersApart_tokens (v : Json) : NumbersApart v.tokens := by
  induction v using contents_induction with
  | array items ih =>
    cases items with
    | nil =>
      rw [tokens]
      exact NumbersApart.cons (List.isChain_singleton _) rfl
    | cons item items =>
      obtain ⟨hitem, hitems⟩ := List.forall_mem_cons.mp ih
      obtain ⟨hapart, hhead⟩ := numbersApart_itemTokens hitems
      rw [tokens]
      exact (hitem.append hapart hhead).cons rfl
  | object members ih =>
    cases members with
    | nil =>
      rw [tokens]
      exact NumbersApart.cons (List.isChain_singleton _) rfl
    | cons m members =>
      obtain ⟨name, v⟩ := m
      obtain ⟨hv, hmembers⟩ := List.forall_mem_cons.mp ih
      obtain ⟨hapart, hhead⟩ := numbersApart_memberTokens hmembers
      rw [tokens]
      exact (((hv.append hapart hhead).cons rfl).cons rfl).cons rfl
  | _ =>
    rw [tokens]
    exact List.isChain_singleton _

/-- From its tokens a value is read back, whatever containers are open. -/
def ReadsBack (v : Json) : Prop :=
  ∀ frames, v.tokens.foldlM readToken (.value frames) = some (.complete v frames)

/-- The first item of an array is read like any other. -/
lemma foldlM_arrayStart (v : Json) (frames : List Frame) :
    v.tokens.foldlM readToken (.arrayStart frames) =
      v.tokens.foldlM readToken (.value (.array [] :: frames)) := by
  unfold tokens
  split <;> rfl

lemma foldlM_itemTokens {items : List Json} (h : ∀ item ∈ items, ReadsBack item) (v : Json)
    (before : List Json) (frames : List Frame) :
    (itemTokens items).foldlM readToken (.complete v (.array before :: frames)) =
      some (.complete (.array (before.reverse ++ v :: items)) frames) := by
  induction items generalizing v before with
  | nil =>
    rw [itemTokens, List.append_cons, List.append_nil, ← List.reverse_cons]
    rfl
  | cons item items ih =>
    obtain ⟨hitem, hitems⟩ := List.forall_mem_cons.mp h
    have hcomma : readToken (.complete v (.array before :: frames)) .comma =
        some (.value (.array (v :: before) :: frames)) := rfl
    rw [itemTokens, List.cons_append, List.foldlM_cons, hcomma, Option.bind_eq_bind,
      Option.bind_some, List.foldlM_append, hitem, Option.bind_eq_bind, Option.bind_some, ih hitems,
      List.reverse_cons, List.append_assoc, List.singleton_append]

lemma foldlM_memberTokens {members : List (Option String × Json)}
    (h : ∀ m ∈ members, ReadsBack m.2) (name : Option String) (v : Json)
    (before : List (Option String × Json)) (frames : List Frame) :
    (memberTokens members).foldlM readToken (.complete v (.object before name :: frames)) =
      some (.complete (.object (before.reverse ++ (name, v) :: members)) frames) := by
  induction members generalizing name v before with
  | nil =>
    rw [memberTokens, List.append_cons, List.append_nil, ← List.reverse_cons]
    rfl
  | cons m members ih =>
    obtain ⟨name', v'⟩ := m
    obtain ⟨hv, hmembers⟩ := List.forall_mem_cons.mp h
    have hname : [.comma, .string name', .colon].foldlM readToken
        (.complete v (.object before name :: frames)) =
        some (.value (.object ((name, v) :: before) name' :: frames)) := rfl
    have hsplit : memberTokens ((name', v') :: members) =
        [.comma, .string name', .colon] ++ (v'.tokens ++ memberTokens members) := by
      rw [memberTokens]
      rfl
    rw [hsplit, List.foldlM_append, hname, Option.bind_eq_bind, Option.bind_some,
      List.foldlM_append, hv, Option.bind_eq_bind, Option.bind_some, ih hmembers,
      List.reverse_cons, List.append_assoc, List.singleton_append]

lemma readsBack (v : Json) : ReadsBack v := by
  induction v using contents_induction with
  | array items ih =>
    intro frames
    cases items with
    | nil =>
      rw [tokens]
      rfl
    | cons item items =>
      obtain ⟨hitem, hitems⟩ := List.forall_mem_cons.mp ih
      have hopen : readToken (.value frames) .bracketOpen = some (.arrayStart frames) := rfl
      rw [tokens, List.cons_append, List.foldlM_cons, hopen, Option.bind_eq_bind, Option.bind_some,
        List.foldlM_append, foldlM_arrayStart, hitem, Option.bind_eq_bind, Option.bind_some,
        foldlM_itemTokens hitems, List.reverse_nil, List.nil_append]
  | object members ih =>
    intro frames
    cases members with
    | nil =>
      rw [tokens]
      rfl
    | cons m members =>
      obtain ⟨name, v⟩ := m
      obtain ⟨hv, hmembers⟩ := List.forall_mem_cons.mp ih
      have hname : [.braceOpen, .string name, .colon].foldlM readToken (.value frames) =
          some (.value (.object [] name :: frames)) := rfl
      have hsplit : tokens (.object ((name, v) :: members)) =
          [.braceOpen, .string name, .colon] ++ (v.tokens ++ memberTokens members) := by
        rw [tokens]
        rfl
      rw [hsplit, List.foldlM_append, hname, Option.bind_eq_bind, Option.bind_some,
        List.foldlM_append, hv, Option.bind_eq_bind, Option.bind_some,
        foldlM_memberTokens hmembers, List.reverse_nil, List.nil_append]
  | _ =>
    intro frames
    rw [tokens]
    rfl

/-- A value is read back from its text. -/
lemma parse?_render (v : Json) : parse? v.render = some v := by
  rw [parse?, render, String.toList_ofList, lex_flatMap_spelling (numbersApart_tokens v),
    Option.bind_some, ofTokens?, readsBack]

end GridGame.Json
