import GridGame.Expectation
import Mathlib.Data.List.Induction
import Mathlib.Order.Bounds.Basic

/-!
# Fragments in order

The fragments that a program is to contain are looked for one after the other, each from the end of
the one before it on, and the first occurrence is taken. Whatever places the fragments could have
instead, taking the first occurrence never gets in the way of the fragments that follow
(`PlacedFrom.exists_cons_iff`). So a fragment is missing only where there are no places for the
fragments up to it.

Places are counted in bytes. A fragment that is not empty can only occur where a character begins
(`OccursAt.exists_append`), so the search never stops inside a character.
-/

namespace GridGame

namespace Text

/-! ### The first occurrence -/

section breakFirst

variable {pattern s before after : List Char}

/-- What stands before the first occurrence stands before every other one as well. -/
lemma breakFirst?_eq_some (h : breakFirst? pattern s = some (before, after)) :
    s = before ++ (pattern ++ after) ∧ ∀ x y, s = x ++ (pattern ++ y) → before <+: x := by
  induction s generalizing before with
  | nil =>
    by_cases hp : pattern = []
    · simp_all [breakFirst?]
    · simp [breakFirst?, hp] at h
  | cons c rest ih =>
    by_cases hp : pattern <+: c :: rest
    · obtain ⟨z, hz⟩ := hp
      simp [breakFirst?, ← hz] at h
      obtain ⟨rfl, rfl⟩ := h
      simp [← hz]
    · have hp' : ¬ pattern.isPrefixOf (c :: rest) = true := by rwa [List.isPrefixOf_iff_prefix]
      simp only [breakFirst?, if_neg hp', Option.map_eq_some_iff, Prod.mk.injEq, Prod.exists] at h
      obtain ⟨b, a, hb, rfl, rfl⟩ := h
      obtain ⟨hrest, hleast⟩ := ih hb
      refine ⟨by rw [hrest, List.cons_append], fun x y hxy => ?_⟩
      cases x with
      | nil => exact absurd ⟨y, hxy.symm⟩ hp
      | cons d x =>
        obtain ⟨rfl, hx⟩ := List.cons.inj hxy
        exact (List.prefix_cons_inj c).mpr (hleast x y hx)

lemma breakFirst?_eq_none (h : breakFirst? pattern s = none) (x y : List Char) :
    s ≠ x ++ (pattern ++ y) := by
  induction s generalizing x with
  | nil =>
    intro hxy
    obtain ⟨-, hy⟩ := List.append_eq_nil_iff.mp hxy.symm
    simp [breakFirst?, (List.append_eq_nil_iff.mp hy).1] at h
  | cons c rest ih =>
    intro hxy
    by_cases hp : pattern.isPrefixOf (c :: rest) = true
    · simp [breakFirst?, hp] at h
    · rw [breakFirst?, if_neg hp, Option.map_eq_none_iff] at h
      cases x with
      | nil => exact hp (List.isPrefixOf_iff_prefix.mpr ⟨y, hxy.symm⟩)
      | cons d x => exact ih h x (List.cons.inj hxy).2

end breakFirst

/-! ### Occurrences at a byte -/

/-- The bytes of a fragment stand in a text from a byte on. -/
def OccursAt (fragment text : String) (p : Nat) : Prop :=
  p + fragment.utf8ByteSize ≤ text.utf8ByteSize ∧
    text.toByteArray.extract p (p + fragment.utf8ByteSize) = fragment.toByteArray

instance (fragment text : String) (p : Nat) : Decidable (OccursAt fragment text p) :=
  inferInstanceAs (Decidable (_ ∧ _))

lemma occursAt_append (x fragment y : String) :
    OccursAt fragment (x ++ (fragment ++ y)) x.utf8ByteSize := by
  refine ⟨by simp only [String.utf8ByteSize_append]; omega, ?_⟩
  have hskip := ByteArray.extract_append_size_add (a := x.toByteArray)
    (b := fragment.toByteArray ++ y.toByteArray) (i := 0) (j := fragment.toByteArray.size)
  rw [String.toByteArray_append, String.toByteArray_append, ← String.size_toByteArray,
    ← String.size_toByteArray]
  exact hskip.trans (ByteArray.extract_append_eq_left rfl)

/-- A fragment that is not empty occurs between characters only. -/
lemma OccursAt.exists_append {fragment text : String} {p : Nat} (h : OccursAt fragment text p)
    (hne : fragment ≠ "") : ∃ x y : String, text = x ++ (fragment ++ y) ∧ x.utf8ByteSize = p := by
  obtain ⟨hle, hbytes⟩ := h
  have hsize : fragment.utf8ByteSize ≠ 0 := fun h => hne (String.utf8ByteSize_eq_zero_iff.mp h)
  have hvalid : (text.toByteArray.extract p (p + fragment.utf8ByteSize)).IsValidUTF8 :=
    hbytes ▸ fragment.isValidUTF8
  obtain heq | ⟨hbegin, hend⟩ := (String.Pos.Raw.isValidUTF8_extract_iff ⟨p⟩
    ⟨p + fragment.utf8ByteSize⟩ (by simp [String.Pos.Raw.le_iff])
    (by simpa [String.Pos.Raw.le_iff] using hle)).mp hvalid
  · simp [String.Pos.Raw.ext_iff, hsize] at heq
  · refine ⟨⟨_, hbegin.isValidUTF8_extract_zero⟩, ⟨_, hend.isValidUTF8_extract_utf8ByteSize⟩,
      String.toByteArray_inj.mp ?_, ?_⟩
    · rw [String.toByteArray_append, String.toByteArray_append, ← hbytes,
        ← ByteArray.extract_eq_extract_append_extract _ (Nat.le_add_right ..) hle,
        ← ByteArray.extract_eq_extract_append_extract _ (Nat.zero_le _)
          (Nat.le_trans (Nat.le_add_right ..) hle),
        ← String.size_toByteArray, ByteArray.extract_zero_size]
    · rw [← String.size_toByteArray]
      simp
      omega

/-- Two ways to split a text: the longer first part goes on where the shorter one ends. -/
lemma exists_append_of_le {a b c d : String} (h : a ++ b = c ++ d)
    (hle : a.utf8ByteSize ≤ c.utf8ByteSize) : ∃ w, c = a ++ w ∧ b = w ++ d := by
  have hl := congrArg String.toList h
  rw [String.toList_append, String.toList_append, List.append_eq_append_iff] at hl
  obtain ⟨w, hc, hb⟩ | ⟨w, ha, hd⟩ := hl
  · exact ⟨String.ofList w, String.toList_inj.mp (by simp [hc]),
      String.toList_inj.mp (by simp [hb])⟩
  · have ha' : a = c ++ String.ofList w := String.toList_inj.mp (by simp [ha])
    have hw : String.ofList w = "" := by
      rw [ha', String.utf8ByteSize_append] at hle
      exact String.utf8ByteSize_eq_zero_iff.mp (by omega)
    refine ⟨"", by simp [ha', hw], ?_⟩
    rw [ha', hw, String.append_empty] at h
    simpa using h

/-- The bytes from a cursor on at which a fragment occurs. -/
def places (fragment text : String) (cursor : Nat) : Set Nat :=
  {p | cursor ≤ p ∧ OccursAt fragment text p}

section places

variable {read rest fragment : String} {before after : List Char}

/-- What was read up to a cursor is not needed to find a fragment from there on. -/
lemma exists_append_of_mem_places {p : Nat}
    (h : p ∈ places fragment (read ++ rest) read.utf8ByteSize) (hne : fragment ≠ "") :
    ∃ w y, rest = w ++ (fragment ++ y) ∧ p = read.utf8ByteSize + w.utf8ByteSize := by
  obtain ⟨hle, hoccurs⟩ := h
  obtain ⟨x, y, hxy, rfl⟩ := hoccurs.exists_append hne
  obtain ⟨w, rfl, hrest⟩ := exists_append_of_le hxy hle
  exact ⟨w, y, hrest, String.utf8ByteSize_append⟩

lemma eq_append_of_breakFirst?_eq_some
    (h : breakFirst? fragment.toList rest.toList = some (before, after)) :
    rest = String.ofList before ++ (fragment ++ String.ofList after) :=
  String.toList_inj.mp (by simp [(breakFirst?_eq_some h).1])

/-- The first occurrence in the characters is the first one in the bytes. -/
lemma isLeast_places_of_breakFirst?_eq_some (read : String)
    (h : breakFirst? fragment.toList rest.toList = some (before, after)) :
    IsLeast (places fragment (read ++ rest) read.utf8ByteSize)
      (read ++ String.ofList before).utf8ByteSize := by
  have hrest := eq_append_of_breakFirst?_eq_some h
  refine ⟨⟨by simp, ?_⟩, fun p hp => ?_⟩
  · rw [hrest, ← String.append_assoc]
    exact occursAt_append ..
  · by_cases hne : fragment = ""
    · -- the empty fragment is found at once, whatever the next byte is
      have hbefore := (breakFirst?_eq_some h).2 [] rest.toList (by simp [hne])
      rw [List.prefix_nil] at hbefore
      simpa [hbefore] using hp.1
    · obtain ⟨w, y, hw, rfl⟩ := exists_append_of_mem_places hp hne
      obtain ⟨v, hv⟩ := (breakFirst?_eq_some h).2 w.toList y.toList (by simp [hw])
      have : w = String.ofList before ++ String.ofList v := String.toList_inj.mp (by simp [hv])
      rw [this]
      simp

lemma places_eq_empty_of_breakFirst?_eq_none (read : String)
    (h : breakFirst? fragment.toList rest.toList = none) :
    places fragment (read ++ rest) read.utf8ByteSize = ∅ := by
  have hne : fragment ≠ "" := by
    rintro rfl
    exact breakFirst?_eq_none h [] rest.toList (by simp)
  refine Set.eq_empty_of_forall_notMem fun p hp => ?_
  obtain ⟨w, y, rfl, -⟩ := exists_append_of_mem_places hp hne
  exact breakFirst?_eq_none h w.toList y.toList (by simp)

end places

end Text

namespace Expectations

open Text

/-! ### Places for all fragments -/

/-- Fragments occur in a text at given bytes, the first one not before a cursor and every other one
not before the end of the one before it. -/
inductive PlacedFrom (text : String) : Nat → List String → List Nat → Prop
  | nil {cursor : Nat} : PlacedFrom text cursor [] []
  | cons {cursor p : Nat} {fragment : String} {fragments : List String} {ps : List Nat} :
      cursor ≤ p → OccursAt fragment text p →
      PlacedFrom text (p + fragment.utf8ByteSize) fragments ps →
      PlacedFrom text cursor (fragment :: fragments) (p :: ps)

variable {text read rest fragment : String} {fragments before after : List String}
  {cursor p : Nat} {ps : List Nat}

lemma PlacedFrom.mono (h : PlacedFrom text cursor fragments ps) (hle : p ≤ cursor) :
    PlacedFrom text p fragments ps := by
  cases h with
  | nil => exact .nil
  | cons hcursor hoccurs hrest => exact .cons (Nat.le_trans hle hcursor) hoccurs hrest

/-- If there are places for the fragments at all, then there are some with the first fragment at its
first occurrence. -/
lemma PlacedFrom.exists_cons_iff (hp : IsLeast (places fragment text cursor) p) :
    (∃ ps, PlacedFrom text cursor (fragment :: fragments) ps) ↔
      ∃ ps, PlacedFrom text (p + fragment.utf8ByteSize) fragments ps := by
  constructor
  · rintro ⟨_, hps⟩
    cases hps with
    | @cons _ q _ _ ps hcursor hoccurs hrest =>
      -- the fragment ends earlier than it does in the given places, so those of the others still do
      have hpq : p ≤ q := hp.2 ⟨hcursor, hoccurs⟩
      exact ⟨ps, hrest.mono (Nat.add_le_add_right hpq _)⟩
  · rintro ⟨ps, hps⟩
    exact ⟨p :: ps, .cons hp.1.1 hp.1.2 hps⟩

lemma PlacedFrom.not_cons (hempty : places fragment text cursor = ∅) :
    ¬ ∃ ps, PlacedFrom text cursor (fragment :: fragments) ps := by
  rintro ⟨_, hps⟩
  cases hps with
  | cons hcursor hoccurs _ => exact Set.eq_empty_iff_forall_notMem.mp hempty _ ⟨hcursor, hoccurs⟩

/-! ### Searching for all fragments -/

section firstMissing

variable {s : List Char}

lemma firstMissing?_cons_of_none (h : breakFirst? fragment.toList s = none)
    (fragments : List String) : firstMissing? (fragment :: fragments) s = some fragment := by
  rw [firstMissing?, h]

lemma firstMissing?_cons_of_some {found : List Char × List Char}
    (h : breakFirst? fragment.toList s = some found) (fragments : List String) :
    firstMissing? (fragment :: fragments) s = firstMissing? fragments found.2 := by
  rw [firstMissing?, h]

lemma firstMissing?_eq_none_of_append (h : firstMissing? (before ++ after) s = none) :
    firstMissing? before s = none := by
  induction before generalizing s with
  | nil => rfl
  | cons fragment before ih =>
    cases hbreak : breakFirst? fragment.toList s with
    | none =>
      rw [List.cons_append, firstMissing?_cons_of_none hbreak] at h
      cases h
    | some found =>
      rw [List.cons_append, firstMissing?_cons_of_some hbreak] at h
      rw [firstMissing?_cons_of_some hbreak]
      exact ih h

/-- The fragment that is missing is the first one that cannot be found after the ones before it. -/
lemma firstMissing?_eq_some_iff :
    firstMissing? fragments s = some fragment ↔
      ∃ before after, fragments = before ++ fragment :: after ∧ firstMissing? before s = none ∧
        firstMissing? (before ++ [fragment]) s ≠ none := by
  induction fragments generalizing s with
  | nil => simp [firstMissing?]
  | cons first fragments ih =>
    cases h : breakFirst? first.toList s with
    | none =>
      have hstop := firstMissing?_cons_of_none h
      rw [hstop, Option.some.injEq]
      constructor
      · rintro rfl
        exact ⟨[], fragments, rfl, rfl, by simp [hstop]⟩
      · rintro ⟨before, after, hsplit, hbefore, -⟩
        cases before with
        | nil => exact (List.cons.inj hsplit).1
        | cons g before =>
          rw [← (List.cons.inj hsplit).1, hstop] at hbefore
          cases hbefore
    | some found =>
      have hgo := firstMissing?_cons_of_some h
      rw [hgo, ih]
      constructor
      · rintro ⟨before, after, rfl, hbefore, hfragment⟩
        exact ⟨first :: before, after, rfl, by rwa [hgo], by rwa [List.cons_append, hgo]⟩
      · rintro ⟨before, after, hsplit, hbefore, hfragment⟩
        cases before with
        | nil =>
          rw [List.nil_append, ← (List.cons.inj hsplit).1, hgo] at hfragment
          exact absurd rfl hfragment
        | cons g before =>
          obtain ⟨rfl, rfl⟩ := List.cons.inj hsplit
          rw [hgo] at hbefore
          rw [List.cons_append, hgo] at hfragment
          exact ⟨before, after, rfl, hbefore, hfragment⟩

end firstMissing

/-- No fragment is missing from what is left of a text if there are places for all of them in it. -/
lemma firstMissing?_eq_none_iff (read rest : String) :
    firstMissing? fragments rest.toList = none ↔
      ∃ ps, PlacedFrom (read ++ rest) read.utf8ByteSize fragments ps := by
  induction fragments generalizing read rest with
  | nil => exact iff_of_true rfl ⟨[], .nil⟩
  | cons fragment fragments ih =>
    cases h : breakFirst? fragment.toList rest.toList with
    | none =>
      rw [firstMissing?_cons_of_none h]
      have hempty := places_eq_empty_of_breakFirst?_eq_none read h
      exact iff_of_false (Option.some_ne_none _) (PlacedFrom.not_cons hempty)
    | some found =>
      obtain ⟨skipped, left⟩ := found
      have hsplit := eq_append_of_breakFirst?_eq_some h
      have hih := ih (read ++ String.ofList skipped ++ fragment) (String.ofList left)
      rw [String.toList_ofList] at hih
      rw [PlacedFrom.exists_cons_iff (isLeast_places_of_breakFirst?_eq_some read h),
        ← String.utf8ByteSize_append, firstMissing?_cons_of_some h, hih, hsplit]
      simp only [String.append_assoc]

/-! ### The cursor -/

/-- The byte at which the search goes on once fragments were found one after the other, each at its
first occurrence. -/
inductive StandsAt (text : String) : List String → Nat → Prop
  | start : StandsAt text [] 0
  | found {fragments : List String} {fragment : String} {cursor p : Nat} :
      StandsAt text fragments cursor → IsLeast (places fragment text cursor) p →
      StandsAt text (fragments ++ [fragment]) (p + fragment.utf8ByteSize)

/-- The search goes on between two characters, with what is left of the text. -/
lemma StandsAt.exists_append (h : StandsAt text before cursor) :
    ∃ read rest, text = read ++ rest ∧ read.utf8ByteSize = cursor ∧
      ∀ after, firstMissing? (before ++ after) text.toList = firstMissing? after rest.toList := by
  induction h with
  | start => exact ⟨"", text, by simp, rfl, fun _ => rfl⟩
  | @found fragments fragment cursor p _ hp ih =>
    obtain ⟨read, rest, rfl, rfl, hgo⟩ := ih
    cases h : breakFirst? fragment.toList rest.toList with
    | none =>
      rw [places_eq_empty_of_breakFirst?_eq_none read h] at hp
      exact absurd hp.1 (Set.notMem_empty p)
    | some found =>
      obtain ⟨skipped, left⟩ := found
      refine ⟨read ++ String.ofList skipped ++ fragment, String.ofList left, ?_, ?_,
        fun after => ?_⟩
      · rw [eq_append_of_breakFirst?_eq_some h]
        simp only [String.append_assoc]
      · rw [String.utf8ByteSize_append, hp.unique (isLeast_places_of_breakFirst?_eq_some read h)]
      · rw [List.append_assoc, hgo, List.singleton_append, firstMissing?_cons_of_some h,
          String.toList_ofList]

lemma StandsAt.isValid (h : StandsAt text before cursor) :
    String.Pos.Raw.IsValid text ⟨cursor⟩ := by
  obtain ⟨read, rest, htext, rfl, -⟩ := h.exists_append
  exact String.Pos.Raw.isValid_iff_exists_append.mpr ⟨read, rest, htext, rfl⟩

lemma exists_standsAt_iff :
    (∃ cursor, StandsAt text before cursor) ↔ firstMissing? before text.toList = none := by
  constructor
  · rintro ⟨cursor, h⟩
    obtain ⟨read, rest, -, -, hgo⟩ := h.exists_append
    simpa [firstMissing?] using hgo []
  · intro h
    induction before using List.reverseRecOn with
    | nil => exact ⟨0, .start⟩
    | append_singleton before fragment ih =>
      obtain ⟨cursor, hcursor⟩ := ih (firstMissing?_eq_none_of_append h)
      obtain ⟨read, rest, rfl, rfl, hgo⟩ := hcursor.exists_append
      rw [hgo] at h
      cases hbreak : breakFirst? fragment.toList rest.toList with
      | none =>
        rw [firstMissing?_cons_of_none hbreak] at h
        cases h
      | some found =>
        exact ⟨_, .found hcursor (isLeast_places_of_breakFirst?_eq_some read hbreak)⟩

/-! ### Missing fragments -/

lemma checkProgram_eq_missing_iff {e : Expectations} {program : String} :
    e.checkProgram program = some (.missing fragment) ↔
      firstMissing? e.contains program.toList = some fragment := by
  cases h : firstMissing? e.contains program.toList <;> simp [checkProgram, h]

lemma exists_placedFrom_zero_iff :
    (∃ ps, PlacedFrom text 0 fragments ps) ↔ firstMissing? fragments text.toList = none := by
  simpa using (firstMissing?_eq_none_iff "" text).symm

/-- No fragment is reported missing exactly if there are places for all of them, one after the
other. A fragment that is reported is the first one for which there are none. Wherever the search
goes on, it does so at the beginning of a character or at the end of the program. -/
theorem fragments_in_order (e : Expectations) (program : String) :
    ((∀ fragment, e.checkProgram program ≠ some (.missing fragment)) ↔
      ∃ ps, PlacedFrom program 0 e.contains ps) ∧
    (∀ fragment, e.checkProgram program = some (.missing fragment) ↔
      ∃ before after, e.contains = before ++ fragment :: after ∧
        (∃ ps, PlacedFrom program 0 before ps) ∧
        ¬ ∃ ps, PlacedFrom program 0 (before ++ [fragment]) ps) ∧
    ∀ before after, e.contains = before ++ after →
      ((∃ cursor, StandsAt program before cursor) ↔ ∃ ps, PlacedFrom program 0 before ps) ∧
      ∀ cursor, StandsAt program before cursor →
        String.Pos.Raw.IsValid program ⟨cursor⟩ ∧
        ∃ read rest, program = read ++ rest ∧ read.utf8ByteSize = cursor ∧
          firstMissing? e.contains program.toList = firstMissing? after rest.toList := by
  refine ⟨?_, fun fragment => ?_, fun before after hsplit => ⟨?_, fun cursor hcursor => ?_⟩⟩
  · simp only [ne_eq, checkProgram_eq_missing_iff, exists_placedFrom_zero_iff,
      Option.eq_none_iff_forall_ne_some]
  · rw [checkProgram_eq_missing_iff, firstMissing?_eq_some_iff]
    simp only [exists_placedFrom_zero_iff, ne_eq]
  · rw [exists_standsAt_iff, exists_placedFrom_zero_iff]
  · obtain ⟨read, rest, htext, hsize, hgo⟩ := hcursor.exists_append
    exact ⟨hcursor.isValid, read, rest, htext, hsize, hsplit ▸ hgo after⟩

-- the `a` belongs to the first fragment already
example : checkProgram ⟨["éa", "", "aé"], [], none⟩ "éaé" = some (.missing "aé") := by
  decide +kernel

end Expectations

end GridGame
