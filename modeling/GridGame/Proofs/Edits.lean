import GridGame.EditDistance
import Mathlib.Order.Bounds.Basic
import Mathlib.Order.MinMax

/-!
# Edits

The distance of two texts is the least number of edits that turn one into the other, where an edit
inserts, deletes or replaces a single character anywhere in the text (`distance_isLeast_edits`).

The rows of the distance are those of a table with an entry for every two beginnings of the texts
(`foldl_nextRow`). Both beginnings are listed from their ends here, since that is where a row and a
column go on. An entry can be reached by edits, as many as it says (`edits_fewest`), and a single
edit changes an entry by no more than 1 (`fewest_le_of_edit`), so no fewer edits do.
-/

namespace GridGame.EditDistance

variable {n : Nat} {c d : Char} {s s' t : List Char}

/-! ### Edits of texts -/

/-- One character is inserted, deleted or replaced. -/
inductive Edit : List Char → List Char → Prop
  | insert (before after : List Char) (c : Char) : Edit (before ++ after) (before ++ c :: after)
  | delete (before after : List Char) (c : Char) : Edit (before ++ c :: after) (before ++ after)
  | substitute (before after : List Char) (c d : Char) :
      Edit (before ++ c :: after) (before ++ d :: after)

/-- A number of edits, one after the other, turn one text into another. -/
inductive Edits : Nat → List Char → List Char → Prop
  | refl (s : List Char) : Edits 0 s s
  | step {n : Nat} {s s' t : List Char} : Edit s s' → Edits n s' t → Edits (n + 1) s t

lemma Edit.cons (c : Char) (h : Edit s s') : Edit (c :: s) (c :: s') := by
  cases h with
  | insert before after x => exact .insert (c :: before) after x
  | delete before after x => exact .delete (c :: before) after x
  | substitute before after x y => exact .substitute (c :: before) after x y

lemma Edit.reverse (h : Edit s s') : Edit s.reverse s'.reverse := by
  cases h with
  | insert before after x => simpa using Edit.insert after.reverse before.reverse x
  | delete before after x => simpa using Edit.delete after.reverse before.reverse x
  | substitute before after x y => simpa using Edit.substitute after.reverse before.reverse x y

lemma Edits.cons (c : Char) (h : Edits n s t) : Edits n (c :: s) (c :: t) := by
  induction h with
  | refl s => exact .refl (c :: s)
  | step hedit _ ih => exact .step (hedit.cons c) ih

lemma Edits.reverse (h : Edits n s t) : Edits n s.reverse t.reverse := by
  induction h with
  | refl s => exact .refl s.reverse
  | step hedit _ ih => exact .step hedit.reverse ih

lemma Edits.insert_cons (d : Char) (h : Edits n s t) : Edits (n + 1) s (d :: t) :=
  .step (.insert [] s d) (h.cons d)

lemma Edits.delete_cons (c : Char) (h : Edits n s t) : Edits (n + 1) (c :: s) t :=
  .step (.delete [] s c) h

lemma Edits.substitute_cons (c d : Char) (h : Edits n s t) : Edits (n + 1) (c :: s) (d :: t) :=
  .step (.substitute [] s c d) (h.cons d)

/-! ### The table -/

/-- What it costs to turn one character into another. -/
def cost (c d : Char) : Nat := if c = d then 0 else 1

/-- The entry of the table for two beginnings, each listed from its end. -/
def fewest : List Char → List Char → Nat
  | [], t => t.length
  | s, [] => s.length
  | c :: s, d :: t =>
    min (min (fewest s (d :: t) + 1) (fewest (c :: s) t + 1)) (fewest s t + cost c d)
termination_by s t => s.length + t.length

lemma cost_self (c : Char) : cost c c = 0 := if_pos rfl

lemma cost_le_one (c d : Char) : cost c d ≤ 1 := by
  unfold cost
  split_ifs <;> simp

@[simp] lemma fewest_nil_left (t : List Char) : fewest [] t = t.length := by rw [fewest]

@[simp] lemma fewest_nil_right (s : List Char) : fewest s [] = s.length := by
  cases s with
  | nil => rw [fewest]
  | cons c s =>
    rw [fewest]
    simp

lemma fewest_cons_cons (c d : Char) (s t : List Char) :
    fewest (c :: s) (d :: t) =
      min (min (fewest s (d :: t) + 1) (fewest (c :: s) t + 1)) (fewest s t + cost c d) := by
  rw [fewest]

/-! ### The rows of the table -/

/-- The entries of a row for the beginnings of the target that are longer than `seen`. -/
def entries (s : List Char) : List Char → List Char → List Nat
  | _, [] => []
  | seen, d :: rest => fewest s (d :: seen) :: entries s (d :: seen) rest

/-- The row for a beginning of the source, which is listed from its end. -/
def row (target s : List Char) : List Nat := fewest s [] :: entries s [] target

lemma entries_nil (seen rest : List Char) :
    entries [] seen rest = List.range' (seen.length + 1) rest.length := by
  induction rest generalizing seen with
  | nil => rfl
  | cons d rest ih => simp [entries, ih, List.range'_succ]

lemma firstRow_eq (target : List Char) : firstRow target = row target [] := by
  simp [firstRow, row, entries_nil, List.range_eq_range', List.range'_succ]

/-- When the entries up to `seen` are known in the old row and in the next one, then the next row is
filled in entry by entry. -/
lemma extendRow_entries (c : Char) (s seen rest : List Char) :
    extendRow c (fewest (c :: s) seen) (fewest s seen) rest (entries s seen rest) =
      entries (c :: s) seen rest := by
  induction rest generalizing seen with
  | nil => rfl
  | cons d rest ih =>
    simp only [entries, extendRow]
    rw [← ih (d :: seen), fewest_cons_cons]
    rfl

lemma nextRow_row (target s : List Char) (c : Char) :
    nextRow target (row target s) c = row target (c :: s) := by
  have hfirst : fewest s [] + 1 = fewest (c :: s) [] := by simp
  rw [row, nextRow, hfirst, extendRow_entries, row]

lemma foldl_nextRow (source target s : List Char) :
    source.foldl (nextRow target) (row target s) = row target (source.reverse ++ s) := by
  induction source generalizing s with
  | nil => rfl
  | cons c source ih => rw [List.foldl_cons, nextRow_row, ih, List.reverse_cons, List.append_assoc,
      List.singleton_append]

lemma getLastD_entries (s seen rest : List Char) (a : Nat) :
    (fewest s seen :: entries s seen rest).getLastD a = fewest s (rest.reverse ++ seen) := by
  induction rest generalizing seen a with
  | nil => rfl
  | cons d rest ih =>
    rw [entries, List.getLastD_cons, ih, List.reverse_cons, List.append_assoc,
      List.singleton_append]

lemma distanceChars_eq_fewest (source target : List Char) :
    distanceChars source target = fewest source.reverse target.reverse := by
  rw [distanceChars, firstRow_eq, foldl_nextRow, row, getLastD_entries, List.append_nil,
    List.append_nil]

/-! ### Entries are reached -/

lemma edits_nil_left (t : List Char) : Edits t.length [] t := by
  induction t with
  | nil => exact .refl []
  | cons d t ih => exact ih.insert_cons d

lemma edits_nil_right (s : List Char) : Edits s.length s [] := by
  induction s with
  | nil => exact .refl []
  | cons c s ih => exact ih.delete_cons c

lemma edits_cost (c d : Char) (h : Edits n s t) : Edits (n + cost c d) (c :: s) (d :: t) := by
  by_cases hcd : c = d
  · subst hcd
    rw [cost_self]
    exact h.cons c
  · rw [cost, if_neg hcd]
    exact h.substitute_cons c d

lemma edits_fewest (s t : List Char) : Edits (fewest s t) s t := by
  fun_induction fewest s t with
  | case1 t => exact edits_nil_left t
  | case2 s _ => exact edits_nil_right s
  | case3 c s d t hdelete hinsert hboth =>
    rcases min_choice (min (fewest s (d :: t) + 1) (fewest (c :: s) t + 1))
      (fewest s t + cost c d) with hmin | hmin
    · rw [hmin]
      rcases min_choice (fewest s (d :: t) + 1) (fewest (c :: s) t + 1) with hmin | hmin
      · rw [hmin]
        exact hdelete.delete_cons c
      · rw [hmin]
        exact hinsert.insert_cons d
    · rw [hmin]
      exact edits_cost c d hboth

/-! ### Entries change slowly -/

lemma fewest_delete_le (c : Char) (s t : List Char) : fewest (c :: s) t ≤ fewest s t + 1 := by
  cases t with
  | nil => simp
  | cons d t => simp [fewest_cons_cons]

lemma fewest_insert_le (d : Char) (s t : List Char) : fewest s (d :: t) ≤ fewest s t + 1 := by
  cases s with
  | nil => simp
  | cons c s => simp [fewest_cons_cons]

lemma fewest_both_le (c d : Char) (s t : List Char) :
    fewest (c :: s) (d :: t) ≤ fewest s t + cost c d := by
  simp [fewest_cons_cons]

/-- An entry follows from one of three neighbours, so a bound has to be shown for each of them. -/
lemma le_fewest_cons_cons_add_one {m : Nat} (hdelete : m ≤ fewest s (d :: t) + 1 + 1)
    (hinsert : m ≤ fewest (c :: s) t + 1 + 1) (hboth : m ≤ fewest s t + cost c d + 1) :
    m ≤ fewest (c :: s) (d :: t) + 1 := by
  rw [fewest_cons_cons, ← Nat.add_min_add_right, ← Nat.add_min_add_right]
  exact le_min (le_min hdelete hinsert) hboth

lemma fewest_le_cons (c : Char) (s t : List Char) : fewest s t ≤ fewest (c :: s) t + 1 := by
  induction t with
  | nil =>
    simp only [fewest_nil_right, List.length_cons]
    exact Nat.le_add_right s.length 2
  | cons d t ih =>
    have hinsert := fewest_insert_le d s t
    apply le_fewest_cons_cons_add_one
    · exact Nat.le_add_right _ 2
    · exact hinsert.trans (Nat.succ_le_succ ih)
    · exact hinsert.trans (Nat.succ_le_succ (Nat.le_add_right _ _))

lemma fewest_le_substitute (c c' : Char) (s t : List Char) :
    fewest (c :: s) t ≤ fewest (c' :: s) t + 1 := by
  induction t with
  | nil => simp
  | cons d t ih =>
    apply le_fewest_cons_cons_add_one
    · exact (fewest_delete_le c s (d :: t)).trans (Nat.le_succ _)
    · exact (fewest_insert_le d (c :: s) t).trans (Nat.succ_le_succ ih)
    · have hboth := fewest_both_le c d s t
      have hcost := cost_le_one c d
      omega

/-- What holds before a further character holds after it. -/
lemma fewest_cons_le_cons (c : Char) (h : ∀ t, fewest s t ≤ fewest s' t + 1) (t : List Char) :
    fewest (c :: s) t ≤ fewest (c :: s') t + 1 := by
  induction t with
  | nil => simpa using h []
  | cons d t ih =>
    apply le_fewest_cons_cons_add_one
    · exact (fewest_delete_le c s (d :: t)).trans (Nat.succ_le_succ (h (d :: t)))
    · exact (fewest_insert_le d (c :: s) t).trans (Nat.succ_le_succ ih)
    · have hboth := fewest_both_le c d s t
      have hrest := h t
      omega

lemma fewest_append_le_append (before : List Char) (h : ∀ t, fewest s t ≤ fewest s' t + 1) :
    ∀ t, fewest (before ++ s) t ≤ fewest (before ++ s') t + 1 := by
  induction before with
  | nil => exact h
  | cons c before ih => exact fewest_cons_le_cons c ih

lemma fewest_le_of_edit (h : Edit s s') (t : List Char) : fewest s t ≤ fewest s' t + 1 := by
  cases h with
  | insert before after c => exact fewest_append_le_append before (fewest_le_cons c after) t
  | delete before after c => exact fewest_append_le_append before (fewest_delete_le c after) t
  | substitute before after c d =>
    exact fewest_append_le_append before (fewest_le_substitute c d after) t

lemma fewest_self (s : List Char) : fewest s s = 0 := by
  induction s with
  | nil => simp
  | cons c s ih => simp [fewest_cons_cons, ih, cost_self]

lemma fewest_le_of_edits (h : Edits n s t) : fewest s t ≤ n := by
  induction h with
  | refl s => rw [fewest_self]
  | step hedit _ ih => exact (fewest_le_of_edit hedit _).trans (Nat.succ_le_succ ih)

/-! ### The distance -/

/-- The distance of two texts is the least number of edits that turn one into the other. -/
theorem distance_isLeast_edits (source target : String) :
    IsLeast {n | Edits n source.toList target.toList} (distance source target) := by
  rw [distance, distanceChars_eq_fewest]
  constructor
  · have hedits := (edits_fewest source.toList.reverse target.toList.reverse).reverse
    rwa [List.reverse_reverse, List.reverse_reverse] at hedits
  · intro n hn
    exact fewest_le_of_edits hn.reverse

-- what counts are characters, not bytes
example : distance "saturday" "sundäy" = 4 := by decide +kernel

end GridGame.EditDistance
