import GridGame.Proofs.Lookups
import Mathlib.Data.List.Destutter

/-!
# Names that are suggested

The names within reach are sorted by distance, repeats that stand side by side are merged, and the
first three are taken. Merging loses no name, so what is left out is at least as far away as what is
suggested (`forName_closest`).

Sorting keeps the order of names that are equally far away, and merging looks at neighbours only. So
a name can be suggested twice with another one in between, and only one of the closest names can
(`not_nodup_forName_iff`).
-/

namespace GridGame

open EditDistance

namespace Suggestion

variable {name : String} {names l l' : List String}

/-! ### Merging -/

/-- Merging repeats leaves no name next to an equal one. -/
lemma mergeRepeats_eq_destutter (l : List String) : mergeRepeats l = l.destutter (· ≠ ·) := by
  fun_induction mergeRepeats l with
  | case1 => rfl
  | case2 x => rfl
  | case3 x rest ih =>
    rw [ih, List.destutter_cons_cons, if_neg (not_not.mpr rfl), List.destutter_cons']
  | case4 x y rest hne ih => rw [ih, List.destutter_cons_cons, if_pos hne, List.destutter_cons']

lemma isChain_mergeRepeats (l : List String) : (mergeRepeats l).IsChain (· ≠ ·) := by
  rw [mergeRepeats_eq_destutter]
  exact List.isChain_destutter (· ≠ ·) l

/-- Merging repeats loses no name. -/
lemma mem_mergeRepeats {x : String} : x ∈ mergeRepeats l ↔ x ∈ l := by
  fun_induction mergeRepeats l with
  | case1 => rfl
  | case2 y => rfl
  | case3 y rest ih => simp [ih]
  | case4 y z rest hne ih => simp [ih]

/-- Names without one in common are merged apart from each other. -/
lemma mergeRepeats_append (h : l.Disjoint l') :
    mergeRepeats (l ++ l') = mergeRepeats l ++ mergeRepeats l' := by
  fun_induction mergeRepeats l with
  | case1 => rfl
  | case2 x =>
    cases l' with
    | nil => rfl
    | cons y l' =>
      have hne : x ≠ y := by
        rintro rfl
        exact h List.mem_cons_self List.mem_cons_self
      rw [List.singleton_append, mergeRepeats, if_neg hne]
      rfl
  | case3 x rest ih =>
    rw [List.cons_append, List.cons_append, mergeRepeats, if_pos rfl]
    exact ih (List.disjoint_of_disjoint_cons_left h)
  | case4 x y rest hne ih =>
    rw [List.cons_append, List.cons_append, mergeRepeats, if_neg hne, List.cons_append]
    exact congrArg (x :: ·) (ih (List.disjoint_of_disjoint_cons_left h))

/-! ### Sorting -/

/-- One name is at most as far away as another. -/
def closer (name a b : String) : Bool := distance name a ≤ distance name b

lemma closer_trans (a b c : String) (hab : closer name a b) (hbc : closer name b c) :
    closer name a c := by
  simp only [closer, decide_eq_true_eq] at *
  exact Nat.le_trans hab hbc

lemma closer_total (a b : String) : closer name a b || closer name b a := by
  simp only [closer, Bool.or_eq_true, decide_eq_true_eq]
  exact Nat.le_total ..

/-- The names within reach, in their order. -/
def within (name : String) (names : List String) : List String :=
  names.filter fun other => other != name && distance name other ≤ maxDistance

lemma candidates_eq : candidates name names = (within name names).mergeSort (closer name) := rfl

lemma sorted_candidates (name : String) (names : List String) :
    (candidates name names).Pairwise fun a b => distance name a ≤ distance name b := by
  rw [candidates_eq]
  refine (List.pairwise_mergeSort closer_trans closer_total _).imp ?_
  exact of_decide_eq_true

/-- Names within reach that come closest first keep their order. -/
lemma forName_of_sorted (h : (within name names).Pairwise fun a b => closer name a b) :
    forName name names = (mergeRepeats (within name names)).take maxCount := by
  rw [forName, candidates_eq, List.mergeSort_of_pairwise h]

/-- Names that are equally far away keep their order. -/
lemma filter_candidates (name : String) (names : List String) (d : Nat) :
    (candidates name names).filter (distance name · = d) =
      (within name names).filter (distance name · = d) := by
  have hsorted : ((within name names).filter (distance name · = d)).Pairwise
      fun a b => closer name a b := by
    refine List.pairwise_of_forall_mem_list ?_
    intro a ha b hb
    simp only [List.mem_filter, decide_eq_true_eq] at ha hb
    simp [closer, ha.2, hb.2]
  have hsublist := List.sublist_mergeSort closer_trans closer_total hsorted List.filter_sublist
  have hperm := (List.mergeSort_perm (within name names) (closer name)).filter (distance name · = d)
  have hfilter := hsublist.filter (distance name · = d)
  simp only [List.filter_filter, Bool.and_self] at hfilter
  rw [candidates_eq]
  exact (hfilter.eq_of_length hperm.length_eq.symm).symm

/-- In a sorted list, those with the least key come first. -/
lemma filter_append_filter_of_sorted {α : Type} {key : α → Nat} {d : Nat} {l : List α}
    (hsorted : l.Pairwise fun a b => key a ≤ key b) (hleast : ∀ a ∈ l, d ≤ key a) :
    l.filter (key · = d) ++ l.filter (key · ≠ d) = l := by
  induction hsorted with
  | nil => rfl
  | @cons a l hfirst _ ih =>
    obtain ⟨ha, hl⟩ := List.forall_mem_cons.mp hleast
    by_cases hkey : key a = d
    · rw [List.filter_cons_of_pos (by simpa using hkey),
        List.filter_cons_of_neg (by simpa using hkey), List.cons_append, ih hl]
    · have hfar : ∀ b ∈ a :: l, key b ≠ d := by
        intro b hb
        rcases List.mem_cons.mp hb with rfl | hb
        · exact hkey
        · have hab := hfirst b hb
          omega
      rw [List.filter_eq_nil_iff.mpr (by simpa using hfar), List.nil_append,
        List.filter_eq_self.mpr (by simpa using hfar)]

/-- Of the names within reach, the closest, in their order. -/
def closest (name : String) (names : List String) : List String :=
  (within name names).filter fun other =>
    (within name names).all fun another => distance name other ≤ distance name another

lemma mem_within {other : String} : other ∈ within name names ↔ other ∈ candidates name names := by
  rw [candidates_eq, List.mem_mergeSort]

/-- If a name within reach is closest, then all closest ones are as far away as it is. -/
lemma closest_eq_filter {nearest : String} (hnearest : nearest ∈ within name names)
    (hleast : ∀ other ∈ within name names, distance name nearest ≤ distance name other) :
    closest name names =
      (within name names).filter (distance name · = distance name nearest) := by
  refine List.filter_congr ?_
  intro other hother
  rw [Bool.eq_iff_iff, List.all_eq_true, decide_eq_true_eq]
  simp only [decide_eq_true_eq]
  constructor
  · intro h
    exact Nat.le_antisymm (h nearest hnearest) (hleast other hother)
  · intro h another hanother
    rw [h]
    exact hleast another hanother

/-- The closest names come first among the candidates, and none of them comes again later. -/
lemma exists_candidates_eq (name : String) (names : List String) :
    ∃ rest, candidates name names = closest name names ++ rest ∧
      (closest name names).Disjoint rest ∧ (closest name names = [] → rest = []) := by
  have hsorted := sorted_candidates name names
  cases hcandidates : candidates name names with
  | nil =>
    have hnone : within name names = [] := by
      rw [List.eq_nil_iff_forall_not_mem]
      intro other hother
      rw [mem_within, hcandidates] at hother
      cases hother
    exact ⟨[], by simp [closest, hnone], List.disjoint_nil_right _, fun _ => rfl⟩
  | cons nearest others =>
    have hleast : ∀ other ∈ candidates name names, distance name nearest ≤ distance name other := by
      rw [hcandidates] at hsorted ⊢
      exact List.forall_mem_cons.mpr ⟨Nat.le_refl _, (List.pairwise_cons.mp hsorted).1⟩
    have hnearest : nearest ∈ candidates name names := hcandidates ▸ List.mem_cons_self
    have hclosest : closest name names =
        (candidates name names).filter (distance name · = distance name nearest) := by
      rw [filter_candidates, closest_eq_filter (mem_within.mpr hnearest)]
      exact fun other hother => hleast other (mem_within.mp hother)
    refine ⟨(candidates name names).filter (distance name · ≠ distance name nearest), ?_, ?_, ?_⟩
    · rw [hclosest, filter_append_filter_of_sorted hsorted hleast, hcandidates]
    · intro other hother hrest
      rw [hclosest] at hother
      simp only [List.mem_filter, decide_eq_true_eq] at hother hrest
      exact hrest.2 hother.2
    · intro hnone
      rw [hclosest, List.filter_eq_nil_iff] at hnone
      exact absurd (decide_eq_true rfl) (hnone nearest hnearest)

/-! ### Taking three -/

/-- Where neighbours differ, one of the first three comes twice only if it comes first and third. -/
lemma exists_eq_of_not_nodup_take (hchain : l.IsChain (· ≠ ·)) (hrepeats : ¬ (l.take 3).Nodup) :
    ∃ x y rest, l = x :: y :: x :: rest := by
  rcases l with _ | ⟨x, _ | ⟨y, _ | ⟨z, rest⟩⟩⟩
  · simp at hrepeats
  · simp at hrepeats
  · rw [List.isChain_pair] at hchain
    simp [hchain] at hrepeats
  · rw [List.isChain_cons_cons, List.isChain_cons_cons] at hchain
    obtain ⟨hxy, hyz, -⟩ := hchain
    have hxz : x = z := by simpa [hxy, hyz] using hrepeats
    exact ⟨x, y, rest, by rw [hxz]⟩

/-- If what comes first has nothing in common with the rest, such a name comes first there twice. -/
lemma not_nodup_take_append_iff (hchain : (l ++ l').IsChain (· ≠ ·)) (hdisjoint : l.Disjoint l')
    (hnil : l = [] → l' = []) : ¬ ((l ++ l').take 3).Nodup ↔ ∃ x y, [x, y, x] <+: l := by
  constructor
  · intro hrepeats
    obtain ⟨x, y, rest, hsplit⟩ := exists_eq_of_not_nodup_take hchain hrepeats
    rcases l with _ | ⟨a, _ | ⟨b, _ | ⟨c, l⟩⟩⟩
    · rw [hnil rfl] at hsplit
      cases hsplit
    · cases hsplit
      exact absurd (List.mem_cons_of_mem _ List.mem_cons_self) (hdisjoint List.mem_cons_self)
    · cases hsplit
      exact absurd List.mem_cons_self (hdisjoint List.mem_cons_self)
    · cases hsplit
      exact ⟨x, y, l, rfl⟩
  · rintro ⟨x, y, rest, rfl⟩
    simp

/-- A name is suggested twice exactly if, of the closest names with repeats merged, the third is the
first again. -/
lemma not_nodup_forName_iff (name : String) (names : List String) :
    ¬ (forName name names).Nodup ↔ ∃ x y, [x, y, x] <+: mergeRepeats (closest name names) := by
  obtain ⟨rest, hcandidates, hdisjoint, hnil⟩ := exists_candidates_eq name names
  have hmerged : mergeRepeats (candidates name names) =
      mergeRepeats (closest name names) ++ mergeRepeats rest := by
    rw [hcandidates, mergeRepeats_append hdisjoint]
  have hchain := isChain_mergeRepeats (candidates name names)
  rw [forName, hmerged, maxCount]
  rw [hmerged] at hchain
  refine not_nodup_take_append_iff hchain ?_ ?_
  · intro other hother hrest
    exact hdisjoint (mem_mergeRepeats.mp hother) (mem_mergeRepeats.mp hrest)
  · intro hempty
    rw [mergeRepeats_eq_destutter, List.destutter_eq_nil] at hempty
    rw [hnil hempty]
    rfl

/-! ### Suggestions -/

/-- At most three names are suggested, all of them from the list, within reach, other than the name
and the closest first. If a name within reach is left out, there are three and none is farther away
than that one. -/
theorem forName_closest (name : String) (names : List String) :
    (forName name names).length ≤ 3 ∧
    (∀ other ∈ forName name names,
      other ∈ names ∧ other ≠ name ∧ distance name other ≤ 3) ∧
    ((forName name names).Pairwise fun a b => distance name a ≤ distance name b) ∧
    ∀ missed ∈ names, missed ≠ name → distance name missed ≤ 3 → missed ∉ forName name names →
      (forName name names).length = 3 ∧
        ∀ other ∈ forName name names, distance name other ≤ distance name missed := by
  have hsublist : (mergeRepeats (candidates name names)).Sublist (candidates name names) :=
    mergeRepeats_sublist _
  have hsorted := (sorted_candidates name names).sublist hsublist
  refine ⟨List.length_take_le .., ?_, hsorted.sublist (List.take_sublist ..), ?_⟩
  · intro other hother
    exact mem_candidates.mp (hsublist.mem (List.mem_of_mem_take hother))
  · intro missed hmissed hne hdistance hout
    have hmerged : missed ∈ mergeRepeats (candidates name names) :=
      mem_mergeRepeats.mpr (mem_candidates.mpr ⟨hmissed, hne, hdistance⟩)
    -- what is not among the first three comes after them
    rw [← List.take_append_drop 3 (mergeRepeats (candidates name names)),
      List.mem_append] at hmerged
    have hlater := hmerged.resolve_left hout
    refine ⟨?_, ?_⟩
    · have hlong := List.length_pos_of_mem hlater
      rw [List.length_drop] at hlong
      rw [forName, maxCount, List.length_take]
      omega
    · intro other hother
      rw [← List.take_append_drop 3 (mergeRepeats (candidates name names))] at hsorted
      exact (List.pairwise_append.mp hsorted).2.2 other hother missed hlater

/-- Of four names within reach the one that is farthest away is left out. -/
theorem forName_closest_four :
    forName "aa" ["ab", "ac", "ac", "ad", "abbb"] = ["ab", "ac", "ad"] ∧
      distance "aa" "abbb" = 3 ∧ ∀ other ∈ ["ab", "ac", "ad"], distance "aa" other ≤ 3 := by
  have hsuggested : forName "aa" ["ab", "ac", "ac", "ad", "abbb"] = ["ab", "ac", "ad"] := by
    rw [forName_of_sorted (by decide +kernel)]
    decide +kernel
  have hdistance : distance "aa" "abbb" = 3 := by decide +kernel
  obtain ⟨-, -, -, hmissed⟩ := forName_closest "aa" ["ab", "ac", "ac", "ad", "abbb"]
  obtain ⟨-, hcloser⟩ := hmissed "abbb" (by decide) (by decide) (Nat.le_of_eq hdistance)
    (by rw [hsuggested]; decide)
  rw [hsuggested, hdistance] at hcloser
  exact ⟨hsuggested, hdistance, hcloser⟩

end Suggestion

namespace Tree

open Suggestion

/-- Where a name is unbound, the suggestions are distinct unless they are one name, another and the
first again. They are so exactly if the closest of the visible names, with those merged that repeat
the one before, start in this way. -/
theorem suggestions_distinct_iff (t : Tree) (n : Nat) (name : String) (e : ResolveError)
    (hunbound : (t.require n name).outcome = .error e) :
    ∃ suggestions, e = .unbound name (t.span n) suggestions ∧
      (suggestions.Nodup ∨ ∃ x y, x ≠ y ∧ suggestions = [x, y, x]) ∧
      (suggestions.Nodup ↔
        ¬ ∃ x y, [x, y, x] <+: mergeRepeats (closest name (t.visibleNames n))) := by
  cases hbinding : t.binding? n name with
  | some a =>
    rw [require_of_binding? hbinding] at hunbound
    cases hunbound
  | none =>
    rw [require_of_unbound hbinding] at hunbound
    cases hunbound
    refine ⟨forName name (t.visibleNames n), rfl, ?_, ?_⟩
    · refine or_iff_not_imp_left.mpr ?_
      intro hrepeats
      have hchain := isChain_mergeRepeats (candidates name (t.visibleNames n))
      obtain ⟨x, y, rest, hsplit⟩ := exists_eq_of_not_nodup_take hchain hrepeats
      rw [hsplit] at hchain
      refine ⟨x, y, (List.isChain_cons_cons.mp hchain).1, ?_⟩
      rw [forName, hsplit]
      rfl
    · rw [← not_nodup_forName_iff, not_not]

/-- A program that assigns to names and then prints one it does not know. -/
def misspelled (names : List String) : List BuildEvent :=
  [.opened .start .none .detached] ++
    names.flatMap (fun name => assignmentEvents name .integer (.integer 1)) ++
    [.opened .output .none .detached, .leaf .ident (.text "aa") .detached, .closed, .closed]

/-- Repeats side by side are merged. -/
theorem suggestions_distinct_neighbours :
    ∃ (t : Tree) (suggestions : List String), t.Finished ∧
      t.visibleNames 14 = ["ab", "ab", "ac", "ac"] ∧
      (t.require 14 "aa").outcome = .error (.unbound "aa" .detached suggestions) ∧
      suggestions.Nodup := by
  obtain ⟨t, hfinished, hnames, hunbound, hspan⟩ :=
    exists_finished_of_check (misspelled ["ab", "ab", "ac", "ac"]) (fun t =>
      t.visibleNames 14 = ["ab", "ab", "ac", "ac"] ∧ t.binding? 14 "aa" = none ∧
        t.span 14 = .detached) (by decide +kernel)
  have hrequire := require_of_unbound hunbound
  obtain ⟨suggestions, he, -, hdistinct⟩ := suggestions_distinct_iff t 14 "aa" _ hrequire
  rw [he, hspan] at hrequire
  have hmerged : mergeRepeats (closest "aa" (t.visibleNames 14)) = ["ab", "ac"] := by
    rw [hnames]
    decide +kernel
  refine ⟨t, suggestions, hfinished, hnames, hrequire, hdistinct.mpr ?_⟩
  rintro ⟨x, y, hprefix⟩
  have hlength := hprefix.length_le
  rw [hmerged] at hlength
  simp at hlength

/-- A name that is assigned again after another one is suggested twice, and takes the place of a
name that is as close. -/
theorem suggestions_repeat_interleaved :
    ∃ t : Tree, t.Finished ∧
      (t.require 14 "aa").outcome = .error (.unbound "aa" .detached ["ab", "ac", "ab"]) ∧
      ¬ ["ab", "ac", "ab"].Nodup ∧ "ad" ∈ t.visibleNames 14 ∧
      distance "aa" "ad" = distance "aa" "ab" := by
  obtain ⟨t, hfinished, hnames, hunbound, hspan⟩ :=
    exists_finished_of_check (misspelled ["ab", "ac", "ab", "ad"]) (fun t =>
      t.visibleNames 14 = ["ab", "ac", "ab", "ad"] ∧ t.binding? 14 "aa" = none ∧
        t.span 14 = .detached) (by decide +kernel)
  have hsuggested : forName "aa" ["ab", "ac", "ab", "ad"] = ["ab", "ac", "ab"] := by
    rw [forName_of_sorted (by decide +kernel)]
    decide +kernel
  refine ⟨t, hfinished, ?_, by decide, ?_, by decide +kernel⟩
  · rw [require_of_unbound hunbound, hspan, hnames, hsuggested]
  · rw [hnames]
    decide

end Tree

end GridGame
