import GridGame.Proofs.Accounts
import GridGame.Proofs.Starts

/-!
# Grids

A board is kept as a list of rows, and its size beside it. Taking a square looks it up in the rows.
Seen from outside it makes no difference: a board is a finite map from the squares within its size
to their occupants, whatever squares have been taken before, on it or off it
(`squares_as_finite_map`).

What one attempt to take a square does to that map is `Charts.attempt`, and `charts_attemptAll` goes
through the attempts in turn.
-/

namespace GridGame

/-- An attempt to take a square. -/
structure Taking where
  x : UInt32
  y : UInt32
  occupant : Occupant
deriving DecidableEq

/-- The occupant that takes a square last. -/
def Taking.last? (x y : UInt32) (takings : List Taking) : Option Occupant :=
  (takings.reverse.find? fun a => a.x = x ∧ a.y = y).map Taking.occupant

lemma Taking.last?_concat (x y : UInt32) (takings : List Taking) (a : Taking) :
    last? x y (takings ++ [a]) =
      if a.x = x ∧ a.y = y then some a.occupant else last? x y takings := by
  by_cases h : a.x = x ∧ a.y = y
  · simp [last?, h]
  · simp [last?, h]

namespace Board

/-- Try to take a square: the answer, and the board afterwards. -/
def attempt (b : Board) (a : Taking) : Bool × Board :=
  match b.set? a.x a.y a.occupant with
  | some b' => (true, b')
  | none => (false, b)

/-- Try to take squares in turn: the attempts that succeed, and the board afterwards. -/
def attemptAll (b : Board) (takings : List Taking) : List Taking × Board :=
  takings.foldl (fun (done, b) a =>
    (if (b.attempt a).1 then done ++ [a] else done, (b.attempt a).2))
    ([], b)

variable {b b' : Board} {x y : UInt32} {o : Occupant}

lemma contains_iff : b.contains x y ↔ x < b.width ∧ y < b.height := by
  simp [contains]

/-- The rows of a board have the squares that its size promises, and no other. -/
lemma Rectangular.exists_set?_iff (h : b.Rectangular) :
    (∃ b', b.set? x y o = some b') ↔ b.contains x y := by
  rw [contains_iff]
  constructor
  · rintro ⟨b', hset⟩
    obtain ⟨row, hrow, hx, -⟩ := set?_eq_some.mp hset
    obtain ⟨hy, -⟩ := List.getElem?_eq_some_iff.mp hrow
    rw [h.width row (List.mem_of_getElem? hrow)] at hx
    rw [h.height] at hy
    exact ⟨UInt32.lt_iff_toNat_lt.mpr hx, UInt32.lt_iff_toNat_lt.mpr hy⟩
  · rintro ⟨hx, hy⟩
    exact h.exists_set? o hx hy

/-- The squares that are taken are those with an occupant. -/
lemma Rectangular.mem_occupied_iff (h : b.Rectangular) {i j : Nat} :
    (i, j, o) ∈ b.occupied ↔
      ∃ x y : UInt32, x.toNat = i ∧ y.toNat = j ∧ b.cell? x y = some o := by
  constructor
  · intro hmem
    obtain ⟨hi, hj⟩ := h.lt_of_mem_occupied hmem
    have hx : (UInt32.ofNat i).toNat = i := UInt32.toNat_ofNat_of_lt' (hi.trans b.width.toNat_lt)
    have hy : (UInt32.ofNat j).toNat = j := UInt32.toNat_ofNat_of_lt' (hj.trans b.height.toNat_lt)
    refine ⟨.ofNat i, .ofNat j, hx, hy, mem_occupied_iff_cell?.mp ?_⟩
    rwa [hx, hy]
  · rintro ⟨x, y, rfl, rfl, hcell⟩
    exact mem_occupied_iff_cell?.mpr hcell

lemma attempt_of_contains (h : b.Rectangular) (a : Taking) (hon : b.contains a.x a.y = true) :
    ∃ b', b.set? a.x a.y a.occupant = some b' ∧ b.attempt a = (true, b') := by
  obtain ⟨b', hset⟩ := h.exists_set?_iff.mpr hon
  exact ⟨b', hset, by rw [attempt, hset]⟩

lemma attempt_of_not_contains (h : b.Rectangular) (a : Taking) (hoff : b.contains a.x a.y = false) :
    b.attempt a = (false, b) := by
  have hnone : b.set? a.x a.y a.occupant = none := by
    rw [Option.eq_none_iff_forall_ne_some]
    intro b' hset
    rw [h.exists_set?_iff.mp ⟨b', hset⟩] at hoff
    cases hoff
  rw [attempt, hnone]

/-- A board of a given name and size shows the squares that were taken. -/
structure Charts (summary : BoardSummary) (done : List Taking) (b : Board) : Prop where
  rectangular : b.Rectangular
  summary : b.summary = summary
  squares : ∀ x y, b.cell? x y = Taking.last? x y done

variable {summary : BoardSummary} {done : List Taking}

lemma charts_blank (name : String) (width height : UInt32) :
    Charts ⟨name, width, height⟩ [] (blank name width height) where
  rectangular := rectangular_blank name width height
  summary := rfl
  squares := fun _ _ => cell?_blank name width height

lemma Charts.contains (h : Charts summary done b) (x y : UInt32) :
    b.contains x y = decide (x < summary.width ∧ y < summary.height) := by
  simp [← h.summary, Board.contains, Board.summary]

/-- An attempt changes the chart by the square it is about, if that is on the board. -/
lemma Charts.attempt (h : Charts summary done b) (a : Taking) :
    (b.attempt a).1 = b.contains a.x a.y ∧
      Charts summary (if (b.attempt a).1 then done ++ [a] else done) (b.attempt a).2 := by
  cases hon : b.contains a.x a.y with
  | true =>
    obtain ⟨b', hset, hattempt⟩ := attempt_of_contains h.rectangular a hon
    rw [hattempt]
    refine ⟨rfl, h.rectangular.set? hset, (summary_of_set? hset).trans h.summary, fun x y => ?_⟩
    rw [cell?_of_set? hset, h.squares, if_pos rfl, Taking.last?_concat]
  | false =>
    rw [attempt_of_not_contains h.rectangular a hon]
    exact ⟨rfl, h⟩

lemma attemptAll_concat (b : Board) (takings : List Taking) (a : Taking) :
    b.attemptAll (takings ++ [a]) =
      (if ((b.attemptAll takings).2.attempt a).1 then (b.attemptAll takings).1 ++ [a]
        else (b.attemptAll takings).1, ((b.attemptAll takings).2.attempt a).2) := by
  rw [attemptAll, List.foldl_concat]
  rfl

/-- The attempts that succeed are those on the board, and the board shows them. -/
lemma charts_attemptAll (h : Charts summary [] b) (takings : List Taking) :
    (b.attemptAll takings).1 =
        takings.filter (fun a => a.x < summary.width ∧ a.y < summary.height) ∧
      Charts summary (b.attemptAll takings).1 (b.attemptAll takings).2 := by
  induction takings using List.reverseRecOn with
  | nil => exact ⟨rfl, h⟩
  | append_singleton takings a ih =>
    obtain ⟨hdone, hcharts⟩ := ih
    obtain ⟨hanswer, hafter⟩ := hcharts.attempt a
    rw [attemptAll_concat]
    refine ⟨?_, hafter⟩
    rw [hanswer, hcharts.contains, hdone, List.filter_append]
    by_cases hon : a.x < summary.width ∧ a.y < summary.height
    · simp [hon]
    · simp [hon]

/-- A board is a finite map. An attempt to take a square succeeds exactly if the square is on the
board, and otherwise changes nothing. A square shows the last occupant that took it, and those that
are taken are listed with their occupants, each once, by row and then by column. -/
theorem squares_as_finite_map (name : String) (width height : UInt32) (takings : List Taking) :
    ∃ done b, (blank name width height).attemptAll takings = (done, b) ∧
      done = takings.filter (fun a => b.contains a.x a.y) ∧
      (∀ x y, b.contains x y ↔ x < width ∧ y < height) ∧
      (∀ a, (b.attempt a).1 = b.contains a.x a.y ∧
        (b.contains a.x a.y = false → (b.attempt a).2 = b)) ∧
      (∀ x y, b.cell? x y = Taking.last? x y done) ∧
      (∀ i j o, (i, j, o) ∈ b.occupied ↔
        ∃ x y : UInt32, x.toNat = i ∧ y.toNat = j ∧ b.cell? x y = some o) ∧
      b.occupied.Pairwise fun c c' => c.2.1 < c'.2.1 ∨ c.2.1 = c'.2.1 ∧ c.1 < c'.1 := by
  obtain ⟨hdone, hcharts⟩ := charts_attemptAll (charts_blank name width height) takings
  generalize (blank name width height).attemptAll takings = run at hdone hcharts
  obtain ⟨done, b⟩ := run
  refine ⟨done, b, rfl, ?_, fun x y => ?_, fun a => ⟨(hcharts.attempt a).1, fun hoff => ?_⟩,
    hcharts.squares, fun i j o => hcharts.rectangular.mem_occupied_iff, sorted_occupied _⟩
  · simp only [hcharts.contains]
    exact hdone
  · rw [hcharts.contains, decide_eq_true_iff]
  · rw [attempt_of_not_contains hcharts.rectangular a hoff]

end Board

end GridGame
