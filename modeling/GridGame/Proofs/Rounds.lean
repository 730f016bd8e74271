import GridGame.Proofs.Builds
import GridGame.Proofs.PrintoutLayouts
import Mathlib.Data.Nat.SuccPred

/-!
# Rounds of a game

A game without an end of its own is a loop in the generated code that counts its rounds down. The
number of rounds is an unsigned setting and the counter a signed variable of the same size. So the
largest numbers of rounds are negative for the loop, and it ends after the first round.
-/

namespace GridGame

namespace Code

/-! ### The loop in the code -/

/-- A loop that counts its rounds down, as it is read off the code. -/
structure Countdown where
  /-- The number that the counter is initialized with, as it is written. -/
  initial : Nat
  body : String

/-- Read a loop that first runs its body, then compares its counter with 0, takes 1 away from it and
starts over if it was greater. -/
def readCountdown? (text : String) : Option Countdown := do
  let text ← (gameMarker ++ "\nint griddy_round = ").toList.isPrefixOf? text.toList
  let digits := text.takeWhile Char.isDigit
  let text ← ";\ndo \x7b\n".toList.isPrefixOf? (text.dropWhile Char.isDigit)
  let body ← "\x7d while (0 < griddy_round--);\n".toList.isSuffixOf? text
  return ⟨Nat.ofDigitChars 10 digits 0, String.ofList body⟩

lemma dropWhile_repr_append (n : Nat) {c : Char} (hc : c.isDigit = false) (rest : List Char) :
    (n.repr.toList ++ c :: rest).dropWhile Char.isDigit = c :: rest := by
  have hsplit :=
    List.takeWhile_append_dropWhile (p := Char.isDigit) (l := n.repr.toList ++ c :: rest)
  rw [takeWhile_repr_append n hc] at hsplit
  exact List.append_cancel_left hsplit

lemma readCountdown?_renderLoop (body : String) (rounds : UInt32) :
    readCountdown? (renderLoop ⟨body, .rounds rounds⟩) = some ⟨rounds.toNat, body⟩ := by
  have htext : (renderLoop ⟨body, .rounds rounds⟩).toList =
      (gameMarker ++ "\nint griddy_round = ").toList ++ (rounds.toNat.repr.toList ++
        (";\ndo \x7b\n".toList ++
          (body.toList ++ "\x7d while (0 < griddy_round--);\n".toList))) := by
    simp [renderLoop, toString]
  have hopening (rest : List Char) :
      ";\ndo \x7b\n".toList ++ rest = ';' :: ("\ndo \x7b\n".toList ++ rest) := rfl
  have hprefix {before rest : List Char} : before.isPrefixOf? (before ++ rest) = some rest :=
    List.isPrefixOf?_eq_some_iff_append_eq.mpr rfl
  have hsuffix {after rest : List Char} : after.isSuffixOf? (rest ++ after) = some rest :=
    List.isSuffixOf?_eq_some_iff_append_eq.mpr rfl
  rw [readCountdown?, htext, hprefix, Option.bind_eq_bind, Option.bind_some, hopening,
    takeWhile_repr_append _ rfl, dropWhile_repr_append _ rfl, ← hopening, hprefix, Option.bind_some,
    hsuffix, Option.bind_some, Nat.toList_repr, Nat.ofDigitChars_ten_toDigits, String.ofList_toList]
  rfl

/-! ### Playing -/

/-- The state of a running loop: its counter, a signed number of 32 bits, and the rest of the state,
which is all that a round changes. -/
structure Play (σ : Type) where
  counter : Int32
  state : σ

namespace Play

variable {σ : Type}

/-- Compare the counter with 0, and then take 1 away from it. -/
def countDown (p : Play σ) : Bool × Play σ := (0 < p.counter, { p with counter := p.counter - 1 })

/-- The round that is played next. -/
def playRound (round : σ → σ) (p : Play σ) : Play σ := { p with state := round p.state }

lemma toInt_pred {c : Int32} (h : 0 < c) : (c - 1).toInt = c.toInt - 1 := by
  have hone : (1 : Int32).toInt = 1 := rfl
  have hpos : 0 < c.toInt := Int32.lt_iff_toInt_lt.mp h
  have hlt := c.toInt_lt
  rw [Int32.toInt_sub, hone, Int.bmod_eq_of_le (by omega) (by omega)]

/-- Play rounds until the counter is not greater than 0 after one of them. -/
def run (round : σ → σ) (p : Play σ) : Play σ :=
  let test := (p.playRound round).countDown
  if _h : test.1 then run round test.2 else test.2
termination_by p.counter.toInt.toNat
decreasing_by
  have hpos : 0 < p.counter := of_decide_eq_true _h
  have hpred := toInt_pred hpos
  have hpos : 0 < p.counter.toInt := Int32.lt_iff_toInt_lt.mp hpos
  show (p.counter - 1).toInt.toNat < p.counter.toInt.toNat
  omega

/-- A round more is played than the counter says, or one if the counter is negative. -/
lemma state_run (round : σ → σ) (p : Play σ) :
    (run round p).state = round^[p.counter.toInt.toNat + 1] p.state := by
  fun_induction run round p with
  | case1 p test h ih =>
    have hpos : 0 < p.counter := of_decide_eq_true h
    have hpred := toInt_pred hpos
    have hpos : 0 < p.counter.toInt := Int32.lt_iff_toInt_lt.mp hpos
    have hcounter : p.counter.toInt.toNat = (p.counter - 1).toInt.toNat + 1 := by omega
    rw [ih, hcounter]
    rfl
  | case2 p test h =>
    have hpos : ¬ 0 < p.counter := of_decide_eq_false (Bool.not_eq_true _ |>.mp h)
    have hcounter : p.counter.toInt.toNat = 0 := by
      rw [Int32.lt_iff_toInt_lt] at hpos
      exact Int.toNat_of_nonpos (Int.not_lt.mp hpos)
    rw [hcounter]
    rfl

end Play

/-- Play a loop from a state on. A number that is too large for the counter wraps around. -/
def Countdown.play {σ : Type} (loop : Countdown) (round : σ → σ) (s : σ) : σ :=
  (Play.run round ⟨.ofNat loop.initial, s⟩).state

/-- How many rounds are played for a number of rounds that is set. -/
def roundsPlayed (rounds : UInt32) : Nat :=
  if rounds.toNat < 2147483648 then rounds.toNat + 1 else 1

lemma toNat_counter (rounds : UInt32) :
    (Int32.ofNat rounds.toNat).toInt.toNat + 1 = roundsPlayed rounds := by
  have hlt := rounds.toNat_lt
  rw [roundsPlayed, Int32.toInt_ofNat', Int.bmod]
  have hsize : Int32.size = 4294967296 := rfl
  rw [hsize]
  split <;> split <;> omega

lemma play_eq {σ : Type} (rounds : UInt32) (body : String) (round : σ → σ) (s : σ) :
    (⟨rounds.toNat, body⟩ : Countdown).play round s = round^[roundsPlayed rounds] s := by
  rw [Countdown.play, Play.state_run, toNat_counter]

/-- Counting rounds shows how many are played. -/
lemma play_eq_iff (rounds : UInt32) (body : String) (n : Nat) :
    (∀ (σ : Type) (round : σ → σ) (s : σ),
      (⟨rounds.toNat, body⟩ : Countdown).play round s = round^[n] s) ↔ roundsPlayed rounds = n := by
  constructor
  · intro h
    have hcounted := h Nat Nat.succ 0
    rwa [play_eq, Nat.succ_iterate, Nat.succ_iterate, Nat.zero_add, Nat.zero_add] at hcounted
  · rintro rfl σ round s
    exact play_eq rounds body round s

lemma roundsPlayed_eq_iff (rounds : UInt32) :
    roundsPlayed rounds = rounds.toNat + 1 ↔ rounds.toNat < 2147483648 := by
  rw [roundsPlayed]
  split <;> omega

end Code

open Code

/-- The loop that is written for a number of rounds plays one round more than that exactly if the
number is less than `2 ^ 31`. For all others it plays one round. A generated program ends with the
loop for the number from the settings. -/
theorem rounds_played_iff (body : String) (rounds : UInt32) :
    (∃ loop, readCountdown? (renderLoop ⟨body, .rounds rounds⟩) = some loop ∧ loop.body = body ∧
      ((∀ (σ : Type) (round : σ → σ) (s : σ), loop.play round s = round^[rounds.toNat + 1] s) ↔
        rounds.toNat < 2147483648) ∧
      (2147483648 ≤ rounds.toNat →
        ∀ (σ : Type) (round : σ → σ) (s : σ), loop.play round s = round s)) ∧
    ∀ (t : Tree) (settings : Settings) (program : String), t.Finished → settings.rounds = rounds →
      (t.generate settings).outcome = .ok program → ∃ before lowered,
        program = before ++ renderLoop ⟨lowered, .rounds rounds⟩ ++ closing := by
  refine ⟨⟨⟨rounds.toNat, body⟩, readCountdown?_renderLoop body rounds, rfl, ?_, ?_⟩, ?_⟩
  · rw [play_eq_iff, roundsPlayed_eq_iff]
  · intro hlarge σ round s
    rw [play_eq, roundsPlayed, if_neg (Nat.not_lt.mpr hlarge)]
    rfl
  · rintro t settings program hfinished rfl hprogram
    obtain ⟨b, rfl⟩ := Tree.exists_build_of_generate hfinished.kind_root hprogram
    refine ⟨_, _, congrArg (· ++ closing) (String.append_assoc ..).symm⟩

/-- Of three rounds, the last one is played when the counter is 0. -/
theorem rounds_played_three :
    (∃ loop, readCountdown? (renderLoop ⟨"x = 1;\n", .rounds 2⟩) = some loop ∧
      loop.play (0 :: ·) [] = [0, 0, 0]) ∧
    ∃ (t : Tree) (program before lowered : String), t.Finished ∧
      (t.generate { rounds := 2 }).outcome = .ok program ∧
      program = before ++ renderLoop ⟨lowered, .rounds 2⟩ ++ closing := by
  obtain ⟨⟨loop, hread, -, hplay, -⟩, hprogram⟩ := rounds_played_iff "x = 1;\n" 2
  obtain ⟨t, hfinished, hgenerated⟩ := Tree.exists_finished_of_check
    [.opened .start .none .detached, .closed] (fun t => (t.generate { rounds := 2 }).outcome.isOk)
    (by decide +kernel)
  obtain ⟨program, hgenerated⟩ := Tree.exists_of_isOk hgenerated
  obtain ⟨before, lowered, htext⟩ := hprogram t _ program hfinished rfl hgenerated
  exact ⟨⟨loop, hread, hplay.mpr (by decide) _ _ _⟩, t, program, before, lowered, hfinished,
    hgenerated, htext⟩

/-- For the largest number of rounds a single one is played. -/
theorem most_rounds_played_once :
    ∃ loop, readCountdown? (renderLoop ⟨"", .rounds 4294967295⟩) = some loop ∧
      loop.play Nat.succ 0 = 1 ∧ (4294967295 : UInt32).toNat + 1 = 4294967296 :=
  ⟨_, readCountdown?_renderLoop "" 4294967295, play_eq 4294967295 "" Nat.succ 0, rfl⟩

end GridGame
