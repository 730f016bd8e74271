import GridGame.Compilation
import GridGame.Proofs.Numbering
import GridGame.Proofs.Success

/-!
# Programs that are written

The text of a generated program is made of the statements that the two sections of the program are
lowered to. Collecting declarations and placing pieces leave those statements alone.
-/

namespace GridGame

open Code

/-! ### What the steps on a setup keep -/

lemma Progress.steps_state {σ ε α : Type} {step : σ → α → Except ε (Notice × σ)} {P : σ → Prop}
    (hstep : ∀ s a notice s', step s a = .ok (notice, s') → P s → P s') {s : σ} (hs : P s)
    (l : List α) : P (steps step s l).state := by
  induction l generalizing s with
  | nil => exact hs
  | cons a l ih =>
    unfold steps
    split
    · exact hs
    · next notice s' hs' => exact ih (hstep s a notice s' hs' hs)

namespace Setup

/-- A setup with given defaults and statements. -/
def Holds (defaults : PieceDefaults) (body : String) (s : Setup) : Prop :=
  s.defaults = defaults ∧ s.body = body

variable {defaults : PieceDefaults} {body : String}

lemma Holds.declare {t : Tree} {s s' : Setup} {d : Declaration} {notice : Notice}
    (hs : Holds defaults body s) (h : declare t s d = .ok (notice, s')) :
    Holds defaults body s' := by
  cases d with
  | board name width height =>
    obtain ⟨_, -, h⟩ := except_bind_eq_ok.mp h
    split at h
    all_goals
      cases h
      exact hs
  | innerBoard name width height =>
    obtain ⟨_, -, h⟩ := except_bind_eq_ok.mp h
    cases h
    exact hs
  | piece name table =>
    obtain ⟨template, -, h⟩ := except_bind_eq_ok.mp h
    obtain ⟨catalog, -, h⟩ := except_bind_eq_ok.mp h
    cases h
    exact hs

lemma Holds.placeStart {s s' : Setup} {start : Start} {notice : Notice}
    (hs : Holds defaults body s) (h : s.placeStart start = .ok (notice, s')) :
    Holds defaults body s' := by
  obtain ⟨⟨x, y⟩, -, h⟩ := except_bind_eq_ok.mp h
  simp only [place] at h
  split at h
  · cases h
  · split at h
    · cases h
    · cases h
      exact hs

lemma Holds.andThen {p : Progress Setup SetupError} {next : Setup → Progress Setup SetupError}
    (hp : Holds defaults body p.state)
    (hnext : ∀ s, Holds defaults body s → Holds defaults body (next s).state) :
    Holds defaults body (p.andThen next).state := by
  unfold Progress.andThen
  split
  · exact hp
  · exact hnext _ hp

lemma Holds.collect (t : Tree) {s : Setup} (hs : Holds defaults body s) :
    Holds defaults body (s.collect t).state :=
  (Progress.steps_state (fun _ _ _ _ h hs => hs.declare h) hs _).andThen fun _ hs => hs

lemma Holds.placeAll {s : Setup} (hs : Holds defaults body s) :
    Holds defaults body s.placeAll.state := by
  unfold Setup.placeAll
  split_ifs
  · exact hs
  · exact (Progress.steps_state (fun _ _ _ _ h hs => hs.placeStart h) hs _).andThen fun _ hs => hs

end Setup

/-! ### The text of a program -/

namespace Progress

lemma toReported_eq_ok {σ ε : Type} {p : Progress σ ε} {s : σ} :
    p.toReported.outcome = .ok s ↔ p.failure = none ∧ p.state = s := by
  unfold toReported
  cases p.failure with
  | none => simp
  | some e => simp

end Progress

namespace Tree

/-- The games of a program, in program order. -/
def games (t : Tree) : List Nat := (t.children t.root).filter (t.kind · = .game)

/-- The nodes of the statements of the setup. -/
def setupNodes (t : Tree) : List Nat := (t.children t.root).filter (t.kind · ≠ .game)

/-- The nodes of the statements of all games. -/
def gameNodes (t : Tree) : List Nat := t.games.flatMap t.children

/-- The nodes of all statements, those of the setup first. -/
def statementNodes (t : Tree) : List Nat := t.setupNodes ++ t.gameNodes

variable {t : Tree}

lemma Finished.kind_root (h : t.Finished) : t.kind t.root = .start := by
  obtain ⟨events, ht⟩ := h
  obtain ⟨-, -, hnodes, hkind⟩ := Builder.finish_eq_ok_iff.mp ht
  rw [← hnodes] at hkind
  exact hkind

lemma outline_eq_ok {settings : Settings} {o : Outline}
    (h : (t.outline settings).outcome = .ok o) :
    o.setup.Holds settings.pieces "" ∧ o.loop = ⟨"", .rounds settings.rounds⟩ := by
  obtain ⟨-, rfl⟩ := Progress.toReported_eq_ok.mp (Reported.mapError_eq_ok.mp h)
  have hnew : Setup.Holds settings.pieces "" (.new settings.pieces) := ⟨rfl, rfl⟩
  exact ⟨hnew.collect t, rfl⟩

/-- Writing the program of an outline lowers the statements of the tree and places all pieces. -/
lemma program_eq_ok (hstart : t.kind t.root = .start) {o : Outline} {program : String}
    (h : (t.program o).outcome = .ok program) :
    ∃ sections, (t.lowerSections o.setup.defaults t.root).outcome = .ok sections ∧
      (o.append sections).placeAll.failure = none ∧
      program = opening ++ renderOutline (o.append sections).placeAll.state ++ closing := by
  obtain ⟨text, htext, h⟩ := Reported.bind_eq_ok.mp h
  obtain ⟨_, -, h⟩ := Reported.bind_eq_ok.mp h
  cases h
  simp only [emit, hstart, emitProgram, Emission.toReported] at htext
  cases hsections : (t.lowerSections o.setup.defaults t.root).outcome with
  | error f => simp [hsections] at htext
  | ok sections =>
    simp only [hsections, Outline.emit] at htext
    cases hfailure : (o.append sections).placeAll.failure with
    | some error => simp [hfailure] at htext
    | none =>
      simp only [hfailure, Except.ok.injEq] at htext
      exact ⟨sections, rfl, hfailure, htext.symm⟩

/-- A generated program is the text of an outline that has the statements of the two sections of
the tree for its code. -/
lemma generate_eq_ok (hstart : t.kind t.root = .start) {settings : Settings} {program : String}
    (h : (t.generate settings).outcome = .ok program) :
    ∃ sections setup,
      (t.lowerSections settings.pieces t.root).outcome = .ok sections ∧
      setup.body = Statement.renderAll sections.setup ∧
      program = opening ++ renderOutline
        ⟨setup, ⟨Statement.renderAll sections.game, .rounds settings.rounds⟩⟩ ++ closing := by
  obtain ⟨o, ho, h⟩ := Reported.bind_eq_ok.mp h
  obtain ⟨⟨hdefaults, hbody⟩, hloop⟩ := outline_eq_ok ho
  obtain ⟨sections, hsections, -, rfl⟩ := program_eq_ok hstart h
  have happended : (o.append sections).setup.Holds settings.pieces
      (Statement.renderAll sections.setup) :=
    ⟨hdefaults, by simp [Outline.append, Outline.appendSetup, Outline.appendGame, hbody]⟩
  obtain ⟨-, hplaced⟩ := happended.placeAll
  have hgame : (o.append sections).loop =
      ⟨Statement.renderAll sections.game, .rounds settings.rounds⟩ := by
    simp [Outline.append, Outline.appendSetup, Outline.appendGame, hloop]
  refine ⟨sections, (o.append sections).setup.placeAll.state, hdefaults ▸ hsections, hplaced, ?_⟩
  rw [← hgame]
  rfl

end Tree

end GridGame
