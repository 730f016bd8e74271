import GridGame.Notice

/-!
# Progress

Work that is done step by step stops at the first step that fails. What was done before stays
done.
-/

namespace GridGame

/-- How far some work got: the state it left behind, its notices, and why it stopped early. -/
structure Progress (σ ε : Type) where
  state : σ
  notices : List Notice
  failure : Option ε

namespace Progress

variable {σ τ ε α : Type}

/-- Work that is finished without a notice. -/
def finished (s : σ) : Progress σ ε := ⟨s, [], none⟩

/-- Take a step for each member of a list until one fails. -/
def steps (step : σ → α → Except ε (Notice × σ)) : σ → List α → Progress σ ε
  | s, [] => finished s
  | s, a :: rest =>
    match step s a with
    | .error e => ⟨s, [], some e⟩
    | .ok (notice, s') =>
      let p := steps step s' rest
      ⟨p.state, notice :: p.notices, p.failure⟩

/-- A single step. -/
def once (s : σ) (step : Except ε (Notice × σ)) : Progress σ ε :=
  match step with
  | .error e => ⟨s, [], some e⟩
  | .ok (notice, s') => ⟨s', [notice], none⟩

/-- Go on with more work, unless the work has failed. -/
def andThen (p : Progress σ ε) (next : σ → Progress σ ε) : Progress σ ε :=
  match p.failure with
  | some _ => p
  | none =>
    let q := next p.state
    ⟨q.state, p.notices ++ q.notices, q.failure⟩

/-- The same progress of a larger state. -/
def lift (f : σ → τ) (p : Progress σ ε) : Progress τ ε := ⟨f p.state, p.notices, p.failure⟩

/-- The state after work that has not failed. -/
def toReported (p : Progress σ ε) : Reported ε σ :=
  ⟨p.notices, match p.failure with
    | some e => .error e
    | none => .ok p.state⟩

end Progress

end GridGame
