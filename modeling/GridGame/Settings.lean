import GridGame.Piece

/-!
# Settings

What a compilation takes for granted where the program says nothing.
-/

namespace GridGame

structure Settings where
  /-- What pieces are like unless declared otherwise. -/
  pieces : PieceDefaults := {}
  /-- How many further rounds a game without an end of its own is played. -/
  rounds : UInt32 := 5
deriving DecidableEq, Inhabited

end GridGame
