import GridGame.Settings
import GridGame.Toml.Reader

/-!
# The text form of settings

Settings are given in a file of two tables, `pieces` and `game`. What is left out keeps its
default, and keys of other names are passed over.
-/

namespace GridGame

open Toml (Value)

/-- The defaults for pieces that a table gives. -/
def PieceDefaults.ofValue? (v : Value) : Option PieceDefaults := do
  let defaults : PieceDefaults := {}
  match ← v.fields? ["limit", "capture", "placeable", "can_jump"] with
  | [limit, capture, placeable, canJump] =>
    return {
      limit := ← Value.optional? defaults.limit Value.count? limit
      capture := ← Value.optional? defaults.capture Value.flag? capture
      placeable := ← Value.optional? defaults.placeable Value.flag? placeable
      canJump := ← Value.optional? defaults.canJump Value.flag? canJump }
  | _ => none

namespace Settings

/-- The number of rounds that a table gives. -/
def roundsOfValue? (v : Value) : Option UInt32 := do
  match ← v.fields? ["placeholder_rounds"] with
  | [rounds] => Value.optional? ({} : Settings).rounds Value.count? rounds
  | _ => none

def ofValue? (v : Value) : Option Settings := do
  let defaults : Settings := {}
  match ← v.fields? ["pieces", "game"] with
  | [pieces, game] =>
    return {
      pieces := ← Value.optional? defaults.pieces PieceDefaults.ofValue? pieces
      rounds := ← Value.optional? defaults.rounds roundsOfValue? game }
  | _ => none

def parse? (text : String) : Option Settings := (Toml.parse? text).bind ofValue?

end Settings

end GridGame
