/-!
# Values of settings files

What a settings file in the TOML format gives to its keys. Floats and date-times are told apart
from other values, but what they stand for is of no use here.
-/

namespace GridGame.Toml

/-- A value of a settings file. -/
inductive Value where
  | string (text : String)
  | integer (value : Int)
  | boolean (value : Bool)
  | float
  | dateTime
  | array (items : List Value)
  | table (entries : List (String × Value))

namespace Value

/-- The values of the named fields of a table. An array gives its items to the fields in order. A
date-time has none of the fields. -/
def fields? (names : List String) : Value → Option (List (Option Value))
  | .table entries => some (names.map fun name => entries.lookup name)
  | .array items => some ((List.range names.length).map fun i => items[i]?)
  | .dateTime => some (names.map fun _ => none)
  | _ => none

def count? : Value → Option UInt32
  | .integer v => if 0 ≤ v ∧ v < 4294967296 then some (UInt32.ofNat v.toNat) else none
  | _ => none

def flag? : Value → Option Bool
  | .boolean b => some b
  | _ => none

def text? : Value → Option String
  | .string s => some s
  | _ => none

def texts? : Value → Option (List String)
  | .array items => items.mapM text?
  | _ => none

/-- The value of a field that may be left out. -/
def optional? {α : Type} (default : α) (read : Value → Option α) : Option Value → Option α
  | none => some default
  | some v => read v

end Value

end GridGame.Toml
