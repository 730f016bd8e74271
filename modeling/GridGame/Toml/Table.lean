import GridGame.Toml.Value

/-!
# Tables of settings files

A settings file builds one table out of key-value pairs and headers. A table is explicit once a
header names it, and implicit while it only stands on the way to another. A dotted key may add to
implicit tables only, and in the end to one that dotted keys made; a header may name an implicit
table that headers made. So nothing is defined twice.
-/

namespace GridGame.Toml

/-- What stands under a key of a table that is being built. -/
inductive Item where
  | value (value : Value)
  | table (implicit dotted : Bool) (entries : List (String × Item))
  /-- The tables of an array of tables, latest first. -/
  | tables (tables : List (List (String × Item)))

/-- The keys of a table with what stands under them. -/
abbrev Entries := List (String × Item)

namespace Entries

/-- Put something else under a key that is there. -/
def replace (key : String) (item : Item) (entries : Entries) : Entries :=
  entries.map fun entry => if entry.1 == key then (key, item) else entry

/-- Put something under a new key. -/
def add (key : String) (item : Item) (entries : Entries) : Entries := entries ++ [(key, item)]

/-- Give a value to a dotted key, of which `path` is all but the last part. -/
def insertPair : List String → String → Value → Entries → Option Entries
  | [], key, v, entries =>
    match entries.lookup key with
    | none => some (add key (.value v) entries)
    | some _ => none
  | part :: path, key, v, entries =>
    match entries.lookup part with
    | none => (insertPair path key v []).map fun sub => add part (.table true true sub) entries
    | some (.table true dotted sub) =>
      if dotted || !path.isEmpty then
        (insertPair path key v sub).map fun sub => replace part (.table true dotted sub) entries
      else none
    | some (.tables (last :: others)) =>
      if path.isEmpty then none
      else
        (insertPair path key v last).map fun last => replace part (.tables (last :: others)) entries
    | _ => none

/-- Give values to dotted keys. -/
def insertPairs (pairs : List (List String × String × Value)) (entries : Entries) :
    Option Entries :=
  pairs.foldlM (fun entries (path, key, v) => insertPair path key v entries) entries

/-- Change the table that the parts of a header lead to. -/
def updateAt : List String → (Entries → Option Entries) → Entries → Option Entries
  | [], f, entries => f entries
  | part :: path, f, entries =>
    match entries.lookup part with
    | none => (updateAt path f []).map fun sub => add part (.table true false sub) entries
    | some (.table implicit dotted sub) =>
      (updateAt path f sub).map fun sub => replace part (.table implicit dotted sub) entries
    | some (.tables (last :: others)) =>
      (updateAt path f last).map fun last => replace part (.tables (last :: others)) entries
    | _ => none

/-- Define a table by a header and fill it. -/
def defineTable (key : String) (fill : Entries → Option Entries) (entries : Entries) :
    Option Entries :=
  match entries.lookup key with
  | none => (fill []).map fun body => add key (.table false false body) entries
  | some (.table true false sub) =>
    (fill sub).map fun body => replace key (.table false false body) entries
  | _ => none

/-- Add a table to an array of tables by a header and fill it. -/
def defineArrayTable (key : String) (fill : Entries → Option Entries) (entries : Entries) :
    Option Entries :=
  match entries.lookup key with
  | none => (fill []).map fun body => add key (.tables [body]) entries
  | some (.tables others) =>
    (fill []).map fun body => replace key (.tables (body :: others)) entries
  | _ => none

end Entries

mutual

def Item.finish : Item → Value
  | .value v => v
  | .table _ _ entries => .table (finishEntries entries)
  | .tables tables => .array (finishTables tables).reverse

def finishEntries : List (String × Item) → List (String × Value)
  | [] => []
  | (key, item) :: entries => (key, item.finish) :: finishEntries entries

/-- The tables of a finished array of tables, latest first. -/
def finishTables : List (List (String × Item)) → List Value
  | [] => []
  | entries :: tables => .table (finishEntries entries) :: finishTables tables

end

/-! ### Sections -/

/-- A line that names the table to which the following pairs belong. -/
inductive Header where
  | table (path : List String) (key : String)
  | arrayTable (path : List String) (key : String)

/-- A header with the pairs that follow it. -/
structure Section where
  header : Header
  pairs : List (List String × String × Value)

/-- Add a section to the table of a file. -/
def Section.addTo (entries : Entries) (s : Section) : Option Entries :=
  match s.header with
  | .table path key => entries.updateAt path (Entries.defineTable key (Entries.insertPairs s.pairs))
  | .arrayTable path key =>
    entries.updateAt path (Entries.defineArrayTable key (Entries.insertPairs s.pairs))

/-- The table of a file with these pairs and sections. -/
def assemble? (pairs : List (List String × String × Value)) (sections : List Section) :
    Option Value := do
  let entries ← Entries.insertPairs pairs []
  let entries ← sections.foldlM Section.addTo entries
  return .table (finishEntries entries)

end GridGame.Toml
