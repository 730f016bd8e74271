import GridGame.Project
import GridGame.Text.Quoted
import GridGame.Text.Search

/-!
# Expectations

A project may say what its program is to contain, in which order, what it must not contain, or
which error compiling it is to end with. Checking a project compares that with what compiling it
comes to.
-/

namespace GridGame

open Toml (Value)

/-- What a project expects of its compilation. -/
structure Expectations where
  contains : List String := []
  excludes : List String := []
  error : Option String := none
deriving DecidableEq

namespace Expectations

def ofValue? (v : Value) : Option Expectations := do
  match ← v.fields? ["contains", "excludes", "error"] with
  | [contains, excludes, error] =>
    return {
      contains := ← Value.optional? [] Value.texts? contains
      excludes := ← Value.optional? [] Value.texts? excludes
      error := ← Value.optional? none (fun v => v.text?.map some) error }
  | _ => none

def parse? (text : String) : Option Expectations := (Toml.parse? text).bind ofValue?

end Expectations

/-- How a compilation differs from what was expected. -/
inductive Mismatch where
  | otherError (expected found : String)
  | unexpectedError (found : String)
  | noError (expected : String)
  | missing (fragment : String)
  | unexpected (fragment : String)
deriving DecidableEq

def Mismatch.message : Mismatch → String
  | .otherError expected found => s!"expected error containing `{expected}`, got `{found}`"
  | .unexpectedError found => s!"unexpected error: {found}"
  | .noError expected => s!"expected error containing `{expected}`, but compiled"
  | .missing fragment => "missing (or out of order): " ++ Text.quoted fragment
  | .unexpected fragment => "unexpected fragment: " ++ Text.quoted fragment

namespace Expectations

/-- The first fragment that is not found after the ones before it. -/
def firstMissing? : List String → List Char → Option String
  | [], _ => none
  | fragment :: fragments, s =>
    match Text.breakFirst? fragment.toList s with
    | some (_, rest) => firstMissing? fragments rest
    | none => some fragment

def checkProgram (e : Expectations) (program : String) : Option Mismatch :=
  match firstMissing? e.contains program.toList with
  | some fragment => some (.missing fragment)
  | none => (e.excludes.find? fun fragment => Text.occurs fragment program).map .unexpected

def check (e : Expectations) (outcome : Except ProjectError Compilation) : Option Mismatch :=
  match outcome, e.error with
  | .error error, some expected =>
    if Text.occurs expected error.line then none else some (.otherError expected error.line)
  | .error error, none => some (.unexpectedError error.line)
  | .ok _, some expected => some (.noError expected)
  | .ok compilation, none => e.checkProgram compilation.program

end Expectations

structure ExpectedProject where
  name : String
  directory : String
  expectations : Expectations

namespace Files

variable (fs : Files)

def expectationsName : String := "project.toml"

/-- Read the expectations of the project in a top directory. -/
def loadProject (name : String) : Except ProjectError ExpectedProject := do
  let directory := Path.join "." name
  let path := Path.join directory expectationsName
  let text ← (fs.read path).mapError fun error => ⟨s!"failed to read {path}", .file error⟩
  match Expectations.parse? text with
  | some expectations => return ⟨name, directory, expectations⟩
  | none => throw ⟨s!"failed to parse {path}", .notSettings⟩

/-- The projects in the top directories, in the order of their names. -/
def projects : Except ProjectError (List ExpectedProject) :=
  (fs.topDirectories.filter fun name =>
    fs.contains (Path.join (Path.join "." name) expectationsName)).mapM fs.loadProject

/-- Compile a project and compare the outcome with what is expected of it. -/
def checkProject (p : ExpectedProject) : Reported Mismatch Unit :=
  let compiled := fs.compileProject (Path.join p.directory "game.json") none
  ⟨compiled.notices, match p.expectations.check compiled.outcome with
    | some mismatch => .error mismatch
    | none => .ok ()⟩

end Files

end GridGame
