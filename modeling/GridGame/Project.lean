import GridGame.Compilation
import GridGame.Document.Json
import GridGame.Files
import GridGame.Settings.Text

/-!
# Projects

Compiling a file: the tree document is read from a file, and the settings from the file that is
named for them or else from the one next to the document, if there is one.
-/

namespace GridGame

/-- What made a project fail. -/
inductive Trouble where
  | file (error : FileError)
  | notDocument
  | notSettings
  | tree (error : TreeError)
  | lowering (error : LowerError)
deriving DecidableEq

namespace Trouble

def message : Trouble → String
  | .file error => error.message
  | .notDocument => "invalid tree document: not the text of a node"
  | .notSettings => "invalid settings"
  | .tree error => "invalid tree: " ++ error.message
  | .lowering error => error.message

/-- The wording of a trouble, followed by that of its cause if it has one. -/
def chain (x : Trouble) : List String :=
  match x with
  | .tree error => [x.message, error.message]
  | _ => [x.message]

end Trouble

/-- A failure of a project: what was being done, and what made it fail. -/
structure ProjectError where
  context : String
  trouble : Trouble
deriving DecidableEq

namespace ProjectError

/-- All messages, from the outermost to the innermost. -/
def chain (e : ProjectError) : List String := e.context :: e.trouble.chain

def line (e : ProjectError) : String := String.intercalate ": " e.chain

end ProjectError

namespace Files

variable (fs : Files)

/-- The name of the settings file next to a document. -/
def settingsName : String := "griddy.toml"

def settingsBeside (input : String) : String :=
  Path.join ((Path.parent? input).getD ".") settingsName

/-- Read a file while something is being done. -/
def readFor (path : String) : Reported ProjectError String :=
  .of ((fs.read path).mapError fun error => ⟨s!"failed to read {path}", .file error⟩)

def loadSettingsFrom (path : String) : Reported ProjectError Settings := do
  let text ← fs.readFor path
  match Settings.parse? text with
  | some settings =>
    Reported.tell (.settingsLoaded path)
    return settings
  | none => Reported.fail ⟨s!"failed to parse {path}", .notSettings⟩

/-- The settings for a document: from the file that is named for them, else from the one next to
the document, else the defaults. -/
def loadSettings (input : String) (settings : Option String) : Reported ProjectError Settings :=
  match settings with
  | some path => fs.loadSettingsFrom path
  | none =>
    let candidate := settingsBeside input
    if fs.isFile candidate then fs.loadSettingsFrom candidate
    else do
      Reported.tell (.settingsAbsent input)
      return {}

end Files

def compileText (text : String) (settings : Settings) : Reported Trouble Compilation :=
  match Document.parse? text with
  | none => .fail .notDocument
  | some document =>
    match document.toTree with
    | .error error => .fail (.tree error)
    | .ok t => (t.compile settings).mapError .lowering

namespace Files

variable (fs : Files)

def compile (path : String) (settings : Settings) : Reported ProjectError Compilation := do
  Reported.tell (.compiling path)
  let text ← fs.readFor path
  (compileText text settings).mapError fun trouble => ⟨s!"failed to compile {path}", trouble⟩

/-- Compile a file with the settings that belong to it. -/
def compileProject (input : String) (settings : Option String) :
    Reported ProjectError Compilation := do
  fs.compile input (← fs.loadSettings input settings)

end Files

end GridGame
