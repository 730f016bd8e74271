import GridGame.Project

/-!
# Commands

What the command line can ask for: to build a program and write it to a file, only to check that it
can be built, or to tell its version or how to use it. Running a command on a tree of files says
what it prints, whether it succeeds, and what the files are afterwards.
-/

namespace GridGame

inductive HelpTopic where
  | overview
  | build
  | check
deriving DecidableEq

inductive Command where
  | build (input : String) (output settings : Option String)
  | check (input : String) (settings : Option String)
  | version
  | help (topic : HelpTopic)
deriving DecidableEq

namespace Command

/-! ### Arguments -/

/-- The arguments of a command as far as they have been read. -/
structure Arguments where
  input : Option String := none
  output : Option String := none
  settings : Option String := none

/-- An option that takes a value. -/
inductive OptionName where
  | output
  | settings
deriving DecidableEq

/-- Set what may be set once. -/
def setOnce? (old : Option String) (value : String) : Option (Option String) :=
  match old with
  | none => if value = "" then none else some (some value)
  | some _ => none

namespace Arguments

def withOption? (a : Arguments) (name : OptionName) (value : String) : Option Arguments :=
  match name with
  | .output => (setOnce? a.output value).map fun output => { a with output := output }
  | .settings => (setOnce? a.settings value).map fun settings => { a with settings := settings }

def withInput? (a : Arguments) (value : String) : Option Arguments :=
  (setOnce? a.input value).map fun input => { a with input := input }

end Arguments

/-- An argument as it is written. -/
inductive Argument where
  | value (text : String)
  | option (name : OptionName) (value : Option String)
  /-- The mark after which every argument is a value. -/
  | valuesOnly
  | help

/-- What the arguments of a command come to. A request for help ends their reading. -/
inductive Reading where
  | arguments (arguments : Arguments)
  | help

/-- The value that stands in the same argument as its option, if there is one. -/
def attached? : List Char → Option (Option String)
  | [] => some none
  | '=' :: rest => some (some (String.ofList rest))
  | _ => none

/-- Read one argument; some commands have no output. -/
def readArgument? (hasOutput : Bool) (s : String) : Option Argument :=
  match s.toList with
  | '-' :: '-' :: [] => some .valuesOnly
  | '-' :: '-' :: 'h' :: 'e' :: 'l' :: 'p' :: [] => some .help
  | '-' :: 'h' :: _ => some .help
  | '-' :: '-' :: 'c' :: 'o' :: 'n' :: 'f' :: 'i' :: 'g' :: rest =>
    (attached? rest).map (.option .settings)
  | '-' :: '-' :: 'o' :: 'u' :: 't' :: 'p' :: 'u' :: 't' :: rest =>
    if hasOutput then (attached? rest).map (.option .output) else none
  | '-' :: 'o' :: [] => if hasOutput then some (.option .output none) else none
  | '-' :: 'o' :: '=' :: rest =>
    if hasOutput then some (.option .output (some (String.ofList rest))) else none
  | '-' :: 'o' :: rest =>
    if hasOutput then some (.option .output (some (String.ofList rest))) else none
  | '-' :: _ :: _ => none
  | _ => some (.value s)

/-- Read arguments of which every one is a value. -/
def readValues? (a : Arguments) (arguments : List String) : Option Arguments :=
  arguments.foldlM Arguments.withInput? a

def readArguments? (hasOutput : Bool) (a : Arguments) : List String → Option Reading
  | [] => some (.arguments a)
  | s :: rest => do
    match ← readArgument? hasOutput s with
    | .help => return .help
    | .valuesOnly => return .arguments (← readValues? a rest)
    | .value text => readArguments? hasOutput (← a.withInput? text) rest
    | .option name (some value) => readArguments? hasOutput (← a.withOption? name value) rest
    | .option name none =>
      match rest with
      | [] => none
      | value :: rest =>
        match ← readArgument? hasOutput value with
        | .value text => readArguments? hasOutput (← a.withOption? name text) rest
        | _ => none

/-- Whether an argument in place of a command asks for the version. -/
def isVersion (s : String) : Bool := s = "--version" || s.startsWith "-V"

/-- Whether an argument in place of a command asks for help. -/
def isHelp (s : String) : Bool := s = "--help" || s.startsWith "-h"

def parse? : List String → Option Command
  | "build" :: arguments => do
    match ← readArguments? true {} arguments with
    | .arguments a => return .build (← a.input) a.output a.settings
    | .help => return .help .build
  | "check" :: arguments => do
    match ← readArguments? false {} arguments with
    | .arguments a => return .check (← a.input) a.settings
    | .help => return .help .check
  | ["help"] => some (.help .overview)
  | ["help", "build"] => some (.help .build)
  | ["help", "check"] => some (.help .check)
  | s :: _ =>
    if isVersion s then some .version
    else if isHelp s then some (.help .overview)
    else none
  | [] => none

/-! ### Help -/

/-- The name and version of the program. -/
def versionLine : String := "griddyc 0.1.0"

def helpLines : HelpTopic → List String
  | .overview =>
    ["Griddy board game compiler", "", "Usage: griddyc <COMMAND>", "", "Commands:",
      "  build  Generate a C program from a parsed tree",
      "  check  Check a parsed tree for errors without writing anything",
      "  help   Print this message or the help of the given subcommand(s)", "", "Options:",
      "  -h, --help     Print help", "  -V, --version  Print version"]
  | .build =>
    ["Generate a C program from a parsed tree", "", "Usage: griddyc build [OPTIONS] <INPUT>", "",
      "Arguments:", "  <INPUT>  Parsed tree as a JSON document", "", "Options:",
      "  -o, --output <OUTPUT>  " ++
        "Where to write the program (defaults to the input with a `.c` extension)",
      "      --config <CONFIG>  Settings file (defaults to `griddy.toml` next to the input)",
      "  -h, --help             Print help"]
  | .check =>
    ["Check a parsed tree for errors without writing anything", "",
      "Usage: griddyc check [OPTIONS] <INPUT>", "", "Arguments:",
      "  <INPUT>  Parsed tree as a JSON document", "", "Options:",
      "      --config <CONFIG>  Settings file (defaults to `griddy.toml` next to the input)",
      "  -h, --help             Print help"]

/-- What is shown when the arguments ask for no command. -/
def usage : String := String.join ((helpLines .overview).map (· ++ "\n"))

/-! ### Reports of failures -/

/-- The lines of a cause, indented, the first after its number if it has one. -/
def indentCause (number : Option Nat) (cause : String) : String :=
  let (first, others) := match number with
    | some n => (s!"    {n}: ", "\n       ")
    | none => ("    ", "\n    ")
  first ++ String.intercalate others (cause.splitOn "\n")

/-- The causes of a failure, numbered when there are several. -/
def causesText : List String → String
  | [] => ""
  | [cause] => "\n\nCaused by:\n" ++ indentCause none cause
  | causes =>
    "\n\nCaused by:" ++ String.join (causes.zipIdx.map fun (cause, n) =>
      "\n" ++ indentCause (some n) cause)

/-- The report of a failure: its message and its causes. -/
def failureText : List String → String
  | [] => ""
  | message :: causes => "Error: " ++ message ++ causesText causes ++ "\n"

/-! ### Running -/

structure Outcome where
  /-- The lines printed to the standard output. -/
  lines : List String
  /-- The path and the text that the command set out to write, if it got that far. -/
  attempt : Option (String × String)
  /-- The text printed to the standard error output. -/
  errors : String
  succeeded : Bool
  /-- The notices given on the way. -/
  notices : List Notice
  /-- The files afterwards. -/
  files : Files

def writeFailure (path : String) (error : FileError) : ProjectError :=
  ⟨s!"failed to write {path}", .file error⟩

def summaryLines (c : Compilation) : List String :=
  (c.board.toList.map fun b =>
    s!"  Board: `{b.name}` {b.width.toNat}x{b.height.toNat}") ++
  [s!"  Pieces: {c.pieces} per player"]

def outputPath (input : String) (output : Option String) : String :=
  output.getD (Path.withExtension input "c")

/-- The paths that a command may read or write. -/
def paths : Command → List String
  | .build input output settings =>
    [input, settings.getD (Files.settingsBeside input), outputPath input output]
  | .check input settings => [input, settings.getD (Files.settingsBeside input)]
  | .version | .help _ => []

/-- Build a program and write it. -/
def runBuild (fs : Files) (input : String) (output settings : Option String) : Outcome :=
  let start := s!"Compiling {input}"
  let compiled := fs.compileProject input settings
  match compiled.outcome with
  | .error e => ⟨[start], none, failureText e.chain, false, compiled.notices, fs⟩
  | .ok c =>
    let path := outputPath input output
    let lines := start :: summaryLines c
    let attempt := some (path, c.program)
    match fs.write path c.program with
    | .error e =>
      ⟨lines, attempt, failureText (writeFailure path e).chain, false, compiled.notices, fs⟩
    | .ok fs' => ⟨lines, attempt, "", true, compiled.notices, fs'⟩

def successLines (c : Compilation) : List String :=
  ["    ✓ Structure collected", "    ✓ Names resolved",
    s!"    ✓ {c.program.utf8ByteSize} bytes of C generated", "Success: No errors found"]

def runCheck (fs : Files) (input : String) (settings : Option String) : Outcome :=
  let start := s!"Checking {input}"
  let loaded := fs.loadSettings input settings
  match loaded.outcome with
  | .error e => ⟨[start], none, failureText e.chain, false, loaded.notices, fs⟩
  | .ok settings =>
    let compiled := fs.compile input settings
    let notices := loaded.notices ++ compiled.notices
    match compiled.outcome with
    | .ok c => ⟨start :: successLines c, none, "", true, notices, fs⟩
    | .error e =>
      let errors := s!"    ✗ {e.line}\n" ++ failureText [s!"Check failed for {input}"]
      ⟨[start], none, errors, false, notices, fs⟩

/-- Print lines and do nothing else. -/
def runPrint (fs : Files) (lines : List String) : Outcome := ⟨lines, none, "", true, [], fs⟩

def run (fs : Files) : Command → Outcome
  | .build input output settings => runBuild fs input output settings
  | .check input settings => runCheck fs input settings
  | .version => runPrint fs [versionLine]
  | .help topic => runPrint fs (helpLines topic)

end Command

end GridGame
