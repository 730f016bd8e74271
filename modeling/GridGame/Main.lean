import GridGame.Command

/-!
# The command line

A command runs on the files that it mentions: they are read before it, and the program that it
makes is written after it.
-/

namespace GridGame.Main

/-- What an error of the system says about a file. -/
def fileError : IO.Error → FileError
  | .noFileOrDirectory .. => .notFound
  | .permissionDenied _ 13 _ => .denied
  | .permissionDenied _ code details | .resourceExhausted _ code details
  | .inappropriateType _ code details | .invalidArgument _ code details
  | .resourceBusy code details | .hardwareFault code details | .otherError code details =>
    .other s!"{details} (os error {code})"
  | e => .other (toString e)

def addDirectory (fs : Files) (place : Place) : Files :=
  { fs with directories := place :: fs.directories }

def addRefusal (fs : Files) (place : Place) (access : Access) (e : IO.Error) : Files :=
  { fs with refusals := ((place, access), fileError e) :: fs.refusals }

/-- Whether there is something where a path leads, also if it may not be read. -/
def isThere (path : String) : IO Bool := do
  try
    let _ ← IO.FS.realPath path
    return true
  catch _ => return false

/-- The directory that is passed last on the way along a path. -/
def lastDirectory (fs : Files) (path : String) : Place :=
  ((Path.parent? path).bind fun directory => (fs.locate directory).toOption).getD fs.working

/-- Add what there is at a place that a path leads to. Only a directory holds the name `.`. -/
def readPlace (fs : Files) (place : Place) (path : String) : IO Files := do
  if ← isThere (path ++ "/.") then return addDirectory fs place
  try return fs.put place (← IO.FS.readBinFile path)
  catch e => return addRefusal (fs.put place ByteArray.empty) place .read e

/-- Add what a path leads to, if there is anything, or that the way to it is barred. -/
def readPath (fs : Files) (path : String) : IO Files :=
  match fs.locate path with
  | .error _ => return fs
  | .ok place => do
    if ← isThere path then readPlace fs place path
    else
      try
        let _ ← IO.FS.Handle.mk path .read
        return fs
      catch
        | e@(.permissionDenied ..) => return addRefusal fs (lastDirectory fs path) .enter e
        | _ => return fs

/-- The files that a command mentions. -/
def readFiles (command : Command) : IO Files := do
  let directory := toString (← IO.currentDir)
  let fs : Files := { working := (Path.segments directory).filter (· ≠ "") }
  (command.paths.flatMap Path.leading).foldlM readPath fs

/-- A time in seconds, with two places. -/
def secondsText (milliseconds : Nat) : String :=
  let hundredths := (milliseconds + 5) / 10
  let places := hundredths % 100
  s!"{hundredths / 100}." ++ (if places < 10 then "0" else "") ++ s!"{places}s"

/-- Write the program that a command has made, and tell where it is. -/
def finish (path program : String) (started : Nat) : IO UInt32 := do
  try
    IO.FS.writeFile path program
    let elapsed := (← IO.monoMsNow) - started
    IO.println s!"  Finished {path} in {secondsText elapsed}"
    return 0
  catch e =>
    IO.eprint (Command.failureText (Command.writeFailure path (fileError e)).chain)
    return 1

/-- Run a command; the answer is the exit status. -/
def run (command : Command) : IO UInt32 := do
  let started ← IO.monoMsNow
  let outcome := command.run (← readFiles command)
  outcome.lines.forM IO.println
  for notice in outcome.notices do
    if notice.level = .warn then IO.eprintln s!"warning: {notice.message}"
  IO.eprint outcome.errors
  match outcome.succeeded, outcome.attempt with
  | true, some (path, program) => finish path program started
  | true, none => return 0
  | false, _ => return 1

end GridGame.Main

def main (arguments : List String) : IO UInt32 :=
  match GridGame.Command.parse? arguments with
  | some command => GridGame.Main.run command
  | none => do
    IO.eprint GridGame.Command.usage
    return 2
