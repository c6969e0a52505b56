import FeastCalendar.Command.Run

/-!
The command line: it looks up the day and the files that the words name, runs the command and writes
its text. There is no library to draw with.
-/

namespace FeastCalendar.Command

open Civil (Date)

/-- The words that may name a file: each word, and what follows an equals sign in it. -/
def fileNames (words : List String) : List String :=
  words ++ words.filterMap fun word => match (splitEquals word).2 with
    | _ :: name => some (String.ofList name)
    | [] => none

def readNamed (names : List String) : IO Files := do
  let mut entries : List (String × String) := []
  for name in names do
    try entries := (name, ← IO.FS.readFile name) :: entries
    catch _ => pure ()
  return Files.ofEntries entries

/-- The day by the clock of the file system, which counts seconds from the start of 1970. -/
def readToday : IO Date := do
  let (_, path) ← IO.FS.createTempFile
  let seconds := (← path.metadata).modified.sec
  IO.FS.removeFile path
  match Date.ofNumber? (Civil.dayNumber 1970 1 1 + seconds / 86400) with
  | some today => return today
  | none => throw (IO.userError "no such day")

def readSurroundings (words : List String) : IO Surroundings := do
  return {
    files := ← readNamed (fileNames words)
    today := ← readToday
    refusal := fun _ => "malformed text"
    range? := none
    draw? := none }

def Outcome.report (outcome : Outcome) : IO UInt32 := do
  (← IO.getStdout).putStr outcome.output
  (← IO.getStderr).putStr outcome.errors
  match outcome.ending with
  | .status code => return UInt32.ofNat code
  | .message text => do
    (← IO.getStderr).putStrLn text
    return 1
  | .breakdown _ => return 1

end FeastCalendar.Command

def main (words : List String) : IO UInt32 := do
  (FeastCalendar.Command.run (← FeastCalendar.Command.readSurroundings words) words).report
