import FeastCalendar.Keyed
import FeastCalendar.Text.Blank

/-!
The files at hand, and how a path leads to one of them: name by name, from the working directory or
from the root, through directories only.
-/

namespace FeastCalendar.Command

/-- The names that lead to a file or a directory from the working directory. From the root they
start with the empty name; names of the parent directory stand at the start only. -/
abbrev Place := List String

namespace Place

def step (place : Place) (name : String) : Place :=
  if name = "" || name = "." then place
  else if name = ".." then
    match place.getLast? with
    | none => [".."]
    | some last =>
      if last = "" then place else if last = ".." then place ++ [".."] else place.dropLast
  else place ++ [name]

def split (path : String) : Place × List String :=
  match Text.pieces '/' path with
  | "" :: names => ([""], names)
  | names => ([], names)

def ofPath (path : String) : Place :=
  let (start, names) := split path
  names.foldl step start

end Place

structure Files where
  texts : Keyed Place String

inductive FileFault where
  | nullCharacter
  | nameTooLong
  | notADirectory
  | directory
  | missing
deriving DecidableEq, Repr

/-- Only a fault of the path itself is put into words. -/
def FileFault.message? : FileFault → Option String
  | nullCharacter => some "embedded null byte"
  | _ => none

namespace Files

def ofEntries (entries : List (String × String)) : Files :=
  ⟨Keyed.ofEntries (entries.map fun entry => (Place.ofPath entry.1, entry.2))⟩

/-- Directories are those above the files, the root and those above the working directory. -/
def isDirectory (files : Files) (place : Place) : Bool :=
  place.all (· = "..") || place = [""] ||
    (Keyed.keys files.texts).any fun other => place.isPrefixOf other && place ≠ other

/-- The longest name and the longest path, in bytes. -/
abbrev nameLimit : Nat := 255
abbrev pathLimit : Nat := 4095

def walk (files : Files) (place : Place) (name : String) : Except FileFault Place :=
  if Keyed.contains files.texts place then .error .notADirectory
  else if !files.isDirectory place then .error .missing
  else if nameLimit < name.utf8ByteSize then .error .nameTooLong
  else .ok (place.step name)

def read (files : Files) (path : String) : Except FileFault String :=
  if path.toList.contains '\x00' then .error .nullCharacter
  else if pathLimit < path.utf8ByteSize then .error .nameTooLong
  else do
    let (start, names) := Place.split path
    let place ← names.foldlM files.walk start
    match Keyed.find? files.texts place with
    | some text => return text
    | none => throw (if files.isDirectory place then .directory else .missing)

end Files

end FeastCalendar.Command
