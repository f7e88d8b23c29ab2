import GuestMachine.Interaction.Basic

/-!
# Files in memory

An interaction can be carried out on files in memory, without any effect. A path is followed one
name at a time, and each name must start from a directory. The directories are the places on the way
to a file or to home, where the paths begin that do not begin with a slash.
-/

namespace GuestMachine

/-- The place of a file or a directory: the names that lead to it from the root. -/
abbrev Place := List String

structure Files where
  home : Place := []
  contents : List (Place × ByteArray) := []

namespace Files

/-! ## Places -/

/-- The number of bytes that a name may have. -/
def nameLimit : Nat := 255

/-- The number of bytes that a path must stay below. -/
def pathLimit : Nat := 4096

def isDirectory (files : Files) (place : Place) : Bool :=
  place.isPrefixOf files.home ||
    files.contents.any fun (file, _) ↦ place ≠ file && place.isPrefixOf file

/-- Fails where there is no directory. -/
def enter (files : Files) (place : Place) : Except FileError Unit :=
  if files.isDirectory place then .ok ()
  else if (files.contents.lookup place).isSome then .error .notDirectory
  else .error .missing

/-- The place that a name leads to. Nothing need be there. -/
def step (files : Files) (place : Place) (name : String) : Except FileError Place := do
  files.enter place
  match name with
  | "." => return place
  | ".." => return place.dropLast
  | name => if name.utf8ByteSize ≤ nameLimit then return place ++ [name] else throw .nameTooLong

def names (path : String) : List String := (path.splitOn "/").filter (! ·.isEmpty)

def follow (files : Files) (path : String) (names : List String) : Except FileError Place :=
  names.foldlM files.step (if path.startsWith "/" then [] else files.home)

/-- Refuses the paths that lead nowhere whatever files there are. -/
def checkPath (path : String) : Except FileError Unit :=
  if path.isEmpty then .error .missing
  else if pathLimit ≤ path.utf8ByteSize then .error .nameTooLong
  else .ok ()

/-! ## Operations -/

def read (files : Files) (path : String) : Except FileError ByteArray := do
  checkPath path
  let place ← files.follow path (names path)
  if files.isDirectory place then throw .isDirectory
  match files.contents.lookup place with
  | none => throw .missing
  | some content => if path.endsWith "/" then throw .notDirectory else return content

/-- Replaces the content of a file. -/
def put (files : Files) (place : Place) (content : ByteArray) : Files :=
  { files with contents := (place, content) :: files.contents.filter (·.1 ≠ place) }

/-- Makes an empty file. A slash at the end of the path asks for a directory, which is refused
whatever is there. -/
def create (files : Files) (path : String) : Except FileError Files := do
  checkPath path
  if path.endsWith "/" then
    files.enter (← files.follow path (names path).dropLast)
    throw .isDirectory
  let place ← files.follow path (names path)
  if files.isDirectory place then throw .isDirectory
  return files.put place .empty

/-- Replaces the content of a file, if the path leads to a place for it. -/
def write (files : Files) (path : String) (content : String) : Files :=
  match files.follow path (names path) with
  | .ok place => files.put place content.toUTF8
  | .error _ => files

end Files

/-! ## Carrying out an interaction -/

/-- Everything that an interaction can see or change. -/
structure Surroundings where
  files : Files := {}
  output : String := ""
  errors : String := ""

/-- The exit code of an interaction and what it leaves behind. -/
def Interaction.runIn : Interaction → Surroundings → UInt8 × Surroundings
  | .exit code, surroundings => (code, surroundings)
  | .read path next, surroundings => (next (surroundings.files.read path)).runIn surroundings
  | .create path next, surroundings =>
    match surroundings.files.create path with
    | .ok files => (next (.ok ())).runIn { surroundings with files }
    | .error reason => (next (.error reason)).runIn surroundings
  | .write path content next, surroundings =>
    next.runIn { surroundings with files := surroundings.files.write path content }
  | .print text next, surroundings =>
    next.runIn { surroundings with output := surroundings.output ++ text }
  | .printError text next, surroundings =>
    next.runIn { surroundings with errors := surroundings.errors ++ text }

end GuestMachine
