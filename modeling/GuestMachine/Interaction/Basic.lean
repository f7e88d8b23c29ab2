/-!
# Interactions

A program as a tree: what it asks of its surroundings, and how it goes on with each answer.
-/

namespace GuestMachine

/-- Why a file could not be used. -/
inductive FileError where
  | missing
  | permissionDenied
  | notDirectory
  | isDirectory
  | nameTooLong
  /-- The path holds a NUL byte, which no file name can. -/
  | nulByte
  | other (reason : String)
  deriving DecidableEq, Repr

def FileError.message : FileError → String
  | missing => "No such file or directory (os error 2)"
  | permissionDenied => "Permission denied (os error 13)"
  | notDirectory => "Not a directory (os error 20)"
  | isDirectory => "Is a directory (os error 21)"
  | nameTooLong => "File name too long (os error 36)"
  | nulByte => "file name contained an unexpected NUL byte"
  | other reason => reason

inductive Interaction where
  | exit (code : UInt8)
  | read (path : String) (next : Except FileError ByteArray → Interaction)
  /-- Creates a file, or empties the one that is there. -/
  | create (path : String) (next : Except FileError Unit → Interaction)
  /-- Writes to a file that was created. -/
  | write (path content : String) (next : Interaction)
  | print (text : String) (next : Interaction)
  | printError (text : String) (next : Interaction)

namespace Interaction

/-- Reads a file. No file can have a NUL byte in its path, so none is asked for. -/
def readFrom (path : String) (next : Except FileError ByteArray → Interaction) : Interaction :=
  if path.toList.contains '\x00' then next (.error .nulByte) else .read path next

/-- Creates a file. No file can have a NUL byte in its path, so none is asked for. -/
def createAt (path : String) (next : Except FileError Unit → Interaction) : Interaction :=
  if path.toList.contains '\x00' then next (.error .nulByte) else .create path next

end Interaction

end GuestMachine
