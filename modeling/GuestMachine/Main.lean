import GuestMachine.CommandLine

/-!
# Entry point

Carries out the interactions of the command line on real files and streams.
-/

namespace GuestMachine

/-- The reason behind an error code of the system, which may come with either sign. -/
def FileError.ofCode? (code : UInt32) : Option FileError :=
  match code.toInt32.toInt.natAbs with
  | 2 => some .missing
  | 13 => some .permissionDenied
  | 20 => some .notDirectory
  | 21 => some .isDirectory
  | 36 => some .nameTooLong
  | _ => none

/-- The reason that the system gives for refusing a file. -/
def FileError.ofSystem : IO.Error → FileError
  | .noFileOrDirectory _ _ _ => .missing
  | .permissionDenied _ code reason | .inappropriateType _ code reason
  | .invalidArgument _ code reason | .resourceExhausted _ code reason
  | .alreadyExists _ code reason | .otherError code reason =>
    (ofCode? code).getD (.other (reason ++ " (os error " ++ toString code ++ ")"))
  | reason => .other (toString reason)

/-- The result of working on a file. -/
def attempt {α : Type} (work : IO α) : IO (Except FileError α) := do
  match ← work.toBaseIO with
  | .ok value => return .ok value
  | .error reason => return .error (.ofSystem reason)

def Interaction.perform : Interaction → IO UInt8
  | .exit code => return code
  | .read path next => do (next (← attempt (IO.FS.readBinFile path))).perform
  | .create path next => do (next (← attempt (IO.FS.writeFile path ""))).perform
  | .write path content next => do
    IO.FS.writeFile path content
    next.perform
  | .print text next => do
    IO.print text
    next.perform
  | .printError text next => do
    IO.eprint text
    next.perform

end GuestMachine

def main (commandLine : List String) : IO UInt32 :=
  UInt8.toUInt32 <$> (GuestMachine.CommandLine.start commandLine).perform
