import GuestMachine.Config.Arguments
import GuestMachine.Config.File
import GuestMachine.Interaction.Basic
import GuestMachine.Machine.Run

/-!
# The command line

The program as an interaction with its surroundings. It reads the configuration, then the image,
then creates the file for the trace; the first of these that fails ends the program. Every failure
ends it with code 1.
-/

namespace GuestMachine

namespace CommandLine

def defaultConfigFile : String := "./replaypc.toml"

def help : String :=
  "Options, each with a value:\n" ++
  "  --config_file, --configfile   configuration file\n" ++
  "  --image                       guest image\n" ++
  "  --load-address                where the image is loaded and execution begins\n" ++
  "  --mode                        real, protected or v86\n" ++
  "  --max-blocks                  number of blocks after which the run ends\n" ++
  "  --block-limit                 number of instructions in a block\n" ++
  "  --hot-threshold               number of executions before a block is promoted\n" ++
  "  --unimplemented-segments      fatal or emulate\n" ++
  "  --timer-period                period of the timer in instructions\n" ++
  "  --trace_file, --tracefile     file for the trace\n" ++
  "Flags:\n" ++
  "  --code32                      32-bit code segment in protected mode\n" ++
  "  --trace-console               print the trace\n"

def joinLines (lines : List String) : String := String.join (lines.map (· ++ "\n"))

def fail (message : String) : Interaction := .printError (message ++ "\n") (.exit 1)

/-! ## Configuration -/

def failReading (reason : String) : Interaction :=
  fail ("IO error reading configuration file:\n" ++ reason)

def failParsing (reason : String) : Interaction :=
  fail ("Failed to parse configuration. There may be a typo or otherwise invalid toml:\n" ++ reason)

/-- Reads the text of the configuration file. The default file may be missing. -/
def readConfigFile (file : Option String) (next : String → Interaction) : Interaction :=
  .readFrom (file.getD defaultConfigFile) fun
    | .ok bytes =>
      match String.fromUTF8? bytes with
      | some text => next text
      | none => failReading "stream did not contain valid UTF-8"
    | .error reason =>
      if file.isNone ∧ reason = .missing then next "" else failReading reason.message

/-- Reads the configuration from the file and the arguments. -/
def configure (arguments : Arguments) (next : Configuration → Interaction) : Interaction :=
  readConfigFile arguments.configFile fun text ↦
    match Settings.parse? text with
    | none => failParsing "the configuration file cannot be read"
    | some settings =>
      match Configuration.ofSources settings arguments.settings with
      | .error reason => failParsing reason.message
      | .ok configuration => next configuration

/-! ## The run -/

/-- Why a run ended. -/
def ending (summary : RunSummary) : String :=
  match summary.exception with
  | some fault => fault.text
  | none => if summary.halted then "halt" else "block budget"

def report (mode : Mode) (summary : RunSummary) (fingerprint : String) : String :=
  joinLines [
    "mode:          " ++ mode.text,
    "blocks:        " ++ toString summary.blocks,
    "instructions:  " ++ toString summary.instructions,
    "replacements:  " ++ toString summary.replacements,
    "timer events:  " ++ toString summary.timerEvents,
    "stopped by:    " ++ ending summary,
    "fingerprint:   " ++ fingerprint]

def failRunning (reason : String) : Interaction := fail ("Error: " ++ reason)

def loadImage (options : MachineOptions) (next : Array UInt8 → Interaction) : Interaction :=
  match options.image with
  | none => failRunning "No guest image specified. Set emulator.image or pass --image."
  | some path => .readFrom path fun
    | .ok bytes => next bytes.data
    | .error reason => failRunning ("Couldn't read image " ++ path ++ ": " ++ reason.message)

/-- Creates the file for the trace, if one is asked for, and chooses which records are kept. -/
def openTrace (options : MachineOptions) (next : Trace → Interaction) : Interaction :=
  match options.traceFile with
  | some path => .createAt path fun
    | .ok () => next .buffer
    | .error reason =>
      failRunning ("Couldn't create trace file " ++ path ++ ": " ++ reason.message)
  | none => next (if options.traceConsole then .buffer else .discard)

/-- Delivers the records that were kept. -/
def closeTrace (options : MachineOptions) (trace : Trace) (next : Interaction) : Interaction :=
  match options.traceFile with
  | some path => .write path (joinLines trace.lines) next
  | none => .print (joinLines trace.lines) next

def runMachine (options : MachineOptions) (machine : Machine) : Interaction :=
  match machine.run with
  | none => .exit 1
  | some (result, machine) =>
    closeTrace options machine.trace <|
      match result with
      | .error reason => failRunning reason.message
      | .ok summary => .print (report options.mode summary machine.trace.fingerprint) (.exit 0)

/-- The whole program. -/
def start (commandLine : List String) : Interaction :=
  match Arguments.parse commandLine with
  | .error .help => .print help (.exit 0)
  | .error .usage => .printError help (.exit 1)
  | .ok arguments =>
    configure arguments fun configuration ↦
      let options := configuration.machine
      loadImage options fun image ↦
        openTrace options fun trace ↦
          match Machine.boot configuration image trace with
          | .error reason => failRunning reason.message
          | .ok machine => runMachine options machine

end CommandLine

end GuestMachine
