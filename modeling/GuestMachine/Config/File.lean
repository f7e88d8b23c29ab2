import GuestMachine.Config.Settings
import GuestMachine.Saved.Processor
import GuestMachine.Toml.Document
import GuestMachine.Toml.Fields

/-!
# Configuration files

The tables `emulator` and `core` of a TOML document, read as settings. Keys that mean nothing are
ignored; a value of the wrong type or out of range makes the whole file unreadable.
-/

namespace GuestMachine.Settings

open Toml

def machineKeys : List String :=
  ["image", "load_address", "memory_size", "mode", "code32", "max_blocks", "timer_period",
    "trace_file", "trace_console"]

def coreKeys : List String := ["block_limit", "hot_threshold", "unimplemented_segments"]

/-- Reads the table of the machine. As an array it has to go as far as the file for the trace. -/
def readMachine (value : Value) (settings : Settings) : Option Settings := do
  let fields ← value.fields? machineKeys 8
  return { settings with
    image := ← fields.read "image" readText
    loadAddress := ← fields.read "load_address" Toml.readUInt32
    memorySize := ← fields.read "memory_size" (Toml.readBelow UInt64.size)
    mode := ← fields.read "mode" (Toml.readName Mode.ofSavedName?)
    code32 := (← fields.read "code32" readBoolean).getD false
    maxBlocks := ← fields.read "max_blocks" (Toml.readBelow UInt64.size)
    timerPeriod := ← fields.read "timer_period" (Toml.readBelow UInt64.size)
    traceFile := ← fields.read "trace_file" readText
    traceConsole := (← fields.read "trace_console" readBoolean).getD false }

def readCore (value : Value) (settings : Settings) : Option Settings := do
  let fields ← value.fields? coreKeys 0
  return { settings with
    blockLimit := ← fields.read "block_limit" (Toml.readBelow UInt64.size)
    hotThreshold := ← fields.read "hot_threshold" Toml.readUInt32
    unimplementedSegments := ←
      fields.read "unimplemented_segments" (Toml.readName DescriptorPolicy.ofSavedName?) }

def ofTable? (table : Table) : Option Settings := do
  let empty : Value := .table .header []
  let settings ← readMachine ((table.lookup "emulator").getD empty) {}
  readCore ((table.lookup "core").getD empty) settings

/-- The settings of a configuration file, if it can be read. -/
def parse? (document : String) : Option Settings := do
  ofTable? (← Table.parse? document)

end GuestMachine.Settings
