import GuestMachine.Block.Chain
import GuestMachine.Timer.Clock
import GuestMachine.Text.Digest

/-!
# Traces

A trace records what a run dispatched: blocks, timers and notes. Each record has one line of text,
and the fingerprint of a trace is the digest of its lines, each ended by a newline, so that runs can
be compared without keeping their records.
-/

namespace GuestMachine

inductive TraceRecord where
  | block (mode : Mode) (start length count : Nat) (tier : Tier)
  | spanning (mode : Mode) (start : Nat)
  | timer (event : TimerEvent)
  | note (text : String)
  deriving DecidableEq, Repr

namespace TraceRecord

/-- The record of a block that is about to be executed. -/
def ofBlock (block : Block) : TraceRecord :=
  match block.tier? with
  | some tier =>
    .block block.mode block.start block.byteLength block.instructionCount tier
  | none => .spanning block.mode block.start

/-- The line of a record. -/
def text : TraceRecord → String
  | block mode start length count tier =>
    "B " ++ mode.letter.toString ++ " " ++ Hex.padded 8 start ++ " +" ++ toString length ++
      " n=" ++ toString count ++ " " ++ tier.text
  | spanning mode start =>
    "B " ++ mode.letter.toString ++ " " ++ Hex.padded 8 start ++ " spanning"
  | timer event =>
    "T " ++ toString event.id ++ " owner=" ++ toString event.owner ++
      " expiry=" ++ toString event.expiry ++ " now=" ++ toString event.now
  | note text => "N " ++ text

/-- The line as bytes, with the newline that ends it. -/
def bytes (record : TraceRecord) : List UInt8 := record.text.toUTF8.toList ++ [0x0A]

end TraceRecord

structure Trace where
  /-- The records in order, where the trace keeps them. -/
  kept : Option (Array TraceRecord)
  stream : Digest.Stream := .empty
  /-- The number of records. -/
  size : Nat := 0

namespace Trace

/-- A trace that keeps its records. -/
def buffer : Trace := { kept := some #[] }

/-- A trace that only counts and digests its records. -/
def discard : Trace := { kept := none }

def push (trace : Trace) (record : TraceRecord) : Trace where
  kept := trace.kept.map (·.push record)
  stream := trace.stream.append record.bytes
  size := trace.size + 1

def pushBlock (trace : Trace) (block : Block) : Trace := trace.push (.ofBlock block)

def pushTimer (trace : Trace) (event : TimerEvent) : Trace := trace.push (.timer event)

def pushNote (trace : Trace) (text : String) : Trace := trace.push (.note text)

/-- The lines of the records that were kept. -/
def lines (trace : Trace) : List String :=
  match trace.kept with
  | some records => records.toList.map TraceRecord.text
  | none => []

/-- Whether the records are kept. -/
def isKept (trace : Trace) : Bool := trace.kept.isSome

/-- The digest of the records so far, as lower-case hexadecimal text. -/
def fingerprint (trace : Trace) : String := Hex.ofBytes trace.stream.digest

end Trace

end GuestMachine
