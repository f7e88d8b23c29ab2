import GuestMachine.Proofs.Machine.Ticks
import GuestMachine.Proofs.Text.Digest
import GuestMachine.Proofs.Trace.Lines

/-!
# What a fingerprint stands for

A trace receives blocks, timers and notes, and may be asked for its fingerprint at any time. However
it keeps its records, the fingerprint is the digest of the text of all lines, and only one history of
records has that text.
-/

namespace GuestMachine

/-- A call on a trace. -/
inductive TraceCall where
  | pushBlock (block : Block)
  | pushTimer (event : TimerEvent)
  | pushNote (text : String)
  /-- Reads off the fingerprint. -/
  | fingerprint

/-- The fingerprint of records: the digest of the text of their lines. -/
def TraceRecord.fingerprintOf (records : List TraceRecord) : String :=
  Hex.ofBytes (Digest.ofBytes (document records).toUTF8.toList)

namespace TraceCall

/-- What the call leaves in the trace. -/
def record? : TraceCall → Option TraceRecord
  | pushBlock block => some (.ofBlock block)
  | pushTimer event => some (.timer event)
  | pushNote text => some (.note text)
  | fingerprint => none

/-- The records of a sequence of calls. -/
def history (calls : List TraceCall) : List TraceRecord := calls.filterMap record?

/-- The fingerprints that are read off in a sequence of calls, which `earlier` records precede. Each
stands for the records before it. -/
def readings : (earlier : List TraceRecord) → List TraceCall → List String
  | _, [] => []
  | earlier, fingerprint :: rest => TraceRecord.fingerprintOf earlier :: readings earlier rest
  | earlier, call :: rest => readings (earlier ++ call.record?.toList) rest

/-- A note that is pushed takes up one line. -/
def IsOneLine : TraceCall → Prop
  | pushNote text => '\n' ∉ text.toList
  | _ => True

theorem isOneLine_of_mem_history {calls : List TraceCall} (hcalls : ∀ call ∈ calls, call.IsOneLine)
    {record : TraceRecord} (hrecord : record ∈ history calls) : record.IsOneLine := by
  obtain ⟨call, hcall, hleft⟩ := List.mem_filterMap.mp hrecord
  have hline := hcalls call hcall
  cases call with
  | pushBlock block =>
    obtain rfl := Option.some.inj hleft
    unfold TraceRecord.ofBlock
    split <;> trivial
  | pushTimer event =>
    obtain rfl := Option.some.inj hleft
    trivial
  | pushNote text =>
    obtain rfl := Option.some.inj hleft
    exact hline
  | fingerprint => cases hleft

end TraceCall

namespace Trace

/-! ## One call -/

/-- Carries out a call, and gives the fingerprint if it asks for it. -/
def perform (trace : Trace) : TraceCall → Option String × Trace
  | .pushBlock block => (none, trace.pushBlock block)
  | .pushTimer event => (none, trace.pushTimer event)
  | .pushNote text => (none, trace.pushNote text)
  | .fingerprint => (some trace.fingerprint, trace)

/-- A trace that has received records. It has kept all of them, or none if `keeps` is false. -/
structure Tells (trace : Trace) (keeps : Bool) (records : List TraceRecord) : Prop where
  kept : trace.kept = if keeps then some records.toArray else none
  stream : trace.stream.Holds (records.flatMap TraceRecord.bytes)
  size : trace.size = records.length

theorem tells_buffer : buffer.Tells true [] := ⟨rfl, Digest.Stream.holds_empty, rfl⟩

theorem tells_discard : discard.Tells false [] := ⟨rfl, Digest.Stream.holds_empty, rfl⟩

variable {trace : Trace} {keeps : Bool} {records : List TraceRecord}

theorem Tells.push (htells : trace.Tells keeps records) (record : TraceRecord) :
    (trace.push record).Tells keeps (records ++ [record]) where
  kept := by
    rw [Trace.push, htells.kept]
    cases keeps <;> simp
  stream := by
    rw [List.flatMap_append, List.flatMap_singleton]
    exact htells.stream.append record.bytes
  size := by rw [Trace.push, htells.size, List.length_append, List.length_singleton]

theorem Tells.fingerprint_eq (htells : trace.Tells keeps records) :
    trace.fingerprint = TraceRecord.fingerprintOf records := by
  rw [fingerprint, htells.stream.digest_eq, TraceRecord.fingerprintOf,
    TraceRecord.toList_toUTF8_document]

/-- A call adds its record, if it has one, and a fingerprint that it reads off stands for what was
received before. -/
theorem Tells.perform (htells : trace.Tells keeps records) (call : TraceCall) :
    (trace.perform call).2.Tells keeps (records ++ call.record?.toList) ∧
      ∀ rest, TraceCall.readings records (call :: rest) =
        (trace.perform call).1.toList ++
          TraceCall.readings (records ++ call.record?.toList) rest := by
  cases call with
  | pushBlock block => exact ⟨htells.push _, fun rest ↦ rfl⟩
  | pushTimer event => exact ⟨htells.push _, fun rest ↦ rfl⟩
  | pushNote text => exact ⟨htells.push _, fun rest ↦ rfl⟩
  | fingerprint =>
    have hnone : records ++ TraceCall.fingerprint.record?.toList = records := List.append_nil _
    rw [hnone]
    refine ⟨htells, fun rest ↦ ?_⟩
    rw [TraceCall.readings, ← htells.fingerprint_eq]
    rfl

/-! ## All calls -/

/-- Carries out calls one after another, and gives the fingerprints that were read off. -/
def performAll (trace : Trace) : List TraceCall → List String × Trace
  | [] => ([], trace)
  | call :: rest =>
    let (answer, next) := trace.perform call
    let (answers, last) := next.performAll rest
    (answer.toList ++ answers, last)

theorem Tells.performAll (htells : trace.Tells keeps records) (calls : List TraceCall) :
    (trace.performAll calls).1 = TraceCall.readings records calls ∧
      (trace.performAll calls).2.Tells keeps (records ++ TraceCall.history calls) := by
  induction calls generalizing trace records with
  | nil =>
    refine ⟨rfl, ?_⟩
    rw [TraceCall.history, List.filterMap_nil, List.append_nil]
    exact htells
  | cons call rest ih =>
    obtain ⟨hnext, hreadings⟩ := htells.perform call
    obtain ⟨hanswers, hlast⟩ := ih hnext
    have hhistory : TraceCall.history (call :: rest) =
        call.record?.toList ++ TraceCall.history rest := by
      cases call <;> rfl
    refine ⟨?_, ?_⟩
    · rw [hreadings rest, ← hanswers]
      rfl
    · rw [hhistory, ← List.append_assoc]
      exact hlast

/-- A fingerprint stands for the whole history of a trace, whether its records are kept or not: it is
the digest of their text, at the end and each time that it is read off. The records are counted, and
all are kept in order where they are kept. And two histories with the same text are the same. -/
theorem fingerprint_standsFor (calls : List TraceCall) :
    (∀ trace ∈ [buffer, discard],
      (trace.performAll calls).1 = TraceCall.readings [] calls ∧
      (trace.performAll calls).2.fingerprint =
        TraceRecord.fingerprintOf (TraceCall.history calls) ∧
      (trace.performAll calls).2.size = (TraceCall.history calls).length) ∧
    (buffer.performAll calls).2.lines = (TraceCall.history calls).map TraceRecord.text ∧
    ∀ others : List TraceCall, (∀ call ∈ calls ++ others, call.IsOneLine) →
      TraceRecord.document (TraceCall.history calls) =
          TraceRecord.document (TraceCall.history others) →
        TraceCall.history calls = TraceCall.history others := by
  have hbuffer := tells_buffer.performAll calls
  have hdiscard := tells_discard.performAll calls
  rw [List.nil_append] at hbuffer hdiscard
  refine ⟨?_, ?_, ?_⟩
  · intro trace htrace
    rcases List.mem_pair.mp htrace with rfl | rfl
    · exact ⟨hbuffer.1, hbuffer.2.fingerprint_eq, hbuffer.2.size⟩
    · exact ⟨hdiscard.1, hdiscard.2.fingerprint_eq, hdiscard.2.size⟩
  · rw [lines, hbuffer.2.kept]
    rfl
  · intro others hlines hsame
    refine TraceRecord.eq_of_document_eq (fun record hrecord ↦ ?_) (fun record hrecord ↦ ?_) hsame
    · exact TraceCall.isOneLine_of_mem_history
        (fun call hcall ↦ hlines call (List.mem_append_left _ hcall)) hrecord
    · exact TraceCall.isOneLine_of_mem_history
        (fun call hcall ↦ hlines call (List.mem_append_right _ hcall)) hrecord

/-- A timer, and a note that spells out what a timer's line says behind its letter. -/
def spelledOut : List TraceCall × List TraceCall :=
  ([.pushTimer ⟨3, 7, 42, 42⟩, .fingerprint, .pushNote "halt"],
    [.pushNote "3 owner=7 expiry=42 now=42", .pushNote "halt"])

/-- The fingerprint that is read off between the two records stands for the first one. -/
theorem fingerprint_standsFor_spelledOut :
    (discard.performAll spelledOut.1).1 = [TraceRecord.fingerprintOf [.timer ⟨3, 7, 42, 42⟩]] ∧
    (discard.performAll spelledOut.1).2.fingerprint =
      TraceRecord.fingerprintOf [.timer ⟨3, 7, 42, 42⟩, .note "halt"] ∧
    (discard.performAll spelledOut.1).2.size = 2 ∧
    (buffer.performAll spelledOut.1).2.lines = ["T 3 owner=7 expiry=42 now=42", "N halt"] ∧
    TraceRecord.document (TraceCall.history spelledOut.1) ≠
      TraceRecord.document (TraceCall.history spelledOut.2) := by
  obtain ⟨htraces, hlines, hdecides⟩ := fingerprint_standsFor spelledOut.1
  obtain ⟨hreadings, hfinal, hsize⟩ := htraces discard (by simp)
  refine ⟨hreadings, hfinal, hsize, ?_, ?_⟩
  · rw [hlines]
    decide
  · intro hsame
    have hhistories := hdecides spelledOut.2 (by simp [spelledOut, TraceCall.IsOneLine]) hsame
    exact absurd hhistories (by decide)

end Trace

end GuestMachine
