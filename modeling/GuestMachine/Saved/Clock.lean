import GuestMachine.Saved.Value
import GuestMachine.Timer.Clock

/-!
# Saved clocks

A queue is saved as its entries in the order of dispatch, without the sequence numbers that order
them: reading queues the entries anew, one by one. The timers of a clock and its queue are not
checked against each other.
-/

namespace GuestMachine

open Saved

def readId : Reader Nat := readBelow UInt32.size

def readTime : Reader Nat := readBelow UInt64.size

namespace Timer

def toSaved (timer : Timer) : Value := .record [
  ("id", .nat timer.id),
  ("owner", .nat timer.owner),
  ("expiry", .nat timer.expiry),
  ("enqueued", .bool timer.enqueued)]

def ofSaved? : Reader Timer := fun value ↦ do
  let fields ← fields? ["id", "owner", "expiry", "enqueued"] value
  return {
    id := ← fields.read "id" readId
    owner := ← fields.read "owner" readId
    expiry := ← fields.read "expiry" readTime
    enqueued := ← fields.read "enqueued" readBool }

end Timer

namespace TimerEvent

def toSaved (event : TimerEvent) : Value := .record [
  ("id", .nat event.id),
  ("owner", .nat event.owner),
  ("expiry", .nat event.expiry),
  ("now", .nat event.now)]

def ofSaved? : Reader TimerEvent := fun value ↦ do
  let fields ← fields? ["id", "owner", "expiry", "now"] value
  return {
    id := ← fields.read "id" readId
    owner := ← fields.read "owner" readId
    expiry := ← fields.read "expiry" readTime
    now := ← fields.read "now" readTime }

end TimerEvent

namespace QueueEntry

def toSaved (entry : QueueEntry) : Value := .record [
  ("expiry", .nat entry.expiry),
  ("id", .nat entry.id)]

def ofSaved? : Reader QueueEntry := fun value ↦ do
  let fields ← fields? ["expiry", "id"] value
  return {
    expiry := ← fields.read "expiry" readTime
    id := ← fields.read "id" readId }

end QueueEntry

namespace TimerQueue

def toSaved (queue : TimerQueue) : Value := .list (queue.entries.map QueueEntry.toSaved)

def ofSaved? : Reader TimerQueue := fun value ↦ ofEntries <$> readList QueueEntry.ofSaved? value

end TimerQueue

namespace Clock

def toSaved (clock : Clock) : Value := .record [
  ("now", .nat clock.now),
  ("timers", .list (clock.timers.toList.map Timer.toSaved)),
  ("queue", clock.queue.toSaved)]

def ofSaved? : Reader Clock := fun value ↦ do
  let fields ← fields? ["now", "timers", "queue"] value
  return {
    now := ← fields.read "now" readTime
    timers := (← fields.read "timers" (readList Timer.ofSaved?)).toArray
    queue := ← fields.read "queue" TimerQueue.ofSaved? }

end Clock

end GuestMachine
