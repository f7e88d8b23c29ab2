import Std.Data.TreeMap
import GuestMachine.Error

/-!
# Timers and their queue

The queue of armed timers, by expiry and, where expiries are equal, by the order in which the timers
were offered. Every offer draws a fresh sequence number, so that no two entries share a key; a
second index finds the entry of a timer. The queue holds timers by name only, and a timer has at
most one entry.
-/

namespace GuestMachine

/-- Names the device that a timer belongs to. -/
abbrev TimerOwner := Nat

structure Timer where
  id : TimerId
  owner : TimerOwner
  expiry : Nat := 0
  /-- The timer was offered and has not been removed or dispatched since. -/
  enqueued : Bool := false
  deriving DecidableEq, Repr, Inhabited

/-- A position in the queue: an expiry, then a sequence number. -/
abbrev QueueKey := Nat × Nat

def QueueKey.order : QueueKey → QueueKey → Ordering :=
  compareLex (compareOn Prod.fst) (compareOn Prod.snd)

instance : Std.TransCmp QueueKey.order := by
  unfold QueueKey.order
  infer_instance

instance : Std.LawfulEqCmp QueueKey.order where
  eq_of_compare {left right} equal := by
    simp only [QueueKey.order, compareLex, compareOn, Ordering.then_eq_eq,
      Nat.compare_eq_eq] at equal
    exact Prod.ext equal.1 equal.2

/-- What is seen of a position: a timer and the expiry that it was offered with. -/
structure QueueEntry where
  expiry : Nat
  id : TimerId
  deriving DecidableEq, Repr

structure TimerQueue where
  order : Std.TreeMap QueueKey TimerId QueueKey.order := ∅
  keys : Std.TreeMap TimerId QueueKey := ∅
  nextSequence : Nat := 0

namespace TimerQueue

def empty : TimerQueue := {}

/-- The queued timers in the order of dispatch. -/
def entries (queue : TimerQueue) : List QueueEntry :=
  queue.order.toList.map fun (key, id) ↦ ⟨key.1, id⟩

def size (queue : TimerQueue) : Nat := queue.order.size

def isEmpty (queue : TimerQueue) : Bool := queue.order.isEmpty

def contains (queue : TimerQueue) (id : TimerId) : Bool := queue.keys.contains id

/-! ## Changes -/

/-- Adds an entry behind all others of the same expiry. -/
def insert (queue : TimerQueue) (id : TimerId) (expiry : Nat) : TimerQueue :=
  let key := (expiry, queue.nextSequence)
  { order := queue.order.insert key id
    keys := queue.keys.insert id key
    nextSequence := queue.nextSequence + 1 }

/-- Removes the entry of a timer, if it has one. -/
def unlink (queue : TimerQueue) (id : TimerId) : TimerQueue :=
  match queue.keys[id]? with
  | some key => { queue with order := queue.order.erase key, keys := queue.keys.erase id }
  | none => queue

/-- Queues a timer at its expiry. One that is queued already is moved. -/
def offer (queue : TimerQueue) (timer : Timer) : Timer × TimerQueue :=
  ({ timer with enqueued := true }, (queue.unlink timer.id).insert timer.id timer.expiry)

/-- Removes a timer and says whether it was queued. -/
def remove (queue : TimerQueue) (timer : Timer) : Bool × Timer × TimerQueue :=
  (queue.contains timer.id, { timer with enqueued := false }, queue.unlink timer.id)

/-! ## The first entry -/

def peekExpiry? (queue : TimerQueue) : Option Nat := queue.order.minKey?.map Prod.fst

def peek? (queue : TimerQueue) : Option TimerId := do
  let key ← queue.order.minKey?
  queue.order[key]?

/-- Removes the first entry. The timer still counts itself as queued. -/
def pop? (queue : TimerQueue) : Option (QueueEntry × TimerQueue) := do
  let key ← queue.order.minKey?
  let id ← queue.order[key]?
  return (⟨key.1, id⟩,
    { queue with order := queue.order.erase key, keys := queue.keys.erase id })

/-! ## Entries -/

/-- Queues entries one by one; of a timer that occurs more than once the last entry stays. -/
def ofEntries (entries : List QueueEntry) : TimerQueue :=
  entries.foldl (fun queue entry ↦ (queue.unlink entry.id).insert entry.id entry.expiry) empty

end TimerQueue

end GuestMachine
