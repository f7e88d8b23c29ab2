import GuestMachine.Timer.Queue

/-!
# The virtual clock

The clock owns the timers and their queue. Time moves when a timer is dispatched, to its expiry, and
when the clock is advanced, to the target; it never moves back. A handler sees each dispatch and may
work on the clock, also on the timer that it is called for. Advancing takes as many dispatches as
the handler causes, so it is given a bound on their number and says when that does not suffice.
-/

namespace GuestMachine

structure Clock where
  now : Nat := 0
  timers : Array Timer := #[]
  queue : TimerQueue := .empty

/-- What a handler is told about a dispatch. -/
structure TimerEvent where
  id : TimerId
  owner : TimerOwner
  expiry : Nat
  /-- The time of the dispatch. -/
  now : Nat
  deriving DecidableEq, Repr

/-- Reacts to a dispatch, with a state of type `σ` of its own. -/
abbrev TimerHandler (σ : Type) := TimerEvent → σ → Clock → σ × Clock

namespace Clock

/-! ## Timers -/

/-- Names have 32 bits: when all of them are given, they are given again from the first on. -/
def newTimer (clock : Clock) (owner : TimerOwner) : TimerId × Clock :=
  let id := clock.timers.size % UInt32.size
  (id, { clock with timers := clock.timers.push { id, owner } })

/-- The timer that a name stands for. What is too large to be a name stands for none. -/
def timer (clock : Clock) (id : TimerId) : Except Error Timer :=
  match clock.timers[id]? with
  | some timer =>
    if id < UInt32.size then .ok timer else .error (.internal (.unknownTimer id))
  | none => .error (.internal (.unknownTimer id))

theorem timer_eq_ok_iff {clock : Clock} {id : TimerId} {timer : Timer} :
    clock.timer id = .ok timer ↔ clock.timers[id]? = some timer ∧ id < UInt32.size := by
  unfold Clock.timer
  cases clock.timers[id]? with
  | none => simp
  | some found => by_cases hname : id < UInt32.size <;> simp [hname]

def isEnabled (clock : Clock) (id : TimerId) : Except Error Bool :=
  (·.enqueued) <$> clock.timer id

/-- Arms a timer, in place of any earlier arming. -/
def setExpiry (clock : Clock) (id : TimerId) (expiry : Nat) : Except Error Clock := do
  let timer ← clock.timer id
  let (timer, queue) := clock.queue.offer { timer with expiry }
  return { clock with timers := clock.timers.setIfInBounds id timer, queue }

/-- Disarms a timer and says whether it was pending. -/
def disable (clock : Clock) (id : TimerId) : Except Error (Bool × Clock) := do
  let timer ← clock.timer id
  let (pending, timer, queue) := clock.queue.remove timer
  return (pending, { clock with timers := clock.timers.setIfInBounds id timer, queue })

def nextExpiry? (clock : Clock) : Option Nat := clock.queue.peekExpiry?

def pending (clock : Clock) : Nat := clock.queue.size

/-! ## Time -/

variable {σ : Type}

/-- Dispatches the first pending timer. Time and queue have moved on even if the entry turns out to
name no timer of the clock. -/
def step (clock : Clock) (handler : TimerHandler σ) (state : σ) :
    Except Error (Option TimerEvent) × σ × Clock :=
  match clock.queue.pop? with
  | none => (.ok none, state, clock)
  | some (entry, queue) =>
    let now := max clock.now entry.expiry
    let clock := { clock with now, queue }
    match clock.timer entry.id with
    | .error reason => (.error reason, state, clock)
    | .ok timer =>
      let clock := { clock with
        timers := clock.timers.setIfInBounds entry.id { timer with enqueued := false } }
      let event : TimerEvent :=
        { id := entry.id, owner := timer.owner, expiry := entry.expiry, now }
      let (state, clock) := handler event state clock
      (.ok (some event), state, clock)

/-- Whether a timer is pending that expires at or before `target`. -/
def isDue (clock : Clock) (target : Nat) : Bool :=
  match clock.nextExpiry? with
  | some expiry => decide (expiry ≤ target)
  | none => false

/-- Dispatches every timer that is due by `target`, also those that handlers arm meanwhile, and then
moves time to `target`. Returns the number of dispatches after `fired` earlier ones, or nothing if
`bound` dispatches leave a timer due. -/
def advanceFrom (handler : TimerHandler σ) (target : Nat) :
    (bound fired : Nat) → σ → Clock → Option (Except Error Nat × σ × Clock)
  | 0, fired, state, clock =>
    if clock.isDue target then none
    else some (.ok fired, state, { clock with now := max clock.now target })
  | bound + 1, fired, state, clock =>
    if clock.isDue target then
      match clock.step handler state with
      | (.ok _, state, clock) => advanceFrom handler target bound (fired + 1) state clock
      | (.error reason, state, clock) => some (.error reason, state, clock)
    else
      some (.ok fired, state, { clock with now := max clock.now target })

def advanceTo (clock : Clock) (handler : TimerHandler σ) (target bound : Nat) (state : σ) :
    Option (Except Error Nat × σ × Clock) :=
  advanceFrom handler target bound 0 state clock

end Clock

end GuestMachine
