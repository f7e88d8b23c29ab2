import GuestMachine.Proofs.Timer.Queue
import GuestMachine.Timer.Clock

/-!
# The operations of the clock

What each operation gives, in terms of the timer that it is about and of the queue. An operation
fails exactly if there is no such timer, and advancing is determined by its steps.
-/

namespace GuestMachine

namespace Clock

/-! ## Arming and disarming -/

section

variable {clock changed : Clock} {id : TimerId} {expiry : Nat} {timer : Timer} {reason : Error}

theorem setExpiry_of_timer (htimer : clock.timer id = .ok timer) (expiry : Nat) :
    clock.setExpiry id expiry = .ok
      { clock with
        timers := clock.timers.setIfInBounds id { timer with expiry, enqueued := true }
        queue := (clock.queue.offer { timer with expiry }).2 } := by
  rw [setExpiry, htimer]
  rfl

theorem setExpiry_of_error (htimer : clock.timer id = .error reason) (expiry : Nat) :
    clock.setExpiry id expiry = .error reason := by
  rw [setExpiry, htimer]
  rfl

theorem setExpiry_eq_ok (hset : clock.setExpiry id expiry = .ok changed) :
    ∃ timer, clock.timer id = .ok timer ∧ changed =
      { clock with
        timers := clock.timers.setIfInBounds id { timer with expiry, enqueued := true }
        queue := (clock.queue.offer { timer with expiry }).2 } := by
  cases htimer : clock.timer id with
  | error reason =>
    rw [setExpiry_of_error htimer] at hset
    cases hset
  | ok timer =>
    rw [setExpiry_of_timer htimer] at hset
    cases hset
    exact ⟨timer, rfl, rfl⟩

theorem disable_of_timer (htimer : clock.timer id = .ok timer) :
    clock.disable id = .ok (clock.queue.contains timer.id,
      { clock with
        timers := clock.timers.setIfInBounds id { timer with enqueued := false }
        queue := clock.queue.unlink timer.id }) := by
  rw [disable, htimer]
  rfl

theorem disable_of_error (htimer : clock.timer id = .error reason) :
    clock.disable id = .error reason := by
  rw [disable, htimer]
  rfl

theorem disable_eq_ok {pending : Bool} (hdisable : clock.disable id = .ok (pending, changed)) :
    ∃ timer, clock.timer id = .ok timer ∧ changed =
      { clock with
        timers := clock.timers.setIfInBounds id { timer with enqueued := false }
        queue := clock.queue.unlink timer.id } := by
  cases htimer : clock.timer id with
  | error reason =>
    rw [disable_of_error htimer] at hdisable
    cases hdisable
  | ok timer =>
    rw [disable_of_timer htimer] at hdisable
    cases hdisable
    exact ⟨timer, rfl, rfl⟩

end

/-! ## Steps -/

section

variable {τ : Type} {clock : Clock}

/-- The clock that a handler is called with. -/
def dispatched (clock : Clock) (entry : QueueEntry) (timer : Timer) (rest : TimerQueue) :
    Clock where
  now := max clock.now entry.expiry
  timers := clock.timers.setIfInBounds entry.id { timer with enqueued := false }
  queue := rest

/-- Without a pending timer nothing happens. -/
theorem step_of_pop?_eq_none (hpop : clock.queue.pop? = none)
    (handler : TimerHandler τ) (state : τ) :
    clock.step handler state = (.ok none, state, clock) := by
  rw [step, hpop]

/-- The first entry is removed before the handler is called. -/
theorem step_of_pop?_eq_some {entry : QueueEntry} {rest : TimerQueue}
    (hpop : clock.queue.pop? = some (entry, rest)) {timer : Timer}
    (htimer : clock.timer entry.id = .ok timer) (handler : TimerHandler τ) (state : τ) :
    clock.step handler state =
      let event : TimerEvent :=
        ⟨entry.id, timer.owner, entry.expiry, max clock.now entry.expiry⟩
      (.ok (some event), handler event state (clock.dispatched entry timer rest)) := by
  have hsame : ({ clock with now := max clock.now entry.expiry, queue := rest } : Clock).timer
      entry.id = .ok timer := htimer
  simp only [step, hpop, hsame]
  rfl

end

/-! ## Advancing -/

variable {τ : Type} {handler : TimerHandler τ} {clock : Clock} {target : Nat}

theorem isDue_eq (clock : Clock) (target : Nat) :
    clock.isDue target = clock.queue.pop?.any fun (entry, _) ↦ entry.expiry ≤ target := by
  rw [isDue, nextExpiry?, TimerQueue.peekExpiry?_eq]
  cases clock.queue.pop? <;> rfl

theorem isDue_mono {first last : Nat} (hle : first ≤ last) (hdue : clock.isDue first = true) :
    clock.isDue last = true := by
  unfold isDue at hdue ⊢
  cases hnext : clock.nextExpiry? with
  | none =>
    rw [hnext] at hdue
    cases hdue
  | some expiry =>
    rw [hnext] at hdue
    exact decide_eq_true (Nat.le_trans (of_decide_eq_true hdue) hle)

theorem advanceFrom_of_not_due (hdue : clock.isDue target = false) (bound fired : Nat) (state : τ) :
    advanceFrom handler target bound fired state clock =
      some (.ok fired, state, { clock with now := max clock.now target }) := by
  cases bound <;> rw [advanceFrom, hdue] <;> rfl

theorem advanceFrom_zero_of_due (hdue : clock.isDue target = true) (fired : Nat) (state : τ) :
    advanceFrom handler target 0 fired state clock = none := by
  rw [advanceFrom, if_pos hdue]

theorem advanceFrom_of_step (hdue : clock.isDue target = true) {bound : Nat} (fired : Nat)
    {state next : τ} {event? : Option TimerEvent} {moved : Clock}
    (hstep : clock.step handler state = (.ok event?, next, moved)) :
    advanceFrom handler target (bound + 1) fired state clock =
      advanceFrom handler target bound (fired + 1) next moved := by
  rw [advanceFrom, if_pos hdue, hstep]

theorem advanceFrom_of_step_error (hdue : clock.isDue target = true) (bound fired : Nat)
    {state next : τ} {reason : Error} {moved : Clock}
    (hstep : clock.step handler state = (.error reason, next, moved)) :
    advanceFrom handler target (bound + 1) fired state clock =
      some (.error reason, next, moved) := by
  rw [advanceFrom, if_pos hdue, hstep]

/-- Advancing stops when no timer is due, runs out of dispatches, fails in a step, or goes on after
a step. -/
@[elab_as_elim]
theorem advanceFrom_induction (handler : TimerHandler τ) (target : Nat)
    {motive : Nat → Nat → τ → Clock → Prop}
    (stop : ∀ bound fired state clock, clock.isDue target = false → motive bound fired state clock)
    (exhausted : ∀ fired state clock, clock.isDue target = true → motive 0 fired state clock)
    (fail : ∀ bound fired state clock reason next moved, clock.isDue target = true →
      clock.step handler state = (.error reason, next, moved) →
      motive (bound + 1) fired state clock)
    (fire : ∀ bound fired state clock event? next moved, clock.isDue target = true →
      clock.step handler state = (.ok event?, next, moved) →
      motive bound (fired + 1) next moved → motive (bound + 1) fired state clock)
    (bound fired : Nat) (state : τ) (clock : Clock) : motive bound fired state clock := by
  induction bound generalizing fired state clock with
  | zero =>
    cases hdue : clock.isDue target with
    | true => exact exhausted fired state clock hdue
    | false => exact stop 0 fired state clock hdue
  | succ bound ih =>
    cases hdue : clock.isDue target with
    | true =>
      rcases hstep : clock.step handler state with ⟨outcome, next, moved⟩
      cases outcome with
      | error reason => exact fail bound fired state clock reason next moved hdue hstep
      | ok event? => exact fire bound fired state clock event? next moved hdue hstep (ih _ _ _)
    | false => exact stop (bound + 1) fired state clock hdue

end Clock

end GuestMachine
