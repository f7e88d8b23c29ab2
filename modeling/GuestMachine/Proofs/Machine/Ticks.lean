import GuestMachine.Machine.Run
import GuestMachine.Proofs.Timer.Operations
import Mathlib.Order.Nat

/-!
# The periodic timer

The clock of a machine has at most one timer, and its handler arms it again as soon as it fires. So
the timer fires at the multiples of the period, each as soon as that many instructions have been
counted, and never fails.
-/

namespace GuestMachine

namespace Trace

def pushAll (trace : Trace) (records : List TraceRecord) : Trace := records.foldl push trace

theorem pushAll_append (trace : Trace) (earlier later : List TraceRecord) :
    trace.pushAll (earlier ++ later) = (trace.pushAll earlier).pushAll later :=
  List.foldl_append

end Trace

namespace Clock

/-- The clock has the timer of the tick, which is armed for `expiry`, and nothing else is armed. -/
structure IsArmedFor (clock : Clock) (expiry : Nat) : Prop where
  timer : ∃ timer, clock.timers[0]? = some timer ∧ timer.id = 0 ∧ timer.owner = Machine.tickOwner
  coherent : clock.queue.Coherent
  armed : ∃ sequence, ∀ id,
    clock.queue.position? id = if 0 = id then some (expiry, sequence) else none

variable {clock : Clock} {expiry period : Nat}

/-- Arming the only timer leaves the clock armed for the new expiry, whatever it was before. -/
theorem isArmedFor_of_setExpiry {changed : Clock} (hset : clock.setExpiry 0 expiry = .ok changed)
    (htimer : ∃ timer, clock.timers[0]? = some timer ∧ timer.id = 0 ∧
      timer.owner = Machine.tickOwner)
    (hcoherent : clock.queue.Coherent)
    (hothers : ∀ id, id ≠ 0 → clock.queue.position? id = none) :
    changed.IsArmedFor expiry ∧ changed.now = clock.now := by
  obtain ⟨timer, hfound, hid, howner⟩ := htimer
  rw [setExpiry_of_timer (timer_eq_ok_iff.mpr ⟨hfound, by decide⟩)] at hset
  cases hset
  refine ⟨⟨?_, hcoherent.offer _, clock.queue.nextSequence, ?_⟩, rfl⟩
  · refine ⟨{ timer with expiry, enqueued := true }, ?_, hid, howner⟩
    exact Array.getElem?_setIfInBounds_self_of_lt (Array.getElem?_eq_some_iff.mp hfound).1
  · intro other
    rw [TimerQueue.position?_offer, hid]
    by_cases hother : 0 = other
    · rw [if_pos hother, if_pos hother]
    · rw [if_neg hother, if_neg hother, hothers other (Ne.symm hother)]

theorem IsArmedFor.pop? (hclock : clock.IsArmedFor expiry) :
    ∃ rest, clock.queue.pop? = some (⟨expiry, 0⟩, rest) ∧ rest.Coherent ∧
      ∀ id, id ≠ 0 → rest.position? id = none := by
  obtain ⟨sequence, harmed⟩ := hclock.armed
  cases hpop : clock.queue.pop? with
  | none =>
    have hnone := hclock.coherent.pop?_eq_none hpop 0
    rw [harmed, if_pos rfl] at hnone
    cases hnone
  | some popped =>
    obtain ⟨⟨due, id⟩, rest⟩ := popped
    obtain ⟨_, hfirst, -, hcoherent, -, hrest⟩ := hclock.coherent.pop?_eq_some hpop
    rw [harmed] at hfirst
    split at hfirst
    · next hid =>
      cases hfirst
      obtain rfl : 0 = id := hid
      refine ⟨rest, rfl, hcoherent, ?_⟩
      intro other hother
      rw [hrest, if_neg (Ne.symm hother), harmed, if_neg (Ne.symm hother)]
    · cases hfirst

theorem IsArmedFor.isDue (hclock : clock.IsArmedFor expiry) (target : Nat) :
    clock.isDue target = decide (expiry ≤ target) := by
  obtain ⟨rest, hpop, -⟩ := hclock.pop?
  rw [isDue_eq, hpop]
  rfl

/-- The timer fires and is armed for one period later. -/
theorem IsArmedFor.step (hclock : clock.IsArmedFor expiry) (period : Nat) (trace : Trace)
    (ticks : Nat) :
    ∃ changed, changed.IsArmedFor (expiry + period) ∧ changed.now = max clock.now expiry ∧
      clock.step (Machine.tickHandler period) (trace, ticks) =
        (.ok (some ⟨0, Machine.tickOwner, expiry, max clock.now expiry⟩),
          (trace.pushTimer ⟨0, Machine.tickOwner, expiry, max clock.now expiry⟩, ticks + 1),
          changed) := by
  obtain ⟨rest, hpop, hcoherent, hothers⟩ := hclock.pop?
  obtain ⟨timer, hfound, hid, howner⟩ := hclock.timer
  have hknown : clock.timer 0 = .ok timer := timer_eq_ok_iff.mpr ⟨hfound, by decide⟩
  have hfired : (clock.dispatched ⟨expiry, 0⟩ timer rest).timers[0]? =
      some { timer with enqueued := false } :=
    Array.getElem?_setIfInBounds_self_of_lt (Array.getElem?_eq_some_iff.mp hfound).1
  have hset := setExpiry_of_timer (timer_eq_ok_iff.mpr ⟨hfired, by decide⟩) (expiry + period)
  obtain ⟨harmed, hnow⟩ := isArmedFor_of_setExpiry hset ⟨_, hfired, hid, howner⟩ hcoherent hothers
  refine ⟨_, harmed, hnow, ?_⟩
  rw [step_of_pop?_eq_some hpop hknown]
  simp only [Machine.tickHandler, hset, howner]

/-! ## Advancing -/

/-- The event of the timer when it has fired `count` times. -/
def tickEvent (period count : Nat) : TimerEvent :=
  ⟨0, Machine.tickOwner, count * period, count * period⟩

/-- The timer has fired at all multiples of its period up to `now`. -/
structure IsTicking (clock : Clock) (period now : Nat) : Prop where
  armed : clock.IsArmedFor ((now / period + 1) * period)
  now_le : clock.now ≤ now

theorem isDue_mul_iff {count target : Nat} (hperiod : 0 < period)
    (hclock : clock.IsArmedFor (count * period)) :
    clock.isDue target = true ↔ count ≤ target / period := by
  rw [hclock.isDue, decide_eq_true_iff, Nat.le_div_iff_mul_le hperiod]

/-- Advancing stops when the next multiple of the period lies behind the target. -/
theorem isTicking_of_not_isDue {count target : Nat} (hperiod : 0 < period)
    (hclock : clock.IsArmedFor (count * period)) (hnow : clock.now ≤ target)
    (hcount : count ≤ target / period + 1) (hdue : clock.isDue target = false) :
    target / period + 1 - count = 0 ∧
      IsTicking { clock with now := max clock.now target } period target := by
  rw [← Bool.not_eq_true, isDue_mul_iff hperiod hclock] at hdue
  obtain rfl : count = target / period + 1 := by omega
  refine ⟨Nat.sub_self _, ⟨hclock.timer, hclock.coherent, hclock.armed⟩, ?_⟩
  exact Nat.max_le.mpr ⟨hnow, Nat.le_refl _⟩

/-- Advancing fires the timer at each multiple of the period from `count` on, up to the target. -/
theorem advanceFrom_ticks (hperiod : 0 < period) {target : Nat} (bound : Nat) {count : Nat}
    (fired : Nat) (trace : Trace) (ticks : Nat) (hclock : clock.IsArmedFor (count * period))
    (hnow : clock.now ≤ target) (hbefore : clock.now ≤ count * period)
    (hcount : count ≤ target / period + 1) (hbound : target / period < count + bound) :
    ∃ changed, changed.IsTicking period target ∧
      advanceFrom (Machine.tickHandler period) target bound fired (trace, ticks) clock =
        some (.ok (fired + (target / period + 1 - count)),
          (trace.pushAll ((List.range' count (target / period + 1 - count)).map fun index ↦
              .timer (tickEvent period index)),
            ticks + (target / period + 1 - count)),
          changed) := by
  induction bound generalizing clock count fired trace ticks with
  | zero =>
    have hdue : clock.isDue target = false := by
      rw [← Bool.not_eq_true, isDue_mul_iff hperiod hclock]
      omega
    obtain ⟨hnone, hticking⟩ := isTicking_of_not_isDue hperiod hclock hnow hcount hdue
    refine ⟨_, hticking, ?_⟩
    rw [advanceFrom_of_not_due hdue, hnone]
    rfl
  | succ bound ih =>
    cases hdue : clock.isDue target with
    | true =>
      have hle := (isDue_mul_iff hperiod hclock).mp hdue
      have hexpiry : max clock.now (count * period) = count * period := Nat.max_eq_right hbefore
      obtain ⟨changed, harmed, hmoved, hstep⟩ := hclock.step period trace ticks
      rw [hexpiry] at hmoved hstep
      rw [← Nat.succ_mul] at harmed
      have hwithin : count * period ≤ target := (Nat.le_div_iff_mul_le hperiod).mp hle
      obtain ⟨last, hlast, hrest⟩ :=
        ih (fired + 1) (trace.pushTimer (tickEvent period count)) (ticks + 1) harmed
          (hmoved ▸ hwithin) (hmoved ▸ Nat.mul_le_mul_right period (Nat.le_succ count))
          (by omega) (by omega)
      refine ⟨last, hlast, ?_⟩
      rw [advanceFrom_of_step hdue _ hstep]
      have hremaining : target / period + 1 - count = (target / period + 1 - (count + 1)) + 1 := by
        omega
      have hsum (number : Nat) : number + (target / period + 1 - (count + 1) + 1) =
          number + 1 + (target / period + 1 - (count + 1)) := by omega
      rw [hremaining, List.range'_succ, List.map_cons, hsum, hsum]
      exact hrest
    | false =>
      obtain ⟨hnone, hticking⟩ := isTicking_of_not_isDue hperiod hclock hnow hcount hdue
      refine ⟨_, hticking, ?_⟩
      rw [advanceFrom_of_not_due hdue, hnone]
      rfl

end Clock

namespace Machine

/-- The dispatches of a timer of this period between two times. -/
def ticks (period : Option Nat) (before after : Nat) : List TimerEvent :=
  match period with
  | none => []
  | some period =>
    (List.range' (before / period + 1) (after / period - before / period)).map
      (Clock.tickEvent period)

/-- The timer of the clock, if there is one, has fired whenever it was due. -/
def IsTicking (period : Option Nat) (clock : Clock) (now : Nat) : Prop :=
  ∀ interval, period = some interval → 0 < interval ∧ clock.IsTicking interval now

/-- Time moves on without fail. -/
theorem tick_of_isTicking (machine : Machine) {before after : Nat}
    (hticking : IsTicking machine.period machine.clock before) (hle : before ≤ after) :
    ∃ clock, IsTicking machine.period clock after ∧ machine.tick after =
      some (.ok (ticks machine.period before after).length,
        { machine with
          clock
          trace := machine.trace.pushAll ((ticks machine.period before after).map .timer) }) := by
  cases hperiod : machine.period with
  | none =>
    refine ⟨machine.clock, ?_, ?_⟩
    · intro interval hsome
      cases hsome
    · cases machine
      cases hperiod
      rfl
  | some period =>
    obtain ⟨hpositive, hclock⟩ := hticking period hperiod
    have hcount : before / period + 1 ≤ after / period + 1 :=
      Nat.succ_le_succ (Nat.div_le_div_right hle)
    have hnext : before < (before / period + 1) * period :=
      (Nat.div_lt_iff_lt_mul hpositive).mp (Nat.lt_succ_self _)
    have hbound : after / period < before / period + 1 + (after + 1) :=
      Nat.lt_of_le_of_lt (Nat.div_le_self after period) (Nat.le_add_left _ _)
    obtain ⟨clock, hlast, hadvance⟩ :=
      Clock.advanceFrom_ticks hpositive (after + 1) 0 machine.trace 0 hclock.armed
        (hclock.now_le.trans hle) (hclock.now_le.trans (Nat.le_of_lt hnext)) hcount hbound
    refine ⟨clock, ?_, ?_⟩
    · intro interval hsome
      cases hsome
      exact ⟨hpositive, hlast⟩
    · have hnumber : after / period + 1 - (before / period + 1) = after / period - before / period :=
        Nat.succ_sub_succ _ _
      rw [hnumber] at hadvance
      rw [tick, hperiod]
      simp only [Clock.advanceTo, hadvance, ticks, List.length_map, List.length_range',
        List.map_map, Nat.zero_add]
      rfl

end Machine

end GuestMachine
