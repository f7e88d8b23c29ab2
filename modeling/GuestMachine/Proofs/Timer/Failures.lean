import GuestMachine.Proofs.Timer.Entries
import GuestMachine.Proofs.Timer.Routine
import GuestMachine.Saved.Clock

/-!
# Operations of the clock that fail

An operation fails exactly if it is about a timer that the clock does not have. Arming and disarming
look the timer up first and leave the clock as it is if there is none. A step takes the first entry
from the queue and moves time before it looks the timer up. The queue of a restored clock is not
checked against its timers, so that such a step may fail. Then the handler is not called and no
timer has changed, but the entry is lost and time has moved.
-/

namespace GuestMachine

open Saved

def Answer.failure? : Answer → Option Error
  | armed (.error reason) | disarmed (.error reason) | stepped (.error reason)
  | advanced (.error reason) => some reason
  | _ => none

/-- The timer that has to be there already. -/
def Request.timer? : Request → Option TimerId
  | newTimer _ => none
  | setExpiry id _ | disable id => some id.toNat

namespace Clock

variable {clock : Clock} {id : TimerId} {reason : Error}

theorem timer_eq_error_iff : clock.timer id = .error reason ↔
    (clock.timers.size ≤ id ∨ UInt32.size ≤ id) ∧ reason = .internal (.unknownTimer id) := by
  unfold Clock.timer
  cases hfound : clock.timers[id]? with
  | none =>
    have habsent : clock.timers.size ≤ id := Array.getElem?_eq_none_iff.mp hfound
    simp [habsent, eq_comm]
  | some timer =>
    obtain ⟨hpresent, -⟩ := Array.getElem?_eq_some_iff.mp hfound
    by_cases hname : id < UInt32.size
    · simp [hname, hpresent]
    · simp [hname, Nat.le_of_not_lt hname, eq_comm]

/-! ## Requests -/

/-- A request fails for the timer that it is about, and then nothing has happened, or that timer is
there. -/
theorem perform_cases (request : Request) (clock : Clock) :
    (∃ id reason, request.timer? = some id ∧ clock.timer id = .error reason ∧
      (request.perform clock).1.failure? = some reason ∧ (request.perform clock).2 = clock) ∨
    ((request.perform clock).1.failure? = none ∧
      ∀ id, request.timer? = some id → ∃ timer, clock.timer id = .ok timer) := by
  cases request with
  | newTimer owner => exact .inr ⟨rfl, fun id hid ↦ nomatch hid⟩
  | setExpiry id expiry =>
    cases htimer : clock.timer id.toNat with
    | error reason =>
      refine .inl ⟨_, reason, rfl, htimer, ?_⟩
      rw [Request.perform, setExpiry_of_error htimer]
      exact ⟨rfl, rfl⟩
    | ok timer =>
      refine .inr ⟨?_, fun id hid ↦ Option.some.inj hid ▸ ⟨timer, htimer⟩⟩
      rw [Request.perform, setExpiry_of_timer htimer]
      rfl
  | disable id =>
    cases htimer : clock.timer id.toNat with
    | error reason =>
      refine .inl ⟨_, reason, rfl, htimer, ?_⟩
      rw [Request.perform, disable_of_error htimer]
      exact ⟨rfl, rfl⟩
    | ok timer =>
      refine .inr ⟨?_, fun id hid ↦ Option.some.inj hid ▸ ⟨timer, htimer⟩⟩
      rw [Request.perform, disable_of_timer htimer]
      rfl

/-- A request fails exactly for a timer that is not there, and leaves the clock as it is if it
fails. -/
theorem failure?_perform (request : Request) (clock : Clock) (reason : Error) :
    ((request.perform clock).1.failure? = some reason ↔
      ∃ id, request.timer? = some id ∧ clock.timer id = .error reason) ∧
    ((request.perform clock).1.failure? = some reason → (request.perform clock).2 = clock) := by
  rcases perform_cases request clock with
    ⟨id, found, hid, htimer, hfailure, hsame⟩ | ⟨hdone, hknown⟩
  · rw [hfailure, hid, Option.some_inj]
    refine ⟨⟨?_, ?_⟩, fun _ ↦ hsame⟩
    · rintro rfl
      exact ⟨id, rfl, htimer⟩
    · rintro ⟨other, hother, hreason⟩
      rw [← Option.some.inj hother, htimer] at hreason
      exact Except.error.inj hreason
  · rw [hdone]
    refine ⟨⟨(nomatch ·), ?_⟩, (nomatch ·)⟩
    rintro ⟨id, hid, hreason⟩
    obtain ⟨timer, htimer⟩ := hknown id hid
    rw [htimer] at hreason
    cases hreason

/-! ## Steps -/

/-- A step that finds no timer has taken the entry and has moved time. -/
theorem step_of_unknown {entry : QueueEntry} {rest : TimerQueue}
    (hpop : clock.queue.pop? = some (entry, rest)) (htimer : clock.timer entry.id = .error reason)
    {τ : Type} (handler : TimerHandler τ) (state : τ) :
    clock.step handler state = (.error reason, state,
      { clock with now := max clock.now entry.expiry, queue := rest }) := by
  have hsame : ({ clock with now := max clock.now entry.expiry, queue := rest } : Clock).timer
      entry.id = .error reason := htimer
  simp only [step, hpop, hsame]

/-- A step that fails has found an entry that names no timer. -/
theorem exists_of_step_eq_error (hcoherent : clock.queue.Coherent) {τ : Type}
    {handler : TimerHandler τ} {state : τ} (hfails : (clock.step handler state).1 = .error reason) :
    ∃ entry rest, clock.queue.entries = entry :: rest.entries ∧ rest.Coherent ∧
      clock.queue.pop? = some (entry, rest) ∧ clock.timer entry.id = .error reason := by
  have hpop := hcoherent.pop?_spec
  cases hentries : clock.queue.entries with
  | nil =>
    rw [hentries] at hpop
    rw [step_of_pop?_eq_none hpop] at hfails
    cases hfails
  | cons entry others =>
    rw [hentries] at hpop
    obtain ⟨rest, hpop, hrest, rfl⟩ := hpop
    refine ⟨entry, rest, rfl, hrest, hpop, ?_⟩
    cases htimer : clock.timer entry.id with
    | error other =>
      rw [step_of_unknown hpop htimer] at hfails
      cases hfails
      rfl
    | ok timer =>
      rw [step_of_pop?_eq_some hpop htimer] at hfails
      cases hfails

/-! ## Failures of either kind -/

/-- Arming and disarming fail exactly for a timer that is not there, and leave the clock as it is. A
step fails exactly if the first entry of the queue names no timer. It has then taken that entry away
and moved time to its expiry, if that lies ahead, and has left all else as it was. -/
theorem failure_effects (hcoherent : clock.queue.Coherent) (reason : Error) :
    (∀ id, clock.timer id = .error reason ↔
      (clock.timers.size ≤ id ∨ UInt32.size ≤ id) ∧ reason = .internal (.unknownTimer id)) ∧
    (∀ request : Request,
      ((request.perform clock).1.failure? = some reason ↔
        ∃ id, request.timer? = some id ∧ clock.timer id = .error reason) ∧
      ((request.perform clock).1.failure? = some reason → (request.perform clock).2 = clock)) ∧
    ∀ {τ : Type} (handler : TimerHandler τ) (state : τ),
      ((clock.step handler state).1 = .error reason ↔
        ∃ entry ∈ clock.queue.entries.head?, clock.timer entry.id = .error reason) ∧
      ((clock.step handler state).1 = .error reason →
        ∃ entry rest, clock.queue.entries = entry :: rest.entries ∧ rest.Coherent ∧
          clock.step handler state = (.error reason, state,
            { clock with now := max clock.now entry.expiry, queue := rest })) := by
  refine ⟨fun id ↦ timer_eq_error_iff, fun request ↦ failure?_perform request clock reason,
    fun handler state ↦ ⟨⟨?_, ?_⟩, ?_⟩⟩
  · intro hfails
    obtain ⟨entry, rest, hentries, -, -, htimer⟩ := exists_of_step_eq_error hcoherent hfails
    exact ⟨entry, congrArg List.head? hentries, htimer⟩
  · rintro ⟨entry, hentry, htimer⟩
    rw [← hcoherent.pop?_map_fst] at hentry
    obtain ⟨⟨_, rest⟩, hpop, rfl⟩ := Option.map_eq_some_iff.mp hentry
    rw [step_of_unknown hpop htimer]
  · intro hfails
    obtain ⟨entry, rest, hentries, hrest, hpop, htimer⟩ :=
      exists_of_step_eq_error hcoherent hfails
    exact ⟨entry, rest, hentries, hrest, step_of_unknown hpop htimer handler state⟩

/-- The queue of a clock that is read has been built from entries. -/
theorem coherent_of_ofSaved? {value : Value} (hread : ofSaved? value = some clock) :
    clock.queue.Coherent := by
  obtain ⟨fields, -, hread⟩ := Option.bind_eq_some_iff.mp hread
  obtain ⟨now, -, hread⟩ := Option.bind_eq_some_iff.mp hread
  obtain ⟨timers, -, hread⟩ := Option.bind_eq_some_iff.mp hread
  obtain ⟨queue, hqueue, hread⟩ := Option.bind_eq_some_iff.mp hread
  obtain rfl := Option.some.inj hread
  obtain ⟨part, -, hpart⟩ := Option.bind_eq_some_iff.mp hqueue
  obtain ⟨entries, -, rfl⟩ := Option.map_eq_some_iff.mp hpart
  exact (TimerQueue.ofEntries_spec entries).1

/-- No timers, and an entry of a timer. -/
def danglingSaved : Value := .record [
  ("now", .nat 0),
  ("timers", .list []),
  ("queue", .list [.record [("expiry", .nat 5), ("id", .nat 9)]])]

def silent : TimerHandler Unit := fun _ state clock ↦ (state, clock)

theorem failure_effects_dangling : ∃ clock : Clock,
    ofSaved? danglingSaved = some clock ∧ clock.queue.Coherent ∧
      (clock.step silent ()).1 = .error (.internal (.unknownTimer 9)) ∧
      (clock.step silent ()).2.2.timers = clock.timers ∧
      ((Request.disable 9).perform clock).2 = clock := by
  have hread : ofSaved? danglingSaved = some { queue := .ofEntries [⟨5, 9⟩] } := rfl
  have hcoherent := coherent_of_ofSaved? hread
  obtain ⟨-, hrequests, hsteps⟩ := failure_effects hcoherent (.internal (.unknownTimer 9))
  have hfails := (hsteps silent ()).1.mpr ⟨⟨5, 9⟩, rfl, rfl⟩
  obtain ⟨entry, rest, -, -, hstep⟩ := (hsteps silent ()).2 hfails
  exact ⟨_, hread, hcoherent, hfails, by rw [hstep], (hrequests (.disable 9)).2 rfl⟩

/-- What can be asked of the clock is not as it was before the step that failed. -/
theorem step_failure_moves : ∃ clock : Clock,
    ofSaved? danglingSaved = some clock ∧
      (clock.step silent ()).1 = .error (.internal (.unknownTimer 9)) ∧
      clock.now = 0 ∧ (clock.step silent ()).2.2.now = 5 ∧
      clock.queue.entries = [⟨5, 9⟩] ∧ (clock.step silent ()).2.2.queue.entries = [] := by
  let clock : Clock := { queue := .ofEntries [⟨5, 9⟩] }
  have hread : ofSaved? danglingSaved = some clock := rfl
  obtain ⟨rest, hpop, -, hrest⟩ : ∃ rest, clock.queue.pop? = some (⟨5, 9⟩, rest) ∧
      rest.Coherent ∧ rest.entries = [] := (coherent_of_ofSaved? hread).pop?_spec
  have htimer : clock.timer 9 = .error (.internal (.unknownTimer 9)) := rfl
  have hstep := step_of_unknown hpop htimer silent ()
  refine ⟨clock, hread, ?_, rfl, ?_, rfl, ?_⟩
  · rw [hstep]
  · rw [hstep]
    rfl
  · rw [hstep]
    exact hrest

end Clock

end GuestMachine
