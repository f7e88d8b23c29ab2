import GuestMachine.Proofs.Timer.Entries
import GuestMachine.Proofs.Timer.Reachability
import GuestMachine.Saved.Clock

/-!
# Clocks that cannot be told apart

Nothing that a clock can be asked depends on the sequence numbers of its queue, and no operation
does. So two clocks with the same time, the same timers and the same list of entries give the same
answers for ever, to callers and handlers that see all of this.
-/

namespace GuestMachine

/-- All that a clock can be asked. -/
structure ClockView where
  now : Nat
  timers : Array Timer
  /-- What is pending, in the order of dispatch. -/
  entries : List QueueEntry
  nextExpiry? : Option Nat
  first? : Option TimerId
  pending : Nat
  isIdle : Bool
  isPending : TimerId → Bool
  isEnabled : TimerId → Except Error Bool
  saved : Saved.Value

namespace Clock

def view (clock : Clock) : ClockView where
  now := clock.now
  timers := clock.timers
  entries := clock.queue.entries
  nextExpiry? := clock.nextExpiry?
  first? := clock.queue.peek?
  pending := clock.pending
  isIdle := clock.queue.isEmpty
  isPending := clock.queue.contains
  isEnabled := clock.isEnabled
  saved := clock.toSaved

/-- At most the sequence numbers differ. -/
structure Alike (left right : Clock) : Prop where
  now : left.now = right.now
  timers : left.timers = right.timers
  entries : left.queue.entries = right.queue.entries
  coherentLeft : left.queue.Coherent
  coherentRight : right.queue.Coherent

namespace Alike

variable {left right : Clock}

theorem timer_eq (halike : left.Alike right) (id : TimerId) : left.timer id = right.timer id := by
  rw [timer, timer, halike.timers]

theorem contains_eq (halike : left.Alike right) (id : TimerId) :
    left.queue.contains id = right.queue.contains id := by
  rw [halike.coherentLeft.contains_eq, halike.coherentRight.contains_eq, halike.entries]

theorem view_eq (halike : left.Alike right) : left.view = right.view := by
  have hnext : left.nextExpiry? = right.nextExpiry? := by
    rw [nextExpiry?, nextExpiry?, halike.coherentLeft.peekExpiry?_eq_head?,
      halike.coherentRight.peekExpiry?_eq_head?, halike.entries]
  have hfirst : left.queue.peek? = right.queue.peek? := by
    rw [halike.coherentLeft.peek?_eq_head?, halike.coherentRight.peek?_eq_head?, halike.entries]
  have hpending : left.pending = right.pending := by
    rw [pending, pending, TimerQueue.size_eq, TimerQueue.size_eq, halike.entries]
  have hidle : left.queue.isEmpty = right.queue.isEmpty := by
    rw [TimerQueue.isEmpty_eq, TimerQueue.isEmpty_eq, halike.entries]
  have hcontains : left.queue.contains = right.queue.contains := funext halike.contains_eq
  have henabled : left.isEnabled = right.isEnabled := by
    funext id
    rw [isEnabled, isEnabled, halike.timer_eq]
  have hsaved : left.toSaved = right.toSaved := by
    rw [toSaved, toSaved, TimerQueue.toSaved, TimerQueue.toSaved, halike.now, halike.timers,
      halike.entries]
  rw [view, view, halike.now, halike.timers, halike.entries, hnext, hfirst, hpending, hidle,
    hcontains, henabled, hsaved]

/-! ## Operations -/

theorem newTimer (halike : left.Alike right) (owner : TimerOwner) :
    (left.newTimer owner).1 = (right.newTimer owner).1 ∧
      (left.newTimer owner).2.Alike (right.newTimer owner).2 := by
  have hname : (left.newTimer owner).1 = (right.newTimer owner).1 := by
    rw [Clock.newTimer, Clock.newTimer, halike.timers]
  have htimers : (left.newTimer owner).2.timers = (right.newTimer owner).2.timers := by
    rw [Clock.newTimer, Clock.newTimer, halike.timers]
  exact ⟨hname, { halike with timers := htimers }⟩

/-- The timers change alike, and the queues list the same entries again. -/
theorem requeue (halike : left.Alike right) (timers : Array Timer)
    {leftQueue rightQueue : TimerQueue} (hleft : leftQueue.Coherent) (hright : rightQueue.Coherent)
    (hentries : leftQueue.entries = rightQueue.entries) :
    Alike { left with timers, queue := leftQueue } { right with timers, queue := rightQueue } :=
  ⟨halike.now, rfl, hentries, hleft, hright⟩

theorem request (halike : left.Alike right) (request : Request) :
    (request.perform left).1 = (request.perform right).1 ∧
      (request.perform left).2.Alike (request.perform right).2 := by
  cases request with
  | newTimer owner =>
    obtain ⟨hname, hnext⟩ := halike.newTimer owner.toNat
    exact ⟨congrArg Answer.created hname, hnext⟩
  | setExpiry id expiry =>
    rw [Request.perform, Request.perform]
    cases htimer : right.timer id.toNat with
    | error reason =>
      rw [setExpiry_of_error htimer, setExpiry_of_error ((halike.timer_eq _).trans htimer)]
      exact ⟨rfl, halike⟩
    | ok timer =>
      rw [setExpiry_of_timer htimer, setExpiry_of_timer ((halike.timer_eq _).trans htimer),
        halike.timers]
      refine ⟨rfl, halike.requeue _ (halike.coherentLeft.offer _) (halike.coherentRight.offer _) ?_⟩
      rw [halike.coherentLeft.entries_offer, halike.coherentRight.entries_offer, halike.entries]
  | disable id =>
    rw [Request.perform, Request.perform]
    cases htimer : right.timer id.toNat with
    | error reason =>
      rw [disable_of_error htimer, disable_of_error ((halike.timer_eq _).trans htimer)]
      exact ⟨rfl, halike⟩
    | ok timer =>
      rw [disable_of_timer htimer, disable_of_timer ((halike.timer_eq _).trans htimer),
        halike.timers, halike.contains_eq]
      refine ⟨rfl,
        halike.requeue _ (halike.coherentLeft.unlink _) (halike.coherentRight.unlink _) ?_⟩
      rw [halike.coherentLeft.entries_unlink, halike.coherentRight.entries_unlink, halike.entries]

theorem dispatch (halike : left.Alike right) :
    (left.queue.pop? = none ∧ right.queue.pop? = none) ∨
      ∃ entry leftRest rightRest,
        left.queue.pop? = some (entry, leftRest) ∧ right.queue.pop? = some (entry, rightRest) ∧
        ∀ timer, (left.dispatched entry timer leftRest).Alike
          (right.dispatched entry timer rightRest) := by
  have hleft := halike.coherentLeft.pop?_spec
  have hright := halike.coherentRight.pop?_spec
  rw [halike.entries] at hleft
  cases hentries : right.queue.entries with
  | nil =>
    rw [hentries] at hleft hright
    exact Or.inl ⟨hleft, hright⟩
  | cons entry rest =>
    rw [hentries] at hleft hright
    obtain ⟨leftRest, hleft, hleftCoherent, hleftRest⟩ := hleft
    obtain ⟨rightRest, hright, hrightCoherent, hrightRest⟩ := hright
    refine Or.inr ⟨entry, leftRest, rightRest, hleft, hright, fun timer ↦ ?_⟩
    exact
      { now := congrArg (max · entry.expiry) halike.now
        timers := congrArg (Array.setIfInBounds · entry.id _) halike.timers
        entries := hleftRest.trans hrightRest.symm
        coherentLeft := hleftCoherent
        coherentRight := hrightCoherent }

theorem elapse (halike : left.Alike right) (target : Nat) :
    Alike { left with now := max left.now target } { right with now := max right.now target } :=
  { halike with now := congrArg (max · target) halike.now }

end Alike

/-- Operations keep clocks alike. -/
theorem isSimulation_alike : IsSimulation fun left right ↦ left.Alike right ∧ left.IsSound where
  request hclocks request := by
    obtain ⟨hanswer, hnext⟩ := hclocks.1.request request
    exact ⟨hanswer, hnext, hclocks.2.request request⟩
  dispatch {left right} hclocks := by
    obtain ⟨halike, hsound⟩ := hclocks
    rcases halike.dispatch with hempty | ⟨entry, leftRest, rightRest, hleft, hright, hnext⟩
    · exact Or.inl hempty
    · obtain ⟨timer, htimer⟩ := hsound.timer_of_pop? hleft
      exact Or.inr ⟨entry, timer, leftRest, rightRest, hleft, hright, htimer,
        (halike.timer_eq entry.id).symm.trans htimer, halike.now, hnext timer,
        hsound.dispatched hleft htimer⟩
  elapse hclocks target := ⟨hclocks.1.elapse target.toNat, hclocks.2.elapse target⟩

end Clock

end GuestMachine
