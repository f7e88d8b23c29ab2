import GuestMachine.Proofs.Timer.Fates

/-!
# Routines

Callers and handlers work on the clock through its operations. What they do next may depend on all
answers so far and on what they see of the clock, and handlers may let time pass themselves. Two
clocks that stay in step under the single operations stay in step under every routine.
-/

namespace GuestMachine

/-- An operation that calls no handler. -/
inductive Request where
  | newTimer (owner : UInt32)
  | setExpiry (id : UInt32) (expiry : UInt64)
  | disable (id : UInt32)

/-- An operation that calls handlers. -/
inductive Drive where
  | step
  | advanceTo (target : UInt64) (bound : Nat)

/-- The result of an operation, or what a handler is told. -/
inductive Answer where
  | created (id : TimerId)
  | armed (result : Except Error Unit)
  | disarmed (result : Except Error Bool)
  | stepped (result : Except Error (Option TimerEvent))
  | advanced (result : Except Error Nat)
  | dispatched (event : TimerEvent)

/-- All answers, each with what is seen of the clock then. -/
abbrev Journal (ω : Type) := List (Answer × ω)

def Request.perform : Request → Clock → Answer × Clock
  | .newTimer owner, clock =>
    let (id, clock) := clock.newTimer owner.toNat
    (.created id, clock)
  | .setExpiry id expiry, clock =>
    match clock.setExpiry id.toNat expiry.toNat with
    | .ok clock => (.armed (.ok ()), clock)
    | .error reason => (.armed (.error reason), clock)
  | .disable id, clock =>
    match clock.disable id.toNat with
    | .ok (pending, clock) => (.disarmed (.ok pending), clock)
    | .error reason => (.disarmed (.error reason), clock)

/-- There is no result if advancing takes more dispatches than it was allowed. -/
def Drive.perform {τ : Type} (handler : TimerHandler τ) :
    Drive → τ → Clock → Option (Answer × τ × Clock)
  | .step, state, clock =>
    let (result, state, clock) := clock.step handler state
    some (.stepped result, state, clock)
  | .advanceTo target bound, state, clock =>
    (clock.advanceTo handler target.toNat bound state).map fun (result, state, clock) ↦
      (.advanced result, state, clock)

/-- What is done with a clock of which `ω` is seen, and the state that it ends in. A state goes
through the handlers as well. -/
inductive Routine (ω σ : Type) where
  | finish (state : σ)
  /-- Does not return. -/
  | hang
  | ask (request : Request) (next : Answer → ω → Routine ω σ)
  | proceed (drive : Drive) (state : σ) (reaction : TimerEvent → σ → ω → Routine ω σ)
      (next : Answer → σ → ω → Routine ω σ)

/-- What a handler with a state does when it is called. -/
abbrev Callback (ω σ : Type) := TimerEvent → σ → ω → Routine ω σ

variable {ω σ τ : Type}

/-- Writes down that a handler is called. Once some part of it has not returned, there is nothing
left to go on with, and nothing is done any more. -/
def recorded (look : Clock → ω)
    (react : TimerEvent → σ → ω → Journal ω → Clock → Option (σ × Journal ω) × Clock) :
    TimerHandler (Option (σ × Journal ω))
  | _, none, clock => (none, clock)
  | event, some (state, journal), clock =>
    react event state (look clock) (journal ++ [(.dispatched event, look clock)]) clock

/-- Works on the clock and writes the answers down. There is no state at the end if some part does
not return. -/
def Routine.perform (look : Clock → ω) :
    Routine ω σ → Journal ω → Clock → Option (σ × Journal ω) × Clock
  | .finish state, journal, clock => (some (state, journal), clock)
  | .hang, _, clock => (none, clock)
  | .ask request next, journal, clock =>
    let (answer, clock) := request.perform clock
    (next answer (look clock)).perform look (journal ++ [(answer, look clock)]) clock
  | .proceed drive state reaction next, journal, clock =>
    let handler := recorded look fun event state seen ↦ (reaction event state seen).perform look
    match drive.perform handler (some (state, journal)) clock with
    | some (answer, some (state, journal), clock) =>
      (next answer state (look clock)).perform look (journal ++ [(answer, look clock)]) clock
    | some (_, none, clock) => (none, clock)
    | none => (none, clock)

def Callback.handler (look : Clock → ω) (callback : Callback ω σ) :
    TimerHandler (Option (σ × Journal ω)) :=
  recorded look fun event state seen ↦ (callback event state seen).perform look

namespace Clock

/-- The clock is what some routine makes of a new one. The routine need not have returned, so that
the clocks which handlers see are reached, too. -/
def IsReachable (clock : Clock) : Prop :=
  ∃ (σ : Type) (routine : Routine Clock σ), (routine.perform id [] {}).2 = clock

/-! ## Clocks in step -/

/-- Related clocks give the same answers to the single operations and remain related, and every
queued timer is known. -/
structure IsSimulation (R : Clock → Clock → Prop) : Prop where
  request {left right : Clock} : R left right → ∀ request : Request,
    (request.perform left).1 = (request.perform right).1 ∧
      R (request.perform left).2 (request.perform right).2
  dispatch {left right : Clock} : R left right →
    (left.queue.pop? = none ∧ right.queue.pop? = none) ∨
      ∃ entry timer leftRest rightRest,
        left.queue.pop? = some (entry, leftRest) ∧ right.queue.pop? = some (entry, rightRest) ∧
        left.timer entry.id = .ok timer ∧ right.timer entry.id = .ok timer ∧
        left.now = right.now ∧
        R (left.dispatched entry timer leftRest) (right.dispatched entry timer rightRest)
  elapse {left right : Clock} : R left right → ∀ target : UInt64,
    R { left with now := max left.now target.toNat }
      { right with now := max right.now target.toNat }

/-- The handler does the same to related clocks. -/
def Respects (R : Clock → Clock → Prop) (handler : TimerHandler τ) : Prop :=
  ∀ event state left right, R left right →
    (handler event state left).1 = (handler event state right).1 ∧
      R (handler event state left).2 (handler event state right).2

namespace IsSimulation

variable {R : Clock → Clock → Prop} {left right : Clock} {handler : TimerHandler τ}

theorem step (hsim : IsSimulation R) (hhandler : Respects R handler) (hclocks : R left right)
    (state : τ) : ∃ event? next leftNext rightNext,
    left.step handler state = (.ok event?, next, leftNext) ∧
      right.step handler state = (.ok event?, next, rightNext) ∧ R leftNext rightNext := by
  rcases hsim.dispatch hclocks with ⟨hleft, hright⟩ |
    ⟨entry, timer, leftRest, rightRest, hleft, hright, htimerLeft, htimerRight, hnow, hnext⟩
  · rw [step_of_pop?_eq_none hleft, step_of_pop?_eq_none hright]
    exact ⟨none, state, left, right, rfl, rfl, hclocks⟩
  · rw [step_of_pop?_eq_some hleft htimerLeft, step_of_pop?_eq_some hright htimerRight, hnow]
    obtain ⟨hstate, hclock⟩ := hhandler
      ⟨entry.id, timer.owner, entry.expiry, max right.now entry.expiry⟩ state _ _ hnext
    refine ⟨_, _, _, _, rfl, ?_, hclock⟩
    rw [hstate]

theorem isDue_eq (hsim : IsSimulation R) (hclocks : R left right) (target : Nat) :
    left.isDue target = right.isDue target := by
  rw [Clock.isDue_eq, Clock.isDue_eq]
  rcases hsim.dispatch hclocks with
    ⟨hleft, hright⟩ | ⟨entry, timer, leftRest, rightRest, hleft, hright, -⟩
  · rw [hleft, hright]
  · rw [hleft, hright]
    rfl

/-- Both calls return or neither does, and no timer is unknown. -/
theorem advanceFrom (hsim : IsSimulation R) (hhandler : Respects R handler) (target : UInt64)
    (bound fired : Nat) (state : τ) (hclocks : R left right) :
    (Clock.advanceFrom handler target.toNat bound fired state left = none ∧
        Clock.advanceFrom handler target.toNat bound fired state right = none) ∨
      ∃ total final leftNext rightNext,
        Clock.advanceFrom handler target.toNat bound fired state left =
            some (.ok total, final, leftNext) ∧
          Clock.advanceFrom handler target.toNat bound fired state right =
            some (.ok total, final, rightNext) ∧
          R leftNext rightNext := by
  induction bound, fired, state, right using advanceFrom_induction handler target.toNat
    generalizing left with
  | stop bound fired state right hdue =>
    have hleft := (hsim.isDue_eq hclocks target.toNat).trans hdue
    rw [advanceFrom_of_not_due hleft, advanceFrom_of_not_due hdue]
    exact Or.inr ⟨fired, state, _, _, rfl, rfl, hsim.elapse hclocks target⟩
  | exhausted fired state right hdue =>
    have hleft := (hsim.isDue_eq hclocks target.toNat).trans hdue
    rw [advanceFrom_zero_of_due hleft, advanceFrom_zero_of_due hdue]
    exact Or.inl ⟨rfl, rfl⟩
  | fail bound fired state right reason next moved hdue hstep =>
    obtain ⟨event?, _, leftNext, rightNext, -, hright, -⟩ := hsim.step hhandler hclocks state
    rw [hright] at hstep
    cases hstep
  | fire bound fired state right event? next moved hdue hstep ih =>
    have hleft := (hsim.isDue_eq hclocks target.toNat).trans hdue
    obtain ⟨_, _, leftNext, rightNext, hstepLeft, hstepRight, hnext⟩ :=
      hsim.step hhandler hclocks state
    rw [hstepRight] at hstep
    cases hstep
    rw [advanceFrom_of_step hleft _ hstepLeft, advanceFrom_of_step hdue _ hstepRight]
    exact ih hnext

theorem drive (hsim : IsSimulation R) (hhandler : Respects R handler) (drive : Drive)
    (state : τ) (hclocks : R left right) :
    (drive.perform handler state left = none ∧ drive.perform handler state right = none) ∨
      ∃ answer final leftNext rightNext,
        drive.perform handler state left = some (answer, final, leftNext) ∧
          drive.perform handler state right = some (answer, final, rightNext) ∧
          R leftNext rightNext := by
  cases drive with
  | step =>
    obtain ⟨event?, next, leftNext, rightNext, hleft, hright, hnext⟩ :=
      hsim.step hhandler hclocks state
    rw [Drive.perform, Drive.perform, hleft, hright]
    exact Or.inr ⟨_, next, leftNext, rightNext, rfl, rfl, hnext⟩
  | advanceTo target bound =>
    rw [Drive.perform, Drive.perform, advanceTo, advanceTo]
    rcases hsim.advanceFrom hhandler target bound 0 state hclocks with
      ⟨hleft, hright⟩ | ⟨total, final, leftNext, rightNext, hleft, hright, hnext⟩
    · rw [hleft, hright]
      exact Or.inl ⟨rfl, rfl⟩
    · rw [hleft, hright]
      exact Or.inr ⟨_, final, leftNext, rightNext, rfl, rfl, hnext⟩

/-! ## Routines on clocks in step -/

variable {look : Clock → ω}

theorem recorded (hlook : ∀ left right, R left right → look left = look right)
    {react : TimerEvent → σ → ω → Journal ω → Clock → Option (σ × Journal ω) × Clock}
    (hreact : ∀ event state seen journal left right, R left right →
      (react event state seen journal left).1 = (react event state seen journal right).1 ∧
        R (react event state seen journal left).2 (react event state seen journal right).2) :
    Respects R (recorded look react) := by
  intro event memory left right hclocks
  cases memory with
  | none => exact ⟨rfl, hclocks⟩
  | some memory =>
    obtain ⟨state, journal⟩ := memory
    simp only [GuestMachine.recorded, hlook _ _ hclocks]
    exact hreact event state _ _ left right hclocks

/-- A routine cannot tell related clocks apart. The induction is over the routine, so that the
handlers that it brings along are covered. -/
theorem perform (hsim : IsSimulation R)
    (hlook : ∀ left right, R left right → look left = look right)
    (routine : Routine ω σ) (journal : Journal ω) (hclocks : R left right) :
    (routine.perform look journal left).1 = (routine.perform look journal right).1 ∧
      R (routine.perform look journal left).2 (routine.perform look journal right).2 := by
  induction routine generalizing journal left right with
  | finish state => exact ⟨rfl, hclocks⟩
  | hang => exact ⟨rfl, hclocks⟩
  | ask request next ih =>
    obtain ⟨hanswer, hnext⟩ := hsim.request hclocks request
    simp only [Routine.perform, hanswer, hlook _ _ hnext]
    exact ih _ _ _ hnext
  | proceed drive state reaction next ihReaction ihNext =>
    -- Whatever the handler does when it is called is a routine, too.
    have hhandler : Respects R (GuestMachine.recorded look fun event state seen ↦
        (reaction event state seen).perform look) :=
      recorded hlook fun event state seen journal left right hclocks ↦
        ihReaction event state seen journal hclocks
    simp only [Routine.perform]
    rcases hsim.drive hhandler drive (some (state, journal)) hclocks with
      ⟨hleft, hright⟩ | ⟨answer, final, leftNext, rightNext, hleft, hright, hnext⟩
    · rw [hleft, hright]
      exact ⟨rfl, hclocks⟩
    · rw [hleft, hright]
      cases final with
      | none => exact ⟨rfl, hnext⟩
      | some memory =>
        simp only [hlook _ _ hnext]
        exact ihNext answer memory.1 _ _ hnext

theorem callback (hsim : IsSimulation R)
    (hlook : ∀ left right, R left right → look left = look right)
    (callback : Callback ω σ) : Respects R (callback.handler look) :=
  recorded hlook fun event state seen journal _ _ hclocks ↦
    hsim.perform hlook (callback event state seen) journal hclocks

end IsSimulation

end Clock

end GuestMachine
