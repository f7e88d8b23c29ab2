import GuestMachine.Proofs.Timer.Reachability

/-!
# Advancing in parts

To advance to one target and from there to a later one is to advance to the later one at once. The
stop on the way moves time without a dispatch; as no timer is due then, the next dispatch moves it
further anyway.
-/

namespace GuestMachine

namespace Clock

section

variable {τ : Type} {handler : TimerHandler τ} {clock : Clock} {target first last : Nat}

/-! ## One call -/

/-- A larger bound does no harm. -/
theorem advanceFrom_mono {bound larger fired : Nat} {state : τ}
    {result : Except Error Nat × τ × Clock} (hbound : bound ≤ larger)
    (hadvance : advanceFrom handler target bound fired state clock = some result) :
    advanceFrom handler target larger fired state clock = some result := by
  induction bound, fired, state, clock using advanceFrom_induction handler target
    generalizing larger with
  | stop bound fired state clock hdue =>
    rw [advanceFrom_of_not_due hdue] at hadvance ⊢
    exact hadvance
  | exhausted fired state clock hdue =>
    rw [advanceFrom_zero_of_due hdue] at hadvance
    cases hadvance
  | fail bound fired state clock reason next moved hdue hstep =>
    obtain ⟨larger, rfl⟩ := Nat.exists_eq_succ_of_ne_zero (Nat.ne_zero_of_lt hbound)
    rw [advanceFrom_of_step_error hdue _ _ hstep] at hadvance ⊢
    exact hadvance
  | fire bound fired state clock event? next moved hdue hstep ih =>
    obtain ⟨larger, rfl⟩ := Nat.exists_eq_succ_of_ne_zero (Nat.ne_zero_of_lt hbound)
    rw [advanceFrom_of_step hdue _ hstep] at hadvance ⊢
    exact ih (Nat.le_of_succ_le_succ hbound) hadvance

/-- Of the dispatches before only the number matters. -/
theorem advanceFrom_add (bound fired extra : Nat) (state : τ) :
    advanceFrom handler target bound (fired + extra) state clock =
      (advanceFrom handler target bound fired state clock).map fun (outcome, final, moved) ↦
        (outcome.map (· + extra), final, moved) := by
  induction bound, fired, state, clock using advanceFrom_induction handler target with
  | stop bound fired state clock hdue =>
    rw [advanceFrom_of_not_due hdue, advanceFrom_of_not_due hdue]
    rfl
  | exhausted fired state clock hdue =>
    rw [advanceFrom_zero_of_due hdue, advanceFrom_zero_of_due hdue]
    rfl
  | fail bound fired state clock reason next moved hdue hstep =>
    rw [advanceFrom_of_step_error hdue _ _ hstep, advanceFrom_of_step_error hdue _ _ hstep]
    rfl
  | fire bound fired state clock event? next moved hdue hstep ih =>
    rw [advanceFrom_of_step hdue _ hstep, advanceFrom_of_step hdue _ hstep, Nat.add_right_comm, ih]

theorem advanceFrom_eq_map_advanceTo (bound fired : Nat) (state : τ) :
    advanceFrom handler target bound fired state clock =
      (clock.advanceTo handler target bound state).map fun (outcome, final, moved) ↦
        (outcome.map (· + fired), final, moved) := by
  rw [advanceTo, ← advanceFrom_add, Nat.zero_add]

/-! ## A stop without dispatch -/

theorem exists_pop?_of_due (hfirst : clock.isDue first = false) (hlast : clock.isDue last = true) :
    ∃ entry rest, clock.queue.pop? = some (entry, rest) ∧ first < entry.expiry := by
  rw [isDue_eq] at hfirst hlast
  cases hpop : clock.queue.pop? with
  | none =>
    rw [hpop] at hlast
    cases hlast
  | some popped =>
    rw [hpop] at hfirst
    exact ⟨popped.1, popped.2, rfl, Nat.lt_of_not_le (of_decide_eq_false hfirst)⟩

/-- The first dispatch is not affected by time that has passed before it is due. -/
theorem step_elapsed {entry : QueueEntry} {rest : TimerQueue}
    (hpop : clock.queue.pop? = some (entry, rest)) (hlate : first < entry.expiry) (state : τ) :
    step { clock with now := max clock.now first } handler state = clock.step handler state := by
  have hnow : max (max clock.now first) entry.expiry = max clock.now entry.expiry := by omega
  simp only [step, hpop, hnow]

theorem advanceFrom_elapsed (hle : first ≤ last) (hdue : clock.isDue first = false)
    (bound fired : Nat) (state : τ) :
    advanceFrom handler last bound fired state { clock with now := max clock.now first } =
      advanceFrom handler last bound fired state clock := by
  have hsame : isDue { clock with now := max clock.now first } last = clock.isDue last := rfl
  cases hlast : clock.isDue last with
  | false =>
    have hnow : max (max clock.now first) last = max clock.now last := by omega
    rw [advanceFrom_of_not_due hlast, advanceFrom_of_not_due (hsame.trans hlast), hnow]
  | true =>
    cases bound with
    | zero => rw [advanceFrom_zero_of_due hlast, advanceFrom_zero_of_due (hsame.trans hlast)]
    | succ bound =>
      -- The dispatch moves time past the stop, which leaves no trace.
      obtain ⟨entry, rest, hpop, hlate⟩ := exists_pop?_of_due hdue hlast
      rw [advanceFrom, advanceFrom, if_pos hlast, if_pos (hsame.trans hlast),
        step_elapsed hpop hlate]

/-! ## Two calls -/

/-- Two calls, one after the other, do what one call does. -/
theorem advanceFrom_join (hle : first ≤ last) {bound later fired total : Nat} {state middle : τ}
    {between : Clock} {result : Except Error Nat × τ × Clock}
    (hfirst : advanceFrom handler first bound fired state clock = some (.ok total, middle, between))
    (hlast : advanceFrom handler last later total middle between = some result) :
    advanceFrom handler last (bound + later) fired state clock = some result := by
  induction bound, fired, state, clock using advanceFrom_induction handler first with
  | stop bound fired state clock hdue =>
    rw [advanceFrom_of_not_due hdue] at hfirst
    cases hfirst
    rw [advanceFrom_elapsed hle hdue] at hlast
    exact advanceFrom_mono (Nat.le_add_left later bound) hlast
  | exhausted fired state clock hdue =>
    rw [advanceFrom_zero_of_due hdue] at hfirst
    cases hfirst
  | fail bound fired state clock reason next moved hdue hstep =>
    rw [advanceFrom_of_step_error hdue _ _ hstep] at hfirst
    cases hfirst
  | fire bound fired state clock event? next moved hdue hstep ih =>
    rw [advanceFrom_of_step hdue _ hstep] at hfirst
    rw [Nat.add_right_comm, advanceFrom_of_step (isDue_mono hle hdue) _ hstep]
    exact ih hfirst

/-- One call does what two calls do, one after the other. The induction is over the dispatches of
the first of the two; where it stops, the second has all others to do. -/
theorem advanceFrom_split (hle : first ≤ last) {bound fired total : Nat} {state final : τ}
    {moved : Clock}
    (hadvance : advanceFrom handler last bound fired state clock = some (.ok total, final, moved)) :
    ∃ part middle between,
      advanceFrom handler first bound fired state clock = some (.ok part, middle, between) ∧
        advanceFrom handler last bound part middle between = some (.ok total, final, moved) := by
  induction bound, fired, state, clock using advanceFrom_induction handler first with
  | stop bound fired state clock hdue =>
    refine ⟨fired, state, _, advanceFrom_of_not_due hdue bound fired state, ?_⟩
    rwa [advanceFrom_elapsed hle hdue]
  | exhausted fired state clock hdue =>
    rw [advanceFrom_zero_of_due (isDue_mono hle hdue)] at hadvance
    cases hadvance
  | fail bound fired state clock reason next stepped hdue hstep =>
    rw [advanceFrom_of_step_error (isDue_mono hle hdue) _ _ hstep] at hadvance
    cases hadvance
  | fire bound fired state clock event? next stepped hdue hstep ih =>
    rw [advanceFrom_of_step (isDue_mono hle hdue) _ hstep] at hadvance
    obtain ⟨part, middle, between, hfirst, hlast⟩ := ih hadvance
    rw [advanceFrom_of_step hdue _ hstep]
    exact ⟨part, middle, between, hfirst, advanceFrom_mono (Nat.le_succ bound) hlast⟩

end

/-! ## Handlers that may not return -/

section

variable {ω σ : Type} {look : Clock → ω}
  {react : TimerEvent → σ → ω → Journal ω → Clock → Option (σ × Journal ω) × Clock}

theorem step_recorded_none (clock : Clock) :
    (clock.step (recorded look react) none).2.1 = none := by
  unfold step
  split
  · rfl
  · dsimp only
    split <;> rfl

/-- Once a handler has not returned, advancing does not return either. -/
theorem advanceFrom_recorded_none {target bound fired : Nat} {clock moved : Clock}
    {memory : Option (σ × Journal ω)} (hmemory : memory = none) {outcome : Except Error Nat}
    {later : Option (σ × Journal ω)}
    (hadvance : advanceFrom (recorded look react) target bound fired memory clock =
      some (outcome, later, moved)) : later = none := by
  have hstay {clock stepped : Clock} {next : Option (σ × Journal ω)}
      {result : Except Error (Option TimerEvent)}
      (hstep : clock.step (recorded look react) none = (result, next, stepped)) : next = none := by
    have hnone : (clock.step (recorded look react) none).2.1 = none := step_recorded_none clock
    rwa [hstep] at hnone
  induction bound, fired, memory, clock
    using advanceFrom_induction (recorded look react) target with
  | stop bound fired memory clock hdue =>
    rw [advanceFrom_of_not_due hdue] at hadvance
    cases hadvance
    exact hmemory
  | exhausted fired memory clock hdue =>
    rw [advanceFrom_zero_of_due hdue] at hadvance
    cases hadvance
  | fail bound fired memory clock reason next stepped hdue hstep =>
    rw [advanceFrom_of_step_error hdue _ _ hstep] at hadvance
    cases hadvance
    exact hstay (hmemory ▸ hstep)
  | fire bound fired memory clock event? next stepped hdue hstep ih =>
    rw [advanceFrom_of_step hdue _ hstep] at hadvance
    exact ih (hstay (hmemory ▸ hstep)) hadvance

end

/-! ## Calls that return -/

variable {σ : Type}

/-- Advancing to `target` returns `outcome`, when the handler and the journal have become `later`
and the clock `moved`. -/
def Advances (callback : Callback Clock σ) (target : UInt64) (clock : Clock)
    (memory : σ × Journal Clock) (outcome : Except Error Nat) (later : σ × Journal Clock)
    (moved : Clock) : Prop :=
  ∃ bound, clock.advanceTo (callback.handler id) target.toNat bound (some memory) =
    some (outcome, some later, moved)

theorem IsSound.advances {clock : Clock} (hclock : clock.IsSound) {callback : Callback Clock σ}
    {target : UInt64} {memory later : σ × Journal Clock} {outcome : Except Error Nat}
    {moved : Clock}
    (hadvances : Advances callback target clock memory outcome later moved) :
    (∃ total, outcome = .ok total) ∧ moved.IsSound := by
  obtain ⟨bound, hadvance⟩ := hadvances
  rw [advanceTo] at hadvance
  have hhandler : Respects _ (callback.handler id) :=
    isSimulation_eq.callback (fun _ _ hsame ↦ hsame.1) callback
  rcases isSimulation_eq.advanceFrom hhandler target bound 0 (some memory) ⟨rfl, hclock⟩ with
    ⟨hnone, -⟩ | ⟨total, final, left, right, hsome, -, -, hleft⟩
  · rw [hadvance] at hnone
    cases hnone
  · rw [hadvance] at hsome
    cases hsome
    exact ⟨⟨total, rfl⟩, hleft⟩

/-- Advancing in two parts dispatches the same timers in the same order, and leaves the same
journal, handler state and clock, as advancing at once. The numbers of dispatches add up. -/
theorem advances_split {clock : Clock} (hclock : clock.IsReachable) {first last : UInt64}
    (hle : first ≤ last) (callback : Callback Clock σ) (memory : σ × Journal Clock) :
    (∀ part rest middle final between moved,
      Advances callback first clock memory part middle between →
      Advances callback last between middle rest final moved →
      ∃ fired more, part = .ok fired ∧ rest = .ok more ∧
        Advances callback last clock memory (.ok (fired + more)) final moved) ∧
    (∀ outcome final moved,
      Advances callback last clock memory outcome final moved →
      ∃ fired more middle between, outcome = .ok (fired + more) ∧
        Advances callback first clock memory (.ok fired) middle between ∧
        Advances callback last between middle (.ok more) final moved) := by
  have hle : first.toNat ≤ last.toNat := hle
  constructor
  · intro part rest middle final between moved hfirst hlast
    obtain ⟨⟨fired, rfl⟩, hbetween⟩ := hclock.isSound.advances hfirst
    obtain ⟨⟨more, rfl⟩, -⟩ := hbetween.advances hlast
    refine ⟨fired, more, rfl, rfl, ?_⟩
    obtain ⟨bound, hfirst⟩ := hfirst
    obtain ⟨later, hlast⟩ := hlast
    refine ⟨bound + later, advanceFrom_join hle hfirst ?_⟩
    rw [advanceFrom_eq_map_advanceTo, hlast, Nat.add_comm fired]
    rfl
  · intro outcome final moved hadvances
    obtain ⟨⟨total, rfl⟩, -⟩ := hclock.isSound.advances hadvances
    obtain ⟨bound, hadvance⟩ := hadvances
    obtain ⟨fired, middle, between, hfirst, hlast⟩ := advanceFrom_split hle hadvance
    cases middle with
    | none => cases advanceFrom_recorded_none rfl hlast
    | some middle =>
      rw [advanceFrom_eq_map_advanceTo] at hlast
      obtain ⟨⟨outcome, later, stopped⟩, hrest, heq⟩ := Option.map_eq_some_iff.mp hlast
      cases outcome with
      | error reason => cases heq
      | ok more =>
        cases heq
        exact ⟨fired, more, middle, between, congrArg _ (Nat.add_comm more fired), ⟨bound, hfirst⟩,
          ⟨bound, hrest⟩⟩

/-- Two timers are armed for the same time. -/
def twoArmed : Routine Clock Unit :=
  .ask (.newTimer 7) fun _ _ ↦ .ask (.newTimer 8) fun _ _ ↦ .ask (.setExpiry 1 5) fun _ _ ↦
    .ask (.setExpiry 0 5) fun _ _ ↦ .finish ()

/-- Arms a timer again when it fires, and counts. -/
def rearm : Callback Clock Nat := fun event count _ ↦
  .ask (.setExpiry (.ofNat event.id) (.ofNat (event.expiry + 3))) fun _ _ ↦ .finish (count + 1)

theorem advances_split_rearm : ∃ clock middle between final moved,
    clock.IsReachable ∧ (6 : UInt64) ≤ 9 ∧
    Advances rearm 6 clock (0, []) (.ok 2) middle between ∧
    Advances rearm 9 between middle (.ok 2) final moved ∧
    Advances rearm 9 clock (0, []) (.ok 4) final moved := by
  have hreach : (twoArmed.perform id [] {}).2.IsReachable := ⟨Unit, twoArmed, rfl⟩
  have hcalls :
      (((twoArmed.perform id [] {}).2.advanceTo (rearm.handler id) 6 2 (some (0, []))).bind
        fun (part, middle, between) ↦
          (between.advanceTo (rearm.handler id) 9 2 middle).map fun (rest, final, _) ↦
            (part, rest, middle.map Prod.fst, final.map Prod.fst)) =
      some (.ok 2, .ok 2, some 2, some 4) := by
    simp only [advanceTo, advanceFrom, isDue_eq, step, TimerQueue.pop?_eq_keys]
    decide +kernel
  obtain ⟨⟨part, middle?, between⟩, hfirst, hrest⟩ := Option.bind_eq_some_iff.mp hcalls
  obtain ⟨⟨rest, final?, moved⟩, hlast, heq⟩ := Option.map_eq_some_iff.mp hrest
  simp only [Prod.mk.injEq, Option.map_eq_some_iff] at heq
  obtain ⟨rfl, rfl, ⟨middle, rfl, -⟩, ⟨final, rfl, -⟩⟩ := heq
  have hle : (6 : UInt64) ≤ 9 := by decide
  obtain ⟨fired, more, hpart, hmore, hadvances⟩ :=
    (advances_split hreach hle rearm (0, [])).1 _ _ _ _ _ _ ⟨2, hfirst⟩ ⟨2, hlast⟩
  cases hpart
  cases hmore
  exact ⟨_, middle, between, final, moved, hreach, hle, ⟨2, hfirst⟩, ⟨2, hlast⟩, hadvances⟩

end Clock

end GuestMachine
