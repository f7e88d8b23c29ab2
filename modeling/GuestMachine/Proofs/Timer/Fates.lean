import GuestMachine.Proofs.Timer.Operations
import GuestMachine.Proofs.Timer.History
import Mathlib.Logic.ExistsUnique

/-!
# The fate of an arming

Callers and handlers work on the clock through its operations only, and may decide on each operation
by all that they have seen. Whatever they do, the queue holds the live armings of what has happened,
in the order in which they are to be dispatched. Hence every arming is dispatched once, superseded,
cancelled or still pending, and time does not decrease.
-/

namespace GuestMachine

/-- What a caller does with the clock, one operation after another, and the state that it ends in.
After each operation it sees the clock as it then is. -/
inductive Conduct (σ : Type) where
  | finish (state : σ)
  | newTimer (owner : TimerOwner) (next : Clock → Conduct σ)
  | setExpiry (id : TimerId) (expiry : Nat) (next : Clock → Conduct σ)
  | disable (id : TimerId) (next : Clock → Conduct σ)
  | step (state : σ) (reaction : TimerEvent → σ → Clock → Conduct σ) (next : σ → Clock → Conduct σ)

/-- How a handler with a state works on the clock when it is called. -/
abbrev Reaction (σ : Type) := TimerEvent → σ → Clock → Conduct σ

/-- Works on the clock and writes the history down. -/
def Conduct.perform {σ : Type} : Conduct σ → History → Clock → (σ × History) × Clock
  | .finish state, history, clock => ((state, history), clock)
  | .newTimer owner next, history, clock =>
    let clock := (clock.newTimer owner).2
    (next clock).perform (history ++ [.created owner]) clock
  | .setExpiry id expiry next, history, clock =>
    match clock.setExpiry id expiry with
    | .ok clock => (next clock).perform (history ++ [.armed id expiry]) clock
    | .error _ => (next clock).perform history clock
  | .disable id next, history, clock =>
    match clock.disable id with
    | .ok (_, clock) => (next clock).perform (history ++ [.disarmed id]) clock
    | .error _ => (next clock).perform history clock
  | .step state reaction next, history, clock =>
    let (_, (state, history), clock) := clock.step (fun event (state, history) clock ↦
      (reaction event state clock).perform (history ++ [.dispatched event]) clock) (state, history)
    (next state clock).perform history clock

def Reaction.handler {σ : Type} (reaction : Reaction σ) : TimerHandler (σ × History) :=
  fun event (state, history) clock ↦
    (reaction event state clock).perform (history ++ [.dispatched event]) clock

/-- What is done with a clock from outside. -/
inductive ClockCall (σ : Type) where
  | conduct (act : σ → Clock → Conduct σ)
  | advanceTo (target bound : Nat) (reaction : Reaction σ)

namespace ClockCall

variable {σ : Type}

def perform : (σ × History) × Clock → ClockCall σ → Option ((σ × History) × Clock)
  | ((state, history), clock), .conduct act => some ((act state clock).perform history clock)
  | ((state, history), clock), .advanceTo target bound reaction =>
    match clock.advanceTo reaction.handler target bound (state, history) with
    | none => none
    | some (.ok _, (state, history), clock) => some ((state, history ++ [.elapsed target]), clock)
    | some (.error _, (state, history), clock) => some ((state, history), clock)

/-- Works on a new clock. There is no result if some advance takes more dispatches than it was
allowed. -/
def run (calls : List (ClockCall σ)) (state : σ) : Option ((σ × History) × Clock) :=
  calls.foldlM perform ((state, []), {})

end ClockCall

/-! ## Timers by name -/

/-- Every timer stands at its own name, as far as there are names, and these are the owners. -/
structure TimersOf (owners : List TimerOwner) (timers : Array Timer) : Prop where
  named (id : TimerId) (timer : Timer) :
    timers[id]? = some timer → id < UInt32.size → timer.id = id
  owners : timers.toList.map Timer.owner = owners

namespace TimersOf

variable {owners : List TimerOwner} {timers : Array Timer}

theorem owner_eq (htimers : TimersOf owners timers) {id : TimerId} {timer : Timer}
    (htimer : timers[id]? = some timer) : owners[id]? = some timer.owner := by
  rw [← htimers.owners, List.getElem?_map, Array.getElem?_toList, htimer]
  rfl

theorem push (htimers : TimersOf owners timers) (owner : TimerOwner) :
    TimersOf (owners ++ [owner])
      (timers.push { id := timers.size % UInt32.size, owner }) where
  named id timer htimer hname := by
    rw [Array.getElem?_push] at htimer
    by_cases hid : id = timers.size
    · rw [if_pos hid] at htimer
      rw [← Option.some.inj htimer, ← hid]
      exact Nat.mod_eq_of_lt hname
    · rw [if_neg hid] at htimer
      exact htimers.named id timer htimer hname
  owners := by
    rw [Array.toList_push, List.map_append, htimers.owners]
    rfl

/-- A timer may change if it keeps its name and its owner. -/
theorem set (htimers : TimersOf owners timers) {id : TimerId} {timer changed : Timer}
    (htimer : timers[id]? = some timer) (hname : changed.id = timer.id)
    (howner : changed.owner = timer.owner) : TimersOf owners (timers.setIfInBounds id changed) where
  named other found hfound hother := by
    rw [Array.getElem?_setIfInBounds] at hfound
    by_cases hid : id = other
    · subst hid
      rw [if_pos rfl, if_pos (Array.getElem?_eq_some_iff.mp htimer).1] at hfound
      rw [← Option.some.inj hfound, hname]
      exact htimers.named id timer htimer hother
    · rw [if_neg hid] at hfound
      exact htimers.named other found hfound hother
  owners := by
    rw [← htimers.owners]
    apply List.ext_getElem?
    intro other
    simp only [Array.toList_setIfInBounds, List.getElem?_map, List.getElem?_set,
      Array.getElem?_toList, Array.length_toList]
    by_cases hid : id = other
    · subst hid
      rw [if_pos rfl, if_pos (Array.getElem?_eq_some_iff.mp htimer).1, htimer]
      exact congrArg some howner
    · rw [if_neg hid]

end TimersOf

namespace Clock

/-! ## What the clock knows of its history -/

/-- The clock stands as its history says. -/
structure Reflects (clock : Clock) (history : History) : Prop where
  time : clock.now = history.time
  timers : TimersOf history.owners clock.timers
  coherent : clock.queue.Coherent
  sequence : clock.queue.nextSequence = history.armings
  positions (id : TimerId) (key : QueueKey) :
    clock.queue.position? id = some key ↔ history.Holds id key
  known (id : TimerId) (key : QueueKey) :
    history.Holds id key → id < clock.timers.size ∧ id < UInt32.size
  sound : history.IsSound

/-- The handler leaves the clock as the history says that it writes down. -/
def IsRecordedBy {σ : Type} (handler : TimerHandler (σ × History)) : Prop :=
  ∀ event state history clock, Reflects clock (history ++ [.dispatched event]) →
    Reflects (handler event (state, history) clock).2 (handler event (state, history) clock).1.2

theorem reflects_new : Reflects {} [] where
  time := rfl
  timers := ⟨fun id timer htimer ↦ by simp at htimer, rfl⟩
  coherent := TimerQueue.coherent_empty
  sequence := rfl
  positions id key := by
    rw [TimerQueue.position?_empty]
    constructor
    · intro hkey
      cases hkey
    · rintro ⟨position, hlive, -⟩
      exact absurd hlive.lt_length (Nat.not_lt_zero position)
  known id key := by
    rintro ⟨position, hlive, -⟩
    exact absurd hlive.lt_length (Nat.not_lt_zero position)
  sound := History.isSound_nil

namespace Reflects

variable {clock : Clock} {history : History}

theorem newTimer (hclock : clock.Reflects history) (owner : TimerOwner) :
    (clock.newTimer owner).2.Reflects (history ++ [.created owner]) where
  time := by
    rw [History.time_append]
    exact hclock.time
  timers := by
    rw [History.owners_append]
    exact hclock.timers.push owner
  coherent := hclock.coherent
  sequence := by
    rw [History.armings_append]
    exact hclock.sequence
  positions id key := by
    rw [History.holds_append_of_timer?_eq_none rfl]
    exact hclock.positions id key
  known id key hholds := by
    rw [History.holds_append_of_timer?_eq_none rfl] at hholds
    obtain ⟨hsize, hname⟩ := hclock.known id key hholds
    refine ⟨?_, hname⟩
    calc
      id < clock.timers.size := hsize
      _ ≤ (clock.newTimer owner).2.timers.size := by simp [Clock.newTimer]
  sound := hclock.sound.append fun event hlast ↦ by cases hlast

theorem setExpiry (hclock : clock.Reflects history) {id : TimerId} {expiry : Nat} {changed : Clock}
    (hset : clock.setExpiry id expiry = .ok changed) :
    changed.Reflects (history ++ [.armed id expiry]) := by
  obtain ⟨timer, hfound, rfl⟩ := setExpiry_eq_ok hset
  obtain ⟨htimer, hbound⟩ := timer_eq_ok_iff.mp hfound
  have hname := hclock.timers.named id timer htimer hbound
  refine
    { time := ?_, timers := ?_, coherent := hclock.coherent.offer _, sequence := ?_
      positions := ?_, known := ?_, sound := ?_ }
  · rw [History.time_append]
    exact hclock.time
  · rw [History.owners_append_of_owner?_eq_none rfl]
    exact hclock.timers.set htimer rfl rfl
  · rw [History.armings_append, TimerQueue.nextSequence_offer, hclock.sequence]
    rfl
  · intro other key
    rw [TimerQueue.position?_offer, History.holds_append_iff, hname, hclock.sequence]
    by_cases hother : id = other
    · subst hother
      simp [Happening.timer?, Prod.ext_iff, eq_comm]
    · simpa [Happening.timer?, hother] using hclock.positions other key
  · intro other key hholds
    rw [Array.size_setIfInBounds]
    rcases History.holds_append_iff.mp hholds with ⟨hbefore, -⟩ | ⟨hlast, -⟩
    · exact hclock.known other key hbefore
    · cases hlast
      exact ⟨(Array.getElem?_eq_some_iff.mp htimer).1, hbound⟩
  · exact hclock.sound.append fun event hlast ↦ by cases hlast

theorem disable (hclock : clock.Reflects history) {id : TimerId} {pending : Bool} {changed : Clock}
    (hdisable : clock.disable id = .ok (pending, changed)) :
    changed.Reflects (history ++ [.disarmed id]) := by
  obtain ⟨timer, hfound, rfl⟩ := disable_eq_ok hdisable
  obtain ⟨htimer, hbound⟩ := timer_eq_ok_iff.mp hfound
  have hname := hclock.timers.named id timer htimer hbound
  refine
    { time := ?_, timers := ?_, coherent := hclock.coherent.unlink _, sequence := ?_
      positions := ?_, known := ?_, sound := ?_ }
  · rw [History.time_append]
    exact hclock.time
  · rw [History.owners_append_of_owner?_eq_none rfl]
    exact hclock.timers.set htimer rfl rfl
  · rw [History.armings_append, TimerQueue.nextSequence_unlink]
    exact hclock.sequence
  · intro other key
    rw [TimerQueue.position?_unlink, History.holds_append_of_not_arming rfl, hname]
    by_cases hother : id = other
    · simp [Happening.timer?, hother]
    · simpa [Happening.timer?, hother] using hclock.positions other key
  · intro other key hholds
    rw [Array.size_setIfInBounds]
    exact hclock.known other key (History.holds_append_of_not_arming rfl |>.mp hholds).1
  · exact hclock.sound.append fun event hlast ↦ by cases hlast

theorem elapse (hclock : clock.Reflects history) (target : Nat) :
    Reflects { clock with now := max clock.now target } (history ++ [.elapsed target]) where
  time := by
    rw [History.time_append, ← hclock.time]
    rfl
  timers := by
    rw [History.owners_append_of_owner?_eq_none rfl]
    exact hclock.timers
  coherent := hclock.coherent
  sequence := by
    rw [History.armings_append]
    exact hclock.sequence
  positions id key := by
    rw [History.holds_append_of_timer?_eq_none rfl]
    exact hclock.positions id key
  known id key hholds := by
    rw [History.holds_append_of_timer?_eq_none rfl] at hholds
    exact hclock.known id key hholds
  sound := hclock.sound.append fun event hlast ↦ by cases hlast

/-- The first entry of the queue is the live arming that is to be dispatched. -/
theorem dispatch (hclock : clock.Reflects history) {entry : QueueEntry} {rest : TimerQueue}
    (hpop : clock.queue.pop? = some (entry, rest)) {timer : Timer}
    (hfound : clock.timer entry.id = .ok timer) :
    Reflects (clock.dispatched entry timer rest)
      (history ++ [.dispatched
        ⟨entry.id, timer.owner, entry.expiry, max clock.now entry.expiry⟩]) := by
  have htimer := (timer_eq_ok_iff.mp hfound).1
  obtain ⟨sequence, hfirst, hleast, hcoherent, hnext, hrest⟩ := hclock.coherent.pop?_eq_some hpop
  refine
    { time := ?_, timers := ?_, coherent := hcoherent, sequence := ?_
      positions := ?_, known := ?_, sound := ?_ }
  · rw [History.time_append]
    rfl
  · rw [History.owners_append_of_owner?_eq_none rfl]
    exact hclock.timers.set htimer rfl rfl
  · rw [History.armings_append, dispatched, hnext]
    exact hclock.sequence
  · intro other key
    rw [dispatched, hrest, History.holds_append_of_not_arming rfl]
    by_cases hother : entry.id = other
    · simp [Happening.timer?, hother]
    · simpa [Happening.timer?, hother] using hclock.positions other key
  · intro other key hholds
    rw [dispatched, Array.size_setIfInBounds]
    exact hclock.known other key (History.holds_append_of_not_arming rfl |>.mp hholds).1
  · apply hclock.sound.append
    intro event hlast
    cases hlast
    obtain ⟨position, hlive, hcount⟩ := (hclock.positions _ _).mp hfirst
    refine
      { owner := hclock.timers.owner_eq htimer
        now := by rw [hclock.time]
        least := ⟨position, hlive, ?_⟩ }
    intro other id expiry hother
    have hheld := (hclock.positions id (expiry, History.armings (history.take other))).mpr
      ⟨other, hother, rfl⟩
    rcases hleast _ _ hheld with hlt | ⟨heq, hle⟩
    · exact Or.inl hlt
    · exact Or.inr ⟨heq, hother.position_le ((Nat.le_of_eq hcount.symm).trans hle)⟩

/-! ## Steps and runs -/

/-- The first entry of the queue names a timer. -/
theorem timer_of_pop? (hclock : clock.Reflects history) {entry : QueueEntry} {rest : TimerQueue}
    (hpop : clock.queue.pop? = some (entry, rest)) : ∃ timer, clock.timer entry.id = .ok timer := by
  obtain ⟨sequence, hfirst, -⟩ := hclock.coherent.pop?_eq_some hpop
  obtain ⟨hknown, hname⟩ := hclock.known _ _ ((hclock.positions _ _).mp hfirst)
  exact ⟨_, timer_eq_ok_iff.mpr ⟨Array.getElem?_eq_getElem hknown, hname⟩⟩

variable {σ : Type}

/-- A step meets no unknown timer. -/
theorem step (hclock : clock.Reflects history) {handler : TimerHandler (σ × History)}
    (hhandler : IsRecordedBy handler) (state : σ) :
    (∃ event?, (clock.step handler (state, history)).1 = .ok event?) ∧
      Reflects (clock.step handler (state, history)).2.2
        (clock.step handler (state, history)).2.1.2 := by
  cases hpop : clock.queue.pop? with
  | none =>
    rw [step_of_pop?_eq_none hpop]
    exact ⟨⟨none, rfl⟩, hclock⟩
  | some popped =>
    obtain ⟨entry, rest⟩ := popped
    obtain ⟨timer, hfound⟩ := hclock.timer_of_pop? hpop
    rw [step_of_pop?_eq_some hpop hfound]
    exact ⟨⟨_, rfl⟩, hhandler _ state history _ (hclock.dispatch hpop hfound)⟩

/-- Advancing meets no unknown timer; at its end the target has to be added to the history. -/
theorem advanceFrom {handler : TimerHandler (σ × History)} (hhandler : IsRecordedBy handler)
    (target bound fired : Nat) {memory later : σ × History} (hclock : clock.Reflects memory.2)
    {outcome : Except Error Nat} {advanced : Clock}
    (hadvance : Clock.advanceFrom handler target bound fired memory clock =
      some (outcome, later, advanced)) :
    (∃ total, outcome = .ok total) ∧ advanced.Reflects (later.2 ++ [.elapsed target]) := by
  induction bound, fired, memory, clock using advanceFrom_induction handler target with
  | stop bound fired memory clock hdue =>
    rw [advanceFrom_of_not_due hdue] at hadvance
    cases hadvance
    exact ⟨⟨fired, rfl⟩, hclock.elapse target⟩
  | exhausted fired memory clock hdue =>
    rw [advanceFrom_zero_of_due hdue] at hadvance
    cases hadvance
  | fail bound fired memory clock reason next moved hdue hstep =>
    obtain ⟨⟨event?, hevent⟩, -⟩ := hclock.step hhandler memory.1
    rw [hstep] at hevent
    cases hevent
  | fire bound fired memory clock event? next moved hdue hstep ih =>
    have hnext := (hclock.step hhandler memory.1).2
    rw [hstep] at hnext
    rw [advanceFrom_of_step hdue _ hstep] at hadvance
    exact ih hnext hadvance

/-- Whatever a caller does, the clock stands as the history says afterwards. The induction is over
what the caller does, so that the handlers of its steps are covered. -/
theorem perform (conduct : Conduct σ) (hclock : clock.Reflects history) :
    Reflects (conduct.perform history clock).2 (conduct.perform history clock).1.2 := by
  induction conduct generalizing history clock with
  | finish state => exact hclock
  | newTimer owner next ih => exact ih _ (hclock.newTimer owner)
  | setExpiry id expiry next ih =>
    rw [Conduct.perform]
    cases hset : clock.setExpiry id expiry with
    | ok changed => exact ih changed (hclock.setExpiry hset)
    | error reason => exact ih clock hclock
  | disable id next ih =>
    rw [Conduct.perform]
    cases hdisable : clock.disable id with
    | ok result => exact ih result.2 (hclock.disable hdisable)
    | error reason => exact ih clock hclock
  | step state reaction next ihReaction ihNext =>
    have hreaction : IsRecordedBy fun event (memory : σ × History) clock ↦
        (reaction event memory.1 clock).perform (memory.2 ++ [.dispatched event]) clock :=
      fun event state history clock hevent ↦ ihReaction event state clock hevent
    exact ihNext _ _ (hclock.step hreaction state).2

theorem handler (reaction : Reaction σ) : IsRecordedBy reaction.handler :=
  fun event state _ clock hevent ↦ perform (reaction event state clock) hevent

theorem call (call : ClockCall σ) (hclock : clock.Reflects history) {state final : σ}
    {later : History} {changed : Clock}
    (hcall : ClockCall.perform ((state, history), clock) call = some ((final, later), changed)) :
    changed.Reflects later := by
  cases call with
  | conduct act =>
    have hconduct := hclock.perform (act state clock)
    rw [Option.some.inj hcall] at hconduct
    exact hconduct
  | advanceTo target bound reaction =>
    rw [ClockCall.perform] at hcall
    cases hadvance : clock.advanceTo reaction.handler target bound (state, history) with
    | none =>
      rw [hadvance] at hcall
      cases hcall
    | some result =>
      obtain ⟨outcome, ⟨next, written⟩, advanced⟩ := result
      rw [hadvance] at hcall
      obtain ⟨⟨total, rfl⟩, hadvanced⟩ :=
        advanceFrom (handler reaction) target bound 0 hclock hadvance
      cases hcall
      exact hadvanced

theorem run (calls : List (ClockCall σ)) {start final : (σ × History) × Clock}
    (hstart : start.2.Reflects start.1.2)
    (hrun : calls.foldlM ClockCall.perform start = some final) :
    final.2.Reflects final.1.2 := by
  induction calls generalizing start with
  | nil =>
    cases hrun
    exact hstart
  | cons head tail ih =>
    rw [List.foldlM_cons] at hrun
    obtain ⟨next, hnext, htail⟩ := Option.bind_eq_some_iff.mp hrun
    exact ih (hstart.call head hnext) htail

/-- The queue holds the live armings and nothing else. -/
theorem mem_entries_iff (hclock : clock.Reflects history) {entry : QueueEntry} :
    entry ∈ clock.queue.entries ↔ ∃ position, history.IsLive position entry.id entry.expiry := by
  rw [hclock.coherent.mem_entries_iff]
  constructor
  · rintro ⟨sequence, hheld⟩
    obtain ⟨position, hlive, -⟩ := (hclock.positions _ _).mp hheld
    exact ⟨position, hlive⟩
  · rintro ⟨position, hlive⟩
    exact ⟨_, (hclock.positions entry.id (entry.expiry, _)).mpr ⟨position, hlive, rfl⟩⟩

end Reflects

end Clock

namespace ClockCall

variable {σ : Type}

/-- In every run, with any handlers, each arming has exactly one fate, each dispatch is for the
first live arming and happens at its expiry or late, and time never decreases. -/
theorem existsUnique_fate_of_run (calls : List (ClockCall σ)) (state : σ) {final : σ}
    {history : History} {clock : Clock} (hrun : run calls state = some ((final, history), clock)) :
    (∀ position id expiry, history[position]? = some (.armed id expiry) →
      ∃! fate, history.HasFate clock.queue.entries position id expiry fate) ∧
    (∀ past event rest, history = past ++ .dispatched event :: rest →
      History.Dispatches past event) ∧
    clock.now = history.time ∧
    ∀ past rest, history = past ++ rest → History.time past ≤ history.time := by
  have hclock : clock.Reflects history := Clock.Reflects.run calls Clock.reflects_new hrun
  refine ⟨?_, hclock.sound, hclock.time, ?_⟩
  · intro position id expiry harmed
    apply hclock.sound.existsUnique_hasFate _ harmed
    intro other timer due hlive
    exact hclock.mem_entries_iff.mpr ⟨other, hlive⟩
  · rintro past rest rfl
    exact hclock.sound.time_le

/-- Two timers are armed for the same time, and a handler arms each of them again when it fires. -/
def rearming : List (ClockCall Unit) :=
  [.conduct fun _ _ ↦ .newTimer 7 fun _ ↦ .newTimer 8 fun _ ↦
      .setExpiry 1 5 fun _ ↦ .setExpiry 0 5 fun _ ↦ .finish (),
    .advanceTo 6 2 fun event _ _ ↦ .setExpiry event.id (event.now + 3) fun _ ↦ .finish ()]

theorem existsUnique_fate_of_rearming : ∃ history clock,
    run rearming () = some (((), history), clock) ∧
    history = [.created 7, .created 8, .armed 1 5, .armed 0 5, .dispatched ⟨1, 8, 5, 5⟩, .armed 1 8,
      .dispatched ⟨0, 7, 5, 5⟩, .armed 0 8, .elapsed 6] ∧
    ∃! fate, history.HasFate clock.queue.entries 2 1 5 fate := by
  have hhistory : (run rearming ()).map (fun ((_, history), _) ↦ history) =
      some [.created 7, .created 8, .armed 1 5, .armed 0 5, .dispatched ⟨1, 8, 5, 5⟩, .armed 1 8,
        .dispatched ⟨0, 7, 5, 5⟩, .armed 0 8, .elapsed 6] := by
    -- With the first entries read off the keys, the kernel can evaluate the run.
    simp only [run, rearming, List.foldlM_cons, perform, Clock.advanceTo, Clock.advanceFrom,
      Clock.isDue_eq, Clock.step, TimerQueue.pop?_eq_keys]
    decide +kernel
  obtain ⟨⟨⟨state, history⟩, clock⟩, hrun, rfl⟩ := Option.map_eq_some_iff.mp hhistory
  exact ⟨_, clock, hrun, rfl, (existsUnique_fate_of_run rearming () hrun).1 2 1 5 rfl⟩

end ClockCall

end GuestMachine
