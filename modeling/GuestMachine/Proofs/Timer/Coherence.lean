import GuestMachine.Proofs.Timer.Entries
import GuestMachine.Proofs.Timer.Splitting

/-!
# The clock agrees with itself

That a timer is armed, and for when, is written down with the timer and in both indices of the
queue. The three accounts agree at every point at which somebody sees the clock: between the
operations of a caller and of its handlers, and whenever a handler is called. So no dispatch meets
an unknown timer.
-/

namespace GuestMachine

open TimerQueue

/-! ## Entries of one timer -/

theorem QueueEntry.filter_id_eq_singleton {entries : List QueueEntry}
    (hdistinct : entries.Pairwise fun left right ↦ left.id ≠ right.id) {entry : QueueEntry}
    (hentry : entry ∈ entries) : entries.filter (·.id = entry.id) = [entry] := by
  induction entries with
  | nil => cases hentry
  | cons first rest ih =>
    obtain ⟨hfirst, hrest⟩ := List.pairwise_cons.mp hdistinct
    rcases List.mem_cons.mp hentry with rfl | hlater
    · rw [List.filter_cons_of_pos (by simp), List.filter_eq_nil_iff.mpr]
      intro other hother
      simpa using (hfirst other hother).symm
    · rw [List.filter_cons_of_neg (by simpa using hfirst entry hlater), ih hrest hlater]

theorem TimerQueue.contains_eq_isSome (queue : TimerQueue) (id : TimerId) :
    queue.contains id = (queue.position? id).isSome := by
  rw [contains, Bool.eq_iff_iff, Std.TreeMap.contains_iff_mem,
    Std.TreeMap.mem_iff_isSome_getElem?, position?]

/-- No timer was unknown to an operation that dispatches timers. -/
def Answer.IsNoFailure : Answer → Prop
  | .stepped result => ∃ event?, result = .ok event?
  | .advanced result => ∃ total, result = .ok total
  | .created _ | .armed _ | .disarmed _ | .dispatched _ => True

theorem Request.isNoFailure_perform (request : Request) (clock : Clock) :
    (request.perform clock).1.IsNoFailure := by
  cases request with
  | newTimer owner => exact trivial
  | setExpiry id expiry =>
    rw [perform]
    cases clock.setExpiry id.toNat expiry.toNat <;> exact trivial
  | disable id =>
    rw [perform]
    cases clock.disable id.toNat <;> exact trivial

namespace Clock

variable {clock : Clock}

/-- The accounts that a clock keeps of its armed timers agree. -/
structure IsConsistent (clock : Clock) : Prop where
  named (id : TimerId) (timer : Timer) : clock.timers[id]? = some timer → timer.id = id
  flagged (id : TimerId) (timer : Timer) : clock.timers[id]? = some timer →
    (timer.enqueued = true ↔ clock.queue.contains id = true)
  single (id : TimerId) (timer : Timer) : clock.timers[id]? = some timer →
    timer.enqueued = true → clock.queue.entries.filter (·.id = id) = [⟨timer.expiry, id⟩]
  known (id : TimerId) : clock.queue.contains id = true → id < clock.timers.size
  coherent : clock.queue.Coherent

/-! ## Timers and the queue -/

theorem IsSound.id_eq (hsound : clock.IsSound) {id : TimerId} {timer : Timer}
    (htimer : clock.timer id = .ok timer) : timer.id = id := by
  obtain ⟨history, hreflects⟩ := hsound.reflects
  obtain ⟨hfound, hbound⟩ := timer_eq_ok_iff.mp htimer
  exact hreflects.timers.named id timer hfound hbound

theorem IsSound.lt_size (hsound : clock.IsSound) {id : TimerId} {key : QueueKey}
    (hkey : clock.queue.position? id = some key) : id < clock.timers.size := by
  obtain ⟨history, hreflects⟩ := hsound.reflects
  exact (hreflects.known id key ((hreflects.positions id key).mp hkey)).1

/-- Each timer knows whether it is armed, and for when. -/
def TimersAgree (clock : Clock) : Prop :=
  ∀ id timer, clock.timer id = .ok timer →
    (clock.queue.position? id).map Prod.fst = if timer.enqueued then some timer.expiry else none

namespace TimersAgree

/-- The account of one timer may change if its position changes alike. -/
theorem set (hagree : clock.TimersAgree) {id : TimerId} {changed : Timer} {queue : TimerQueue}
    (hchanged : (queue.position? id).map Prod.fst =
      if changed.enqueued then some changed.expiry else none)
    (hothers : ∀ other, id ≠ other → queue.position? other = clock.queue.position? other)
    (now : Nat) : TimersAgree ⟨now, clock.timers.setIfInBounds id changed, queue⟩ := by
  intro other timer htimer
  obtain ⟨hfound, hbound⟩ := timer_eq_ok_iff.mp htimer
  have hfound : (clock.timers.setIfInBounds id changed)[other]? = some timer := hfound
  rw [Array.getElem?_setIfInBounds] at hfound
  by_cases hother : id = other
  · rw [if_pos hother] at hfound
    split at hfound
    · rw [← hother, ← Option.some.inj hfound]
      exact hchanged
    · cases hfound
  · rw [if_neg hother] at hfound
    rw [hothers other hother]
    exact hagree other timer (timer_eq_ok_iff.mpr ⟨hfound, hbound⟩)

/-- A new timer has the first free name, which is not queued. -/
theorem newTimer (hagree : clock.TimersAgree) (hsound : clock.IsSound) (owner : TimerOwner) :
    (clock.newTimer owner).2.TimersAgree := by
  intro id timer htimer
  obtain ⟨hfound, hbound⟩ := timer_eq_ok_iff.mp htimer
  rw [Clock.newTimer, Array.getElem?_push] at hfound
  by_cases hid : id = clock.timers.size
  · rw [if_pos hid] at hfound
    have hfree : clock.queue.position? id = none := by
      apply Option.eq_none_iff_forall_ne_some.mpr
      intro key hkey
      exact absurd (hsound.lt_size hkey) (hid ▸ Nat.lt_irrefl _)
    rw [← Option.some.inj hfound]
    exact congrArg (Option.map Prod.fst) hfree
  · rw [if_neg hid] at hfound
    exact hagree id timer (timer_eq_ok_iff.mpr ⟨hfound, hbound⟩)

theorem request (hagree : clock.TimersAgree) (hsound : clock.IsSound) (request : Request) :
    (request.perform clock).2.TimersAgree := by
  cases request with
  | newTimer owner => exact hagree.newTimer hsound owner.toNat
  | setExpiry id expiry =>
    rw [Request.perform]
    cases hset : clock.setExpiry id.toNat expiry.toNat with
    | error reason => exact hagree
    | ok changed =>
      obtain ⟨timer, htimer, rfl⟩ := setExpiry_eq_ok hset
      have hname := hsound.id_eq htimer
      apply hagree.set
      · rw [position?_offer, if_pos hname]
        rfl
      · intro other hother
        rw [position?_offer, if_neg (hname ▸ hother)]
  | disable id =>
    rw [Request.perform]
    cases hdisable : clock.disable id.toNat with
    | error reason => exact hagree
    | ok result =>
      obtain ⟨timer, htimer, hresult⟩ := disable_eq_ok hdisable
      have hname := hsound.id_eq htimer
      rw [hresult]
      apply hagree.set
      · rw [position?_unlink, if_pos hname]
        rfl
      · intro other hother
        rw [position?_unlink, if_neg (hname ▸ hother)]

/-- The flag is taken away before the handler is called. -/
theorem dispatched (hagree : clock.TimersAgree) (hsound : clock.IsSound) {entry : QueueEntry}
    {rest : TimerQueue} (hpop : clock.queue.pop? = some (entry, rest)) (timer : Timer) :
    (clock.dispatched entry timer rest).TimersAgree := by
  obtain ⟨sequence, -, -, -, -, hrest⟩ := hsound.coherent.pop?_eq_some hpop
  apply hagree.set
  · rw [hrest, if_pos rfl]
    rfl
  · intro other hother
    rw [hrest, if_neg hother]

end TimersAgree

/-- As long as all timers have names, nothing more is needed for the accounts to agree. -/
theorem TimersAgree.isConsistent (hagree : clock.TimersAgree) (hsound : clock.IsSound)
    (hsize : clock.timers.size < UInt32.size) : clock.IsConsistent := by
  have hfound {id : TimerId} {timer : Timer} (htimer : clock.timers[id]? = some timer) :
      clock.timer id = .ok timer :=
    timer_eq_ok_iff.mpr ⟨htimer, Nat.lt_trans (Array.getElem?_eq_some_iff.mp htimer).1 hsize⟩
  refine
    { named := fun id timer htimer ↦ hsound.id_eq (hfound htimer), flagged := ?_, single := ?_
      known := ?_, coherent := hsound.coherent }
  · intro id timer htimer
    have hposition := hagree id timer (hfound htimer)
    rw [contains_eq_isSome, ← Option.isSome_map (f := Prod.fst), hposition]
    cases timer.enqueued <;> simp
  · intro id timer htimer harmed
    have hposition := hagree id timer (hfound htimer)
    rw [harmed, if_pos rfl] at hposition
    obtain ⟨key, hkey, hexpiry⟩ := Option.map_eq_some_iff.mp hposition
    have hentry : (⟨timer.expiry, id⟩ : QueueEntry) ∈ clock.queue.entries :=
      hsound.coherent.mem_entries_iff.mpr ⟨key.2, hkey.trans (congrArg some (Prod.ext hexpiry rfl))⟩
    exact QueueEntry.filter_id_eq_singleton hsound.coherent.pairwise_id_ne hentry
  · intro id hcontains
    rw [contains_eq_isSome] at hcontains
    obtain ⟨key, hkey⟩ := Option.isSome_iff_exists.mp hcontains
    exact hsound.lt_size hkey

/-! ## Operations -/

/-- What every operation keeps. -/
structure IsAccounted (clock : Clock) : Prop where
  sound : clock.IsSound
  agree : clock.TimersAgree

theorem isAccounted_new : IsAccounted {} where
  sound := ⟨⟨[], reflects_new⟩, fits_new⟩
  agree id timer htimer := by
    have hfound := (timer_eq_ok_iff.mp htimer).1
    simp at hfound

theorem IsAccounted.request (hclock : clock.IsAccounted) (request : Request) :
    (request.perform clock).2.IsAccounted :=
  ⟨hclock.sound.request request, hclock.agree.request hclock.sound request⟩

theorem IsAccounted.dispatched (hclock : clock.IsAccounted) {entry : QueueEntry}
    {rest : TimerQueue} (hpop : clock.queue.pop? = some (entry, rest)) {timer : Timer}
    (htimer : clock.timer entry.id = .ok timer) :
    (clock.dispatched entry timer rest).IsAccounted :=
  ⟨hclock.sound.dispatched hpop htimer, hclock.agree.dispatched hclock.sound hpop timer⟩

theorem IsAccounted.elapse (hclock : clock.IsAccounted) (target : UInt64) :
    IsAccounted { clock with now := max clock.now target.toNat } :=
  ⟨hclock.sound.elapse target, hclock.agree⟩

/-! ## Every point of a run -/

variable {σ τ : Type}

/-- At each point that was written down the clock was accounted for. -/
def IsWitnessed (journal : Journal Clock) : Prop :=
  ∀ answer seen, (answer, seen) ∈ journal → answer.IsNoFailure ∧ seen.IsAccounted

theorem IsWitnessed.snoc {journal : Journal Clock} (hjournal : IsWitnessed journal)
    {answer : Answer} (hanswer : answer.IsNoFailure) (hclock : clock.IsAccounted) :
    IsWitnessed (journal ++ [(answer, clock)]) := by
  intro other seen hmem
  rcases List.mem_append.mp hmem with hearlier | hlast
  · exact hjournal other seen hearlier
  · cases List.mem_singleton.mp hlast
    exact ⟨hanswer, hclock⟩

/-- The clock is accounted for, and so was every clock before if a journal is left to say so. -/
structure IsKept (memory? : Option (σ × Journal Clock)) (clock : Clock) : Prop where
  accounted : clock.IsAccounted
  witnessed (memory : σ × Journal Clock) : memory? = some memory → IsWitnessed memory.2

/-- The handler does nothing that leaves a clock unaccounted for. -/
def Keeps (handler : TimerHandler (Option (σ × Journal Clock))) : Prop :=
  ∀ event memory? clock, IsKept memory? clock →
    IsKept (handler event memory? clock).1 (handler event memory? clock).2

namespace IsKept

variable {memory? : Option (σ × Journal Clock)}
  {handler : TimerHandler (Option (σ × Journal Clock))}

theorem step (hkept : IsKept memory? clock) (hhandler : Keeps handler) :
    (∃ event?, (clock.step handler memory?).1 = .ok event?) ∧
      IsKept (clock.step handler memory?).2.1 (clock.step handler memory?).2.2 := by
  cases hpop : clock.queue.pop? with
  | none =>
    rw [step_of_pop?_eq_none hpop]
    exact ⟨⟨none, rfl⟩, hkept⟩
  | some popped =>
    obtain ⟨entry, rest⟩ := popped
    obtain ⟨timer, htimer⟩ := hkept.accounted.sound.timer_of_pop? hpop
    rw [step_of_pop?_eq_some hpop htimer]
    refine ⟨⟨_, rfl⟩, hhandler _ _ _ ⟨?_, hkept.witnessed⟩⟩
    exact hkept.accounted.dispatched hpop htimer

theorem advanceFrom (hhandler : Keeps handler) (target : UInt64) (bound fired : Nat)
    (hkept : IsKept memory? clock) {outcome : Except Error Nat}
    {later : Option (σ × Journal Clock)} {moved : Clock}
    (hadvance : Clock.advanceFrom handler target.toNat bound fired memory? clock =
      some (outcome, later, moved)) :
    (∃ total, outcome = .ok total) ∧ IsKept later moved := by
  induction bound, fired, memory?, clock using advanceFrom_induction handler target.toNat with
  | stop bound fired memory? clock hdue =>
    rw [advanceFrom_of_not_due hdue] at hadvance
    cases hadvance
    exact ⟨⟨fired, rfl⟩, hkept.accounted.elapse target, hkept.witnessed⟩
  | exhausted fired memory? clock hdue =>
    rw [advanceFrom_zero_of_due hdue] at hadvance
    cases hadvance
  | fail bound fired memory? clock reason next between hdue hstep =>
    obtain ⟨⟨event?, hevent⟩, -⟩ := hkept.step hhandler
    rw [hstep] at hevent
    cases hevent
  | fire bound fired memory? clock event? next between hdue hstep ih =>
    have hnext := (hkept.step hhandler).2
    rw [hstep] at hnext
    rw [advanceFrom_of_step hdue _ hstep] at hadvance
    exact ih hnext hadvance

theorem drive (hhandler : Keeps handler) (drive : Drive) (hkept : IsKept memory? clock)
    {answer : Answer} {later : Option (σ × Journal Clock)} {moved : Clock}
    (hdrive : drive.perform handler memory? clock = some (answer, later, moved)) :
    answer.IsNoFailure ∧ IsKept later moved := by
  cases drive with
  | step =>
    obtain ⟨hevent, hnext⟩ := hkept.step hhandler
    cases hdrive
    exact ⟨hevent, hnext⟩
  | advanceTo target bound =>
    obtain ⟨⟨outcome, final, last⟩, hadvance, heq⟩ := Option.map_eq_some_iff.mp hdrive
    cases heq
    exact hkept.advanceFrom hhandler target bound 0 hadvance

/-- The induction is over the routine, so that the handlers that it brings along are covered. A
handler is called with a clock that is written down before it does anything. -/
theorem perform (routine : Routine Clock σ) {journal : Journal Clock}
    (hclock : clock.IsAccounted) (hjournal : IsWitnessed journal) :
    IsKept (routine.perform id journal clock).1 (routine.perform id journal clock).2 := by
  induction routine generalizing journal clock with
  | finish state =>
    refine ⟨hclock, ?_⟩
    rintro memory ⟨⟩
    exact hjournal
  | hang =>
    refine ⟨hclock, ?_⟩
    rintro memory ⟨⟩
  | ask request next ih =>
    have hnext := hclock.request request
    exact ih _ _ hnext (hjournal.snoc (request.isNoFailure_perform clock) hnext)
  | proceed drive state reaction next ihReaction ihNext =>
    have hhandler : Keeps (recorded id fun event state seen ↦
        (reaction event state seen).perform id) := by
      intro event memory? seen hkept
      cases memory? with
      | none => exact hkept
      | some memory =>
        exact ihReaction event memory.1 seen hkept.accounted
          ((hkept.witnessed memory rfl).snoc trivial hkept.accounted)
    have hstart : IsKept (some (state, journal)) clock := by
      refine ⟨hclock, ?_⟩
      rintro memory ⟨⟩
      exact hjournal
    simp only [Routine.perform]
    cases hdrive : drive.perform (recorded id fun event state seen ↦
        (reaction event state seen).perform id) (some (state, journal)) clock with
    | none => exact ⟨hclock, fun memory hnone ↦ by cases hnone⟩
    | some result =>
      obtain ⟨answer, later, moved⟩ := result
      obtain ⟨hanswer, hlater⟩ := hstart.drive hhandler drive hdrive
      cases later with
      | none => exact hlater
      | some memory =>
        exact ihNext answer memory.1 moved hlater.accounted
          ((hlater.witnessed memory rfl).snoc hanswer hlater.accounted)

end IsKept

theorem IsSound.step_ok (hclock : clock.IsSound) (callback : Callback Clock τ)
    (memory? : Option (τ × Journal Clock)) :
    ∃ event?, (clock.step (callback.handler id) memory?).1 = .ok event? := by
  have hhandler : Respects _ (callback.handler id) :=
    isSimulation_eq.callback (fun _ _ hsame ↦ hsame.1) callback
  obtain ⟨event?, _, _, _, hstep, -⟩ := isSimulation_eq.step hhandler ⟨rfl, hclock⟩ memory?
  rw [hstep]
  exact ⟨event?, rfl⟩

theorem IsSound.advanceTo_ok (hclock : clock.IsSound) {callback : Callback Clock τ}
    {memory? later : Option (τ × Journal Clock)} {target : UInt64} {bound : Nat}
    {outcome : Except Error Nat} {moved : Clock}
    (hadvance : clock.advanceTo (callback.handler id) target.toNat bound memory? =
      some (outcome, later, moved)) : ∃ total, outcome = .ok total := by
  have hhandler : Respects _ (callback.handler id) :=
    isSimulation_eq.callback (fun _ _ hsame ↦ hsame.1) callback
  rw [advanceTo] at hadvance
  rcases isSimulation_eq.advanceFrom hhandler target bound 0 memory? ⟨rfl, hclock⟩ with
    ⟨hnone, -⟩ | ⟨total, _, _, _, hsome, -⟩
  · rw [hadvance] at hnone
    cases hnone
  · rw [hadvance] at hsome
    cases hsome
    exact ⟨total, rfl⟩

/-- In every run the clock is consistent whenever it is seen: at the end, after each operation and
when a handler is called, also while another one is at work. Stepping and advancing never fail in
it, nor on the clock that it ends in. A run that does not return leaves no journal, but it shares
each of its points with a run in which nothing more is done from there on. -/
theorem isConsistent_of_run (routine : Routine Clock σ) :
    ((routine.perform id [] {}).2.timers.size < UInt32.size →
      (routine.perform id [] {}).2.IsConsistent) ∧
    (∀ state journal, (routine.perform id [] {}).1 = some (state, journal) →
      ∀ answer seen, (answer, seen) ∈ journal →
        answer.IsNoFailure ∧ (seen.timers.size < UInt32.size → seen.IsConsistent)) ∧
    ∀ (callback : Callback Clock τ) (memory? : Option (τ × Journal Clock)),
      (∃ event?, ((routine.perform id [] {}).2.step (callback.handler id) memory?).1 =
        .ok event?) ∧
      ∀ (target : UInt64) bound outcome later moved,
        (routine.perform id [] {}).2.advanceTo (callback.handler id) target.toNat bound memory? =
          some (outcome, later, moved) → ∃ total, outcome = .ok total := by
  have hempty : IsWitnessed [] := fun answer seen hmem ↦ by cases hmem
  have hrun := IsKept.perform routine isAccounted_new hempty
  refine ⟨hrun.accounted.agree.isConsistent hrun.accounted.sound, ?_, ?_⟩
  · intro state journal hreturned answer seen hmem
    obtain ⟨hanswer, hseen⟩ := hrun.witnessed _ hreturned answer seen hmem
    exact ⟨hanswer, hseen.agree.isConsistent hseen.sound⟩
  · intro callback memory?
    refine ⟨hrun.accounted.sound.step_ok callback memory?, ?_⟩
    intro target bound outcome later moved hadvance
    exact hrun.accounted.sound.advanceTo_ok hadvance

/-- Two timers are armed for the same time, and fire until they are armed for later than 9. -/
def firing : Routine Clock Nat :=
  .ask (.newTimer 7) fun _ _ ↦ .ask (.newTimer 8) fun _ _ ↦ .ask (.setExpiry 1 5) fun _ _ ↦
    .ask (.setExpiry 0 5) fun _ _ ↦ .proceed (.advanceTo 9 4) 0 rearm fun _ count _ ↦ .finish count

/-- Who is armed whenever a handler is called. -/
def armedAtCalls (journal : Journal Clock) : List (TimerEvent × List Bool) :=
  journal.filterMap fun (answer, seen) ↦
    match answer with
    | .dispatched event => some (event, seen.timers.toList.map Timer.enqueued)
    | _ => none

/-- At the first dispatch the timer that fires is not armed any more, and the other one still is. -/
theorem isConsistent_of_run_firing :
    ((firing.perform id [] {}).2.timers.size < UInt32.size ∧
      (firing.perform id [] {}).2.IsConsistent) ∧
    ∃ journal answer seen, (firing.perform id [] {}).1 = some (4, journal) ∧
      (answer, seen) ∈ journal ∧ answer = .dispatched ⟨1, 8, 5, 5⟩ ∧
      seen.timers.toList.map Timer.enqueued = [true, false] ∧
      seen.timers.size < UInt32.size ∧ seen.IsConsistent := by
  have hperformed : ((firing.perform id [] {}).2.timers.size, (firing.perform id [] {}).1.map
      (Prod.map id fun journal ↦ (armedAtCalls journal).head?)) =
      (2, some (4, some (⟨1, 8, 5, 5⟩, [true, false]))) := by
    simp only [firing, Routine.perform, Drive.perform, advanceTo, advanceFrom, isDue_eq, step,
      TimerQueue.pop?_eq_keys]
    decide +kernel
  obtain ⟨htwo, hcalls⟩ := Prod.mk.inj hperformed
  have hsize : (firing.perform id [] {}).2.timers.size < UInt32.size := by
    rw [htwo]
    decide
  obtain ⟨hfinal, hpoints, -⟩ := isConsistent_of_run (τ := Unit) firing
  refine ⟨⟨hsize, hfinal hsize⟩, ?_⟩
  obtain ⟨⟨count, journal⟩, hreturned, hfirst⟩ := Option.map_eq_some_iff.mp hcalls
  obtain ⟨rfl, hhead⟩ := Prod.mk.inj hfirst
  obtain ⟨⟨answer, seen⟩, hmem, hpoint⟩ := List.mem_filterMap.mp (List.mem_of_head? hhead)
  cases answer with
  | dispatched event =>
    obtain ⟨rfl, harmed⟩ := Prod.mk.inj (Option.some.inj hpoint)
    have hseen : seen.timers.size < UInt32.size := by
      have hlength := congrArg List.length harmed
      rw [List.length_map, Array.length_toList] at hlength
      rw [hlength]
      decide
    exact ⟨journal, _, seen, hreturned, hmem, rfl, harmed, hseen,
      (hpoints 4 journal hreturned _ seen hmem).2 hseen⟩
  | created id => cases hpoint
  | armed result => cases hpoint
  | disarmed result => cases hpoint
  | stepped result => cases hpoint
  | advanced result => cases hpoint

end Clock

end GuestMachine
