import GuestMachine.Proofs.Timer.Routine

/-!
# Reachable clocks

Every clock that is reached stands as some history says, and its numbers have the widths that they
are saved with.
-/

namespace GuestMachine

structure Timer.Fits (timer : Timer) : Prop where
  id : timer.id < UInt32.size
  owner : timer.owner < UInt32.size
  expiry : timer.expiry < UInt64.size

namespace Clock

/-- Names and owners have 32 bits and times have 64. -/
structure Fits (clock : Clock) : Prop where
  now : clock.now < UInt64.size
  timers (timer : Timer) : timer ∈ clock.timers → timer.Fits
  queue (id : TimerId) (key : QueueKey) :
    clock.queue.position? id = some key → key.1 < UInt64.size

variable {clock : Clock}

theorem fits_new : Fits {} where
  now := Nat.zero_lt_of_ne_zero (by decide)
  timers timer htimer := by simp at htimer
  queue id key hkey := by
    rw [show ({} : Clock).queue = TimerQueue.empty from rfl, TimerQueue.position?_empty] at hkey
    cases hkey

/-- A timer may be replaced by another one that fits. -/
theorem Fits.set (hfits : clock.Fits) (id : TimerId) {changed : Timer} (hchanged : changed.Fits)
    (timer : Timer) (htimer : timer ∈ clock.timers.setIfInBounds id changed) : timer.Fits := by
  rcases Array.mem_or_eq_of_mem_setIfInBounds htimer with hold | rfl
  · exact hfits.timers timer hold
  · exact hchanged

theorem Fits.timer (hfits : clock.Fits) {id : TimerId} {timer : Timer}
    (htimer : clock.timer id = .ok timer) : timer.Fits :=
  hfits.timers timer (Array.mem_of_getElem? (timer_eq_ok_iff.mp htimer).1)

theorem Fits.request (hfits : clock.Fits) (request : Request) : (request.perform clock).2.Fits := by
  cases request with
  | newTimer owner =>
    refine { now := hfits.now, timers := ?_, queue := hfits.queue }
    intro timer htimer
    rcases Array.mem_push.mp htimer with hold | rfl
    · exact hfits.timers timer hold
    · exact ⟨Nat.mod_lt _ (by decide), owner.toNat_lt, fits_new.now⟩
  | setExpiry id expiry =>
    rw [Request.perform]
    cases hset : clock.setExpiry id.toNat expiry.toNat with
    | error reason => exact hfits
    | ok changed =>
      obtain ⟨timer, htimer, rfl⟩ := setExpiry_eq_ok hset
      have hchanged := hfits.timer htimer
      refine { now := hfits.now, timers := ?_, queue := ?_ }
      · exact hfits.set id.toNat ⟨hchanged.id, hchanged.owner, expiry.toNat_lt⟩
      · intro other key hkey
        rw [TimerQueue.position?_offer] at hkey
        split at hkey
        · cases hkey
          exact expiry.toNat_lt
        · exact hfits.queue other key hkey
  | disable id =>
    rw [Request.perform]
    cases hdisable : clock.disable id.toNat with
    | error reason => exact hfits
    | ok result =>
      obtain ⟨timer, htimer, hresult⟩ := disable_eq_ok hdisable
      have hchanged := hfits.timer htimer
      rw [hresult]
      refine { now := hfits.now, timers := ?_, queue := ?_ }
      · exact hfits.set id.toNat ⟨hchanged.id, hchanged.owner, hchanged.expiry⟩
      · intro other key hkey
        rw [TimerQueue.position?_unlink] at hkey
        split at hkey
        · cases hkey
        · exact hfits.queue other key hkey

theorem Reflects.request {history : History} (hclock : clock.Reflects history) (request : Request) :
    ∃ later, (request.perform clock).2.Reflects later := by
  cases request with
  | newTimer owner => exact ⟨_, hclock.newTimer owner.toNat⟩
  | setExpiry id expiry =>
    rw [Request.perform]
    cases hset : clock.setExpiry id.toNat expiry.toNat with
    | error reason => exact ⟨history, hclock⟩
    | ok changed => exact ⟨_, hclock.setExpiry hset⟩
  | disable id =>
    rw [Request.perform]
    cases hdisable : clock.disable id.toNat with
    | error reason => exact ⟨history, hclock⟩
    | ok result => exact ⟨_, hclock.disable hdisable⟩

/-! ## What every reachable clock satisfies -/

structure IsSound (clock : Clock) : Prop where
  reflects : ∃ history, clock.Reflects history
  fits : clock.Fits

namespace IsSound

theorem coherent (hclock : clock.IsSound) : clock.queue.Coherent :=
  hclock.reflects.choose_spec.coherent

theorem timer_of_pop? (hclock : clock.IsSound) {entry : QueueEntry} {rest : TimerQueue}
    (hpop : clock.queue.pop? = some (entry, rest)) : ∃ timer, clock.timer entry.id = .ok timer :=
  hclock.reflects.choose_spec.timer_of_pop? hpop

theorem request (hclock : clock.IsSound) (request : Request) :
    (request.perform clock).2.IsSound where
  reflects := hclock.reflects.choose_spec.request request
  fits := hclock.fits.request request

theorem dispatched (hclock : clock.IsSound) {entry : QueueEntry} {rest : TimerQueue}
    (hpop : clock.queue.pop? = some (entry, rest)) {timer : Timer}
    (htimer : clock.timer entry.id = .ok timer) : (clock.dispatched entry timer rest).IsSound := by
  obtain ⟨⟨history, hreflects⟩, hfits⟩ := hclock
  obtain ⟨sequence, hfirst, -, -, -, hrest⟩ := hreflects.coherent.pop?_eq_some hpop
  have hchanged := hfits.timer htimer
  refine ⟨⟨_, hreflects.dispatch hpop htimer⟩, ?_⟩
  refine { now := ?_, timers := ?_, queue := ?_ }
  · exact Nat.max_lt.mpr ⟨hfits.now, hfits.queue _ _ hfirst⟩
  · exact hfits.set entry.id ⟨hchanged.id, hchanged.owner, hchanged.expiry⟩
  · intro other key hkey
    have hkey : rest.position? other = some key := hkey
    rw [hrest] at hkey
    split at hkey
    · cases hkey
    · exact hfits.queue other key hkey

theorem elapse (hclock : clock.IsSound) (target : UInt64) :
    IsSound { clock with now := max clock.now target.toNat } where
  reflects := ⟨_, hclock.reflects.choose_spec.elapse target.toNat⟩
  fits :=
    { now := Nat.max_lt.mpr ⟨hclock.fits.now, target.toNat_lt⟩
      timers := hclock.fits.timers
      queue := hclock.fits.queue }

end IsSound

theorem isSimulation_eq : IsSimulation fun left right ↦ left = right ∧ left.IsSound where
  request {clock _} := by
    rintro ⟨rfl, hclock⟩ request
    exact ⟨rfl, rfl, hclock.request request⟩
  dispatch {clock _} := by
    rintro ⟨rfl, hclock⟩
    cases hpop : clock.queue.pop? with
    | none => exact Or.inl ⟨rfl, rfl⟩
    | some popped =>
      obtain ⟨entry, rest⟩ := popped
      obtain ⟨timer, htimer⟩ := hclock.timer_of_pop? hpop
      exact Or.inr ⟨entry, timer, rest, rest, rfl, rfl, htimer, htimer, rfl, rfl,
        hclock.dispatched hpop htimer⟩
  elapse {clock _} := by
    rintro ⟨rfl, hclock⟩ target
    exact ⟨rfl, hclock.elapse target⟩

theorem IsReachable.isSound (hclock : clock.IsReachable) : clock.IsSound := by
  obtain ⟨σ, routine, rfl⟩ := hclock
  have hnew : IsSound {} := ⟨⟨[], reflects_new⟩, fits_new⟩
  exact (isSimulation_eq.perform (fun left right h ↦ h.1) routine [] ⟨rfl, hnew⟩).2.2

end Clock

end GuestMachine
