import GuestMachine.Config.Settings
import GuestMachine.Proofs.Machine.Boot
import GuestMachine.Proofs.Memory.Tracking

/-!
# Accepted configurations

A configuration joins what the arguments and a file say about each option. It is judged only once it
is joined, by its core options, so that the arguments can repair a value of the file as well as
spoil one. What is accepted can be booted with every image that fits into the memory, unless its
timer has no period.
-/

namespace GuestMachine

/-! ## Joining two sources -/

/-- The value of an option is what the argument says, or else the entry of the file, or else the
default. -/
def Takes {α : Type} (argument entry : Option α) (default value : α) : Prop :=
  match argument, entry with
  | some given, _ => value = given
  | none, some given => value = given
  | none, none => value = default

/-- The same for an option that may have no value, and has none by default. -/
def TakesIfAny {α : Type} (argument entry value : Option α) : Prop :=
  Takes (argument.map some) (entry.map some) none value

theorem takes_getD {α : Type} (argument entry : Option α) (default : α) :
    Takes argument entry default ((argument <|> entry).getD default) := by
  cases argument with
  | some given => rfl
  | none => cases entry <;> rfl

theorem takesIfAny_orElse {α : Type} (argument entry : Option α) :
    TakesIfAny argument entry (argument <|> entry) := by
  cases argument with
  | some given => rfl
  | none => cases entry <;> rfl

/-- A configuration that joins arguments and a file, option by option. -/
structure Configuration.Joins (configuration : Configuration) (arguments file : Settings) :
    Prop where
  image : TakesIfAny arguments.image file.image configuration.machine.image
  loadAddress : Takes arguments.loadAddress file.loadAddress 0 configuration.machine.loadAddress
  memorySize : Takes arguments.memorySize file.memorySize 0x100000
    configuration.machine.memorySize
  mode : Takes arguments.mode file.mode .real configuration.machine.mode
  code32 : configuration.machine.code32 = true ↔ arguments.code32 = true ∨ file.code32 = true
  maxBlocks : Takes arguments.maxBlocks file.maxBlocks 100000 configuration.machine.maxBlocks
  timerPeriod : TakesIfAny arguments.timerPeriod file.timerPeriod
    configuration.machine.timerPeriod
  traceFile : TakesIfAny arguments.traceFile file.traceFile configuration.machine.traceFile
  traceConsole : configuration.machine.traceConsole = true ↔
    arguments.traceConsole = true ∨ file.traceConsole = true
  blockLimit : Takes arguments.blockLimit file.blockLimit 1000 configuration.core.blockLimit
  hotThreshold : TakesIfAny arguments.hotThreshold file.hotThreshold
    configuration.core.hotThreshold
  unimplementedSegments : Takes arguments.unimplementedSegments file.unimplementedSegments .fatal
    configuration.core.unimplementedSegments

theorem Settings.joins_laidOver (arguments file : Settings) :
    (arguments.laidOver file).configuration.Joins arguments file where
  image := takesIfAny_orElse _ _
  loadAddress := takes_getD _ _ _
  memorySize := takes_getD _ _ _
  mode := takes_getD _ _ _
  code32 := Bool.or_eq_true_iff
  maxBlocks := takes_getD _ _ _
  timerPeriod := takesIfAny_orElse _ _
  traceFile := takesIfAny_orElse _ _
  traceConsole := Bool.or_eq_true_iff
  blockLimit := takes_getD _ _ _
  hotThreshold := takesIfAny_orElse _ _
  unimplementedSegments := takes_getD _ _ _

namespace Configuration

/-- The core options are within their bounds. -/
def HasValidCore (configuration : Configuration) : Prop :=
  2 ≤ configuration.core.blockLimit ∧ configuration.core.hotThreshold ≠ some 0

theorem ofSources_eq (file arguments : Settings) :
    ofSources file arguments = (arguments.laidOver file).configuration.core.validate.bind fun _ ↦
      .ok (arguments.laidOver file).configuration := rfl

theorem ofSources_of_hasValidCore {file arguments : Settings}
    (hvalid : (arguments.laidOver file).configuration.HasValidCore) :
    ofSources file arguments = .ok (arguments.laidOver file).configuration := by
  have hvalidate : (arguments.laidOver file).configuration.core.validate = .ok () :=
    CoreOptions.validate_eq_ok_iff.mpr hvalid
  rw [ofSources_eq, hvalidate]
  rfl

theorem exists_ofSources_eq_error {file arguments : Settings}
    (hinvalid : ¬ (arguments.laidOver file).configuration.HasValidCore) :
    ∃ reason, ofSources file arguments = .error reason := by
  cases hvalidate : (arguments.laidOver file).configuration.core.validate with
  | ok _ => exact absurd (CoreOptions.validate_eq_ok_iff.mp hvalidate) hinvalid
  | error reason =>
    refine ⟨reason, ?_⟩
    rw [ofSources_eq, hvalidate]
    rfl

theorem ofSources_eq_ok_iff {file arguments : Settings} {configuration : Configuration} :
    ofSources file arguments = .ok configuration ↔
      configuration = (arguments.laidOver file).configuration ∧ configuration.HasValidCore := by
  constructor
  · intro haccepted
    by_cases hvalid : (arguments.laidOver file).configuration.HasValidCore
    · rw [ofSources_of_hasValidCore hvalid] at haccepted
      obtain rfl := Except.ok.inj haccepted
      exact ⟨rfl, hvalid⟩
    · obtain ⟨reason, hrefused⟩ := exists_ofSources_eq_error hvalid
      rw [hrefused] at haccepted
      cases haccepted
  · rintro ⟨rfl, hvalid⟩
    exact ofSources_of_hasValidCore hvalid

end Configuration

/-! ## Booting -/

namespace Machine

/-- With valid core options, only an image that does not fit and a timer without a period keep a
machine from being booted. -/
theorem exists_boot_iff {configuration : Configuration} (hvalid : configuration.HasValidCore)
    (image : Array UInt8) (trace : Trace) :
    (∃ machine, boot configuration image trace = .ok machine) ↔
      configuration.machine.loadAddress.toNat + image.size ≤ configuration.machine.memorySize ∧
        configuration.machine.timerPeriod ≠ some 0 := by
  have hsize : (Ram.zeroed configuration.machine.memorySize).size =
      configuration.machine.memorySize := Array.size_replicate
  constructor
  · rintro ⟨machine, hboot⟩
    have hbooted := isBooted_of_boot hboot
    obtain ⟨ram, hcopy, -⟩ := hbooted.memory
    have hfits := Ram.exists_copyFrom_iff.mp ⟨ram, hcopy⟩
    rw [hsize] at hfits
    refine ⟨hfits, fun hzero ↦ ?_⟩
    have hclock := hbooted.clock
    rw [hzero] at hclock
    cases hclock
  · rintro ⟨hfits, hperiod⟩
    rw [← hsize] at hfits
    obtain ⟨ram, hcopy⟩ := Ram.exists_copyFrom_iff.mpr hfits
    exact exists_boot configuration image hcopy hvalid.1 hvalid.2 hperiod trace

/-- Arguments and a file are joined option by option. The configuration is accepted exactly if the
core options of what they are joined to are valid, and then it can be booted with exactly those
images that fit, unless the period of its timer is zero. -/
theorem accepted_boots (file arguments : Settings) :
    ∃ joined : Configuration, joined.Joins arguments file ∧
      (joined.HasValidCore → Configuration.ofSources file arguments = .ok joined) ∧
      (¬ joined.HasValidCore → ∃ reason, Configuration.ofSources file arguments = .error reason) ∧
      ∀ configuration, Configuration.ofSources file arguments = .ok configuration →
        ∀ (image : Array UInt8) (trace : Trace),
          (∃ machine, boot configuration image trace = .ok machine) ↔
            configuration.machine.loadAddress.toNat + image.size ≤
                configuration.machine.memorySize ∧
              configuration.machine.timerPeriod ≠ some 0 := by
  refine ⟨(arguments.laidOver file).configuration, arguments.joins_laidOver file,
    Configuration.ofSources_of_hasValidCore, Configuration.exists_ofSources_eq_error, ?_⟩
  intro configuration haccepted
  exact exists_boot_iff (Configuration.ofSources_eq_ok_iff.mp haccepted).2

/-- A file with a small memory and a block limit that is too low. -/
def lowLimit : Settings :=
  { loadAddress := some 8, memorySize := some 16, blockLimit := some 1, code32 := true }

/-- Arguments that repair the block limit. -/
def repairedLimit : Settings := { loadAddress := some 12, blockLimit := some 2 }

/-- Of two images the one that fits boots on the repaired configuration. A valid limit is spoilt by
one that is too low. -/
theorem accepted_boots_repaired :
    (∃ configuration, Configuration.ofSources lowLimit repairedLimit = .ok configuration ∧
      configuration.core.blockLimit = 2 ∧ configuration.machine.code32 = true ∧
      (∃ machine, boot configuration #[1, 2, 3, 4] .discard = .ok machine) ∧
      ¬ ∃ machine, boot configuration #[1, 2, 3, 4, 5] .discard = .ok machine) ∧
    ∃ reason, Configuration.ofSources repairedLimit lowLimit = .error reason := by
  obtain ⟨joined, hjoins, hvalid, -, hboots⟩ := accepted_boots lowLimit repairedLimit
  have hlimit : joined.core.blockLimit = 2 := hjoins.blockLimit
  have hthreshold : joined.core.hotThreshold = none := hjoins.hotThreshold
  have haddress : joined.machine.loadAddress = 12 := hjoins.loadAddress
  have hmemory : joined.machine.memorySize = 16 := hjoins.memorySize
  have hperiod : joined.machine.timerPeriod = none := hjoins.timerPeriod
  have haccepted := hvalid ⟨hlimit.ge, by rw [hthreshold]; decide⟩
  obtain ⟨spoilt, hspoilt, -, hrefused, -⟩ := accepted_boots repairedLimit lowLimit
  have hlow : spoilt.core.blockLimit = 1 := hspoilt.blockLimit
  refine ⟨⟨joined, haccepted, hlimit, hjoins.code32.mpr (.inr rfl), ?_, ?_⟩, ?_⟩
  · rw [hboots joined haccepted, haddress, hmemory, hperiod]
    decide
  · rw [hboots joined haccepted, haddress, hmemory, hperiod]
    decide
  · refine hrefused fun hcore ↦ ?_
    have hbound := hcore.1
    rw [hlow] at hbound
    exact absurd hbound (by decide)

end Machine

end GuestMachine
