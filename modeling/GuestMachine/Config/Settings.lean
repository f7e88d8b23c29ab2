import GuestMachine.Config.Options

/-!
# Settings

What one source of configuration says, which may be nothing about an option. The settings of a
source with priority are laid over those of another, and what neither of them says takes its
default. Flags can only be raised. The core options are validated once the sources are joined, so
that the source with priority can repair a value of the other.
-/

namespace GuestMachine

structure Settings where
  image : Option String := none
  loadAddress : Option UInt32 := none
  memorySize : Option Nat := none
  mode : Option Mode := none
  code32 : Bool := false
  maxBlocks : Option Nat := none
  timerPeriod : Option Nat := none
  traceFile : Option String := none
  traceConsole : Bool := false
  blockLimit : Option Nat := none
  hotThreshold : Option UInt32 := none
  unimplementedSegments : Option DescriptorPolicy := none
  deriving DecidableEq, Repr, Inhabited

namespace Settings

/-- The settings of both sources, where the upper one has priority. -/
def laidOver (upper lower : Settings) : Settings where
  image := upper.image <|> lower.image
  loadAddress := upper.loadAddress <|> lower.loadAddress
  memorySize := upper.memorySize <|> lower.memorySize
  mode := upper.mode <|> lower.mode
  code32 := upper.code32 || lower.code32
  maxBlocks := upper.maxBlocks <|> lower.maxBlocks
  timerPeriod := upper.timerPeriod <|> lower.timerPeriod
  traceFile := upper.traceFile <|> lower.traceFile
  traceConsole := upper.traceConsole || lower.traceConsole
  blockLimit := upper.blockLimit <|> lower.blockLimit
  hotThreshold := upper.hotThreshold <|> lower.hotThreshold
  unimplementedSegments := upper.unimplementedSegments <|> lower.unimplementedSegments

def machineOptions (settings : Settings) : MachineOptions :=
  let defaults : MachineOptions := {}
  { image := settings.image
    loadAddress := settings.loadAddress.getD defaults.loadAddress
    memorySize := settings.memorySize.getD defaults.memorySize
    mode := settings.mode.getD defaults.mode
    code32 := settings.code32
    maxBlocks := settings.maxBlocks.getD defaults.maxBlocks
    timerPeriod := settings.timerPeriod
    traceFile := settings.traceFile
    traceConsole := settings.traceConsole }

def coreOptions (settings : Settings) : CoreOptions :=
  let defaults : CoreOptions := {}
  { blockLimit := settings.blockLimit.getD defaults.blockLimit
    hotThreshold := settings.hotThreshold
    unimplementedSegments :=
      settings.unimplementedSegments.getD defaults.unimplementedSegments }

/-- The settings with every default filled in. -/
def configuration (settings : Settings) : Configuration :=
  ⟨settings.machineOptions, settings.coreOptions⟩

end Settings

/-- The valid configuration that a file and the arguments, which have priority, amount to. -/
def Configuration.ofSources (file arguments : Settings) : Except OptionError Configuration := do
  let configuration := (arguments.laidOver file).configuration
  configuration.core.validate
  return configuration

end GuestMachine
