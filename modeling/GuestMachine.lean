import GuestMachine.Interaction.Files
import GuestMachine.Main
import GuestMachine.Saved.Clock
import GuestMachine.Saved.Segment
import GuestMachine.Segment.Load
import GuestMachine.Proofs.Instruction.Locality
import GuestMachine.Proofs.Instruction.Decoding
import GuestMachine.Proofs.Instruction.Stream
import GuestMachine.Proofs.Block.Fusion
import GuestMachine.Proofs.Block.Building
import GuestMachine.Proofs.Timer.History
import GuestMachine.Proofs.Timer.Queue
import GuestMachine.Proofs.Timer.Fates
import GuestMachine.Proofs.Memory.Stores
import GuestMachine.Proofs.Block.Freshness
import GuestMachine.Proofs.Instruction.WholeStream
import GuestMachine.Proofs.Block.Boundaries
import GuestMachine.Proofs.Block.Settling
import GuestMachine.Proofs.Block.Handover
import GuestMachine.Proofs.Machine.Course
import GuestMachine.Proofs.Machine.Keeping
import GuestMachine.Proofs.Machine.Reference
import GuestMachine.Proofs.Machine.Following
import GuestMachine.Proofs.Machine.Boot
import GuestMachine.Proofs.Machine.Dispatching
import GuestMachine.Proofs.Machine.Accounting
import GuestMachine.Proofs.Machine.Refinement
import GuestMachine.Proofs.Machine.Invisibility
import GuestMachine.Proofs.Segment.Translation
import GuestMachine.Proofs.Segment.Loading
import GuestMachine.Proofs.Timer.Entries
import GuestMachine.Proofs.Timer.Reachability
import GuestMachine.Proofs.Timer.Splitting
import GuestMachine.Proofs.Saved.Value
import GuestMachine.Proofs.Timer.Likeness
import GuestMachine.Proofs.Saved.Clock
import GuestMachine.Proofs.Segment.Decision
import GuestMachine.Proofs.Timer.Offers
import GuestMachine.Proofs.Segment.Tables
import GuestMachine.Proofs.Timer.Sorting
import GuestMachine.Proofs.Timer.Coherence
import GuestMachine.Proofs.Machine.Schedule
import GuestMachine.Proofs.Instruction.Delimiting
import GuestMachine.Proofs.Instruction.Blocks
import GuestMachine.Proofs.Block.Growth
import GuestMachine.Proofs.Segment.TypedAccess
import GuestMachine.Proofs.Segment.Bytewise
import GuestMachine.Proofs.Block.Fitting
import GuestMachine.Proofs.Timer.Clearing
import GuestMachine.Proofs.Instruction.PrefixRuns
import GuestMachine.Proofs.Instruction.Lengths
import GuestMachine.Proofs.Block.Modes
import GuestMachine.Proofs.Block.Tiling
import GuestMachine.Proofs.Timer.Normalising
import GuestMachine.Proofs.Timer.Failures
import GuestMachine.Proofs.Segment.Halves
import GuestMachine.Proofs.Block.Answering
import GuestMachine.Proofs.Machine.Returns
import GuestMachine.Proofs.Machine.Counting
import GuestMachine.Proofs.Text.Digest
import GuestMachine.Proofs.Text.Encoding
import GuestMachine.Proofs.Trace.Lines
import GuestMachine.Proofs.Trace.Fingerprint
import GuestMachine.Proofs.Memory.Tracking
import GuestMachine.Proofs.Machine.Acceptance
import GuestMachine.Proofs.Machine.Currency
import GuestMachine.Proofs.Saved.Segment
