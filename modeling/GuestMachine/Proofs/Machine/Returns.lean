import GuestMachine.Machine.Walker
import GuestMachine.Proofs.Instruction.Decoding
import Mathlib.Data.List.Induction
import Mathlib.Order.Nat

/-!
# Where returns go

A return goes back behind the latest open call, and without one the guest is done. A walker opens a
call before it knows whether it follows it. So a call without a known target, which it walks past,
is open as well, and the next return comes back to it. Where every call is followed, and no more are
open than a walker remembers, returns match the followed calls as brackets match.
-/

namespace GuestMachine

namespace Walker

/-- What an executor is told to do. -/
inductive Move where
  | execute (instruction : Instruction)
  | skip (length count : Nat)

namespace Move

def perform (walker : Walker) : Move → Walker
  | execute instruction => (executor.execute instruction walker).2
  | skip length count => executor.skip length count walker

/-- The open calls after a move, latest first. A call is opened if `opens` says so, in view of those
that are open, and a return closes the latest. -/
def track (opens : List Instruction → Instruction → Bool) (calls : List Instruction) :
    Move → List Instruction
  | execute instruction =>
    match instruction.flow with
    | .call => if opens calls instruction then instruction :: calls else calls
    | .ret => calls.tail
    | _ => calls
  | skip _ _ => calls

/-- Whether the guest is done with a move that is made while the given calls are open. -/
def Ends (calls : List Instruction) : Move → Prop
  | execute instruction => instruction.flow = .halt ∨ instruction.flow = .ret ∧ calls = []
  | skip _ _ => False

end Move

/-- A fresh walker after some moves. -/
def walk (entry : Nat) (moves : List Move) : Walker := moves.foldl Move.perform { ip := entry }

def openCalls (opens : List Instruction → Instruction → Bool) (moves : List Move) :
    List Instruction :=
  moves.foldl (Move.track opens) []

/-- A walker remembers any call, up to a number of them. -/
def remembers (calls : List Instruction) (_ : Instruction) : Bool :=
  decide (calls.length < maxCallDepth)

/-- A call is followed if its target is known. -/
def follows (_ : List Instruction) (call : Instruction) : Bool := (target? call).isSome

/-- Each return goes behind the latest open call, and the guest is done when there is none or when
it halts. -/
structure ReturnsToOpen (opens : List Instruction → Instruction → Bool) (entry : Nat)
    (moves : List Move) : Prop where
  goes : ∀ earlier ret, earlier ++ [.execute ret] <+: moves → ret.flow = .ret →
    (walk entry (earlier ++ [.execute ret])).ip = ((openCalls opens earlier).headD ret).next
  halts : (walk entry moves).halted = true ↔
    ∃ earlier move, earlier ++ [move] <+: moves ∧ move.Ends (openCalls opens earlier)

variable {opens : List Instruction → Instruction → Bool} {entry : Nat} {walker : Walker}
  {instruction : Instruction} {calls : List Instruction} {moves : List Move} {move : Move}

theorem walk_append_singleton (entry : Nat) (moves : List Move) (move : Move) :
    walk entry (moves ++ [move]) = move.perform (walk entry moves) := by
  rw [walk, List.foldl_append]
  rfl

theorem openCalls_append_singleton (opens : List Instruction → Instruction → Bool)
    (moves : List Move) (move : Move) :
    openCalls opens (moves ++ [move]) = move.track opens (openCalls opens moves) := by
  rw [openCalls, List.foldl_append]
  rfl

/-- Each move opens at most one call. -/
theorem length_openCalls_le (opens : List Instruction → Instruction → Bool) (moves : List Move) :
    (openCalls opens moves).length ≤ moves.length := by
  induction moves using List.reverseRecOn with
  | nil => exact le_rfl
  | append_singleton moves last ih =>
    rw [openCalls_append_singleton, List.length_append, List.length_singleton]
    cases last with
    | skip length count => exact Nat.le_succ_of_le ih
    | execute instruction =>
      simp only [Move.track]
      split
      · split
        · exact Nat.succ_le_succ ih
        · exact Nat.le_succ_of_le ih
      · rw [List.length_tail]
        omega
      · exact Nat.le_succ_of_le ih

theorem length_openCalls_le_maxCallDepth (opens : List Instruction → Instruction → Bool)
    (hmoves : moves.length ≤ maxCallDepth) {earlier : List Move} (hbegins : earlier <+: moves) :
    (openCalls opens earlier).length ≤ maxCallDepth :=
  calc
    (openCalls opens earlier).length ≤ earlier.length := length_openCalls_le opens earlier
    _ ≤ moves.length := hbegins.length_le
    _ ≤ maxCallDepth := hmoves

/-! ## Single moves -/

@[simp] theorem returns_take (walker : Walker) (instruction : Instruction) :
    (walker.take instruction).2.returns = walker.returns := by
  rw [take]
  cases target? instruction <;> rfl

@[simp] theorem halted_take (walker : Walker) (instruction : Instruction) :
    (walker.take instruction).2.halted = walker.halted := by
  rw [take]
  cases target? instruction <;> rfl

theorem fst_take (walker : Walker) (instruction : Instruction) :
    (walker.take instruction).1 =
      if (target? instruction).isSome then .leave else .proceed := by
  rw [take]
  cases target? instruction <;> rfl

theorem ip_take (walker : Walker) (instruction : Instruction) :
    (walker.take instruction).2.ip = (target? instruction).getD walker.ip := by
  rw [take]
  cases target? instruction <;> rfl

@[simp] theorem ip_pushReturn (walker : Walker) : walker.pushReturn.ip = walker.ip := by
  rw [pushReturn]
  split <;> rfl

@[simp] theorem halted_pushReturn (walker : Walker) :
    walker.pushReturn.halted = walker.halted := by
  rw [pushReturn]
  split <;> rfl

theorem returns_pushReturn (walker : Walker) :
    walker.pushReturn.returns =
      if walker.returns.length < maxCallDepth then walker.ip :: walker.returns
      else walker.returns := by
  rw [pushReturn]
  split <;> rfl

theorem popReturn_eq (walker : Walker) :
    walker.popReturn =
      { walker with
        ip := walker.returns.headD walker.ip
        returns := walker.returns.tail
        halted := walker.halted || walker.returns.isEmpty } := by
  obtain ⟨ip, halted, returns, branchesTaken, conditionalsSeen⟩ := walker
  cases returns with
  | nil => simp [popReturn]
  | cons first others => simp [popReturn]

/-- A move changes the open calls as it changes where the walker returns to. -/
theorem returns_perform (hreturns : walker.returns = calls.map Instruction.next) (move : Move) :
    (move.perform walker).returns = (move.track remembers calls).map Instruction.next := by
  cases move with
  | skip length count => exact hreturns
  | execute instruction =>
    simp only [Move.perform, executor, execute, Move.track]
    cases instruction.flow with
    | call =>
      simp only [returns_take, returns_pushReturn, hreturns, List.length_map, remembers,
        decide_eq_true_eq]
      split <;> rfl
    | ret => simp only [popReturn_eq, hreturns, List.map_tail]
    | conditionalJump =>
      dsimp only
      split
      · rw [returns_take]
        exact hreturns
      · exact hreturns
    | jump =>
      rw [returns_take]
      exact hreturns
    | sequential | interrupt | halt | modeChange | interruptShadow | invalid => exact hreturns

theorem halted_perform (hreturns : walker.returns = calls.map Instruction.next) (move : Move) :
    (move.perform walker).halted = true ↔ walker.halted = true ∨ move.Ends calls := by
  cases move with
  | skip length count => exact (or_iff_left id).symm
  | execute instruction =>
    simp only [Move.perform, executor, execute, Move.Ends]
    cases instruction.flow with
    | call => simp
    | ret => simp [popReturn_eq, hreturns]
    | conditionalJump =>
      dsimp only
      split <;> simp
    | jump => simp
    | halt => simp
    | sequential | interrupt | modeChange | interruptShadow | invalid => simp

theorem ip_perform_ret (hreturns : walker.returns = calls.map Instruction.next)
    (hret : instruction.flow = .ret) :
    ((Move.execute instruction).perform walker).ip = (calls.headD instruction).next := by
  simp only [Move.perform, executor, execute, hret, popReturn_eq, hreturns]
  cases calls <;> rfl

/-- A call leads to its target if that is known, and is walked past otherwise. -/
theorem execute_call (hcall : instruction.flow = .call) (walker : Walker) :
    (executor.execute instruction walker).1 =
        .ok (if follows calls instruction then .leave else .proceed) ∧
      (executor.execute instruction walker).2.ip =
        (target? instruction).getD instruction.next := by
  constructor
  · simp only [executor, execute, hcall, fst_take]
    rfl
  · simp only [executor, execute, hcall, ip_take, ip_pushReturn]

/-! ## Runs -/

theorem returns_walk (entry : Nat) (moves : List Move) :
    (walk entry moves).returns = (openCalls remembers moves).map Instruction.next := by
  induction moves using List.reverseRecOn with
  | nil => rfl
  | append_singleton moves move ih =>
    rw [walk_append_singleton, openCalls_append_singleton]
    exact returns_perform ih move

theorem halted_walk (entry : Nat) (moves : List Move) :
    (walk entry moves).halted = true ↔
      ∃ earlier move, earlier ++ [move] <+: moves ∧ move.Ends (openCalls remembers earlier) := by
  induction moves using List.reverseRecOn with
  | nil =>
    refine ⟨nofun, ?_⟩
    rintro ⟨earlier, move, hbegins, -⟩
    exact absurd (List.prefix_nil.mp hbegins) (List.concat_ne_nil move earlier)
  | append_singleton moves last ih =>
    rw [walk_append_singleton, halted_perform (returns_walk entry moves), ih]
    simp only [List.prefix_concat_iff]
    constructor
    · rintro (⟨earlier, move, hbegins, hends⟩ | hends)
      · exact ⟨earlier, move, Or.inr hbegins, hends⟩
      · exact ⟨moves, last, Or.inl rfl, hends⟩
    · rintro ⟨earlier, move, hlast | hbegins, hends⟩
      · obtain ⟨rfl, hmove⟩ := List.append_inj' hlast rfl
        cases hmove
        exact Or.inr hends
      · exact Or.inl ⟨earlier, move, hbegins, hends⟩

theorem returnsToOpen_remembers (entry : Nat) (moves : List Move) :
    ReturnsToOpen remembers entry moves where
  goes earlier ret _ hret := by
    rw [walk_append_singleton]
    exact ip_perform_ret (returns_walk entry earlier) hret
  halts := halted_walk entry moves

/-- Only the calls that are open at some time matter. -/
theorem ReturnsToOpen.congr {others : List Instruction → Instruction → Bool}
    (hreturns : ReturnsToOpen opens entry moves)
    (hcalls : ∀ earlier, earlier <+: moves → openCalls opens earlier = openCalls others earlier) :
    ReturnsToOpen others entry moves where
  goes earlier ret hbegins hret := by
    rw [hreturns.goes earlier ret hbegins hret,
      hcalls earlier ((List.prefix_append _ _).trans hbegins)]
  halts := by
    rw [hreturns.halts]
    apply exists_congr
    intro earlier
    apply exists_congr
    intro move
    apply and_congr_right
    intro hbegins
    rw [hcalls earlier ((List.prefix_append _ _).trans hbegins)]

/-- Where every call is followed and few are open, the calls that are remembered are followed. -/
theorem openCalls_remembers_eq
    (hfollowed : ∀ call, .execute call ∈ moves → call.flow = .call → (target? call).isSome = true)
    (hdepth : ∀ earlier, earlier <+: moves → (openCalls follows earlier).length ≤ maxCallDepth) :
    openCalls remembers moves = openCalls follows moves := by
  induction moves using List.reverseRecOn with
  | nil => rfl
  | append_singleton moves last ih =>
    have hbefore : openCalls remembers moves = openCalls follows moves := by
      apply ih
      · intro call hcall
        exact hfollowed call (List.mem_append_left _ hcall)
      · intro earlier hbegins
        exact hdepth earlier (hbegins.trans (List.prefix_append _ _))
    have hlast := hdepth _ List.prefix_rfl
    rw [openCalls_append_singleton] at hlast
    rw [openCalls_append_singleton, openCalls_append_singleton, hbefore]
    cases last with
    | skip length count => rfl
    | execute instruction =>
      simp only [Move.track] at hlast ⊢
      cases hflow : instruction.flow with
      | call =>
        have hfollows : follows (openCalls follows moves) instruction = true :=
          hfollowed instruction (List.mem_append_right _ (List.mem_singleton_self _)) hflow
        simp only [hflow, hfollows, if_true, List.length_cons] at hlast ⊢
        rw [remembers, if_pos (decide_eq_true (Nat.lt_of_succ_le hlast))]
      | _ => rfl

/-- Every return of a fresh walker goes behind the latest call that it remembers, followed or not.
It goes behind the latest call that was followed if every call is followed, and no more of them are
open at a time than the walker remembers. -/
theorem returns_match_calls (entry : Nat) (moves : List Move) :
    ReturnsToOpen remembers entry moves ∧
      ((∀ call, .execute call ∈ moves → call.flow = .call → (target? call).isSome = true) →
        (∀ earlier, earlier <+: moves → (openCalls follows earlier).length ≤ maxCallDepth) →
        ReturnsToOpen follows entry moves) ∧
      ∀ call calls walker, call.flow = .call →
        (executor.execute call walker).1 =
            .ok (if follows calls call then .leave else .proceed) ∧
          (executor.execute call walker).2.ip = (target? call).getD call.next := by
  refine ⟨returnsToOpen_remembers entry moves, ?_, ?_⟩
  · intro hfollowed hdepth
    apply (returnsToOpen_remembers entry moves).congr
    intro earlier hbegins
    apply openCalls_remembers_eq
    · intro call hcall
      exact hfollowed call (hbegins.subset hcall)
    · intro before hbefore
      exact hdepth before (hbefore.trans hbegins)
  · intro call calls walker hcall
    exact execute_call hcall walker

/-- A call of the second instruction behind it. -/
def relativeCall : Instruction :=
  { Instruction.nop false 0 with
    length := 3, opcode := 0xE8, flow := .call, branch := some (.relative 1) }

/-- A call of which the target is in a register. -/
def indirectCall : Instruction :=
  { Instruction.nop false 0 with length := 2, opcode := 0xFF, modrm := some 0xD0, flow := .call }

def returnAt (offset : Nat) : Instruction :=
  { Instruction.nop false offset with opcode := 0xC3, flow := .ret }

theorem returns_match_calls_relative :
    let moves := [.execute relativeCall, .skip 1 1, .execute (returnAt 5)]
    (∀ call, .execute call ∈ moves → call.flow = .call → (target? call).isSome = true) ∧
      (∀ earlier, earlier <+: moves → (openCalls follows earlier).length ≤ maxCallDepth) ∧
      (walk 0 moves).ip = 3 ∧ (walk 0 moves).halted = false := by
  intro moves
  have hfollowed : ∀ call, .execute call ∈ moves → call.flow = .call →
      (target? call).isSome = true := by
    simp only [moves, List.mem_cons, Move.execute.injEq, reduceCtorEq, List.not_mem_nil]
    rintro call (rfl | h | rfl | h) hcall
    · rfl
    · cases h
    · cases hcall
    · cases h
  have hdepth : ∀ earlier, earlier <+: moves →
      (openCalls follows earlier).length ≤ maxCallDepth :=
    fun _ hbegins ↦ length_openCalls_le_maxCallDepth follows (by decide) hbegins
  have hreturns := (returns_match_calls 0 moves).2.1 hfollowed hdepth
  refine ⟨hfollowed, hdepth, ?_, rfl⟩
  exact hreturns.goes [.execute relativeCall, .skip 1 1] _ List.prefix_rfl rfl

/-- An indirect call is not followed, and yet the return behind it comes back to it. -/
theorem indirect_call_returned_to :
    let moves := [.execute indirectCall, .execute (returnAt 2)]
    Instruction.ofMemory? .real false (.rom #[0xFF, 0xD0, 0xC3]) 0 = some indirectCall ∧
      Instruction.ofMemory? .real false (.rom #[0xFF, 0xD0, 0xC3]) 2 = some (returnAt 2) ∧
      (∀ earlier, earlier <+: moves → (openCalls follows earlier).length ≤ maxCallDepth) ∧
      (openCalls follows [.execute indirectCall] = [] ∧ (walk 0 moves).halted = false) ∧
      ¬ ReturnsToOpen follows 0 moves := by
  intro moves
  have hreturned : (walk 0 moves).ip = 2 := rfl
  refine ⟨by decide +kernel, by decide +kernel, ?_, ⟨rfl, rfl⟩, ?_⟩
  · intro earlier hbegins
    exact length_openCalls_le_maxCallDepth follows (by decide) hbegins
  · intro hreturns
    have hgoes := hreturns.goes [.execute indirectCall] (returnAt 2) List.prefix_rfl rfl
    exact absurd (hreturned.symm.trans hgoes) (by decide)

end Walker

end GuestMachine
