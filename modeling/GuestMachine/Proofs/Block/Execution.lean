import GuestMachine.Block.Execute
import GuestMachine.Proofs.Block.Building

/-!
# What executing a block does

A block is either exchanged for another or run. It is exchanged where its code has been modified,
where it has become hot, and always where it is a stub; its chain is then asked for the other, and the
executor is not called. Either way the block stays what it is, apart from its counter.
-/

namespace GuestMachine

namespace Block

variable (block : Block) (memory : Memory)

/-- The tier at which another block is asked for, unless the block is run. -/
def request? : Option Tier :=
  match block.body with
  | .spanning _ => some .baseline
  | .compiled code =>
    if code.isModified memory then some .baseline
    else if code.countExecution.isHot block.chain then some .optimised
    else none

/-- Asks the chain for another block. A stub is not exchanged for a stub. -/
def exchange (requested : Tier) : Except Error Outcome := do
  let other ← block.chain.build memory block.start block.size32 requested
  if block.isSpanning && other.isSpanning then
    throw (.exception .protection0)
  else
    return .replaced other

/-- The block as an execution leaves it: counted, unless it is a stub or modified. -/
def counted : Block :=
  match block.body with
  | .spanning _ => block
  | .compiled code =>
    if code.isModified memory then block
    else { block with body := .compiled code.countExecution }

theorem chain_counted : (block.counted memory).chain = block.chain := by
  unfold counted
  split
  · rfl
  · split <;> rfl

theorem exchange_of_compiled {code : CompiledBlock} (hbody : block.body = .compiled code)
    (requested : Tier) : block.exchange memory requested = block.rebuild memory requested := by
  have hspanning : block.isSpanning = false := by rw [isSpanning, hbody]
  rw [exchange, rebuild, hspanning]
  cases block.chain.build memory block.start block.size32 requested <;> rfl

variable {σ : Type} (executor : Executor σ) (state : σ)

/-- A block is exchanged, without a call of the executor, or it is run. -/
theorem execute_eq :
    block.execute memory executor state =
      match block.request? memory with
      | some requested => ⟨block.exchange memory requested, block.counted memory, state⟩
      | none =>
        let (result, state) := runOps executor block.ops 0 state
        ⟨.executed <$> result, block.counted memory, state⟩ := by
  obtain ⟨chain, size32, body⟩ := block
  cases body with
  | spanning start => rfl
  | compiled code =>
    have hexchange := exchange_of_compiled ⟨chain, size32, .compiled code⟩ memory rfl
    cases hmodified : code.isModified memory with
    | true => simp only [execute, request?, counted, hmodified, if_true, hexchange]
    | false =>
      cases hhot : code.countExecution.isHot chain with
      | true =>
        simp only [execute, request?, counted, hmodified, hhot, if_true, Bool.false_eq_true,
          if_false, hexchange]
        rfl
      | false =>
        simp only [execute, request?, counted, hmodified, hhot, Bool.false_eq_true, if_false]
        rfl

theorem execute_of_request {requested : Tier} (hrequest : block.request? memory = some requested) :
    block.execute memory executor state =
      ⟨block.exchange memory requested, block.counted memory, state⟩ := by
  rw [execute_eq, hrequest]

theorem block_execute : (block.execute memory executor state).block = block.counted memory := by
  rw [execute_eq]
  cases block.request? memory <;> rfl

variable {block} {memory} {executor} {state}

theorem build_of_exchange {requested : Tier} {other : Block}
    (hexchange : block.exchange memory requested = .ok (.replaced other)) :
    block.chain.build memory block.start block.size32 requested = .ok other ∧
      (block.isSpanning && other.isSpanning) = false := by
  unfold exchange at hexchange
  cases hbuild : block.chain.build memory block.start block.size32 requested with
  | error reason =>
    rw [hbuild] at hexchange
    cases hexchange
  | ok built =>
    rw [hbuild] at hexchange
    cases hstubs : block.isSpanning && built.isSpanning with
    | true =>
      simp only [bind, Except.bind, hstubs, if_true] at hexchange
      cases hexchange
    | false =>
      simp only [bind, Except.bind, hstubs, Bool.false_eq_true, if_false] at hexchange
      cases hexchange
      exact ⟨rfl, hstubs⟩

/-- A block is replaced on request only. -/
theorem request_of_replaced {other : Block}
    (hreplaced : (block.execute memory executor state).result = .ok (.replaced other)) :
    ∃ requested, block.request? memory = some requested ∧
      block.exchange memory requested = .ok (.replaced other) := by
  rw [execute_eq] at hreplaced
  cases hrequest : block.request? memory with
  | some requested =>
    rw [hrequest] at hreplaced
    exact ⟨requested, rfl, hreplaced⟩
  | none =>
    rw [hrequest] at hreplaced
    dsimp only at hreplaced
    cases hresult : (runOps executor block.ops 0 state).1 with
    | ok count =>
      rw [hresult] at hreplaced
      cases hreplaced
    | error reason =>
      rw [hresult] at hreplaced
      cases hreplaced

end Block

end GuestMachine
