import GuestMachine.Trace
import Mathlib.Data.Finset.Card
import Mathlib.Data.Finset.Dedup

/-!
# Promotion in a trace

How a threshold changes what a run records. With every dispatch of a block the trace without
promotion has a record at the baseline tier. With a threshold the record of the dispatch that
reaches it is followed by one at the optimised tier, and all later ones are at that tier. Nothing
else in the trace changes.
-/

namespace GuestMachine

/-- The start of the compiled block that is dispatched. -/
def TraceRecord.start? : TraceRecord → Option Nat
  | block _ start _ _ _ => some start
  | spanning _ _ | timer _ | note _ => none

namespace Promotion

/-- How often the compiled block at an offset was dispatched. -/
def dispatches (records : List TraceRecord) (offset : Nat) : Nat :=
  records.countP fun record ↦ record.start? = some offset

/-- What a record becomes under a threshold, given the records before it. -/
def promoteRecord (threshold : Nat) (earlier : List TraceRecord) :
    TraceRecord → List TraceRecord
  | .block mode start length count tier =>
    let index := dispatches earlier start + 1
    if index < threshold then
      [.block mode start length count tier]
    else if index = threshold then
      [.block mode start length count tier, .block mode start length count .optimised]
    else
      [.block mode start length count .optimised]
  | record => [record]

/-- What the later records become under a threshold. -/
def promoteFrom (threshold : Nat) : (earlier later : List TraceRecord) → List TraceRecord
  | _, [] => []
  | earlier, record :: later =>
    promoteRecord threshold earlier record ++ promoteFrom threshold (earlier ++ [record]) later

/-- What the records become under a threshold. -/
def promote (threshold : Nat) (records : List TraceRecord) : List TraceRecord :=
  promoteFrom threshold [] records

/-- The starts of the compiled blocks that are dispatched as often as the threshold says. -/
def hotStarts (threshold : Nat) (records : List TraceRecord) : Finset Nat :=
  (records.filterMap TraceRecord.start?).toFinset.filter (threshold ≤ dispatches records ·)

/-! ## Counting dispatches -/

variable {records later : List TraceRecord} {record : TraceRecord} {offset : Nat}

theorem dispatches_append_of_start?_eq_none (hlater : ∀ record ∈ later, record.start? = none) :
    dispatches (records ++ later) offset = dispatches records offset := by
  have hnone : later.countP (fun record ↦ record.start? = some offset) = 0 := by
    rw [List.countP_eq_zero]
    intro record hmem
    simp [hlater record hmem]
  rw [dispatches, List.countP_append, hnone]
  rfl

theorem dispatches_append_singleton :
    dispatches (records ++ [record]) offset =
      dispatches records offset + if record.start? = some offset then 1 else 0 := by
  simp only [dispatches, List.countP_append, List.countP_singleton, decide_eq_true_eq]

theorem dispatches_pos_iff :
    0 < dispatches records offset ↔ ∃ record ∈ records, record.start? = some offset := by
  simp only [dispatches, List.countP_pos_iff, decide_eq_true_eq]

/-! ## One more record -/

variable {threshold : Nat}

theorem promoteFrom_append_singleton (earlier : List TraceRecord) :
    promoteFrom threshold earlier (later ++ [record]) =
      promoteFrom threshold earlier later ++ promoteRecord threshold (earlier ++ later) record := by
  induction later generalizing earlier with
  | nil => rw [List.nil_append, promoteFrom, promoteFrom, promoteFrom, List.append_nil,
      List.append_nil, List.nil_append]
  | cons first later ih =>
    rw [List.cons_append, promoteFrom, ih, promoteFrom, List.append_assoc, List.append_assoc]
    rfl

theorem promote_append_singleton :
    promote threshold (records ++ [record]) =
      promote threshold records ++ promoteRecord threshold records record :=
  promoteFrom_append_singleton []

example :
    promote 2 [.block .real 0 5 4 .baseline, .block .real 0 5 4 .baseline, .note "tick",
        .block .real 0 5 4 .baseline] =
      [.block .real 0 5 4 .baseline, .block .real 0 5 4 .baseline, .block .real 0 5 4 .optimised,
        .note "tick", .block .real 0 5 4 .optimised] := by
  decide

theorem promoteRecord_of_start?_eq_none (hstart : record.start? = none) :
    promoteRecord threshold records record = [record] := by
  cases record with
  | block => cases hstart
  | spanning => rfl
  | timer => rfl
  | note => rfl

theorem mem_hotStarts_iff (hthreshold : 0 < threshold) :
    offset ∈ hotStarts threshold records ↔ threshold ≤ dispatches records offset := by
  rw [hotStarts, Finset.mem_filter, List.mem_toFinset, List.mem_filterMap, ← dispatches_pos_iff]
  exact and_iff_right_of_imp fun hle ↦ Nat.lt_of_lt_of_le hthreshold hle

theorem hotStarts_append_of_start?_eq_none (hthreshold : 0 < threshold)
    (hlater : ∀ record ∈ later, record.start? = none) :
    hotStarts threshold (records ++ later) = hotStarts threshold records := by
  ext offset
  rw [mem_hotStarts_iff hthreshold, mem_hotStarts_iff hthreshold,
    dispatches_append_of_start?_eq_none hlater]

/-- The dispatch that reaches the threshold makes one more block hot, any other none. -/
theorem card_hotStarts_append_singleton (hthreshold : 0 < threshold)
    (hstart : record.start? = some offset) :
    (hotStarts threshold (records ++ [record])).card =
      (hotStarts threshold records).card +
        if dispatches records offset + 1 = threshold then 1 else 0 := by
  by_cases hreached : dispatches records offset + 1 = threshold
  · have hinsert : hotStarts threshold (records ++ [record]) =
        insert offset (hotStarts threshold records) := by
      ext other
      rw [Finset.mem_insert, mem_hotStarts_iff hthreshold, mem_hotStarts_iff hthreshold,
        dispatches_append_singleton, hstart]
      by_cases hother : other = offset
      · subst hother
        simp [hreached]
      · have hne : some offset ≠ some other := fun h ↦ hother (Option.some.inj h).symm
        rw [if_neg hne, Nat.add_zero, or_iff_right hother]
    have hnew : offset ∉ hotStarts threshold records := by
      rw [mem_hotStarts_iff hthreshold, ← hreached]
      exact Nat.not_succ_le_self _
    rw [hinsert, Finset.card_insert_of_notMem hnew, if_pos hreached]
  · have hsame : hotStarts threshold (records ++ [record]) = hotStarts threshold records := by
      ext other
      rw [mem_hotStarts_iff hthreshold, mem_hotStarts_iff hthreshold, dispatches_append_singleton,
        hstart]
      split
      · next hother =>
        cases hother
        omega
      · rw [Nat.add_zero]
    rw [hsame, if_neg hreached, Nat.add_zero]

/-! ## With and without a threshold -/

/-- What the records become if there is a threshold. -/
def told (threshold : Option UInt32) (records : List TraceRecord) : List TraceRecord :=
  match threshold with
  | some threshold => promote threshold.toNat records
  | none => records

/-- The number of blocks that are promoted. -/
def promotions (threshold : Option UInt32) (records : List TraceRecord) : Nat :=
  match threshold with
  | some threshold => (hotStarts threshold.toNat records).card
  | none => 0

/-- Whether a block that was dispatched `count` times is promoted at its next dispatch. -/
def IsDue (threshold : Option UInt32) (count : Nat) : Prop :=
  threshold.map UInt32.toNat = some (count + 1)

instance (threshold : Option UInt32) (count : Nat) : Decidable (IsDue threshold count) :=
  inferInstanceAs (Decidable (_ = _))

/-- The tier of a block that was dispatched `count` times. -/
def tierAfter (threshold : Option UInt32) (count : Nat) : Tier :=
  match threshold with
  | some threshold => if threshold.toNat ≤ count then .optimised else .baseline
  | none => .baseline

/-- How often the block has been executed since it was built or promoted, if it was dispatched
`count` times. -/
def executionsAfter (threshold : Option UInt32) (count : Nat) : Nat :=
  match threshold with
  | some threshold => if threshold.toNat ≤ count then count - threshold.toNat + 1 else count
  | none => count

variable {threshold : Option UInt32} {count : Nat}

theorem toNat_pos (hthreshold : threshold ≠ some 0) {reached : UInt32}
    (hsome : threshold = some reached) : 0 < reached.toNat := by
  refine Nat.pos_of_ne_zero fun hzero ↦ hthreshold ?_
  rw [hsome, UInt32.toNat_inj.mp (hzero.trans UInt32.toNat_zero.symm)]

theorem isDue_some {reached : UInt32} : IsDue (some reached) count ↔ reached.toNat = count + 1 := by
  rw [IsDue, Option.map_some, Option.some.injEq]

/-! ### The block at a dispatch -/

theorem tierAfter_zero (hthreshold : threshold ≠ some 0) : tierAfter threshold 0 = .baseline := by
  cases hsome : threshold with
  | none => rfl
  | some reached =>
    rw [tierAfter, if_neg (Nat.not_le_of_lt (toNat_pos hthreshold hsome))]

theorem executionsAfter_zero (hthreshold : threshold ≠ some 0) :
    executionsAfter threshold 0 = 0 := by
  cases hsome : threshold with
  | none => rfl
  | some reached =>
    rw [executionsAfter, if_neg (Nat.not_le_of_lt (toNat_pos hthreshold hsome))]

theorem tierAfter_succ (hdue : ¬ IsDue threshold count) :
    tierAfter threshold (count + 1) = tierAfter threshold count := by
  cases threshold with
  | none => rfl
  | some reached =>
    rw [isDue_some] at hdue
    have hiff : reached.toNat ≤ count + 1 ↔ reached.toNat ≤ count := by omega
    simp only [tierAfter, hiff]

theorem executionsAfter_succ (hdue : ¬ IsDue threshold count) :
    executionsAfter threshold (count + 1) = executionsAfter threshold count + 1 := by
  cases threshold with
  | none => rfl
  | some reached =>
    rw [isDue_some] at hdue
    have hiff : reached.toNat ≤ count + 1 ↔ reached.toNat ≤ count := by omega
    simp only [executionsAfter, hiff]
    split
    · omega
    · rfl

/-- Before the promotion the block counts its dispatches at the baseline tier. -/
theorem IsDue.before (hdue : IsDue threshold count) :
    tierAfter threshold count = .baseline ∧ executionsAfter threshold count = count := by
  cases threshold with
  | none => cases hdue
  | some reached =>
    rw [isDue_some] at hdue
    have hnot : ¬ reached.toNat ≤ count := by omega
    rw [tierAfter, executionsAfter, if_neg hnot, if_neg hnot]
    exact ⟨rfl, rfl⟩

/-- A baseline block whose promotion is not due stays below the threshold. -/
theorem executionsAfter_lt {reached : UInt32} (hdue : ¬ IsDue threshold count)
    (hsome : threshold = some reached) (htier : tierAfter threshold count = .baseline) :
    executionsAfter threshold count + 1 < reached.toNat := by
  subst hsome
  rw [isDue_some] at hdue
  rw [tierAfter] at htier
  split at htier
  · cases htier
  · next hbelow =>
    rw [executionsAfter, if_neg hbelow]
    omega

/-- After the promotion the block has been executed once at the optimised tier. -/
theorem IsDue.after (hdue : IsDue threshold count) :
    tierAfter threshold (count + 1) = .optimised ∧ executionsAfter threshold (count + 1) = 1 := by
  cases threshold with
  | none => cases hdue
  | some reached =>
    rw [isDue_some] at hdue
    rw [tierAfter, executionsAfter, if_pos (Nat.le_of_eq hdue), if_pos (Nat.le_of_eq hdue), hdue,
      Nat.sub_self]
    exact ⟨rfl, rfl⟩

/-! ### What is told of a dispatch -/

theorem told_nil (threshold : Option UInt32) : told threshold [] = [] := by
  cases threshold <;> rfl

theorem promotions_nil (threshold : Option UInt32) : promotions threshold [] = 0 := by
  cases threshold <;> rfl

theorem told_append_of_start?_eq_none (records : List TraceRecord)
    (hlater : ∀ record ∈ later, record.start? = none) :
    told threshold (records ++ later) = told threshold records ++ later := by
  cases threshold with
  | none => rfl
  | some threshold =>
    induction later using List.reverseRecOn with
    | nil => rw [List.append_nil, List.append_nil]
    | append_singleton later last ih =>
      have hlast := hlater last (List.mem_append_right _ (List.mem_singleton_self last))
      have hbefore := ih fun record hmem ↦ hlater record (List.mem_append_left _ hmem)
      rw [← List.append_assoc, told, promote_append_singleton,
        promoteRecord_of_start?_eq_none hlast, ← List.append_assoc]
      exact congrArg (· ++ [last]) hbefore

theorem promotions_append_of_start?_eq_none (records : List TraceRecord)
    (hthreshold : threshold ≠ some 0)
    (hlater : ∀ record ∈ later, record.start? = none) :
    promotions threshold (records ++ later) = promotions threshold records := by
  cases hsome : threshold with
  | none => rfl
  | some reached =>
    rw [promotions, promotions,
      hotStarts_append_of_start?_eq_none (toNat_pos hthreshold hsome) hlater]

variable {mode : Mode} {length size : Nat}

theorem told_append_of_isDue (hdue : IsDue threshold (dispatches records offset)) :
    told threshold (records ++ [.block mode offset length size .baseline]) =
      told threshold records ++
        [.block mode offset length size .baseline, .block mode offset length size .optimised] := by
  cases threshold with
  | none => cases hdue
  | some reached =>
    rw [isDue_some] at hdue
    rw [told, told, promote_append_singleton, promoteRecord, hdue, if_neg (Nat.lt_irrefl _),
      if_pos rfl]

theorem told_append_of_not_isDue (hdue : ¬ IsDue threshold (dispatches records offset)) :
    told threshold (records ++ [.block mode offset length size .baseline]) =
      told threshold records ++
        [.block mode offset length size (tierAfter threshold (dispatches records offset))] := by
  cases threshold with
  | none => rfl
  | some reached =>
    rw [isDue_some] at hdue
    rw [told, promote_append_singleton, promoteRecord, tierAfter]
    rw [if_neg (Ne.symm hdue)]
    by_cases hreached : reached.toNat ≤ dispatches records offset
    · rw [if_neg (by omega), if_pos hreached]
      rfl
    · rw [if_pos (by omega), if_neg hreached]
      rfl

theorem promotions_append_singleton (hthreshold : threshold ≠ some 0)
    (hstart : record.start? = some offset) :
    promotions threshold (records ++ [record]) =
      promotions threshold records +
        if IsDue threshold (dispatches records offset) then 1 else 0 := by
  cases hsome : threshold with
  | none => rfl
  | some reached =>
    simp only [promotions, card_hotStarts_append_singleton (toNat_pos hthreshold hsome) hstart,
      isDue_some, eq_comm]

end Promotion

end GuestMachine
