import GuestMachine.Proofs.Segment.Loading
import GuestMachine.Proofs.Segment.Tables

/-!
# What a load decides

A load of a segment register is decided by one table of rules on the selector, the current level and
the bits of the descriptor that the selector names; the first rule that applies is the fault. A load
that no rule refuses takes the segment that the descriptor is decoded to.
-/

namespace GuestMachine

/-! ## Rules -/

open Descriptor

/-- The fault of a protection violation that the selector is to blame for. -/
def violation (selector : Nat) : Error :=
  .exception (.generalProtection (UInt32.ofNat (selector / 4 * 4)))

namespace SegmentRegister

/-- The types that a register does not take: data registers take all memory that can be read, the
stack writable data and the code register code. -/
def unsuited (raw : UInt64) : SegmentRegister → Bool
  | .data => decide (bits raw 40 44 < 0x10) ||
      (decide (0x18 ≤ bits raw 40 44) && !raw.toNat.testBit 41)
  | .stack => !(decide (0x10 ≤ bits raw 40 44 ∧ bits raw 40 44 < 0x18) && raw.toNat.testBit 41)
  | .code => decide (bits raw 40 44 < 0x18)

/-- Conforming code may be read from all levels and entered from less privileged ones. -/
def denied (raw : UInt64) (requested cpl : Nat) : SegmentRegister → Bool
  | .data => decide (bits raw 40 44 < 0x1C ∧ bits raw 45 46 < max cpl requested)
  | .stack => decide (bits raw 45 46 ≠ cpl)
  | .code =>
    if 0x1C ≤ bits raw 40 44 then decide (cpl < bits raw 45 46)
    else decide (bits raw 45 46 ≠ cpl ∨ cpl < requested)

/-- The fault of a segment that is not present. -/
def absence : SegmentRegister → ExceptionKind
  | .data | .code => .segmentNotPresent
  | .stack => .stackSegment

/-- What a register refuses of a descriptor that was decoded. -/
def acceptanceRules (register : SegmentRegister) (raw : UInt64) (selector cpl : Nat) : List Rule :=
  [(register.unsuited raw, violation selector),
    (register.denied raw (selector % 4) cpl, violation selector),
    (!raw.toNat.testBit 47, .exception (.coded register.absence (UInt32.ofNat (selector / 4 * 4))))]

/-- What refuses the entry that a selector names, in the table that it means if there is one. -/
def entryRules {spaces : Spaces} (register : SegmentRegister) (selector cpl : Nat)
    (policy : DescriptorPolicy) : Option (LoadedTable spaces) → List Rule
  | none => [(true, violation selector)]
  | some table =>
    (decide (table.limit.toNat < 8 * (selector / 8) + 7), violation selector) ::
      (decodingRules (table.entry (selector / 8)) policy ++
        register.acceptanceRules (table.entry (selector / 8)) selector cpl)

/-- What refuses a selector that names an entry. For the stack its level is looked at first. -/
def loadRules {spaces : Spaces} (register : SegmentRegister) (table? : Option (LoadedTable spaces))
    (selector cpl : Nat) (policy : DescriptorPolicy) : List Rule :=
  (decide (register = .stack ∧ selector % 4 ≠ cpl), violation selector) ::
    register.entryRules selector cpl policy table?

/-- The segment that a register holds after it has taken a selector. Code carries the current
level. -/
def taken (register : SegmentRegister) (segment : Segment) (cpl : UInt8) : Segment :=
  match register with
  | .data | .stack => segment
  | .code =>
    { segment with
      rpl := cpl
      selector := UInt16.ofNat (segment.selector.toNat / 4 * 4 + cpl.toNat) }

end SegmentRegister

theorem Descriptor.firstMatch_append (rules others : List Rule) :
    firstMatch (rules ++ others) = (firstMatch rules).or (firstMatch others) := by
  rw [firstMatch, firstMatch, firstMatch, List.find?_append, Option.map_or]

namespace DescriptorTables

open Segment

variable {spaces : Spaces}

/-- The tables that segments of their own describe, of which the local one may be missing. -/
def ofLoaded (globalTable : LoadedTable spaces) (localTable : Option (LoadedTable spaces)) :
    DescriptorTables where
  globalTable := globalTable.segment
  localTable := localTable.elim .null LoadedTable.segment

/-- The table that a selector means. -/
def meant (globalTable : LoadedTable spaces) (localTable : Option (LoadedTable spaces))
    (selector : Nat) : Option (LoadedTable spaces) :=
  if selector.testBit 2 then localTable else some globalTable

theorem toUInt32_selectorBase (selector : UInt16) :
    (selectorBase selector).toUInt32 = UInt32.ofNat (selector.toNat / 4 * 4) := by
  apply UInt32.toNat_inj.mp
  have hlt := selector.toNat_lt
  rw [UInt16.toNat_toUInt32, toNat_selectorBase, UInt32.toNat_ofNat']
  omega

theorem blame_eq {α : Type} (selector : UInt16) :
    blame (α := α) selector = .error (violation selector.toNat) := by
  rw [blame, Fault.protectionOf, toUInt32_selectorBase]
  rfl

/-! ## Fetching -/

section

variable {globalTable : LoadedTable spaces} {localTable : Option (LoadedTable spaces)}
  {selector : UInt16}

theorem table_eq : (if Selector.isLocal selector then (ofLoaded globalTable localTable).localTable
      else (ofLoaded globalTable localTable).globalTable) =
    (meant globalTable localTable selector.toNat).elim .null LoadedTable.segment := by
  rw [Selector.isLocal_eq, meant]
  split <;> rfl

theorem fetch_of_meant {table : LoadedTable spaces}
    (hmeant : meant globalTable localTable selector.toNat = some table) :
    (ofLoaded globalTable localTable).fetch spaces selector =
      if table.limit.toNat < 8 * (selector.toNat / 8) + 7 then .error (violation selector.toNat)
      else .ok (table.entry (selector.toNat / 8)) := by
  have hsome : table.segment.isNull = false := rfl
  have hlast : (Selector.tableOffset selector + 7).toNat = 8 * (selector.toNat / 8) + 7 := by
    have hlt := selector.toNat_lt
    rw [UInt32.toNat_add, Selector.toNat_tableOffset]
    simp only [UInt32.reduceToNat]
    omega
  rw [fetch, table_eq, hmeant, Option.elim_some]
  simp only [hsome, if_neg Bool.false_ne_true, table.checkAddress_segment, hlast]
  by_cases hwithin : 8 * (selector.toNat / 8) + 7 ≤ table.limit.toNat
  · rw [if_pos hwithin, if_neg (Nat.not_lt.mpr hwithin),
      table.getQuadword_segment (Selector.toNat_tableOffset selector) hwithin]
  · rw [if_neg hwithin, if_pos (Nat.not_le.mp hwithin), blame_eq]

theorem fetch_of_not_meant (hmeant : meant globalTable localTable selector.toNat = none) :
    (ofLoaded globalTable localTable).fetch spaces selector =
      .error (violation selector.toNat) := by
  rw [fetch, table_eq, hmeant, Option.elim_none, ← blame_eq]
  rfl

end

/-! ## Accepting -/

section

variable {tables : DescriptorTables} {policy : DescriptorPolicy} {selector : UInt16} {cpl : UInt8}
  {type : DescriptorType} {raw : UInt64}

theorem unsuited_of_isGate (hcode : type.code = bits raw 40 44) (hgate : type.isGate = true)
    (register : SegmentRegister) : register.unsuited raw = true := by
  have hsystem : bits raw 40 44 < 0x10 := by
    have hsystem := DescriptorType.isSystem_of_isGate hgate
    rw [type.isSystem_eq, hcode] at hsystem
    exact of_decide_eq_true hsystem
  cases register with
  | data => simp [SegmentRegister.unsuited, hsystem]
  | stack => simp [SegmentRegister.unsuited, hsystem]
  | code => exact decide_eq_true (Nat.lt_trans hsystem (by decide))

theorem unsuited_data (hcode : type.code = bits raw 40 44) :
    (type.isSystem || (type.isCode && !type.isReadable)) = SegmentRegister.data.unsuited raw := by
  rw [type.isSystem_eq, type.isCode_eq, type.isReadable_eq, hcode, testBit_typeCode,
    SegmentRegister.unsuited, Bool.not_not, ← Bool.and_assoc, Bool.and_self]

theorem unsuited_stack (hcode : type.code = bits raw 40 44) :
    (!(type.isData && type.isWritable)) = SegmentRegister.stack.unsuited raw := by
  rw [type.isData_eq, type.isWritable_eq, hcode, testBit_typeCode, SegmentRegister.unsuited]
  by_cases hdata : 0x10 ≤ bits raw 40 44 ∧ bits raw 40 44 < 0x18
  · simp [hdata, Nat.not_le.mpr hdata.2]
  · simp [hdata]

theorem unsuited_code (hcode : type.code = bits raw 40 44) :
    (!type.isCode) = SegmentRegister.code.unsuited raw := by
  rw [type.isCode_eq, hcode, SegmentRegister.unsuited, ← decide_not]
  exact decide_eq_decide.mpr Nat.not_le

theorem toNat_dpl_ofRaw (type : DescriptorType) (raw : UInt64) :
    (DescriptorSegment.ofRaw type raw).dpl.toNat = bits raw 45 46 :=
  SegmentFields.toNat_dpl raw

theorem denied_data (hcode : type.code = bits raw 40 44) (selector : UInt16) (cpl : UInt8) :
    (!type.isConforming &&
      decide ((DescriptorSegment.ofRaw type raw).dpl < max cpl (selectorRpl selector))) =
      SegmentRegister.data.denied raw (selector.toNat % 4) cpl.toNat := by
  rw [type.isConforming_eq, hcode, SegmentRegister.denied, ← decide_not, ← Bool.decide_and,
    decide_eq_decide, Nat.not_le, UInt8.lt_iff_toNat_lt, toNat_dpl_ofRaw, UInt8.toNat_max,
    toNat_selectorRpl]

theorem denied_stack (type : DescriptorType) (cpl : UInt8) (requested : Nat) :
    decide ((DescriptorSegment.ofRaw type raw).dpl ≠ cpl) =
      SegmentRegister.stack.denied raw requested cpl.toNat := by
  rw [SegmentRegister.denied, decide_eq_decide, Ne, ← UInt8.toNat_inj, toNat_dpl_ofRaw]

theorem denied_code (hcode : type.code = bits raw 40 44) (selector : UInt16) (cpl : UInt8) :
    decide (if type.isConforming then cpl < (DescriptorSegment.ofRaw type raw).dpl
      else (DescriptorSegment.ofRaw type raw).dpl ≠ cpl ∨ cpl < selectorRpl selector) =
      SegmentRegister.code.denied raw (selector.toNat % 4) cpl.toNat := by
  simp only [type.isConforming_eq, hcode, SegmentRegister.denied, decide_eq_true_eq,
    UInt8.lt_iff_toNat_lt, toNat_dpl_ofRaw, toNat_selectorRpl, Ne, ← UInt8.toNat_inj]
  split <;> rfl

theorem withLevel_eq_taken {segment : Segment} (hnull : segment.isNull = false) (hcpl : cpl ≤ 3) :
    segment.withLevel cpl = .ok (SegmentRegister.code.taken segment cpl) := by
  have hlevel : cpl.toNat < 4 := Nat.lt_succ_of_le (UInt8.le_iff_toNat_le.mp hcpl)
  have hkept : cpl &&& 3 = cpl := by
    apply UInt8.toNat_inj.mp
    rw [UInt8.toNat_and]
    exact (Nat.and_two_pow_sub_one_eq_mod cpl.toNat 2).trans (Nat.mod_eq_of_lt hlevel)
  have hselector : selectorBase segment.selector ||| cpl.toUInt16 =
      UInt16.ofNat (segment.selector.toNat / 4 * 4 + cpl.toNat) := by
    rw [← toNat_selectorBase_or segment.selector hlevel, UInt16.ofNat_toNat]
  simp only [withLevel, hnull, hkept, hselector]
  rfl

/-- The rules of a register as checks one after the other. -/
theorem acceptance_eq {α : Type} (register : SegmentRegister) (raw : UInt64) (selector cpl : Nat)
    (accepted : α) :
    (match firstMatch (register.acceptanceRules raw selector cpl) with
      | some reason => Except.error reason
      | none => .ok accepted) =
      if register.unsuited raw then .error (violation selector)
      else if register.denied raw (selector % 4) cpl then .error (violation selector)
      else if !raw.toNat.testBit 47 then
        .error (.exception (.coded register.absence (UInt32.ofNat (selector / 4 * 4))))
      else .ok accepted := by
  simp only [SegmentRegister.acceptanceRules, firstMatch_cons]
  cases register.unsuited raw <;> cases register.denied raw (selector % 4) cpl <;>
    cases raw.toNat.testBit 47 <;> rfl

/-- The checks that follow the decoding of a descriptor are the rules of the register. -/
theorem load_of_decoded (register : SegmentRegister) {space : SpaceId} (hcpl : cpl ≤ 3)
    (hnull : Selector.isNull selector = false)
    (hlevel : register = .stack → selectorRpl selector = cpl)
    (hcode : type.code = bits raw 40 44)
    (hfetch : tables.fetchSegment spaces policy selector =
      .ok (ofKind space selector (.ofRaw type raw))) :
    tables.load spaces policy register selector cpl =
      match firstMatch (register.acceptanceRules raw selector.toNat cpl.toNat) with
      | some reason => .error reason
      | none => .ok (register.taken (ofKind space selector (.ofRaw type raw)) cpl) := by
  rw [acceptance_eq]
  cases hgate : type.isGate with
  | true =>
    have hkind : (ofKind space selector (.ofRaw type raw)).kind = .gate (.ofRaw type raw) :=
      if_pos hgate
    rw [load_of_gate register hnull hfetch hkind hgate, unsuited_of_isGate hcode hgate, blame_eq]
    rfl
  | false =>
    have hkind : (ofKind space selector (.ofRaw type raw)).kind =
        .descriptor (.ofRaw type raw) := by
      rw [ofKind, SegmentKind.ofRaw, hgate, if_neg Bool.false_ne_true]
    have htype : (DescriptorSegment.ofRaw type raw).type = type := rfl
    have hrpl : (ofKind space selector (.ofRaw type raw)).rpl = selectorRpl selector := rfl
    have hpresent : (DescriptorSegment.ofRaw type raw).present = raw.toNat.testBit 47 :=
      flag_eq_testBit raw 47
    cases register with
    | data =>
      rw [load, loadData_of_descriptor hnull hfetch hkind, htype, unsuited_data hcode, hrpl,
        denied_data hcode, hpresent, blame_eq, Fault.notPresent, toUInt32_selectorBase]
      rfl
    | stack =>
      rw [load, loadStack_of_descriptor hnull (hlevel rfl) hfetch hkind, htype,
        unsuited_stack hcode, ← denied_stack type, hpresent, blame_eq, Fault.stackFault,
        toUInt32_selectorBase]
      simp only [decide_eq_true_eq]
      rfl
    | code =>
      have hsome : (ofKind space selector (.ofRaw type raw)).isNull = false := by
        rw [isNull, hkind]
      rw [load, loadCode_of_descriptor hnull hfetch hkind, htype, unsuited_code hcode, hrpl,
        ← denied_code hcode, hpresent, blame_eq, Fault.notPresent, toUInt32_selectorBase,
        withLevel_eq_taken hsome hcpl]
      simp only [decide_eq_true_eq]
      rfl

end

/-! ## Loading -/

variable (globalTable : LoadedTable spaces) (localTable : Option (LoadedTable spaces))

/-- Data registers take the NULL segment, the other registers nothing. -/
theorem load_of_isNull (tables : DescriptorTables) (policy : DescriptorPolicy)
    (register : SegmentRegister) {selector : UInt16} (cpl : UInt8)
    (hnull : Selector.isNull selector = true) :
    tables.load spaces policy register selector cpl =
      match register with
      | .data => .ok .null
      | .stack | .code => .error (.exception (.generalProtection 0)) := by
  cases register with
  | data =>
    rw [load, loadData, hnull]
    rfl
  | stack =>
    rw [load, loadStack, hnull]
    rfl
  | code =>
    rw [load, loadCode, hnull]
    rfl

theorem load_of_other_level {tables : DescriptorTables} {selector : UInt16} {cpl : UInt8}
    (policy : DescriptorPolicy) (hnull : Selector.isNull selector = false)
    (hlevel : selectorRpl selector ≠ cpl) :
    tables.load spaces policy .stack selector cpl = .error (violation selector.toNat) := by
  rw [load, loadStack, hnull, if_pos hlevel, blame_eq]
  rfl

/-- An error on the way to the segment is the error of the load. -/
theorem load_of_refused {tables : DescriptorTables} {policy : DescriptorPolicy}
    {selector : UInt16} {cpl : UInt8} {reason : Error} (register : SegmentRegister)
    (hnull : Selector.isNull selector = false)
    (hlevel : register = .stack → selectorRpl selector = cpl)
    (hfetch : tables.fetchSegment spaces policy selector = .error reason) :
    tables.load spaces policy register selector cpl = .error reason := by
  cases register with
  | data =>
    rw [load, loadData, hnull, hfetch]
    rfl
  | stack =>
    rw [load, loadStack, hnull, if_neg (not_not_intro (hlevel rfl)), hfetch]
    rfl
  | code =>
    rw [load, loadCode, hnull, hfetch]
    rfl

/-- A load after the level of the selector was looked at. -/
theorem load_of_level (register : SegmentRegister) {selector : UInt16} {cpl : UInt8} (hcpl : cpl ≤ 3)
    (policy : DescriptorPolicy) (hnull : Selector.isNull selector = false)
    (hlevel : register = .stack → selectorRpl selector = cpl) :
    match firstMatch (register.entryRules selector.toNat cpl.toNat policy
      (meant globalTable localTable selector.toNat)) with
    | some reason => (ofLoaded globalTable localTable).load spaces policy register selector cpl =
        .error reason
    | none => ∃ table created, meant globalTable localTable selector.toNat = some table ∧
        ofDescriptor globalTable.space selector (table.entry (selector.toNat / 8)) policy =
          .ok created ∧
        (ofLoaded globalTable localTable).load spaces policy register selector cpl =
          .ok (register.taken created cpl) := by
  cases hmeant : meant globalTable localTable selector.toNat with
  | none =>
    apply load_of_refused register hnull hlevel
    rw [fetchSegment, fetch_of_not_meant hmeant]
    rfl
  | some table =>
    have hfetch := fetch_of_meant hmeant
    simp only [SegmentRegister.entryRules, firstMatch_cons, decide_eq_true_eq]
    by_cases hbeyond : table.limit.toNat < 8 * (selector.toNat / 8) + 7
    · rw [if_pos hbeyond] at hfetch ⊢
      apply load_of_refused register hnull hlevel
      rw [fetchSegment, hfetch]
      rfl
    · rw [if_neg hbeyond] at hfetch ⊢
      have hsegment : (ofLoaded globalTable localTable).fetchSegment spaces policy selector =
          ofDescriptor globalTable.space selector (table.entry (selector.toNat / 8)) policy := by
        rw [fetchSegment, hfetch]
        rfl
      have hdecoded := ofDescriptor_eq globalTable.space selector
        (table.entry (selector.toNat / 8)) policy
      rw [firstMatch_append]
      cases hmatch : firstMatch (decodingRules (table.entry (selector.toNat / 8)) policy) with
      | some reason =>
        rw [hmatch] at hdecoded
        exact load_of_refused register hnull hlevel (hsegment.trans hdecoded)
      | none =>
        rw [hmatch] at hdecoded
        obtain ⟨type, hcode, hok⟩ := hdecoded
        rw [load_of_decoded register hcpl hnull hlevel hcode (hsegment.trans hok),
          Option.none_or]
        cases firstMatch (register.acceptanceRules (table.entry (selector.toNat / 8))
          selector.toNat cpl.toNat) with
        | some reason => rfl
        | none => exact ⟨table, _, rfl, hok, rfl⟩

/-- What a load of a segment register comes to. A selector without its two low bits is 0 or names an
entry, and then the first rule that applies is the fault. Where none applies the entry was decoded,
and its segment is what the register takes. -/
theorem load_eq_decision (register : SegmentRegister) (selector : UInt16) {cpl : UInt8}
    (hcpl : cpl ≤ 3) (policy : DescriptorPolicy) :
    (selector.toNat / 4 * 4 = 0 →
      (ofLoaded globalTable localTable).load spaces policy register selector cpl =
        match register with
        | .data => .ok .null
        | .stack | .code => .error (.exception (.generalProtection 0))) ∧
    (selector.toNat / 4 * 4 ≠ 0 →
      match firstMatch (register.loadRules (meant globalTable localTable selector.toNat)
        selector.toNat cpl.toNat policy) with
      | some reason => (ofLoaded globalTable localTable).load spaces policy register selector cpl =
          .error reason
      | none => ∃ table created, meant globalTable localTable selector.toNat = some table ∧
          ofDescriptor globalTable.space selector (table.entry (selector.toNat / 8)) policy =
            .ok created ∧
          (ofLoaded globalTable localTable).load spaces policy register selector cpl =
            .ok (register.taken created cpl)) := by
  have hnull : Selector.isNull selector = decide (selector.toNat / 4 * 4 = 0) :=
    Selector.isNull_eq selector
  refine ⟨fun hzero ↦ load_of_isNull _ policy register cpl (hnull.trans (decide_eq_true hzero)),
    fun hnamed ↦ ?_⟩
  replace hnull := hnull.trans (decide_eq_false hnamed)
  have hlevel : selectorRpl selector = cpl ↔ selector.toNat % 4 = cpl.toNat := by
    rw [← UInt8.toNat_inj, toNat_selectorRpl]
  rw [SegmentRegister.loadRules, firstMatch_cons]
  by_cases hother : register = .stack ∧ selector.toNat % 4 ≠ cpl.toNat
  · rw [decide_eq_true hother, if_pos rfl, hother.1]
    exact load_of_other_level policy hnull (mt hlevel.mp hother.2)
  · rw [decide_eq_false hother, if_neg Bool.false_ne_true]
    apply load_of_level globalTable localTable register hcpl policy hnull
    intro hstack
    exact hlevel.mpr (not_not.mp fun hne ↦ hother ⟨hstack, hne⟩)

/-- The table of `ringTables`. -/
def ringTable : LoadedTable ringSpaces where
  space := 0
  memory := _
  base := 0
  limit := 23
  registered := rfl

/-- Conforming code is entered from level 3 and then carries that level. The stack is not loaded
with a selector of another level, and the last entry has no successor. -/
theorem load_eq_decision_ring3 : (3 : UInt8) ≤ 3 ∧
    (∃ created, ofDescriptor 0 0x08 0x00CF_9E00_0000_FFFF .fatal = .ok created ∧
      ringTables.load ringSpaces .fatal .code 0x08 3 =
        .ok { created with rpl := 3, selector := 0x0B }) ∧
    ringTables.load ringSpaces .fatal .stack 0x10 3 = .error (violation 0x10) ∧
    ringTables.load ringSpaces .fatal .data 0x1B 3 = .error (violation 0x18) ∧
    ringTables.load ringSpaces .fatal .data 0x03 3 = .ok .null := by
  have hlevel : (3 : UInt8) ≤ 3 := by decide
  have hdecision (register : SegmentRegister) (selector : UInt16) :=
    load_eq_decision ringTable none register selector hlevel .fatal
  refine ⟨hlevel, ?_, (hdecision .stack 0x10).2 (by decide), (hdecision .data 0x1B).2 (by decide),
    (hdecision .data 0x03).1 (by decide)⟩
  obtain ⟨table, created, hmeant, hcreated, hload⟩ := (hdecision .code 0x08).2 (by decide)
  obtain rfl : ringTable = table := Option.some.inj hmeant
  have hdecoded : ofDescriptor 0 0x08 0x00CF_9E00_0000_FFFF .fatal = .ok (ofKind 0 0x08
    (.descriptor (.ofRaw .executeReadConformingCode 0x00CF_9E00_0000_FFFF))) := rfl
  obtain rfl := Except.ok.inj (hdecoded.symm.trans hcreated)
  exact ⟨_, hdecoded, hload⟩

end DescriptorTables

end GuestMachine
