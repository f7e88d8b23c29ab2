import GuestMachine.Saved.Value
import Mathlib.Data.List.Nodup

/-!
# Reading back what was saved

Each form of value is read as what it was written from. A record whose names differ gives every
field that it was written with.
-/

namespace GuestMachine

namespace Saved

variable {α : Type}

/-- What `write` makes of a value is read as that value. -/
def ReadsBack (reader : Reader α) (write : α → Value) (value : α) : Prop :=
  reader (write value) = some value

theorem readsBack_below {bound n : Nat} (hbound : n < bound) :
    ReadsBack (readBelow bound) .nat n := by
  have hrange : (0 : Int) ≤ (n : Int) ∧ (n : Int) < (bound : Int) :=
    ⟨Int.natCast_nonneg n, Int.ofNat_lt.mpr hbound⟩
  rw [ReadsBack, Value.nat, readBelow, if_pos hrange, Int.toNat_natCast]

/-- A type of numbers below a bound is read back if it can be made from its numbers. -/
theorem readsBack_number {bound : Nat} {toNat : α → Nat} {ofNat : Nat → α} (value : α)
    (hbound : toNat value < bound) (hsame : ofNat (toNat value) = value) :
    ReadsBack (fun saved ↦ ofNat <$> readBelow bound saved) (fun value ↦ .nat (toNat value))
      value := by
  have hread : readBelow bound (.nat (toNat value)) = some (toNat value) := readsBack_below hbound
  rw [ReadsBack, hread, Option.map_eq_map, Option.map_some, hsame]

theorem readsBack_uint8 (value : UInt8) : ReadsBack readUInt8 (fun n ↦ .nat n.toNat) value :=
  readsBack_number value value.toNat_lt UInt8.ofNat_toNat

theorem readsBack_uint16 (value : UInt16) : ReadsBack readUInt16 (fun n ↦ .nat n.toNat) value :=
  readsBack_number value value.toNat_lt UInt16.ofNat_toNat

theorem readsBack_uint32 (value : UInt32) : ReadsBack readUInt32 (fun n ↦ .nat n.toNat) value :=
  readsBack_number value value.toNat_lt UInt32.ofNat_toNat

theorem readsBack_uint64 (value : UInt64) : ReadsBack readUInt64 (fun n ↦ .nat n.toNat) value :=
  readsBack_number value value.toNat_lt UInt64.ofNat_toNat

theorem readsBack_bool (value : Bool) : ReadsBack readBool .bool value := rfl

theorem readsBack_list {reader : Reader α} {write : α → Value} {items : List α}
    (hitems : ∀ item ∈ items, ReadsBack reader write item) :
    ReadsBack (readList reader) (fun items ↦ .list (items.map write)) items := by
  induction items with
  | nil => rfl
  | cons item rest ih =>
    rw [ReadsBack, readList] at ih ⊢
    rw [List.map_cons, List.mapM_cons, hitems item List.mem_cons_self,
      ih fun other hother ↦ hitems other (List.mem_cons_of_mem item hother)]
    rfl

/-! ## What is read -/

theorem readBelow_lt {bound n : Nat} {value : Value} (hread : readBelow bound value = some n) :
    n < bound := by
  unfold readBelow at hread
  split at hread
  · split at hread
    · obtain rfl := Option.some.inj hread
      omega
    · cases hread
  · cases hread

theorem exists_of_mem_readList {reader : Reader α} {value : Value} {items : List α}
    (hread : readList reader value = some items) {item : α} (hitem : item ∈ items) :
    ∃ part, reader part = some item := by
  unfold readList at hread
  split at hread
  · next parts =>
    induction parts generalizing items with
    | nil =>
      obtain rfl := Option.some.inj hread
      cases hitem
    | cons part rest ih =>
      rw [List.mapM_cons] at hread
      obtain ⟨first, hfirst, hread⟩ := Option.bind_eq_some_iff.mp hread
      obtain ⟨others, hothers, hread⟩ := Option.bind_eq_some_iff.mp hread
      obtain rfl := Option.some.inj hread
      rcases List.mem_cons.mp hitem with rfl | hlater
      · exact ⟨part, hfirst⟩
      · exact ih hlater hothers
  · cases hread

/-! ## Records -/

theorem lookup_of_mem {items : List (String × Value)} (hdistinct : (items.map Prod.fst).Nodup)
    {name : String} {value : Value} (hmem : (name, value) ∈ items) :
    items.lookup name = some value := by
  induction items with
  | nil => cases hmem
  | cons item rest ih =>
    rw [List.map_cons, List.nodup_cons] at hdistinct
    rw [List.lookup_cons]
    rcases List.mem_cons.mp hmem with rfl | hrest
    · rw [beq_self_eq_true]
    · have hother : name ≠ item.1 := by
        rintro rfl
        exact hdistinct.1 (List.mem_map.mpr ⟨_, hrest, rfl⟩)
      rw [beq_false_of_ne hother]
      exact ih hdistinct.2 hrest

/-- A record without repetitions has the fields that it was written with. -/
theorem exists_fields?_record (names : List String) (items : List (String × Value))
    (hdistinct : (items.map Prod.fst).Nodup) :
    ∃ fields, fields? names (.record items) = some fields ∧
      ∀ name value, (name, value) ∈ items → fields name = some value := by
  have honce : (names.all fun name ↦
      decide ((items.filter (·.1 == name)).length ≤ 1)) = true := by
    rw [List.all_eq_true]
    intro name hname
    apply decide_eq_true
    calc
      (items.filter (·.1 == name)).length = (items.map Prod.fst).count name := by
        rw [List.count, List.countP_map, List.countP_eq_length_filter]
        rfl
      _ ≤ 1 := List.nodup_iff_count_le_one.mp hdistinct name
  refine ⟨fun name ↦ items.lookup name, ?_, fun name value ↦ lookup_of_mem hdistinct⟩
  change recordFields? names (.record items) = _
  rw [recordFields?, if_pos honce]

/-- The same where no list may stand for the record. -/
theorem exists_recordFields?_record (names : List String) (items : List (String × Value))
    (hdistinct : (items.map Prod.fst).Nodup) :
    ∃ fields, recordFields? names (.record items) = some fields ∧
      ∀ name value, (name, value) ∈ items → fields name = some value :=
  exists_fields?_record names items hdistinct

theorem Fields.read_of_eq_some {fields : Fields} {name : String} {reader : Reader α}
    {write : α → Value} {value : α} (hfield : fields name = some (write value))
    (hread : ReadsBack reader write value) : fields.read name reader = some value := by
  rw [Fields.read, hfield]
  exact hread

end Saved

end GuestMachine
