import GuestMachine.Proofs.Segment.Bytewise
import GuestMachine.Proofs.Segment.TypedAccess

/-!
# Quadwords in two halves

Every access obeys the limit like one that is translated at its whole size, although a quadword is
translated in two halves. There is a single exception. Four bytes before the end of the offsets the
upper half starts again at offset 0, so that a segment which covers all offsets lets both halves
through. At their whole size these eight bytes are within no limit, no more than those of a narrower
access that wraps.
-/

namespace GuestMachine

namespace Segment

/-- The upper half of a quadword wraps to the start of a segment that grants every offset. -/
structure WrapsUnseen (segment : Segment) (access : Access) (width : Width) (offset : UInt32) :
    Prop where
  width : width = .quadword
  offset : offset = 0xFFFFFFFC
  granted : ∀ place, ∃ address, segment.translate place 1 access = .ok address

variable {segment : Segment} {access : Access} {width : Width} {offset size : UInt32}

/-! ## The limit -/

/-- What the limit makes of the two halves, and what it makes of the whole. -/
theorem checkLimit_halves_iff (segment : Segment) (offset : UInt32) :
    segment.checkLimit offset 4 = .ok () ∧ segment.checkLimit (offset + 4) 4 = .ok () ↔
      segment.checkLimit offset 8 = .ok () ∨
        offset = 0xFFFFFFFC ∧ ∀ place, segment.checkLimit place 1 = .ok () := by
  have hfour : (4 : UInt32).toNat = 4 := rfl
  have height : (8 : UInt32).toNat = 8 := rfl
  have hone : (1 : UInt32).toNat = 1 := rfl
  have hlast : offset = 0xFFFFFFFC ↔ offset.toNat = 2 ^ 32 - 4 := UInt32.toNat_inj.symm
  have hupper : (offset + 4).toNat = (offset.toNat + 4) % 2 ^ 32 := UInt32.toNat_add offset 4
  have hoffset : offset.toNat < 2 ^ 32 := offset.toNat_lt
  rw [checkLimit_eq_ok_iff_covers _ _ (by decide), checkLimit_eq_ok_iff_covers _ _ (by decide),
    checkLimit_eq_ok_iff_covers _ _ (by decide)]
  have hsingle : (0 : UInt32) < 1 := by decide
  simp only [fun place ↦ checkLimit_eq_ok_iff_covers segment place hsingle]
  rcases segment.covers_between with hnothing | ⟨lower, upper, hbetween⟩
  · simp only [hnothing, Bool.false_eq_true, forall_const, and_false, or_false]
  · have hbelow : upper < 2 ^ 32 :=
      lt_size_of_covers ((hbetween lower upper).mpr ⟨le_rfl, le_rfl⟩)
    simp only [hbetween, hfour, height, hone, hlast, hupper]
    constructor
    · rintro ⟨⟨hlower, hlow⟩, hstart, hhigh⟩
      by_cases hwraps : offset.toNat + 4 < 2 ^ 32
      · exact Or.inl ⟨hlower, by omega⟩
      · refine Or.inr ⟨by omega, fun place ↦ ?_⟩
        have hplace : place.toNat < 2 ^ 32 := place.toNat_lt
        omega
    · rintro (⟨hlower, hwhole⟩ | ⟨hend, hall⟩)
      · omega
      · have hfirst := hall 0
        have hfinal := hall 0xFFFFFFFF
        have hzero : (0 : UInt32).toNat = 0 := rfl
        have hmax : (0xFFFFFFFF : UInt32).toNat = 2 ^ 32 - 1 := rfl
        omega

/-! ## Places -/

/-- The access is granted at its whole size, or it is a quadword that wraps. -/
def Passes (segment : Segment) (access : Access) (width : Width) (offset : UInt32) : Prop :=
  (∃ address, segment.translate offset (UInt32.ofNat width.size) access = .ok address) ∨
    segment.WrapsUnseen access width offset

theorem passes_of_ne_quadword (hwidth : width ≠ .quadword) :
    segment.Passes access width offset ↔
      ∃ address, segment.translate offset (UInt32.ofNat width.size) access = .ok address :=
  or_iff_left fun hwraps ↦ hwidth hwraps.width

theorem places_of_ne_quadword (hwidth : width ≠ .quadword) :
    segment.places access width offset = segment.row access width.size offset := by
  cases width with
  | byte | word | doubleword => rfl
  | quadword => exact absurd rfl hwidth

theorem row_eq (segment : Segment) (access : Access) (count : Nat) (offset : UInt32) :
    segment.row access count offset =
      (consecutive · count) <$> segment.translate offset (UInt32.ofNat count) access := by
  rw [row]
  cases segment.translate offset (UInt32.ofNat count) access <;> rfl

section

-- Nothing but the limit may refuse the access.
variable {base : UInt32} (hbounded : ∀ offset size, segment.translate offset size access =
  (fun _ ↦ base + offset) <$> segment.checkLimit offset size)

include hbounded

theorem exists_translate_iff (offset size : UInt32) :
    (∃ address, segment.translate offset size access = .ok address) ↔
      segment.checkLimit offset size = .ok () := by
  simp only [hbounded, add_of_checkLimit_eq_ok_iff, exists_and_left, exists_eq', and_true]

theorem passes_quadword_iff : segment.Passes access .quadword offset ↔
    segment.checkLimit offset 4 = .ok () ∧ segment.checkLimit (offset + 4) 4 = .ok () := by
  have hgranted := exists_translate_iff hbounded
  rw [checkLimit_halves_iff, Passes, hgranted]
  apply or_congr Iff.rfl
  constructor
  · rintro ⟨-, hoffset, hall⟩
    exact ⟨hoffset, fun place ↦ (hgranted place 1).mp (hall place)⟩
  · rintro ⟨hoffset, hall⟩
    exact ⟨rfl, hoffset, fun place ↦ (hgranted place 1).mpr (hall place)⟩

theorem places_quadword_of_passes (hpasses : segment.Passes access .quadword offset) :
    ∃ places, segment.places access .quadword offset = .ok places := by
  obtain ⟨hlow, hhigh⟩ := (passes_quadword_iff hbounded).mp hpasses
  refine ⟨consecutive (base + offset) 4 ++ consecutive (base + (offset + 4)) 4, ?_⟩
  simp only [Segment.places, row_eq, hbounded, UInt32.reduceOfNat, hlow, hhigh]
  rfl

theorem places_quadword_of_not_passes (hpasses : ¬ segment.Passes access .quadword offset) :
    segment.places access .quadword offset = .error (.exception .protection0) := by
  rw [passes_quadword_iff hbounded, not_and] at hpasses
  simp only [Segment.places, row_eq, hbounded, UInt32.reduceOfNat]
  rcases segment.checkLimit_ok_or_protection0 offset 4 with hlow | hlow
  · have hhigh := (segment.checkLimit_ok_or_protection0 (offset + 4) 4).resolve_left (hpasses hlow)
    rw [hlow, hhigh]
    rfl
  · rw [hlow]
    rfl

end

theorem not_passes_of_refused {reason : Error}
    (hrefused : ∀ offset size, segment.translate offset size access = .error reason) :
    ¬ segment.Passes access width offset := by
  rintro (⟨address, hgranted⟩ | hwraps)
  · exact nomatch (hrefused _ _).symm.trans hgranted
  · obtain ⟨address, hgranted⟩ := hwraps.granted 0
    exact nomatch (hrefused _ _).symm.trans hgranted

/-- The places of an access are found if it passes. If it does not, it is refused for the reason for
which it is refused at its whole size. -/
theorem places_cases (segment : Segment) (access : Access) (width : Width) (offset : UInt32) :
    (segment.Passes access width offset ∧
        ∃ places, segment.places access width offset = .ok places) ∨
      (¬ segment.Passes access width offset ∧
        ∃ reason, segment.places access width offset = .error reason ∧
          segment.translate offset (UInt32.ofNat width.size) access = .error reason) := by
  by_cases hwidth : width = .quadword
  · subst hwidth
    rcases segment.translate_cases access with ⟨base, -, hbounded⟩ | ⟨reason, hrefused⟩
    · by_cases hpasses : segment.Passes access .quadword offset
      · exact Or.inl ⟨hpasses, places_quadword_of_passes hbounded hpasses⟩
      · refine Or.inr ⟨hpasses, _, places_quadword_of_not_passes hbounded hpasses, ?_⟩
        rw [hbounded, add_of_checkLimit_eq_error_iff]
        refine ⟨?_, rfl⟩
        intro hlimit
        exact hpasses (Or.inl ((exists_translate_iff hbounded _ _).mpr hlimit))
    · refine Or.inr ⟨not_passes_of_refused hrefused, reason, ?_, hrefused _ _⟩
      rw [Segment.places, row_eq, hrefused]
      rfl
  · rw [passes_of_ne_quadword hwidth, places_of_ne_quadword hwidth, row_eq]
    cases segment.translate offset (UInt32.ofNat width.size) access with
    | ok address => exact Or.inl ⟨⟨address, rfl⟩, _, rfl⟩
    | error reason =>
      refine Or.inr ⟨?_, reason, rfl, rfl⟩
      rintro ⟨address, hgranted⟩
      cases hgranted

/-! ## Accesses -/

/-- What fails exactly where the places of an access are not found fails exactly where the access
does not pass, and for the reason for which it is refused at its whole size. -/
theorem obeysLimit_of_places {α : Type} {outcome : Except Error α}
    (hfound : ∀ places, segment.places access width offset = .ok places →
      ∃ value, outcome = .ok value)
    (hmissed : ∀ reason, segment.places access width offset = .error reason →
      outcome = .error reason) :
    ((∃ value, outcome = .ok value) ↔ segment.Passes access width offset) ∧
      ∀ reason, outcome = .error reason →
        segment.translate offset (UInt32.ofNat width.size) access = .error reason := by
  rcases segment.places_cases access width offset with
    ⟨hpasses, places, hplaces⟩ | ⟨hpasses, reason, hplaces, htranslate⟩
  · obtain ⟨value, rfl⟩ := hfound places hplaces
    exact ⟨⟨fun _ ↦ hpasses, fun _ ↦ ⟨value, rfl⟩⟩, nofun⟩
  · rw [hmissed reason hplaces, htranslate]
    exact ⟨⟨nofun, fun h ↦ absurd h hpasses⟩, fun _ h ↦ by cases h; rfl⟩

/-- A quadword that wraps unseen is refused at its whole size. -/
theorem translate_of_wrapsUnseen (hwraps : segment.WrapsUnseen access width offset) :
    segment.translate offset (UInt32.ofNat width.size) access =
      .error (.exception .protection0) := by
  obtain ⟨hwidth, hoffset, hgranted⟩ := hwraps
  subst hwidth hoffset
  rcases segment.translate_cases access with ⟨base, -, hbounded⟩ | ⟨reason, hrefused⟩
  · rw [hbounded, add_of_checkLimit_eq_error_iff]
    refine ⟨?_, rfl⟩
    intro hlimit
    have hlast := ((segment.checkLimit_eq_ok_iff_forall _ (by decide)).mp hlimit).1
    exact absurd hlast (by decide)
  · obtain ⟨address, hfirst⟩ := hgranted 0
    exact nomatch (hrefused _ _).symm.trans hfirst

/-- Every access to a registered space obeys the limit like one that is translated at its whole
size, save for a quadword that wraps unseen, which would be refused there. One that is refused is
refused for the same reason. -/
theorem access_obeysLimit (segment : Segment) {spaces : Spaces}
    (hregistered : segment.space < spaces.size) (width : Width) (offset : UInt32) :
    (((∃ value, segment.read spaces width offset = .ok value) ↔
        (∃ address, segment.translate offset (UInt32.ofNat width.size) .read = .ok address) ∨
          segment.WrapsUnseen .read width offset) ∧
      ∀ reason, segment.read spaces width offset = .error reason →
        segment.translate offset (UInt32.ofNat width.size) .read = .error reason) ∧
    (∀ data : width.Value,
      ((∃ after, segment.write spaces width offset data = .ok after) ↔
        (∃ address, segment.translate offset (UInt32.ofNat width.size) .write = .ok address) ∨
          segment.WrapsUnseen .write width offset) ∧
      ∀ reason, segment.write spaces width offset data = .error reason →
        segment.translate offset (UInt32.ofNat width.size) .write = .error reason) ∧
    ∀ access, segment.WrapsUnseen access width offset →
      segment.translate offset (UInt32.ofNat width.size) access =
        .error (.exception .protection0) := by
  obtain ⟨memory, hget⟩ := Spaces.exists_get_iff.mpr hregistered
  refine ⟨?_, ?_, fun access hwraps ↦ translate_of_wrapsUnseen hwraps⟩
  · apply obeysLimit_of_places
    · intro places hplaces
      exact ⟨_, read_of_reaches ⟨hplaces, hget⟩⟩
    · intro reason hplaces
      exact read_of_refused spaces hplaces
  · intro data
    apply obeysLimit_of_places
    · intro places hplaces
      exact ⟨_, (write_of_places spaces hplaces data).trans (Spaces.modify_eq _ _ hregistered)⟩
    · intro reason hplaces
      exact write_of_refused spaces hplaces data

/-- Data of which the limit is the last of all offsets. -/
def flatData : Segment :=
  .ofKind 0 0x08 (.descriptor (.ofRaw .readWriteData 0x00CF_9200_0000_FFFF))

/-- Sixteen bytes that can be written. -/
def flatSpaces : Spaces := ⟨#[.ram (.zeroed 16)]⟩

theorem flatData_granted {access : Access} (haccess : access ≠ .execute) (place : UInt32) :
    ∃ address, flatData.translate place 1 access = .ok address := by
  have hcovers : flatData.covers place.toNat (place.toNat + (1 : UInt32).toNat - 1) = true :=
    decide_eq_true (Nat.le_of_lt_succ place.toNat_lt)
  have hlimit := (flatData.checkLimit_eq_ok_iff_covers place (by decide)).mpr hcovers
  refine ⟨0 + place, ?_⟩
  cases access with
  | read | write => rw [translate, hlimit]; rfl
  | execute => exact absurd rfl haccess

/-- Only four bytes before the end of the offsets a quadword gets past the limit. -/
theorem access_obeysLimit_flat : flatData.space < flatSpaces.size ∧
    (∃ value, flatData.getQuadword flatSpaces 0xFFFFFFFC = .ok value) ∧
    (∃ after, flatData.setQuadword flatSpaces 0xFFFFFFF8 1 = .ok after) ∧
    (¬ ∃ after, flatData.setQuadword flatSpaces 0xFFFFFFFD 1 = .ok after) ∧
    ¬ ∃ value, flatData.getDoubleword flatSpaces 0xFFFFFFFD = .ok value := by
  have hregistered : flatData.space < flatSpaces.size := by decide
  have hobeys (width : Width) (offset : UInt32) :=
    flatData.access_obeysLimit hregistered width offset
  refine ⟨hregistered, ?_, ?_, ?_, ?_⟩
  · exact (hobeys .quadword 0xFFFFFFFC).1.1.mpr (Or.inr ⟨rfl, rfl, flatData_granted nofun⟩)
  · exact ((hobeys .quadword 0xFFFFFFF8).2.1 1).1.mpr (Or.inl ⟨0xFFFFFFF8, rfl⟩)
  · intro hwritten
    rcases ((hobeys .quadword 0xFFFFFFFD).2.1 1).1.mp hwritten with ⟨address, hgranted⟩ | hwraps
    · cases hgranted
    · exact absurd hwraps.offset (by decide)
  · intro hread
    rcases (hobeys .doubleword 0xFFFFFFFD).1.1.mp hread with ⟨address, hgranted⟩ | hwraps
    · cases hgranted
    · exact nomatch hwraps.width

/-- A quadword is read and written where no eight bytes are within the limit. -/
theorem quadword_wraps_limit :
    ∃ segment, ofDescriptor 0 0x08 0x00CF_9200_0000_FFFF .fatal = .ok segment ∧
      (∃ value, segment.getQuadword flatSpaces 0xFFFFFFFC = .ok value) ∧
      segment.translate 0xFFFFFFFC 8 .read = .error (.exception .protection0) ∧
      (∃ after, segment.setQuadword flatSpaces 0xFFFFFFFC 1 = .ok after) ∧
      segment.translate 0xFFFFFFFC 8 .write = .error (.exception .protection0) :=
  ⟨flatData, rfl, ⟨_, rfl⟩, rfl, ⟨_, rfl⟩, rfl⟩

end Segment

end GuestMachine
