import GuestMachine.Proofs.Memory.Stores

/-!
# What versions tell

A region is changed by values that are stored in it and by copies into it. The version of each page
counts the stores to that page, so that two equal versions of a range say that none of its pages was
stored to, and then no byte of the range can have changed. The range may be empty, and it may go
beyond the region, which has no pages there.
-/

namespace GuestMachine

/-- A call that may change a region. -/
inductive RegionCall where
  | set (address : UInt32) (datum : Datum)
  | copyFrom (source : Array UInt8) (location : Nat)

namespace RegionCall

/-- Carries out a call. A copy that does not fit is refused and leaves the region as it is. -/
def perform (memory : Memory) : RegionCall → Memory
  | set address datum => datum.store address memory
  | copyFrom source location => memory.copied source location

/-- The call as a store to a region that has a name. -/
def store : RegionCall → Store
  | set address datum => .direct address datum
  | copyFrom source location => .copy source location

/-- The bytes that the call writes in a region of the given size. -/
def written (size : Nat) (call : RegionCall) : List Nat := call.store.written 0 size

/-- The pages whose version the call raises, as often as it does. -/
def raised (size : Nat) (call : RegionCall) : List Nat := call.store.raised 0 size

/-- Only bytes of the region are written. -/
theorem lt_size_of_mem_written {size byte : Nat} {call : RegionCall}
    (hbyte : byte ∈ call.written size) : byte < size := by
  cases call with
  | set address datum => exact of_decide_eq_true (List.mem_filter.mp hbyte).2
  | copyFrom source location =>
    simp only [written, store, Store.written] at hbyte
    split at hbyte
    · next hfits =>
      rw [List.mem_range'_1] at hbyte
      omega
    · cases hbyte

theorem perform_stores (ram : Ram) (call : RegionCall) :
    ∃ after, call.perform (.ram ram) = .ram after ∧
      ram.Stores after (call.written ram.size) (call.raised ram.size) := by
  cases call with
  | set address datum => exact datum.store_stores address ram
  | copyFrom source location => exact Memory.copied_stores source location ram

/-- After calls in any order, the region has been changed at the bytes and pages of all of them. -/
theorem foldl_perform_stores (ram : Ram) (calls : List RegionCall) :
    ∃ after, calls.foldl perform (.ram ram) = .ram after ∧
      ram.Stores after (calls.flatMap (·.written ram.size))
        (calls.flatMap (·.raised ram.size)) := by
  induction calls generalizing ram with
  | nil => exact ⟨ram, rfl, Ram.Stores.refl ram⟩
  | cons call rest ih =>
    obtain ⟨middle, hmiddle, hfirst⟩ := perform_stores ram call
    obtain ⟨after, hafter, hrest⟩ := ih middle
    rw [hfirst.size_eq] at hrest
    refine ⟨after, ?_, hfirst.trans hrest⟩
    rw [List.foldl_cons, hmiddle, hafter]

end RegionCall

namespace Ram

/-! ## Refused copies -/

theorem copyFrom_eq_error_iff {ram : Ram} {source : Array UInt8} {location : Nat}
    {reason : RangeError} :
    ram.copyFrom source location = .error reason ↔
      ram.size < location + source.size ∧
        reason = .copyOutOfRange location source.size ram.size := by
  unfold copyFrom
  split
  · next hfits =>
    constructor
    · intro hsame
      cases hsame
    · rintro ⟨hexceeds, -⟩
      omega
  · next hexceeds =>
    rw [Except.error.injEq, eq_comm, and_iff_right (Nat.lt_of_not_le hexceeds)]

theorem exists_copyFrom_iff {ram : Ram} {source : Array UInt8} {location : Nat} :
    (∃ after, ram.copyFrom source location = .ok after) ↔ location + source.size ≤ ram.size := by
  cases hcopy : ram.copyFrom source location with
  | ok after =>
    have hfits : ¬ ram.size < location + source.size := by
      intro hexceeds
      rw [copyFrom_eq_error_iff.mpr ⟨hexceeds, rfl⟩] at hcopy
      cases hcopy
    exact ⟨fun _ ↦ Nat.le_of_not_lt hfits, fun _ ↦ ⟨after, rfl⟩⟩
  | error reason =>
    have hexceeds := (copyFrom_eq_error_iff.mp hcopy).1
    constructor
    · rintro ⟨after, hsame⟩
      cases hsame
    · intro hfits
      omega

/-! ## Pages of a range -/

/-- The range of `length` bytes from an address overlaps a page of the region. -/
def Overlaps (ram : Ram) (address : UInt32) (length page : Nat) : Prop :=
  0 < length ∧ pageOf address.toNat ≤ page ∧ page ≤ pageOf (address.toNat + length - 1) ∧
    page < pageCount ram.size

instance (ram : Ram) (address : UInt32) (length page : Nat) :
    Decidable (ram.Overlaps address length page) := by
  unfold Overlaps
  infer_instance

/-- Of the pages of a range, those where a byte can be stored belong to the region. -/
theorem overlaps_pageOf_iff {ram : Ram} {address : UInt32} {length byte : Nat}
    (hbyte : byte < ram.size) :
    ram.Overlaps address length (pageOf byte) ↔ pageOf byte ∈ pagesOf address.toNat length := by
  rw [mem_pagesOf_iff, Overlaps]
  have hpage : pageOf byte < pageCount ram.size := pageOf_lt_pageCount hbyte
  tauto

theorem overlaps_pageOf_of_mem {ram : Ram} {address : UInt32} {length position : Nat}
    (hfirst : address.toNat ≤ position) (hlast : position < address.toNat + length)
    (hposition : position < ram.size) : ram.Overlaps address length (pageOf position) := by
  refine ⟨by omega, ?_, ?_, pageOf_lt_pageCount hposition⟩
  · exact Nat.div_le_div_right hfirst
  · exact Nat.div_le_div_right (by omega)

/-! ## Versions -/

/-- Versions keep track of stores, as long as there are fewer of them than version numbers: each
page counts its own, and the version of a range stays the same exactly if none of the pages that it
overlaps was stored to. Then all bytes of the range are as before. A refused copy changes nothing. -/
theorem codeVersion_tracks (ram : Ram) (calls : List RegionCall)
    (hraised : (calls.flatMap (·.raised ram.size)).length < 2 ^ 64) :
    ∃ after, calls.foldl RegionCall.perform (.ram ram) = .ram after ∧
      (∀ page, after.pageVersion page = ram.pageVersion page +
        UInt64.ofNat ((calls.flatMap (·.raised ram.size)).count page)) ∧
      (∀ address length,
        (after.codeVersion address length = ram.codeVersion address length ↔
          ∀ call ∈ calls, ∀ byte ∈ call.written ram.size,
            ¬ ram.Overlaps address length (pageOf byte)) ∧
        (after.codeVersion address length = ram.codeVersion address length →
          ∀ position, address.toNat ≤ position → position < address.toNat + length →
            after.bytes[position]? = ram.bytes[position]?)) ∧
      ∀ source location,
        ((∃ reason, ram.copyFrom source location = .error reason) ↔
          ram.size < location + source.size) ∧
        ((∃ reason, ram.copyFrom source location = .error reason) →
          (RegionCall.copyFrom source location).perform (.ram ram) = .ram ram) := by
  obtain ⟨after, hafter, hstores⟩ := RegionCall.foldl_perform_stores ram calls
  have hsame (address : UInt32) (length : Nat) :
      after.codeVersion address length = ram.codeVersion address length ↔
        ∀ call ∈ calls, ∀ byte ∈ call.written ram.size,
          ¬ ram.Overlaps address length (pageOf byte) := by
    rw [← not_iff_not, ← Ne, hstores.codeVersion_ne_iff hraised]
    push Not
    constructor
    · rintro ⟨byte, hbyte, hpage⟩
      obtain ⟨call, hcall, hwritten⟩ := List.mem_flatMap.mp hbyte
      exact ⟨call, hcall, byte, hwritten,
        (overlaps_pageOf_iff (RegionCall.lt_size_of_mem_written hwritten)).mpr hpage⟩
    · rintro ⟨call, hcall, byte, hwritten, hpage⟩
      exact ⟨byte, List.mem_flatMap.mpr ⟨call, hcall, hwritten⟩,
        (overlaps_pageOf_iff (RegionCall.lt_size_of_mem_written hwritten)).mp hpage⟩
  refine ⟨after, hafter, hstores.versions, fun address length ↦ ⟨hsame address length, ?_⟩, ?_⟩
  · intro hversion position hfirst hlast
    apply hstores.kept
    intro hwritten
    obtain ⟨call, hcall, hbyte⟩ := List.mem_flatMap.mp hwritten
    exact (hsame address length).mp hversion call hcall position hbyte
      (overlaps_pageOf_of_mem hfirst hlast (RegionCall.lt_size_of_mem_written hbyte))
  · intro source location
    refine ⟨?_, ?_⟩
    · simp only [copyFrom_eq_error_iff, exists_and_left, exists_eq, and_true]
    · rintro ⟨reason, hrefused⟩
      rw [RegionCall.perform, Memory.copied, hrefused]

/-- A word across the end of the first page, and a copy that goes beyond the region. -/
def acrossPages : List RegionCall :=
  [.set 0xFFF (.word 0xABCD), .copyFrom #[1, 2] 0x2000]

theorem codeVersion_tracks_acrossPages :
    let ram := zeroed 0x2001
    (acrossPages.flatMap (·.raised ram.size)).length = 2 ∧
    ∃ after, acrossPages.foldl RegionCall.perform (.ram ram) = .ram after ∧
      after.codeVersion 0x1800 4 ≠ ram.codeVersion 0x1800 4 ∧
      after.codeVersion 0x2000 9 = ram.codeVersion 0x2000 9 ∧
      after.bytes[0x2000]? = ram.bytes[0x2000]? := by
  intro ram
  have hsize : ram.size = 0x2001 := Array.size_replicate
  have hraised : acrossPages.flatMap (·.raised ram.size) = [0, 1] := by
    rw [hsize]
    decide
  obtain ⟨after, hafter, -, hversions, -⟩ :=
    codeVersion_tracks ram acrossPages (by rw [hraised]; decide)
  have hkept : after.codeVersion 0x2000 9 = ram.codeVersion 0x2000 9 := by
    rw [(hversions 0x2000 9).1]
    simp only [Overlaps, hsize]
    decide
  refine ⟨by rw [hraised]; rfl, after, hafter, ?_, hkept, ?_⟩
  · rw [Ne, (hversions 0x1800 4).1]
    simp only [Overlaps, hsize]
    decide
  · exact (hversions 0x2000 9).2 hkept 0x2000 (by decide) (by decide)

end Ram

end GuestMachine
