import GuestMachine.Memory.Basic
import Mathlib.Data.List.Nodup
import Mathlib.Data.UInt

/-!
# Page versions

A store is described by the bytes that it writes and the pages whose version it raises, each as often
as it does. Descriptions are joined when stores follow one another. The version of a range of code
then grows by the number of raises of its pages, so that it tells whether one of them was written as
long as there are fewer raises than version numbers.
-/

namespace GuestMachine

namespace Ram

/-- `after` is what `before` becomes when the bytes at `written` are stored to and the versions of
the pages in `raised` go up by one each time they occur. -/
structure Stores (before after : Ram) (written raised : List Nat) : Prop where
  size_eq : after.size = before.size
  kept (address : Nat) : address ∉ written → after.bytes[address]? = before.bytes[address]?
  versions (page : Nat) :
    after.pageVersion page = before.pageVersion page + UInt64.ofNat (raised.count page)
  pages (page : Nat) : page ∈ raised ↔ ∃ address ∈ written, pageOf address = page

theorem Stores.refl (ram : Ram) : ram.Stores ram [] [] where
  size_eq := rfl
  kept _ _ := rfl
  versions page := (UInt64.add_zero _).symm
  pages page := by simp

theorem Stores.trans {before middle after : Ram} {written raised written' raised' : List Nat}
    (hfirst : before.Stores middle written raised) (hsecond : middle.Stores after written' raised') :
    before.Stores after (written ++ written') (raised ++ raised') where
  size_eq := hsecond.size_eq.trans hfirst.size_eq
  kept address haddress := by
    rw [List.mem_append, not_or] at haddress
    rw [hsecond.kept address haddress.2, hfirst.kept address haddress.1]
  versions page := by
    rw [hsecond.versions, hfirst.versions, List.count_append, UInt64.ofNat_add, UInt64.add_assoc]
  pages page := by
    rw [List.mem_append, hfirst.pages, hsecond.pages]
    constructor
    · rintro (⟨address, haddress, hpage⟩ | ⟨address, haddress, hpage⟩)
      · exact ⟨address, List.mem_append_left _ haddress, hpage⟩
      · exact ⟨address, List.mem_append_right _ haddress, hpage⟩
    · rintro ⟨address, haddress, hpage⟩
      rcases List.mem_append.mp haddress with hleft | hright
      · exact Or.inl ⟨address, hleft, hpage⟩
      · exact Or.inr ⟨address, hright, hpage⟩

/-! ## Stores of single bytes -/

theorem pageOf_lt_pageCount {address size : Nat} (haddress : address < size) :
    pageOf address < pageCount size := by
  unfold pageOf pageCount pageSize
  omega

theorem setByte_stores (ram : Ram) (address : UInt32) (byte : UInt8) :
    ram.Stores (ram.setByte address byte) ([address.toNat].filter (· < ram.size))
      (([address.toNat].filter (· < ram.size)).map pageOf) := by
  by_cases hrange : address.toNat < ram.size
  · have hpage : pageOf address.toNat < ram.versions.size := by
      rw [ram.size_versions]
      exact pageOf_lt_pageCount hrange
    simp only [setByte, if_pos hrange, List.filter_cons, decide_eq_true hrange, if_true,
      List.filter_nil, List.map_cons, List.map_nil]
    refine ⟨Array.size_setIfInBounds, ?_, ?_, ?_⟩
    · intro other hother
      rw [List.mem_singleton] at hother
      exact Array.getElem?_setIfInBounds_ne (Ne.symm hother)
    · intro page
      simp only [pageVersion, Array.getD_eq_getD_getElem?, Array.getElem?_modify,
        List.count_singleton, beq_iff_eq]
      by_cases heq : pageOf address.toNat = page
      · subst heq
        simp [hpage]
      · simp [heq]
    · intro page
      simp [eq_comm]
  · simp only [setByte, if_neg hrange, List.filter_cons, decide_eq_false hrange,
      List.filter_nil]
    exact Stores.refl ram

/-- Stores bytes one after another. -/
def storeBytes (ram : Ram) (stores : List (UInt32 × UInt8)) : Ram :=
  stores.foldl (fun ram (address, byte) ↦ ram.setByte address byte) ram

theorem storeBytes_stores (ram : Ram) (stores : List (UInt32 × UInt8)) :
    ram.Stores (ram.storeBytes stores)
      ((stores.map (·.1.toNat)).filter (· < ram.size))
      (((stores.map (·.1.toNat)).filter (· < ram.size)).map pageOf) := by
  induction stores generalizing ram with
  | nil => exact Stores.refl ram
  | cons store rest ih =>
    have hfirst := ram.setByte_stores store.1 store.2
    have hrest := ih (ram.setByte store.1 store.2)
    rw [hfirst.size_eq] at hrest
    have htotal := hfirst.trans hrest
    rw [← List.filter_append, ← List.map_append, ← List.filter_append] at htotal
    exact htotal

/-! ## Copies -/

/-- The pages that `length` bytes from `location` lie on. -/
def pagesOf (location length : Nat) : List Nat :=
  if length = 0 then []
  else List.range' (pageOf location) (pageOf (location + length - 1) + 1 - pageOf location)

theorem mem_pagesOf_iff {location length page : Nat} :
    page ∈ pagesOf location length ↔
      0 < length ∧ pageOf location ≤ page ∧ page ≤ pageOf (location + length - 1) := by
  unfold pagesOf
  split
  · simp_all
  · have hle : pageOf location ≤ pageOf (location + length - 1) :=
      Nat.div_le_div_right (by omega)
    rw [List.mem_range'_1]
    omega

theorem nodup_pagesOf (location length : Nat) : (pagesOf location length).Nodup := by
  unfold pagesOf
  split
  · exact List.nodup_nil
  · exact List.nodup_range'

/-- A page between those of the first and the last byte of a range holds a byte of it. -/
theorem mem_pagesOf_iff_exists {location length page : Nat} :
    page ∈ pagesOf location length ↔
      ∃ address ∈ List.range' location length, pageOf address = page := by
  rw [mem_pagesOf_iff]
  constructor
  · rintro ⟨hlength, hfirst, hlast⟩
    refine ⟨max location (page * pageSize), List.mem_range'_1.mpr ?_, ?_⟩
    · unfold pageOf pageSize at *
      omega
    · unfold pageOf pageSize at *
      omega
  · rintro ⟨address, haddress, rfl⟩
    rw [List.mem_range'_1] at haddress
    exact ⟨by omega, Nat.div_le_div_right haddress.1, Nat.div_le_div_right (by omega)⟩

theorem copyFrom_stores {ram changed : Ram} {source : Array UInt8} {location : Nat}
    (hcopy : ram.copyFrom source location = .ok changed) :
    ram.Stores changed (List.range' location source.size) (pagesOf location source.size) := by
  unfold copyFrom at hcopy
  split at hcopy
  · next hfits =>
    cases hcopy
    have hbound : location + source.size ≤ ram.bytes.size := hfits
    refine ⟨?_, ?_, ?_, fun page ↦ mem_pagesOf_iff_exists⟩
    · simp only [size, Array.size_append, Array.size_extract]
      omega
    · intro address haddress
      rw [List.mem_range'_1, not_and_or, Nat.not_le, Nat.not_lt] at haddress
      simp only [size]
      rcases haddress with hbefore | hafter
      · rw [Array.getElem?_append_left (by simp; omega), Array.getElem?_append_left (by simp; omega),
          Array.getElem?_extract, if_pos (by omega), Nat.zero_add]
      · rw [Array.getElem?_append_right (by simp; omega), Array.getElem?_extract]
        split
        · congr 1
          simp
          omega
        · rw [Array.getElem?_eq_none]
          simp at *
          omega
    · intro page
      simp only [pageVersion, Array.getD_eq_getD_getElem?, Array.getElem?_mapIdx]
      by_cases hpage : page ∈ pagesOf location source.size
      · have hcount : (pagesOf location source.size).count page = 1 :=
          List.count_eq_one_of_mem (nodup_pagesOf _ _) hpage
        obtain ⟨address, haddress, hat⟩ := mem_pagesOf_iff_exists.mp hpage
        have hversion : page < ram.versions.size := by
          rw [List.mem_range'_1] at haddress
          rw [ram.size_versions, ← hat]
          exact pageOf_lt_pageCount (by omega)
        rw [hcount, Array.getElem?_eq_getElem hversion, Option.map_some,
          if_pos (mem_pagesOf_iff.mp hpage)]
        rfl
      · have hcount : (pagesOf location source.size).count page = 0 :=
          List.count_eq_zero_of_not_mem hpage
        rw [hcount]
        rw [mem_pagesOf_iff] at hpage
        simp only [if_neg hpage]
        simp
  · cases hcopy

/-! ## The version of a range -/

theorem sum_take_drop_getD (versions : List UInt64) (first count : Nat) :
    ((versions.drop first).take count).sum =
      ((List.range' first count).map (versions.getD · 0)).sum := by
  induction count generalizing first with
  | zero => simp
  | succ count ih =>
    rw [List.range'_succ, List.map_cons, List.sum_cons, ← ih]
    by_cases hfirst : first < versions.length
    · rw [List.drop_eq_getElem_cons hfirst, List.take_succ_cons, List.sum_cons]
      simp [List.getD_eq_getElem?_getD, hfirst]
    · have hend : versions.length ≤ first := Nat.le_of_not_lt hfirst
      rw [List.drop_eq_nil_of_le hend, List.drop_eq_nil_of_le (hend.trans (Nat.le_succ _))]
      simp [List.getD_eq_getElem?_getD, hend]

/-- The version of a range is the sum of the versions of its pages. -/
theorem codeVersion_eq_sum (ram : Ram) (address : UInt32) (length : Nat) :
    ram.codeVersion address length =
      ((pagesOf address.toNat length).map ram.pageVersion).sum := by
  unfold codeVersion pagesOf
  split
  · rfl
  · have hversions (page : Nat) : ram.pageVersion page = ram.versions.toList.getD page 0 := by
      simp [pageVersion, List.getD_eq_getElem?_getD]
    rw [List.map_congr_left fun page _ ↦ hversions page, ← sum_take_drop_getD, List.sum_eq_foldl,
      ← Array.foldl_toList, Array.toList_extract, List.extract_eq_take_drop]

theorem sum_map_add_ofNat (pages : List Nat) (version : Nat → UInt64) (raises : Nat → Nat) :
    (pages.map fun page ↦ version page + UInt64.ofNat (raises page)).sum =
      (pages.map version).sum + UInt64.ofNat (pages.map raises).sum := by
  induction pages with
  | nil => rfl
  | cons page rest ih =>
    simp only [List.map_cons, List.sum_cons, ih, UInt64.ofNat_add]
    ac_rfl

theorem countP_mem_cons {page : Nat} {pages : List Nat} (hpage : page ∉ pages)
    (raised : List Nat) :
    raised.countP (· ∈ page :: pages) = raised.count page + raised.countP (· ∈ pages) := by
  induction raised with
  | nil => rfl
  | cons head tail ih =>
    rw [List.countP_cons, List.countP_cons, List.count_cons, ih]
    by_cases hhead : head = page
    · subst hhead
      simp [hpage]
      omega
    · simp [hhead]
      omega

/-- Over pages that are all different, the raises of each add up to the raises of any. -/
theorem sum_count_eq_countP {pages : List Nat} (hpages : pages.Nodup) (raised : List Nat) :
    (pages.map (raised.count ·)).sum = raised.countP (· ∈ pages) := by
  induction pages with
  | nil => simp
  | cons page rest ih =>
    obtain ⟨hpage, hrest⟩ := List.nodup_cons.mp hpages
    rw [List.map_cons, List.sum_cons, ih hrest, countP_mem_cons hpage]

/-- The version of a range grows by one for each raise of one of its pages. -/
theorem Stores.codeVersion_eq {before after : Ram} {written raised : List Nat}
    (hstores : before.Stores after written raised) (address : UInt32) (length : Nat) :
    after.codeVersion address length = before.codeVersion address length +
      UInt64.ofNat (raised.countP (· ∈ pagesOf address.toNat length)) := by
  rw [codeVersion_eq_sum, codeVersion_eq_sum,
    List.map_congr_left fun page _ ↦ hstores.versions page, sum_map_add_ofNat,
    sum_count_eq_countP (nodup_pagesOf _ _)]

/-- Fewer raises than version numbers cannot cancel out: the version of a range differs exactly if a
byte was written on one of its pages. -/
theorem Stores.codeVersion_ne_iff {before after : Ram} {written raised : List Nat}
    (hstores : before.Stores after written raised) (hraised : raised.length < 2 ^ 64)
    (address : UInt32) (length : Nat) :
    after.codeVersion address length ≠ before.codeVersion address length ↔
      ∃ byte ∈ written, pageOf byte ∈ pagesOf address.toNat length := by
  have hcount : raised.countP (· ∈ pagesOf address.toNat length) < 2 ^ 64 :=
    Nat.lt_of_le_of_lt List.countP_le_length hraised
  calc
    after.codeVersion address length ≠ before.codeVersion address length ↔
        UInt64.ofNat (raised.countP (· ∈ pagesOf address.toNat length)) ≠ 0 := by
      rw [hstores.codeVersion_eq, Ne, UInt64.add_eq_left]
    _ ↔ raised.countP (· ∈ pagesOf address.toNat length) ≠ 0 := by
      rw [Ne, Ne, ← UInt64.toNat_inj, UInt64.toNat_ofNat_of_lt' hcount]
      rfl
    _ ↔ ∃ page ∈ raised, page ∈ pagesOf address.toNat length := by
      rw [← Nat.pos_iff_ne_zero, List.countP_pos_iff]
      simp
    _ ↔ ∃ byte ∈ written, pageOf byte ∈ pagesOf address.toNat length := by
      constructor
      · rintro ⟨page, hraise, hpage⟩
        obtain ⟨byte, hbyte, rfl⟩ := (hstores.pages page).mp hraise
        exact ⟨byte, hbyte, hpage⟩
      · rintro ⟨byte, hbyte, hpage⟩
        exact ⟨pageOf byte, (hstores.pages _).mpr ⟨byte, hbyte, rfl⟩, hpage⟩

end Ram

end GuestMachine
