import GuestMachine.Proofs.Memory.Stores

/-!
# Bytes at their places

A value of several bytes lies at consecutive addresses, which wrap at the end of the address range
but are all different. Stored to such places, each byte within the region becomes what was stored
there, and nothing else changes but the versions of their pages; bytes outside are dropped, and a
read-only region drops them all. In a table of regions no other region is affected.
-/

namespace GuestMachine

/-! ## Addresses in a row -/

/-- The addresses from one on, which wrap at the end of the address range. -/
def consecutive (address : UInt32) (count : Nat) : List UInt32 :=
  (List.range count).map fun index ↦ address + UInt32.ofNat index

@[simp]
theorem length_consecutive (address : UInt32) (count : Nat) :
    (consecutive address count).length = count := by
  rw [consecutive, List.length_map, List.length_range]

@[simp]
theorem consecutive_one (address : UInt32) : consecutive address 1 = [address] := by
  simp [consecutive]

theorem consecutive_append (address : UInt32) (low high : Nat) :
    consecutive address low ++ consecutive (address + UInt32.ofNat low) high =
      consecutive address (low + high) := by
  simp only [consecutive, List.range_add, List.map_append, List.map_map, Function.comp_def,
    UInt32.ofNat_add, UInt32.add_assoc]

/-- There are enough addresses for all to be different. -/
theorem nodup_consecutive (address : UInt32) {count : Nat} (hcount : count ≤ 2 ^ 32) :
    (consecutive address count).Nodup := by
  refine List.Nodup.map_on (fun first hfirst second hsecond hsame ↦ ?_) List.nodup_range
  rw [List.mem_range] at hfirst hsecond
  have hindex : UInt32.ofNat first = UInt32.ofNat second :=
    (UInt32.add_right_inj address).mp hsame
  rw [← UInt32.toNat_inj, UInt32.toNat_ofNat_of_lt' (Nat.lt_of_lt_of_le hfirst hcount),
    UInt32.toNat_ofNat_of_lt' (Nat.lt_of_lt_of_le hsecond hcount)] at hindex
  exact hindex

/-! ## Bytes stored to a region -/

namespace Ram

/-- The region took up a list of bytes, each at its place: those within it are what is now read there,
and nothing else was written. -/
structure Receives (before after : Ram) (stores : List (UInt32 × UInt8)) : Prop where
  effect : before.Stores after ((stores.map (·.1.toNat)).filter (· < before.size))
    (((stores.map (·.1.toNat)).filter (· < before.size)).map pageOf)
  stored : ∀ store ∈ stores, store.1.toNat < before.size →
    after.bytes[store.1.toNat]? = some store.2

theorem storeBytes_cons (ram : Ram) (store : UInt32 × UInt8) (rest : List (UInt32 × UInt8)) :
    ram.storeBytes (store :: rest) = (ram.setByte store.1 store.2).storeBytes rest := rfl

theorem getElem?_setByte_self (ram : Ram) {address : UInt32} (byte : UInt8)
    (haddress : address.toNat < ram.size) :
    (ram.setByte address byte).bytes[address.toNat]? = some byte := by
  rw [setByte, if_pos haddress]
  exact Array.getElem?_setIfInBounds_self_of_lt haddress

/-- At different places no byte is stored over another. -/
theorem storeBytes_receives (ram : Ram) {stores : List (UInt32 × UInt8)}
    (hnodup : (stores.map Prod.fst).Nodup) : ram.Receives (ram.storeBytes stores) stores := by
  refine ⟨ram.storeBytes_stores stores, ?_⟩
  induction stores generalizing ram with
  | nil => exact fun _ hmem ↦ nomatch hmem
  | cons store rest ih =>
    rw [List.map_cons, List.nodup_cons] at hnodup
    obtain ⟨hfirst, hrest⟩ := hnodup
    rw [storeBytes_cons]
    have hsize : (ram.setByte store.1 store.2).size = ram.size :=
      (ram.setByte_stores store.1 store.2).size_eq
    rintro other (_ | ⟨_, hother⟩) hwithin
    · -- The later stores are to other places.
      have hkept : store.1.toNat ∉ (rest.map (·.1.toNat)).filter
          (· < (ram.setByte store.1 store.2).size) := by
        intro hmem
        obtain ⟨later, hlater, hplace⟩ := List.mem_map.mp (List.mem_of_mem_filter hmem)
        exact hfirst (List.mem_map.mpr ⟨later, hlater, UInt32.toNat_inj.mp hplace⟩)
      rw [((ram.setByte store.1 store.2).storeBytes_stores rest).kept _ hkept]
      exact ram.getElem?_setByte_self store.2 hwithin
    · exact ih _ hrest other hother (by rwa [hsize])

/-- Bytes that were all stored within the region are read back. -/
theorem Receives.map_getByte {before after : Ram} {places : List UInt32} {bytes : List UInt8}
    (hreceives : before.Receives after (places.zip bytes)) (hlength : places.length = bytes.length)
    (hwithin : ∀ place ∈ places, place.toNat < before.size) :
    places.map (Memory.ram after).getByte = bytes := by
  have hread : ∀ store ∈ places.zip bytes, (Memory.ram after).getByte store.1 = store.2 := by
    intro store hmem
    have hplace : store.1.toNat < before.size := hwithin _ (List.of_mem_zip hmem).1
    rw [Memory.getByte, Memory.bytes, Array.getD_eq_getD_getElem?, hreceives.stored store hmem hplace,
      Option.getD_some]
  calc places.map (Memory.ram after).getByte
      = ((places.zip bytes).map Prod.fst).map (Memory.ram after).getByte := by
        rw [List.map_fst_zip hlength.le]
    _ = (places.zip bytes).map Prod.snd := by
        rw [List.map_map]
        exact List.map_congr_left hread
    _ = bytes := List.map_snd_zip hlength.ge

end Ram

namespace Memory

/-- Stores bytes one after another. -/
def storeBytes (memory : Memory) (stores : List (UInt32 × UInt8)) : Memory :=
  stores.foldl (fun memory (address, byte) ↦ memory.setByte address byte) memory

theorem storeBytes_append (memory : Memory) (first second : List (UInt32 × UInt8)) :
    memory.storeBytes (first ++ second) = (memory.storeBytes first).storeBytes second :=
  List.foldl_append

theorem storeBytes_ram (ram : Ram) (stores : List (UInt32 × UInt8)) :
    (Memory.ram ram).storeBytes stores = .ram (ram.storeBytes stores) := by
  induction stores generalizing ram with
  | nil => rfl
  | cons store rest ih => exact ih (ram.setByte store.1 store.2)

theorem storeBytes_rom (bytes : Array UInt8) (stores : List (UInt32 × UInt8)) :
    (Memory.rom bytes).storeBytes stores = .rom bytes := by
  induction stores with
  | nil => rfl
  | cons store rest ih => exact ih

end Memory

/-! ## Bytes stored to a region of a table -/

namespace Spaces

/-- The table after bytes were stored to one region: none of them reached another region, or a
read-only one, and a writable one took them up. -/
structure Stored (before after : Spaces) (id : SpaceId) (stores : List (UInt32 × UInt8)) :
    Prop where
  size_eq : after.size = before.size
  others : ∀ other ≠ id, after.get other = before.get other
  rom : ∀ bytes, before.get id = .ok (.rom bytes) → after.get id = .ok (.rom bytes)
  ram : ∀ region, before.get id = .ok (.ram region) →
    ∃ changed, after.get id = .ok (.ram changed) ∧ region.Receives changed stores

variable {spaces after : Spaces} {id : SpaceId} {memory : Memory}

theorem lt_size_of_get (hget : spaces.get id = .ok memory) : id < spaces.size := by
  rw [get] at hget
  split at hget
  · next found hfound => exact (Array.getElem?_eq_some_iff.mp hfound).1
  · cases hget

theorem exists_get_iff : (∃ memory, spaces.get id = .ok memory) ↔ id < spaces.size := by
  refine ⟨fun ⟨memory, hget⟩ ↦ lt_size_of_get hget, fun hid ↦ ⟨spaces.regions[id], ?_⟩⟩
  rw [get, Array.getElem?_eq_getElem hid]

theorem modify_eq (spaces : Spaces) (change : Memory → Memory) (hid : id < spaces.size) :
    spaces.modify id change = .ok ⟨spaces.regions.modify id change⟩ := if_pos hid

theorem modify_unknown (spaces : Spaces) (change : Memory → Memory) (hid : ¬ id < spaces.size) :
    spaces.modify id change = .error (.internal (.unknownAddressSpace id)) := if_neg hid

theorem stored_modify {stores : List (UInt32 × UInt8)} (hnodup : (stores.map Prod.fst).Nodup)
    (hmodify : spaces.modify id (·.storeBytes stores) = .ok after) :
    spaces.Stored after id stores := by
  have hreach (other : SpaceId) {memory : Memory} (hget : spaces.get other = .ok memory) :
      after.get other = .ok (if id = other then memory.storeBytes stores else memory) := by
    have hget := get_modify hget id (·.storeBytes stores)
    rwa [hmodify] at hget
  have hsize : after.size = spaces.size := by
    rw [modify] at hmodify
    split at hmodify
    · cases hmodify
      exact Array.size_modify
    · cases hmodify
  refine ⟨hsize, fun other hother ↦ ?_, fun bytes hget ↦ ?_, fun region hget ↦ ?_⟩
  · by_cases hknown : other < spaces.size
    · obtain ⟨memory, hget⟩ := exists_get_iff.mpr hknown
      rw [hreach other hget, if_neg hother.symm, hget]
    · have hunknown : ¬ other < after.size := by rwa [hsize]
      rw [get, get, Array.getElem?_eq_none (Nat.le_of_not_lt hknown),
        Array.getElem?_eq_none (Nat.le_of_not_lt hunknown)]
  · rw [hreach id hget, if_pos rfl, Memory.storeBytes_rom]
  · refine ⟨region.storeBytes stores, ?_, region.storeBytes_receives hnodup⟩
    rw [hreach id hget, if_pos rfl, Memory.storeBytes_ram]

/-! ## Storing in place -/

/-- Stores a byte in place. -/
def poke (id : SpaceId) (store : UInt32 × UInt8) : EStateM Error Spaces Unit := fun spaces ↦
  match spaces.modify id (·.setByte store.1 store.2) with
  | .ok changed => .ok () changed
  | .error reason => .error reason spaces

theorem modify_storeBytes_nil (regions : Array Memory) (id : SpaceId) :
    regions.modify id (·.storeBytes []) = regions := by
  refine Array.ext Array.size_modify fun place _ _ ↦ ?_
  rw [Array.getElem_modify]
  split <;> rfl

theorem modify_storeBytes_cons (regions : Array Memory) (id : SpaceId) (store : UInt32 × UInt8)
    (rest : List (UInt32 × UInt8)) :
    (regions.modify id (·.setByte store.1 store.2)).modify id (·.storeBytes rest) =
      regions.modify id (·.storeBytes (store :: rest)) := by
  refine Array.ext (by simp only [Array.size_modify]) fun place _ _ ↦ ?_
  simp only [Array.getElem_modify]
  split <;> rfl

/-- Bytes of a region that there is can be stored one by one. -/
theorem forM_poke (spaces : Spaces) (hid : id < spaces.size) (stores : List (UInt32 × UInt8)) :
    stores.forM (poke id) spaces = .ok () ⟨spaces.regions.modify id (·.storeBytes stores)⟩ := by
  induction stores generalizing spaces with
  | nil =>
    rw [modify_storeBytes_nil]
    rfl
  | cons store rest ih =>
    let next : Spaces := ⟨spaces.regions.modify id (·.setByte store.1 store.2)⟩
    have hpoke : poke id store spaces = .ok () next := by rw [poke, modify_eq _ _ hid]
    have hnext : id < next.size := by rwa [size, Array.size_modify]
    calc (store :: rest).forM (poke id) spaces
        = EStateM.bind (poke id store) (fun _ ↦ rest.forM (poke id)) spaces := rfl
      _ = rest.forM (poke id) next := by rw [EStateM.bind, hpoke]
      _ = .ok () ⟨next.regions.modify id (·.storeBytes rest)⟩ := ih next hnext
      _ = .ok () ⟨spaces.regions.modify id (·.storeBytes (store :: rest))⟩ := by
        rw [modify_storeBytes_cons]

/-- Where there is no such region, the first byte already fails. -/
theorem forM_poke_unknown (spaces : Spaces) (hid : ¬ id < spaces.size) (store : UInt32 × UInt8)
    (rest : List (UInt32 × UInt8)) : (store :: rest).forM (poke id) spaces =
      .error (.internal (.unknownAddressSpace id)) spaces := by
  have hpoke : poke id store spaces = .error (.internal (.unknownAddressSpace id)) spaces := by
    rw [poke, modify_unknown _ _ hid]
  calc (store :: rest).forM (poke id) spaces
      = EStateM.bind (poke id store) (fun _ ↦ rest.forM (poke id)) spaces := rfl
    _ = .error (.internal (.unknownAddressSpace id)) spaces := by rw [EStateM.bind, hpoke]

end Spaces

end GuestMachine
