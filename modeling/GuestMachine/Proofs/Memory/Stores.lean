import GuestMachine.Segment.Access
import GuestMachine.Proofs.Memory.Versions

/-!
# Stores to a region

A region changes by values stored at an address or through a segment, and by copies. Each store has a
list of the bytes that it writes within the region and a list of the pages whose version it raises;
these depend on the store and on the size of the region, but not on what the region holds. A store
that is refused, or that goes to another region, has neither.
-/

namespace GuestMachine

/-- A value of a width that is stored to a region at once. -/
inductive Datum where
  | byte (value : UInt8)
  | word (value : UInt16)
  | doubleword (value : UInt32)
  deriving DecidableEq, Repr

namespace Datum

def width : Datum → Nat
  | byte _ => 1
  | word _ => 2
  | doubleword _ => 4

def store (datum : Datum) (address : UInt32) (memory : Memory) : Memory :=
  match datum with
  | byte value => memory.setByte address value
  | word value => memory.setWord address value
  | doubleword value => memory.setDoubleword address value

def storeThrough (datum : Datum) (segment : Segment) (spaces : Spaces) (offset : UInt32) :
    Except Error Spaces :=
  match datum with
  | byte value => segment.setByte spaces offset value
  | word value => segment.setWord spaces offset value
  | doubleword value => segment.setDoubleword spaces offset value

end Datum

inductive Store where
  | direct (address : UInt32) (datum : Datum)
  | copy (source : Array UInt8) (location : Nat)
  | through (segment : Segment) (offset : UInt32) (datum : Datum)
  | quadword (segment : Segment) (offset : UInt32) (data : UInt64)

/-- A refused store leaves the regions as they are. -/
def Spaces.unlessRefused (spaces : Spaces) (result : Except Error Spaces) : Spaces :=
  match result with
  | .ok changed => changed
  | .error _ => spaces

/-- Copies bytes into a region; a copy that does not fit is refused. -/
def Memory.copied (source : Array UInt8) (location : Nat) (memory : Memory) : Memory :=
  match memory with
  | .ram region =>
    match region.copyFrom source location with
    | .ok changed => .ram changed
    | .error _ => .ram region
  | .rom bytes => .rom bytes

namespace Store

/-- Carries out a store. One that names no segment goes to the region `id`. -/
def perform (id : SpaceId) (spaces : Spaces) (store : Store) : Spaces :=
  spaces.unlessRefused <|
    match store with
    | direct address datum => spaces.modify id (datum.store address)
    | copy source location => spaces.modify id (Memory.copied source location)
    | through segment offset datum => datum.storeThrough segment spaces offset
    | quadword segment offset data => segment.setQuadword spaces offset data

/-- The bytes in a region of the given size among `width` bytes from an address, which wrap at the
end of the address range. -/
def span (size : Nat) (address : UInt32) (width : Nat) : List Nat :=
  ((List.range width).map fun index ↦ (address + UInt32.ofNat index).toNat).filter (· < size)

/-- The bytes of the region `id`, of the given size, that the store writes. -/
def written (id : SpaceId) (size : Nat) : Store → List Nat
  | direct address datum => span size address datum.width
  | copy source location =>
    if location + source.size ≤ size then List.range' location source.size else []
  | through segment offset datum =>
    if segment.space = id then
      match segment.translate offset (UInt32.ofNat datum.width) .write with
      | .ok address => span size address datum.width
      | .error _ => []
    else []
  | quadword segment offset _ =>
    if segment.space = id then
      match segment.translate offset 4 .write, segment.translate (offset + 4) 4 .write with
      | .ok low, .ok high => span size low 4 ++ span size high 4
      | _, _ => []
    else []

/-- The pages whose version the store raises: once for each byte, or once for a copy. -/
def raised (id : SpaceId) (size : Nat) (store : Store) : List Nat :=
  match store with
  | copy source location =>
    if location + source.size ≤ size then Ram.pagesOf location source.size else []
  | _ => (store.written id size).map pageOf

end Store

/-! ## One store -/

/-- A value is stored byte by byte. -/
theorem Datum.store_eq (datum : Datum) (address : UInt32) (ram : Ram) :
    ∃ stores : List (UInt32 × UInt8), datum.store address (.ram ram) = .ram (ram.storeBytes stores) ∧
      stores.map Prod.fst = (List.range datum.width).map fun index ↦ address + UInt32.ofNat index := by
  have hset (region : Ram) (place : UInt32) (value : UInt8) :
      (Memory.ram region).setByte place value = .ram (region.setByte place value) := rfl
  cases datum with
  | byte value => exact ⟨[(address, value)], rfl, by simp [width]⟩
  | word value =>
    refine ⟨[(address, value.toUInt8), (address + 1, (value >>> 8).toUInt8)], ?_, ?_⟩
    · simp only [store, Memory.setWord, hset, Ram.storeBytes, List.foldl_cons, List.foldl_nil]
    · simp [width, List.range_succ]
  | doubleword value =>
    refine ⟨[(address, value.toUInt16.toUInt8), (address + 1, (value.toUInt16 >>> 8).toUInt8),
      (address + 2, (value >>> 16).toUInt16.toUInt8),
      (address + 2 + 1, ((value >>> 16).toUInt16 >>> 8).toUInt8)], ?_, ?_⟩
    · simp only [store, Memory.setDoubleword, Memory.setWord, hset, Ram.storeBytes,
        List.foldl_cons, List.foldl_nil]
    · simp [width, List.range_succ, UInt32.add_assoc]

theorem Datum.store_stores (datum : Datum) (address : UInt32) (ram : Ram) :
    ∃ after, datum.store address (.ram ram) = .ram after ∧
      ram.Stores after (Store.span ram.size address datum.width)
        ((Store.span ram.size address datum.width).map pageOf) := by
  obtain ⟨stores, hstore, haddresses⟩ := datum.store_eq address ram
  refine ⟨_, hstore, ?_⟩
  have hbytes := ram.storeBytes_stores stores
  rw [← Function.comp_def, ← List.map_map, haddresses, List.map_map] at hbytes
  exact hbytes

theorem Datum.storeThrough_eq (datum : Datum) (segment : Segment) (spaces : Spaces)
    (offset : UInt32) :
    datum.storeThrough segment spaces offset =
      segment.translate offset (UInt32.ofNat datum.width) .write >>= fun address ↦
        spaces.modify segment.space (datum.store address) := by
  cases datum <;> rfl

theorem Memory.copied_stores (source : Array UInt8) (location : Nat) (ram : Ram) :
    ∃ after, Memory.copied source location (.ram ram) = .ram after ∧
      ram.Stores after
        (if location + source.size ≤ ram.size then List.range' location source.size else [])
        (if location + source.size ≤ ram.size then Ram.pagesOf location source.size else []) := by
  by_cases hfits : location + source.size ≤ ram.size
  · cases hcopy : ram.copyFrom source location with
    | ok changed =>
      refine ⟨changed, by rw [Memory.copied, hcopy], ?_⟩
      rw [if_pos hfits, if_pos hfits]
      exact Ram.copyFrom_stores hcopy
    | error reason =>
      rw [Ram.copyFrom, dif_pos hfits] at hcopy
      cases hcopy
  · have hcopy : ram.copyFrom source location =
        .error (.copyOutOfRange location source.size ram.size) := by
      rw [Ram.copyFrom, dif_neg hfits]
    refine ⟨ram, by rw [Memory.copied, hcopy], ?_⟩
    rw [if_neg hfits, if_neg hfits]
    exact Ram.Stores.refl ram

/-- A change of one region reaches that region and no other. -/
theorem Spaces.get_modify {spaces : Spaces} {id : SpaceId} {memory : Memory}
    (hget : spaces.get id = .ok memory) (other : SpaceId) (change : Memory → Memory) :
    (spaces.unlessRefused (spaces.modify other change)).get id =
      .ok (if other = id then change memory else memory) := by
  have hmemory : spaces.regions[id]? = some memory := by
    unfold Spaces.get at hget
    split at hget
    · next found hfound =>
      cases hget
      exact hfound
    · cases hget
  unfold Spaces.modify
  split
  · simp only [Spaces.unlessRefused, Spaces.get, Array.getElem?_modify, hmemory]
    by_cases hid : other = id
    · simp [hid]
    · simp [hid]
  · next hunknown =>
    have hid : other ≠ id := by
      rintro rfl
      exact hunknown (Array.getElem?_eq_some_iff.mp hmemory).1
    rw [if_neg hid]
    exact hget

section

variable {spaces : Spaces} {id : SpaceId} {ram : Ram}

theorem Spaces.stores_modify (hget : spaces.get id = .ok (.ram ram)) (other : SpaceId)
    {change : Memory → Memory} {written raised : List Nat}
    (hchange : ∃ after, change (.ram ram) = .ram after ∧ ram.Stores after written raised) :
    ∃ after, (spaces.unlessRefused (spaces.modify other change)).get id = .ok (.ram after) ∧
      ram.Stores after (if other = id then written else []) (if other = id then raised else []) := by
  rw [Spaces.get_modify hget]
  by_cases hid : other = id
  · obtain ⟨after, hafter, hstores⟩ := hchange
    refine ⟨after, ?_, ?_⟩
    · rw [if_pos hid, hafter]
    · rw [if_pos hid, if_pos hid]
      exact hstores
  · refine ⟨ram, ?_, ?_⟩
    · rw [if_neg hid]
    · rw [if_neg hid, if_neg hid]
      exact Ram.Stores.refl ram

theorem Datum.storeThrough_stores (hget : spaces.get id = .ok (.ram ram)) (datum : Datum)
    (segment : Segment) (offset : UInt32) :
    ∃ after, (spaces.unlessRefused (datum.storeThrough segment spaces offset)).get id =
        .ok (.ram after) ∧
      ram.Stores after (Store.written id ram.size (.through segment offset datum))
        ((Store.written id ram.size (.through segment offset datum)).map pageOf) := by
  rw [datum.storeThrough_eq, Store.written]
  cases segment.translate offset (UInt32.ofNat datum.width) .write with
  | error reason =>
    refine ⟨ram, hget, ?_⟩
    rw [ite_self]
    exact Ram.Stores.refl ram
  | ok address =>
    obtain ⟨after, hafter, hstores⟩ :=
      Spaces.stores_modify hget segment.space (datum.store_stores address ram)
    refine ⟨after, hafter, ?_⟩
    rw [apply_ite (List.map pageOf), List.map_nil]
    exact hstores

theorem Segment.setQuadword_stores (hget : spaces.get id = .ok (.ram ram)) (segment : Segment)
    (offset : UInt32) (data : UInt64) :
    ∃ after, (spaces.unlessRefused (segment.setQuadword spaces offset data)).get id =
        .ok (.ram after) ∧
      ram.Stores after (Store.written id ram.size (.quadword segment offset data))
        ((Store.written id ram.size (.quadword segment offset data)).map pageOf) := by
  rw [Segment.setQuadword, Store.written]
  generalize data.toUInt32 = lower
  generalize (data >>> 32).toUInt32 = upper
  cases segment.translate offset 4 .write with
  | error reason =>
    refine ⟨ram, hget, ?_⟩
    rw [ite_self]
    exact Ram.Stores.refl ram
  | ok low =>
    cases segment.translate (offset + 4) 4 .write with
    | error reason =>
      refine ⟨ram, hget, ?_⟩
      rw [ite_self]
      exact Ram.Stores.refl ram
    | ok high =>
      obtain ⟨middle, hmiddle, hlow⟩ := (Datum.doubleword lower).store_stores low ram
      obtain ⟨last, hlast, hhigh⟩ := (Datum.doubleword upper).store_stores high middle
      rw [hlow.size_eq] at hhigh
      have htotal := hlow.trans hhigh
      rw [← List.map_append] at htotal
      rw [← hmiddle] at hlast
      let change (memory : Memory) := (memory.setDoubleword low lower).setDoubleword high upper
      have hchange : change (.ram ram) = .ram last := hlast
      obtain ⟨after, hafter, hstores⟩ :=
        Spaces.stores_modify hget segment.space ⟨last, hchange, htotal⟩
      refine ⟨after, hafter, ?_⟩
      rw [apply_ite (List.map pageOf), List.map_nil]
      exact hstores

namespace Store

/-- A store writes the bytes and raises the pages that it is said to. -/
theorem perform_stores (hget : spaces.get id = .ok (.ram ram)) (store : Store) :
    ∃ after, (perform id spaces store).get id = .ok (.ram after) ∧
      ram.Stores after (store.written id ram.size) (store.raised id ram.size) := by
  cases store with
  | direct address datum =>
    obtain ⟨after, hafter, hstores⟩ :=
      Spaces.stores_modify hget id (datum.store_stores address ram)
    rw [if_pos rfl, if_pos rfl] at hstores
    exact ⟨after, hafter, hstores⟩
  | copy source location =>
    obtain ⟨after, hafter, hstores⟩ :=
      Spaces.stores_modify hget id (Memory.copied_stores source location ram)
    rw [if_pos rfl, if_pos rfl] at hstores
    exact ⟨after, hafter, hstores⟩
  | through segment offset datum => exact datum.storeThrough_stores hget segment offset
  | quadword segment offset data => exact segment.setQuadword_stores hget offset data

/-! ## Many stores -/

/-- After stores in any order, the region has been changed at the bytes and pages of all of them. -/
theorem foldl_perform_stores (hget : spaces.get id = .ok (.ram ram)) (stores : List Store) :
    ∃ after, (stores.foldl (perform id) spaces).get id = .ok (.ram after) ∧
      ram.Stores after (stores.flatMap (·.written id ram.size))
        (stores.flatMap (·.raised id ram.size)) := by
  induction stores generalizing spaces ram with
  | nil => exact ⟨ram, hget, Ram.Stores.refl ram⟩
  | cons store rest ih =>
    obtain ⟨middle, hmiddle, hfirst⟩ := perform_stores hget store
    obtain ⟨after, hafter, hrest⟩ := ih hmiddle
    rw [hfirst.size_eq] at hrest
    exact ⟨after, hafter, hfirst.trans hrest⟩

end Store

end

end GuestMachine
