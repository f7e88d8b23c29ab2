import GuestMachine.Proofs.Timer.Queue
import Mathlib.Data.List.Induction
import Mathlib.Data.List.Sort

/-!
# The queue as a list

In the order of dispatch a coherent queue is a list of entries, sorted by expiry, in which no timer
occurs twice. Each operation is an operation on that list, in which sequence numbers do not occur.
-/

namespace GuestMachine

/-- A timer at a position. -/
abbrev QueueSlot := QueueKey × TimerId

/-- The first slot is dispatched before the second. -/
def QueueSlot.Precedes (left right : QueueSlot) : Prop :=
  QueueKey.order left.1 right.1 = .lt

theorem QueueSlot.precedes_iff {left right : QueueSlot} :
    left.Precedes right ↔
      left.1.1 < right.1.1 ∨ left.1.1 = right.1.1 ∧ left.1.2 < right.1.2 := by
  simp only [Precedes, QueueKey.order, compareLex, compareOn, Ordering.then_eq_lt,
    Nat.compare_eq_lt, Nat.compare_eq_eq]

instance : Std.Irrefl QueueSlot.Precedes where
  irrefl slot hself := by
    rw [QueueSlot.precedes_iff] at hself
    omega

instance : Std.Antisymm QueueSlot.Precedes where
  antisymm left right hleft hright := by
    rw [QueueSlot.precedes_iff] at hleft hright
    omega

/-! ## Lists of entries -/

namespace QueueEntry

/-- Puts an entry behind all others of the same expiry. -/
def place (entry : QueueEntry) (entries : List QueueEntry) : List QueueEntry :=
  entries.filter (·.expiry ≤ entry.expiry) ++ entry :: entries.filter (entry.expiry < ·.expiry)

/-- Leaves out the entry of a timer. -/
def without (id : TimerId) (entries : List QueueEntry) : List QueueEntry :=
  entries.filter (·.id ≠ id)

/-- Queues an entry in place of the one that its timer has. -/
def queued (entries : List QueueEntry) (entry : QueueEntry) : List QueueEntry :=
  entry.place (without entry.id entries)

end QueueEntry

open QueueEntry

namespace TimerQueue

variable {queue : TimerQueue}

theorem pairwise_precedes (queue : TimerQueue) :
    queue.order.toList.Pairwise QueueSlot.Precedes :=
  Std.TreeMap.ordered_keys_toList

theorem Coherent.mem_toList_iff (hqueue : queue.Coherent) {slot : QueueSlot} :
    slot ∈ queue.order.toList ↔ queue.position? slot.2 = some slot.1 :=
  Std.TreeMap.mem_toList_iff_getElem?_eq_some.trans (hqueue.inverse slot.1 slot.2)

/-- The positions determine the order of the slots. -/
theorem Coherent.toList_eq (hqueue : queue.Coherent) {slots : List QueueSlot}
    (hsorted : slots.Pairwise QueueSlot.Precedes)
    (hslots : ∀ slot : QueueSlot, slot ∈ slots ↔ queue.position? slot.2 = some slot.1) :
    queue.order.toList = slots := by
  apply List.Pairwise.eq_of_mem_iff (pairwise_precedes queue) hsorted
  intro slot
  rw [hqueue.mem_toList_iff, hslots]

/-! ## Sortedness -/

theorem pairwise_expiry_le (queue : TimerQueue) :
    queue.entries.Pairwise fun left right ↦ left.expiry ≤ right.expiry := by
  rw [entries, List.pairwise_map]
  apply (pairwise_precedes queue).imp
  intro left right hprecedes
  rcases QueueSlot.precedes_iff.mp hprecedes with hlt | ⟨heq, -⟩
  · exact Nat.le_of_lt hlt
  · exact Nat.le_of_eq heq

theorem Coherent.pairwise_id_ne (hqueue : queue.Coherent) :
    queue.entries.Pairwise fun left right ↦ left.id ≠ right.id := by
  rw [entries, List.pairwise_map]
  apply (pairwise_precedes queue).imp_of_mem
  intro left right hleft hright hprecedes hsame
  rw [hqueue.mem_toList_iff] at hleft hright
  have hsame : left.2 = right.2 := hsame
  rw [hsame, hright] at hleft
  rw [QueueSlot.precedes_iff, Option.some.inj hleft] at hprecedes
  omega

/-! ## Changes -/

theorem Coherent.entries_unlink (hqueue : queue.Coherent) (id : TimerId) :
    (queue.unlink id).entries = without id queue.entries := by
  have hslots : (queue.unlink id).order.toList = queue.order.toList.filter (·.2 ≠ id) := by
    apply (hqueue.unlink id).toList_eq ((pairwise_precedes queue).filter _)
    intro slot
    rw [List.mem_filter, hqueue.mem_toList_iff, position?_unlink, decide_eq_true_eq]
    by_cases hid : id = slot.2
    · simp [hid]
    · simp [hid, Ne.symm hid]
  rw [entries, entries, hslots, without, List.filter_map]
  rfl

theorem Coherent.entries_insert (hqueue : queue.Coherent) {id : TimerId} (expiry : Nat)
    (habsent : queue.position? id = none) :
    (queue.insert id expiry).entries = place ⟨expiry, id⟩ queue.entries := by
  have hslots : (queue.insert id expiry).order.toList =
      queue.order.toList.filter (·.1.1 ≤ expiry) ++
        ((expiry, queue.nextSequence), id) :: queue.order.toList.filter (expiry < ·.1.1) := by
    apply (hqueue.insert expiry habsent).toList_eq
    · rw [List.pairwise_append, List.pairwise_cons]
      refine ⟨(pairwise_precedes queue).filter _,
        ⟨?_, (pairwise_precedes queue).filter _⟩, ?_⟩
      · intro slot hslot
        rw [List.mem_filter, decide_eq_true_eq] at hslot
        exact QueueSlot.precedes_iff.mpr (Or.inl hslot.2)
      · intro left hleft right hright
        rw [List.mem_filter, decide_eq_true_eq, hqueue.mem_toList_iff] at hleft
        -- Sequence numbers are drawn in ascending order, so that the new slot is the last of its expiry.
        have hdrawn := hqueue.drawn _ _ hleft.1
        rw [QueueSlot.precedes_iff]
        rcases List.mem_cons.mp hright with rfl | hlater
        · exact (Nat.lt_or_eq_of_le hleft.2).imp_right fun heq ↦ ⟨heq, hdrawn⟩
        · rw [List.mem_filter, decide_eq_true_eq] at hlater
          exact Or.inl (Nat.lt_of_le_of_lt hleft.2 hlater.2)
    · rintro ⟨key, other⟩
      rw [List.mem_append, List.mem_cons, List.mem_filter, List.mem_filter,
        hqueue.mem_toList_iff, position?_insert, decide_eq_true_eq, decide_eq_true_eq]
      by_cases hid : id = other
      · subst hid
        simp [habsent, eq_comm]
      · have hnew : ((key, other) : QueueSlot) ≠ ((expiry, queue.nextSequence), id) := fun heq ↦
          hid (congrArg Prod.snd heq).symm
        rw [if_neg hid]
        simp only [hnew, false_or, ← and_or_left]
        exact and_iff_left (Nat.lt_or_ge expiry key.1).symm
  rw [entries, entries, hslots, place, List.map_append, List.map_cons, List.filter_map,
    List.filter_map]
  rfl

theorem Coherent.entries_offer (hqueue : queue.Coherent) (timer : Timer) :
    (queue.offer timer).2.entries = queued queue.entries ⟨timer.expiry, timer.id⟩ := by
  have habsent : (queue.unlink timer.id).position? timer.id = none := by
    rw [position?_unlink, if_pos rfl]
  exact ((hqueue.unlink timer.id).entries_insert timer.expiry habsent).trans
    (congrArg _ (hqueue.entries_unlink timer.id))

theorem Coherent.contains_eq (hqueue : queue.Coherent) (id : TimerId) :
    queue.contains id = queue.entries.any (·.id = id) := by
  rw [Bool.eq_iff_iff, contains, Std.TreeMap.contains_iff_mem,
    Std.TreeMap.mem_iff_isSome_getElem?, Option.isSome_iff_exists, List.any_eq_true]
  constructor
  · rintro ⟨key, hkey⟩
    exact ⟨⟨key.1, id⟩, hqueue.mem_entries_iff.mpr ⟨key.2, hkey⟩, decide_eq_true rfl⟩
  · rintro ⟨entry, hentry, hid⟩
    obtain ⟨sequence, hheld⟩ := hqueue.mem_entries_iff.mp hentry
    rw [of_decide_eq_true hid] at hheld
    exact ⟨_, hheld⟩

/-! ## The first entry -/

/-- An empty queue has no first entry, and any other queue gives up the head of its list. -/
theorem Coherent.pop?_spec (hqueue : queue.Coherent) :
    match queue.entries with
    | [] => queue.pop? = none
    | entry :: rest => ∃ changed, queue.pop? = some (entry, changed) ∧ changed.Coherent ∧
        changed.entries = rest := by
  cases hpop : queue.pop? with
  | none =>
    have hempty : queue.entries = [] := by
      apply List.eq_nil_iff_forall_not_mem.mpr
      intro entry hentry
      obtain ⟨sequence, hheld⟩ := hqueue.mem_entries_iff.mp hentry
      rw [hqueue.pop?_eq_none hpop] at hheld
      cases hheld
    rw [hempty]
  | some popped =>
    obtain ⟨entry, changed⟩ := popped
    obtain ⟨sequence, hfirst, hleast, hcoherent, -, hrest⟩ := hqueue.pop?_eq_some hpop
    have hslots : queue.order.toList =
        ((entry.expiry, sequence), entry.id) :: changed.order.toList := by
      apply hqueue.toList_eq
      · refine List.pairwise_cons.mpr ⟨?_, pairwise_precedes changed⟩
        intro slot hslot
        rw [hcoherent.mem_toList_iff, hrest] at hslot
        split at hslot
        · cases hslot
        · next hother =>
          rw [QueueSlot.precedes_iff]
          rcases hleast _ _ hslot with hlt | ⟨heq, hle⟩
          · exact Or.inl hlt
          -- A slot with the position of the first one would belong to the same timer.
          · refine Or.inr ⟨heq, Nat.lt_of_le_of_ne hle fun hsame ↦ hother ?_⟩
            have hkey : (entry.expiry, sequence) = slot.1 := Prod.ext heq hsame
            exact hqueue.position?_inj hfirst (hslot.trans (congrArg some hkey.symm))
      · rintro ⟨key, id⟩
        rw [List.mem_cons, hcoherent.mem_toList_iff, hrest]
        by_cases hid : entry.id = id
        · subst hid
          simp [hfirst, eq_comm]
        · have hnew : ((key, id) : QueueSlot) ≠ ((entry.expiry, sequence), entry.id) := fun heq ↦
            hid (congrArg Prod.snd heq).symm
          rw [if_neg hid, or_iff_right hnew]
    rw [entries, hslots]
    exact ⟨changed, rfl, hcoherent, rfl⟩

theorem Coherent.pop?_map_fst (hqueue : queue.Coherent) :
    queue.pop?.map Prod.fst = queue.entries.head? := by
  have hpop := hqueue.pop?_spec
  cases hentries : queue.entries with
  | nil =>
    rw [hentries] at hpop
    rw [hpop]
    rfl
  | cons entry rest =>
    rw [hentries] at hpop
    obtain ⟨changed, hsome, -⟩ := hpop
    rw [hsome]
    rfl

theorem Coherent.peekExpiry?_eq_head? (hqueue : queue.Coherent) :
    queue.peekExpiry? = queue.entries.head?.map QueueEntry.expiry := by
  rw [peekExpiry?_eq, ← hqueue.pop?_map_fst, Option.map_map]
  rfl

theorem Coherent.peek?_eq_head? (hqueue : queue.Coherent) :
    queue.peek? = queue.entries.head?.map QueueEntry.id := by
  rw [← hqueue.pop?_map_fst, Option.map_map]
  unfold peek? pop?
  cases queue.order.minKey? with
  | none => rfl
  | some key =>
    cases hid : queue.order[key]? with
    | none => simp [hid]
    | some id => simp [hid]

theorem size_eq (queue : TimerQueue) : queue.size = queue.entries.length := by
  rw [size, entries, List.length_map, Std.TreeMap.length_toList]

theorem isEmpty_eq (queue : TimerQueue) : queue.isEmpty = queue.entries.isEmpty := by
  rw [isEmpty, entries, List.isEmpty_map, Std.TreeMap.isEmpty_toList]

/-! ## Reading entries back -/

theorem foldl_queued_of_sorted {front entries : List QueueEntry}
    (hsorted : (front ++ entries).Pairwise fun left right ↦ left.expiry ≤ right.expiry)
    (hdistinct : (front ++ entries).Pairwise fun left right ↦ left.id ≠ right.id) :
    entries.foldl queued front = front ++ entries := by
  induction entries generalizing front with
  | nil => rw [List.foldl_nil, List.append_nil]
  | cons entry rest ih =>
    have hlast : queued front entry = front ++ [entry] := by
      have hothers : without entry.id front = front := by
        apply List.filter_eq_self.mpr
        intro other hother
        exact decide_eq_true ((List.pairwise_append.mp hdistinct).2.2 other hother entry
          List.mem_cons_self)
      have hbefore (other : QueueEntry) (hother : other ∈ front) : other.expiry ≤ entry.expiry :=
        (List.pairwise_append.mp hsorted).2.2 other hother entry List.mem_cons_self
      have hkept : front.filter (·.expiry ≤ entry.expiry) = front :=
        List.filter_eq_self.mpr fun other hother ↦ decide_eq_true (hbefore other hother)
      have hnone : front.filter (entry.expiry < ·.expiry) = [] :=
        List.filter_eq_nil_iff.mpr fun other hother ↦ by
          simpa using hbefore other hother
      rw [queued, place, hothers, hkept, hnone]
    rw [List.foldl_cons, hlast, ih]
    · rw [List.append_assoc, List.singleton_append]
    · rwa [List.append_assoc, List.singleton_append]
    · rwa [List.append_assoc, List.singleton_append]

/-- Queueing entries one by one queues them in a list. -/
theorem ofEntries_spec (list : List QueueEntry) :
    (ofEntries list).Coherent ∧ (ofEntries list).entries = list.foldl queued [] := by
  -- The fold queues the last entry last.
  induction list using List.reverseRecOn with
  | nil => exact ⟨coherent_empty, rfl⟩
  | append_singleton front entry ih =>
    obtain ⟨hcoherent, hentries⟩ := ih
    let timer : Timer := { id := entry.id, owner := 0, expiry := entry.expiry }
    have hoffer : ofEntries (front ++ [entry]) = ((ofEntries front).offer timer).2 := by
      rw [ofEntries, List.foldl_append]
      rfl
    rw [hoffer, hcoherent.entries_offer, hentries, List.foldl_append]
    exact ⟨hcoherent.offer timer, rfl⟩

/-- A queue that is read back from its list has that list, whatever its sequence numbers were. -/
theorem Coherent.entries_ofEntries (hqueue : queue.Coherent) :
    (ofEntries queue.entries).entries = queue.entries := by
  rw [(ofEntries_spec queue.entries).2]
  exact foldl_queued_of_sorted (pairwise_expiry_le queue) hqueue.pairwise_id_ne

end TimerQueue

end GuestMachine
