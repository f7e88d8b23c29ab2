import GuestMachine.Timer.Queue
import Mathlib.Order.Basic

/-!
# The two indices of the timer queue

The queue is determined by the positions that its timers hold. The operations are described by
their effect on these: a timer holds at most one position, no position is held by two timers, and
every position drawn so far has a smaller sequence number than the next one.
-/

namespace GuestMachine

/-! ## The order of positions -/

theorem QueueKey.order_eq_iff {left right : QueueKey} :
    QueueKey.order left right = .eq ↔ left = right :=
  Std.LawfulEqCmp.compare_eq_iff_eq

theorem QueueKey.isLE_order_iff {left right : QueueKey} :
    (QueueKey.order left right).isLE ↔ left.1 < right.1 ∨ left.1 = right.1 ∧ left.2 ≤ right.2 := by
  simp only [QueueKey.order, compareLex, compareOn]
  cases hfirst : compare left.1 right.1 with
  | lt => simp [Nat.compare_eq_lt.mp hfirst, Ordering.then]
  | eq => simp [Nat.compare_eq_eq.mp hfirst, Ordering.then, Nat.isLE_compare]
  | gt =>
    have hgreater := Nat.compare_eq_gt.mp hfirst
    simp only [Ordering.then, Ordering.isLE_gt, Bool.false_eq_true, false_iff]
    omega

namespace TimerQueue

/-- The position that a timer holds. -/
def position? (queue : TimerQueue) (id : TimerId) : Option QueueKey := queue.keys[id]?

/-- The two indices name the same positions, all drawn before the next sequence number. -/
structure Coherent (queue : TimerQueue) : Prop where
  inverse (key : QueueKey) (id : TimerId) :
    queue.order[key]? = some id ↔ queue.position? id = some key
  drawn (id : TimerId) (key : QueueKey) :
    queue.position? id = some key → key.2 < queue.nextSequence

section

variable {queue : TimerQueue}

theorem coherent_empty : empty.Coherent where
  inverse key id := by simp [empty, position?]
  drawn id key := by simp [empty, position?]

theorem position?_empty (id : TimerId) : empty.position? id = none := by
  simp [empty, position?]

/-- No two timers hold the same position. -/
theorem Coherent.position?_inj (hqueue : queue.Coherent) {key : QueueKey} {left right : TimerId}
    (hleft : queue.position? left = some key) (hright : queue.position? right = some key) :
    left = right := by
  have hentry := (hqueue.inverse key left).mpr hleft
  rw [(hqueue.inverse key right).mpr hright] at hentry
  exact (Option.some.inj hentry).symm

/-! ## Removal -/

theorem position?_unlink (id other : TimerId) :
    (queue.unlink id).position? other = if id = other then none else queue.position? other := by
  unfold unlink position?
  cases hkey : queue.keys[id]? with
  | none =>
    by_cases hother : id = other
    · rw [if_pos hother, ← hother, hkey]
    · rw [if_neg hother]
  | some key =>
    simp only [Std.TreeMap.getElem?_erase, Nat.compare_eq_eq]

theorem nextSequence_unlink (id : TimerId) :
    (queue.unlink id).nextSequence = queue.nextSequence := by
  unfold unlink
  cases queue.keys[id]? <;> rfl

theorem Coherent.erase (hqueue : queue.Coherent) {id : TimerId} {key : QueueKey}
    (hkey : queue.position? id = some key) :
    Coherent { queue with order := queue.order.erase key, keys := queue.keys.erase id } where
  inverse other timer := by
    simp only [position?, Std.TreeMap.getElem?_erase, QueueKey.order_eq_iff, Nat.compare_eq_eq]
    by_cases hid : id = timer
    · subst hid
      by_cases hother : key = other
      · simp [hother]
      · have hnone : queue.order[other]? ≠ some id := by
          intro hentry
          rw [(hqueue.inverse other id).mp hentry] at hkey
          exact hother (Option.some.inj hkey).symm
        simp [hother, hnone]
    · rw [if_neg hid]
      by_cases hother : key = other
      · subst hother
        have hnone : queue.position? timer ≠ some key := fun htimer ↦
          hid (hqueue.position?_inj hkey htimer)
        simpa [position?] using hnone
      · rw [if_neg hother]
        exact hqueue.inverse other timer
  drawn timer other hother := by
    have hheld : queue.position? timer = some other := by
      simp only [position?, Std.TreeMap.getElem?_erase] at hother
      split at hother
      · cases hother
      · exact hother
    exact hqueue.drawn timer other hheld

theorem Coherent.unlink (hqueue : queue.Coherent) (id : TimerId) : (queue.unlink id).Coherent := by
  unfold TimerQueue.unlink
  cases hkey : queue.keys[id]? with
  | none => exact hqueue
  | some key => exact hqueue.erase hkey

/-! ## Queueing -/

theorem position?_insert (id other : TimerId) (expiry : Nat) :
    (queue.insert id expiry).position? other =
      if id = other then some (expiry, queue.nextSequence) else queue.position? other := by
  simp only [insert, position?, Std.TreeMap.getElem?_insert, Nat.compare_eq_eq]

/-- A timer without a position can be queued: the position that it takes is fresh. -/
theorem Coherent.insert (hqueue : queue.Coherent) {id : TimerId} (expiry : Nat)
    (habsent : queue.position? id = none) : (queue.insert id expiry).Coherent where
  inverse key timer := by
    rw [position?_insert]
    simp only [TimerQueue.insert, Std.TreeMap.getElem?_insert, QueueKey.order_eq_iff]
    by_cases hkey : (expiry, queue.nextSequence) = key
    · subst hkey
      have hfresh : queue.position? timer ≠ some (expiry, queue.nextSequence) := fun hheld ↦
        Nat.lt_irrefl _ (hqueue.drawn timer _ hheld)
      by_cases htimer : id = timer
      · simp [htimer]
      · simp [htimer, hfresh]
    · rw [if_neg hkey, hqueue.inverse key timer]
      by_cases htimer : id = timer
      · simp [← htimer, habsent, hkey]
      · rw [if_neg htimer]
  drawn timer key hheld := by
    rw [position?_insert] at hheld
    by_cases htimer : id = timer
    · rw [if_pos htimer] at hheld
      cases hheld
      exact Nat.lt_succ_self _
    · rw [if_neg htimer] at hheld
      exact Nat.lt_succ_of_lt (hqueue.drawn timer key hheld)

theorem position?_offer (timer : Timer) (other : TimerId) :
    (queue.offer timer).2.position? other =
      if timer.id = other then some (timer.expiry, queue.nextSequence)
      else queue.position? other := by
  unfold offer
  rw [position?_insert, position?_unlink, nextSequence_unlink]
  split <;> rfl

theorem nextSequence_offer (timer : Timer) :
    (queue.offer timer).2.nextSequence = queue.nextSequence + 1 :=
  congrArg (· + 1) (nextSequence_unlink timer.id)

theorem Coherent.offer (hqueue : queue.Coherent) (timer : Timer) :
    (queue.offer timer).2.Coherent := by
  apply (hqueue.unlink timer.id).insert
  rw [position?_unlink, if_pos rfl]

/-! ## The first entry -/

theorem Coherent.pop?_eq_none (hqueue : queue.Coherent) (hpop : queue.pop? = none) (id : TimerId) :
    queue.position? id = none := by
  by_contra hheld
  obtain ⟨key, hkey⟩ := Option.ne_none_iff_exists'.mp hheld
  have hentry := (hqueue.inverse key id).mpr hkey
  have hmem : key ∈ queue.order := by
    rw [Std.TreeMap.mem_iff_isSome_getElem?, hentry]
    rfl
  cases hmin : queue.order.minKey? with
  | none =>
    have hsome := Std.TreeMap.isSome_minKey?_of_mem hmem
    rw [hmin] at hsome
    cases hsome
  | some least =>
    have hleast := (Std.TreeMap.minKey?_eq_some_iff_mem_and_forall.mp hmin).1
    obtain ⟨timer, htimer⟩ :=
      Option.isSome_iff_exists.mp (Std.TreeMap.mem_iff_isSome_getElem?.mp hleast)
    simp [pop?, hmin, htimer] at hpop

/-- The first entry is the one whose position comes before all others, and removing it leaves the
other positions as they are. -/
theorem Coherent.pop?_eq_some (hqueue : queue.Coherent) {entry : QueueEntry} {rest : TimerQueue}
    (hpop : queue.pop? = some (entry, rest)) :
    ∃ sequence, queue.position? entry.id = some (entry.expiry, sequence) ∧
      (∀ id key, queue.position? id = some key →
        entry.expiry < key.1 ∨ entry.expiry = key.1 ∧ sequence ≤ key.2) ∧
      rest.Coherent ∧ rest.nextSequence = queue.nextSequence ∧
      ∀ id, rest.position? id = if entry.id = id then none else queue.position? id := by
  cases hmin : queue.order.minKey? with
  | none => simp [pop?, hmin] at hpop
  | some key =>
    cases hid : queue.order[key]? with
    | none => simp [pop?, hmin, hid] at hpop
    | some id =>
      simp only [pop?, hmin, hid, Option.bind_eq_bind, Option.bind_some, Option.pure_def,
        Option.some.injEq, Prod.mk.injEq] at hpop
      obtain ⟨rfl, rfl⟩ := hpop
      have hheld := (hqueue.inverse key id).mp hid
      refine ⟨key.2, hheld, ?_, hqueue.erase hheld, rfl, ?_⟩
      · intro other position hother
        have hentry := (hqueue.inverse position other).mpr hother
        have hmem : position ∈ queue.order := by
          rw [Std.TreeMap.mem_iff_isSome_getElem?, hentry]
          rfl
        exact QueueKey.isLE_order_iff.mp
          ((Std.TreeMap.minKey?_eq_some_iff_mem_and_forall.mp hmin).2 position hmem)
      · intro other
        simp only [position?, Std.TreeMap.getElem?_erase, Nat.compare_eq_eq]

/-- The search for the least key does not reduce, but the list of the keys does. -/
theorem pop?_eq_keys (queue : TimerQueue) :
    queue.pop? = do
      let key ← queue.order.keys.head?
      let id ← queue.order[key]?
      return (⟨key.1, id⟩,
        { queue with order := queue.order.erase key, keys := queue.keys.erase id }) := by
  rw [pop?, Std.TreeMap.minKey?_eq_head?_keys]

theorem peekExpiry?_eq (queue : TimerQueue) :
    queue.peekExpiry? = queue.pop?.map fun (entry, _) ↦ entry.expiry := by
  unfold peekExpiry? pop?
  cases hmin : queue.order.minKey? with
  | none => rfl
  | some key =>
    have hmem : key ∈ queue.order := (Std.TreeMap.minKey?_eq_some_iff_mem_and_forall.mp hmin).1
    obtain ⟨id, hid⟩ := Option.isSome_iff_exists.mp (Std.TreeMap.mem_iff_isSome_getElem?.mp hmem)
    simp [hid]

/-! ## Entries -/

theorem Coherent.mem_entries_iff (hqueue : queue.Coherent) {entry : QueueEntry} :
    entry ∈ queue.entries ↔
      ∃ sequence, queue.position? entry.id = some (entry.expiry, sequence) := by
  unfold entries
  rw [List.mem_map]
  constructor
  · rintro ⟨⟨key, id⟩, hmem, rfl⟩
    exact ⟨key.2, (hqueue.inverse key id).mp (Std.TreeMap.mem_toList_iff_getElem?_eq_some.mp hmem)⟩
  · rintro ⟨sequence, hheld⟩
    exact ⟨((entry.expiry, sequence), entry.id),
      Std.TreeMap.mem_toList_iff_getElem?_eq_some.mpr ((hqueue.inverse _ _).mpr hheld), rfl⟩

end

end TimerQueue

end GuestMachine
