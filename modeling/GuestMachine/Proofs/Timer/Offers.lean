import GuestMachine.Proofs.Saved.Clock
import GuestMachine.Proofs.Timer.Sorting

/-!
# The queue as a list of offers

Somebody who only keeps the last offer of each queued timer, in the order in which the offers were
made, and sorts them by expiry whenever the queue is looked at sees the same as the queue shows. The
sort is the stable one, so that timers of the same expiry stand in the order of their offers.
-/

namespace GuestMachine

open Saved

namespace QueueEntry

/-- Makes an offer, in place of the one that its timer has. -/
def offered (offers : List QueueEntry) (entry : QueueEntry) : List QueueEntry :=
  without entry.id offers ++ [entry]

/-- No timer is listed twice. -/
abbrev IsDistinct (entries : List QueueEntry) : Prop :=
  entries.Pairwise fun left right ↦ left.id ≠ right.id

theorem queued_sorted (offers : List QueueEntry) (entry : QueueEntry) :
    queued (sorted offers) entry = sorted (offered offers entry) := by
  rw [queued, without_sorted, place_sorted, offered]

theorem isDistinct_offered {offers : List QueueEntry} (hoffers : IsDistinct offers)
    (entry : QueueEntry) : IsDistinct (offered offers entry) := by
  rw [IsDistinct, offered, List.pairwise_append]
  refine ⟨hoffers.filter _, List.pairwise_singleton _ _, ?_⟩
  intro earlier hearlier other hother
  rw [List.mem_singleton.mp hother]
  exact of_decide_eq_true (List.mem_filter.mp hearlier).2

end QueueEntry

/-! ## Two keepers of a queue -/

/-- What can be done with a queue of timers that is kept in some way. -/
structure QueueOperations (ρ : Type) where
  offer : ρ → Timer → Timer × ρ
  remove : ρ → Timer → Bool × Timer × ρ
  pop? : ρ → Option (QueueEntry × ρ)
  save : ρ → Value
  load? : Value → Option ρ
  reload? : ρ → Option ρ

/-- The queue with its two indices. It is reloaded from what it is saved as. -/
def TimerQueue.operations : QueueOperations TimerQueue where
  offer := TimerQueue.offer
  remove := TimerQueue.remove
  pop? := TimerQueue.pop?
  save := TimerQueue.toSaved
  load? := TimerQueue.ofSaved?
  reload? queue := TimerQueue.ofSaved? queue.toSaved

open QueueEntry in
/-- The list of the last offers of the queued timers. A list that is loaded is offered in its
order. -/
def QueueEntry.operations : QueueOperations (List QueueEntry) where
  offer offers timer := ({ timer with enqueued := true }, offered offers ⟨timer.expiry, timer.id⟩)
  remove offers timer :=
    (offers.any (·.id = timer.id), { timer with enqueued := false }, without timer.id offers)
  pop? offers := (sorted offers).head?.map fun entry ↦ (entry, without entry.id offers)
  save offers := .list ((sorted offers).map QueueEntry.toSaved)
  load? value := (·.foldl offered []) <$> readList QueueEntry.ofSaved? value
  reload? offers := some (sorted offers)

/-- Something done with a queue, or with a timer of a pool whether or not it is queued. -/
inductive QueueCall (ι : Type) where
  | offer (slot : ι)
  | remove (slot : ι)
  | setExpiry (slot : ι) (expiry : UInt64)
  | pop
  | save
  | reload
  | load (value : Value)

inductive QueueAnswer where
  | done
  | removed (wasQueued : Bool)
  | popped (first : Option QueueEntry)
  | saved (value : Value)
  | loaded (isAccepted : Bool)

/-- Timers, several of which may have one name, and a queue. -/
structure QueueBench (ι ρ : Type) where
  pool : ι → Timer
  queue : ρ

section

variable {ι ρ : Type} [DecidableEq ι]

/-- Takes the place of the queue, if there is something to take it. -/
def QueueBench.replace (bench : QueueBench ι ρ) : Option ρ → QueueAnswer × QueueBench ι ρ
  | some queue => (.loaded true, { bench with queue })
  | none => (.loaded false, bench)

def QueueCall.perform (operations : QueueOperations ρ) (bench : QueueBench ι ρ) :
    QueueCall ι → QueueAnswer × QueueBench ι ρ
  | .offer slot =>
    let (timer, queue) := operations.offer bench.queue (bench.pool slot)
    (.done, { pool := Function.update bench.pool slot timer, queue })
  | .remove slot =>
    let (wasQueued, timer, queue) := operations.remove bench.queue (bench.pool slot)
    (.removed wasQueued, { pool := Function.update bench.pool slot timer, queue })
  | .setExpiry slot expiry =>
    let timer := { bench.pool slot with expiry := expiry.toNat }
    (.done, { bench with pool := Function.update bench.pool slot timer })
  | .pop =>
    match operations.pop? bench.queue with
    | some (entry, queue) => (.popped (some entry), { bench with queue })
    | none => (.popped none, bench)
  | .save => (.saved (operations.save bench.queue), bench)
  | .reload => bench.replace (operations.reload? bench.queue)
  | .load value => bench.replace (operations.load? value)

/-- The answers to calls, one after the other, and what they lead to. -/
def QueueCall.performAll (operations : QueueOperations ρ) :
    QueueBench ι ρ → List (QueueCall ι) → List QueueAnswer × QueueBench ι ρ
  | bench, [] => ([], bench)
  | bench, call :: calls =>
    let (answer, next) := call.perform operations bench
    let (answers, last) := performAll operations next calls
    (answer :: answers, last)

end

/-! ## What a queue shows -/

open QueueEntry

namespace TimerQueue

/-- All that can be asked of a queue is asked of a list. -/
structure Shows (queue : TimerQueue) (list : List QueueEntry) : Prop where
  entries : queue.entries = list
  peek : queue.peek? = list.head?.map QueueEntry.id
  peekExpiry : queue.peekExpiry? = list.head?.map QueueEntry.expiry
  pop : queue.pop?.map Prod.fst = list.head?
  contains (id : TimerId) : queue.contains id = list.any (·.id = id)
  size : queue.size = list.length
  isEmpty : queue.isEmpty = list.isEmpty

/-- A queue stands as if these offers had been made, and can be saved. -/
structure StandsFor (queue : TimerQueue) (offers : List QueueEntry) : Prop where
  coherent : queue.Coherent
  entries : queue.entries = sorted offers
  distinct : IsDistinct offers
  fits (entry : QueueEntry) :
    entry ∈ offers → entry.expiry < UInt64.size ∧ entry.id < UInt32.size

variable {queue : TimerQueue} {offers : List QueueEntry}

theorem StandsFor.shows (hqueue : queue.StandsFor offers) : queue.Shows (sorted offers) where
  entries := hqueue.entries
  peek := hqueue.entries ▸ hqueue.coherent.peek?_eq_head?
  peekExpiry := hqueue.entries ▸ hqueue.coherent.peekExpiry?_eq_head?
  pop := hqueue.entries ▸ hqueue.coherent.pop?_map_fst
  contains id := hqueue.entries ▸ hqueue.coherent.contains_eq id
  size := hqueue.entries ▸ size_eq queue
  isEmpty := hqueue.entries ▸ isEmpty_eq queue

theorem standsFor_empty : empty.StandsFor [] where
  coherent := coherent_empty
  entries := (ofEntries_spec []).2.trans (sorted_eq_self List.Pairwise.nil).symm
  distinct := List.Pairwise.nil
  fits entry hentry := by cases hentry

theorem StandsFor.offer (hqueue : queue.StandsFor offers) {timer : Timer} (htimer : timer.Fits) :
    (queue.offer timer).2.StandsFor (offered offers ⟨timer.expiry, timer.id⟩) where
  coherent := hqueue.coherent.offer timer
  entries := by rw [hqueue.coherent.entries_offer, hqueue.entries, queued_sorted]
  distinct := isDistinct_offered hqueue.distinct _
  fits entry hentry := by
    rcases List.mem_append.mp hentry with hearlier | hlast
    · exact hqueue.fits entry (List.mem_of_mem_filter hearlier)
    · rw [List.mem_singleton.mp hlast]
      exact ⟨htimer.expiry, htimer.id⟩

theorem StandsFor.unlink (hqueue : queue.StandsFor offers) (id : TimerId) :
    (queue.unlink id).StandsFor (without id offers) where
  coherent := hqueue.coherent.unlink id
  entries := by rw [hqueue.coherent.entries_unlink, hqueue.entries, without_sorted]
  distinct := hqueue.distinct.filter _
  fits entry hentry := hqueue.fits entry (List.mem_of_mem_filter hentry)

theorem StandsFor.contains_eq (hqueue : queue.StandsFor offers) (id : TimerId) :
    queue.contains id = offers.any (·.id = id) := by
  rw [hqueue.coherent.contains_eq, hqueue.entries, Bool.eq_iff_iff, List.any_eq_true,
    List.any_eq_true]
  simp only [mem_sorted]

/-- The first entry of the sorted offers is popped, and no other timer loses its offer. -/
theorem StandsFor.pop? (hqueue : queue.StandsFor offers) :
    match (sorted offers).head? with
    | none => queue.pop? = none
    | some entry => ∃ rest, queue.pop? = some (entry, rest) ∧
        rest.StandsFor (without entry.id offers) := by
  have hpop := hqueue.coherent.pop?_spec
  have hdistinct := hqueue.coherent.pairwise_id_ne
  rw [hqueue.entries] at hpop hdistinct
  cases hsorted : sorted offers with
  | nil => rwa [hsorted] at hpop
  | cons entry others =>
    rw [hsorted] at hpop hdistinct
    obtain ⟨rest, hrest, hcoherent, hentries⟩ := hpop
    refine ⟨rest, hrest, hcoherent, ?_, hqueue.distinct.filter _, ?_⟩
    · rw [hentries, ← without_sorted, hsorted, without, List.filter_cons_of_neg (by simp)]
      symm
      apply List.filter_eq_self.mpr
      intro other hother
      exact decide_eq_true ((List.pairwise_cons.mp hdistinct).1 other hother).symm
    · intro other hother
      exact hqueue.fits other (List.mem_of_mem_filter hother)

/-! ## Saved queues -/

theorem StandsFor.toSaved_eq (hqueue : queue.StandsFor offers) :
    queue.toSaved = .list ((sorted offers).map QueueEntry.toSaved) := by
  rw [toSaved, hqueue.entries]

/-- Entries that are read have numbers of the right widths. -/
theorem lt_of_ofSaved? {value : Value} {entry : QueueEntry}
    (hread : QueueEntry.ofSaved? value = some entry) :
    entry.expiry < UInt64.size ∧ entry.id < UInt32.size := by
  obtain ⟨fields, -, hread⟩ := Option.bind_eq_some_iff.mp hread
  obtain ⟨expiry, hexpiry, hread⟩ := Option.bind_eq_some_iff.mp hread
  obtain ⟨id, hid, hread⟩ := Option.bind_eq_some_iff.mp hread
  obtain rfl := Option.some.inj hread
  obtain ⟨_, -, hexpiry⟩ := Option.bind_eq_some_iff.mp hexpiry
  obtain ⟨_, -, hid⟩ := Option.bind_eq_some_iff.mp hid
  exact ⟨readBelow_lt hexpiry, readBelow_lt hid⟩

theorem standsFor_ofEntries {entries : List QueueEntry}
    (hfits : ∀ entry ∈ entries, entry.expiry < UInt64.size ∧ entry.id < UInt32.size) :
    (ofEntries entries).StandsFor (entries.foldl offered []) := by
  induction entries using List.reverseRecOn with
  | nil => exact standsFor_empty
  | append_singleton front entry ih =>
    have hfront := ih fun other hother ↦ hfits other (List.mem_append_left [entry] hother)
    obtain ⟨hexpiry, hid⟩ := hfits entry (List.mem_append_right front List.mem_cons_self)
    have hsize : 0 < UInt32.size := by decide
    have htimer : Timer.Fits { id := entry.id, owner := 0, expiry := entry.expiry } :=
      ⟨hid, hsize, hexpiry⟩
    rw [ofEntries, List.foldl_append, List.foldl_append]
    exact hfront.offer htimer

/-- A queue that is saved and loaded shows the same, and what is offered next stands behind all
that it shows for its time. -/
theorem StandsFor.reload (hqueue : queue.StandsFor offers) :
    ∃ reloaded, ofSaved? queue.toSaved = some reloaded ∧ reloaded.StandsFor (sorted offers) := by
  have hread : readList QueueEntry.ofSaved? queue.toSaved = some queue.entries := by
    apply readsBack_list
    intro entry hentry
    rw [hqueue.entries, mem_sorted] at hentry
    exact QueueEntry.readsBack (hqueue.fits entry hentry).1 (hqueue.fits entry hentry).2
  refine ⟨ofEntries queue.entries, congrArg (Option.map ofEntries) hread,
    (ofEntries_spec queue.entries).1, ?_, ?_, ?_⟩
  · rw [hqueue.coherent.entries_ofEntries, hqueue.entries,
      sorted_eq_self (isSorted_sorted offers)]
  · exact hqueue.entries ▸ hqueue.coherent.pairwise_id_ne
  · intro entry hentry
    exact hqueue.fits entry (mem_sorted.mp hentry)

end TimerQueue

/-! ## Answers -/

section

variable {ι : Type} {real : QueueBench ι TimerQueue} {listed : QueueBench ι (List QueueEntry)}

/-- The timers are the same, and the queue stands for the list. -/
structure QueueBench.Mirrors (real : QueueBench ι TimerQueue)
    (listed : QueueBench ι (List QueueEntry)) : Prop where
  pool : real.pool = listed.pool
  fits (slot : ι) : (real.pool slot).Fits
  queue : real.queue.StandsFor listed.queue

theorem QueueBench.Mirrors.replace (hmirrors : real.Mirrors listed) {queue? : Option TimerQueue}
    {offers? : Option (List QueueEntry)}
    (hrelated : Option.Rel TimerQueue.StandsFor queue? offers?) :
    (real.replace queue?).1 = (listed.replace offers?).1 ∧
      (real.replace queue?).2.Mirrors (listed.replace offers?).2 := by
  cases hrelated with
  | none => exact ⟨rfl, hmirrors⟩
  | some hqueue => exact ⟨rfl, hmirrors.pool, hmirrors.fits, hqueue⟩

/-- Loading fails for both or gives both the same offers. -/
theorem TimerQueue.standsFor_load (value : Value) :
    Option.Rel TimerQueue.StandsFor (TimerQueue.operations.load? value)
      (QueueEntry.operations.load? value) := by
  have hreal : TimerQueue.operations.load? value =
      (readList QueueEntry.ofSaved? value).map ofEntries := rfl
  have hlisted : QueueEntry.operations.load? value =
      (readList QueueEntry.ofSaved? value).map (·.foldl offered []) := rfl
  rw [hreal, hlisted]
  cases hread : readList QueueEntry.ofSaved? value with
  | none => exact .none
  | some entries =>
    apply Option.Rel.some
    apply standsFor_ofEntries
    intro entry hentry
    obtain ⟨part, hpart⟩ := exists_of_mem_readList hread hentry
    exact lt_of_ofSaved? hpart

variable [DecidableEq ι]

/-- A timer of the pool may be replaced by another one that fits. -/
theorem Timer.Fits.update {timer : Timer} (htimer : timer.Fits) {pool : ι → Timer}
    (hpool : ∀ slot, (pool slot).Fits) (slot other : ι) : (Function.update pool slot timer other).Fits := by
  by_cases hother : other = slot
  · rwa [hother, Function.update_self]
  · rw [Function.update_of_ne hother]
    exact hpool other

/-- A call is answered alike, and what it leads to is alike. -/
theorem QueueBench.Mirrors.perform (hmirrors : real.Mirrors listed) (call : QueueCall ι) :
    (call.perform TimerQueue.operations real).1 =
        (call.perform QueueEntry.operations listed).1 ∧
      (call.perform TimerQueue.operations real).2.Mirrors
        (call.perform QueueEntry.operations listed).2 := by
  have hqueue := hmirrors.queue
  have hfits (slot : ι) := hmirrors.fits slot
  have hpool := hmirrors.pool
  cases call with
  | offer slot =>
    simp only [QueueCall.perform, TimerQueue.operations, QueueEntry.operations, ← hpool]
    have htimer : (real.queue.offer (real.pool slot)).1.Fits :=
      ⟨(hfits slot).id, (hfits slot).owner, (hfits slot).expiry⟩
    exact ⟨trivial, rfl, htimer.update hfits slot, hqueue.offer (hfits slot)⟩
  | remove slot =>
    simp only [QueueCall.perform, TimerQueue.operations, QueueEntry.operations, ← hpool]
    have htimer : (real.queue.remove (real.pool slot)).2.1.Fits :=
      ⟨(hfits slot).id, (hfits slot).owner, (hfits slot).expiry⟩
    exact ⟨congrArg QueueAnswer.removed (hqueue.contains_eq _), rfl, htimer.update hfits slot,
      hqueue.unlink _⟩
  | setExpiry slot expiry =>
    simp only [QueueCall.perform, ← hpool]
    have htimer : Timer.Fits { real.pool slot with expiry := expiry.toNat } :=
      ⟨(hfits slot).id, (hfits slot).owner, expiry.toNat_lt⟩
    exact ⟨trivial, rfl, htimer.update hfits slot, hqueue⟩
  | pop =>
    have hpop := hqueue.pop?
    simp only [QueueCall.perform, TimerQueue.operations, QueueEntry.operations]
    cases hhead : (sorted listed.queue).head? with
    | none =>
      rw [hhead] at hpop
      rw [hpop]
      exact ⟨rfl, hmirrors⟩
    | some entry =>
      rw [hhead] at hpop
      obtain ⟨rest, hrest, hleft⟩ := hpop
      rw [hrest]
      exact ⟨rfl, hpool, hfits, hleft⟩
  | save => exact ⟨congrArg QueueAnswer.saved hqueue.toSaved_eq, hmirrors⟩
  | reload =>
    obtain ⟨reloaded, hreload, hreloaded⟩ := hqueue.reload
    have hrelated : Option.Rel TimerQueue.StandsFor
        (TimerQueue.operations.reload? real.queue) (some (sorted listed.queue)) := by
      rw [show TimerQueue.operations.reload? real.queue = some reloaded from hreload]
      exact .some hreloaded
    exact hmirrors.replace hrelated
  | load value => exact hmirrors.replace (TimerQueue.standsFor_load value)

theorem QueueBench.Mirrors.performAll (hmirrors : real.Mirrors listed)
    (calls : List (QueueCall ι)) :
    (QueueCall.performAll TimerQueue.operations real calls).1 =
        (QueueCall.performAll QueueEntry.operations listed calls).1 ∧
      (QueueCall.performAll TimerQueue.operations real calls).2.Mirrors
        (QueueCall.performAll QueueEntry.operations listed calls).2 := by
  induction calls generalizing real listed with
  | nil => exact ⟨rfl, hmirrors⟩
  | cons call calls ih =>
    obtain ⟨hanswer, hnext⟩ := hmirrors.perform call
    obtain ⟨hanswers, hlast⟩ := ih hnext
    exact ⟨congrArg₂ List.cons hanswer hanswers, hlast⟩

/-- The list of the last offers answers for the queue: every call is answered alike, and at every
point the queue shows the sorted list, in which no timer occurs twice. -/
theorem queue_refines_offers (pool : ι → Timer) (hpool : ∀ slot, (pool slot).Fits)
    (calls : List (QueueCall ι)) :
    let real := QueueCall.performAll TimerQueue.operations ⟨pool, .empty⟩ calls
    let listed := QueueCall.performAll QueueEntry.operations ⟨pool, []⟩ calls
    real.1 = listed.1 ∧ real.2.pool = listed.2.pool ∧
      real.2.queue.Shows (sorted listed.2.queue) ∧ IsDistinct listed.2.queue := by
  have hstart : QueueBench.Mirrors ⟨pool, TimerQueue.empty⟩ ⟨pool, []⟩ :=
    ⟨rfl, hpool, TimerQueue.standsFor_empty⟩
  obtain ⟨hanswers, hlast⟩ := hstart.performAll calls
  exact ⟨hanswers, hlast.pool, hlast.queue.shows, hlast.queue.distinct⟩

end

/-- The first two timers have one name. -/
def sharedPool : Fin 3 → Timer
  | 0 => { id := 7, owner := 0, expiry := 5 }
  | 1 => { id := 7, owner := 1, expiry := 9 }
  | 2 => { id := 8, owner := 0, expiry := 5 }

theorem fits_sharedPool : ∀ slot, (sharedPool slot).Fits
  | 0 | 1 | 2 => ⟨by decide, by decide, by decide⟩

/-- The timer that is offered again goes behind the other one and stays there when the queue is
reloaded. A new expiry without an offer is not seen. -/
def sharedCalls : List (QueueCall (Fin 3)) :=
  [.offer 0, .offer 2, .setExpiry 2 1, .offer 0, .reload]

theorem queue_refines_offers_shared : (∀ slot, (sharedPool slot).Fits) ∧
    (QueueCall.performAll TimerQueue.operations ⟨sharedPool, .empty⟩ sharedCalls).2.queue.entries =
      [⟨5, 8⟩, ⟨5, 7⟩] ∧
    sorted (QueueCall.performAll QueueEntry.operations ⟨sharedPool, []⟩ sharedCalls).2.queue =
      [⟨5, 8⟩, ⟨5, 7⟩] ∧
    (QueueCall.performAll QueueEntry.operations ⟨sharedPool, []⟩
      (sharedCalls ++ [.remove 1, .pop])).1 =
      [.done, .done, .done, .done, .loaded true, .removed true, .popped (some ⟨5, 8⟩)] ∧
    (QueueCall.performAll TimerQueue.operations ⟨sharedPool, .empty⟩
      (sharedCalls ++ [.remove 1, .pop])).1 =
      [.done, .done, .done, .done, .loaded true, .removed true, .popped (some ⟨5, 8⟩)] := by
  have hentries : (QueueCall.performAll TimerQueue.operations ⟨sharedPool, .empty⟩
      sharedCalls).2.queue.entries = [⟨5, 8⟩, ⟨5, 7⟩] := rfl
  have hanswers : (QueueCall.performAll TimerQueue.operations ⟨sharedPool, .empty⟩
      (sharedCalls ++ [.remove 1, .pop])).1 =
      [.done, .done, .done, .done, .loaded true, .removed true, .popped (some ⟨5, 8⟩)] := by
    simp only [sharedCalls, List.cons_append, List.nil_append, QueueCall.performAll,
      QueueCall.perform, TimerQueue.operations, TimerQueue.pop?_eq_keys]
    rfl
  obtain ⟨-, -, hshows, -⟩ := queue_refines_offers sharedPool fits_sharedPool sharedCalls
  obtain ⟨hsame, -⟩ :=
    queue_refines_offers sharedPool fits_sharedPool (sharedCalls ++ [.remove 1, .pop])
  exact ⟨fits_sharedPool, hentries, hshows.entries.symm.trans hentries, hsame.symm.trans hanswers,
    hanswers⟩

end GuestMachine
