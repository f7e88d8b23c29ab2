import GuestMachine.Proofs.Timer.Offers

/-!
# Normal forms of queues

A queue may be built from entries in any order, in which a timer may occur more than once. What it
lists is the normal form of these entries: the last one of each timer, sorted by expiry, where those
of one expiry stay in their order. Entries of one normal form build queues that behave alike from
then on, and what any queue lists is in normal form already.
-/

namespace GuestMachine

open Saved

namespace QueueEntry

/-- The last entry of each timer. -/
def latest : List QueueEntry → List QueueEntry
  | [] => []
  | entry :: later =>
    if later.any (·.id = entry.id) then latest later else entry :: latest later

def normalForm (entries : List QueueEntry) : List QueueEntry := sorted (latest entries)

/-- An entry that is added takes the place of the one that its timer has. -/
theorem latest_concat (entries : List QueueEntry) (entry : QueueEntry) :
    latest (entries ++ [entry]) = offered (latest entries) entry := by
  induction entries with
  | nil => rfl
  | cons first later ih =>
    rw [List.cons_append, latest, latest, List.any_append, ih]
    by_cases hlater : later.any (·.id = first.id) = true
    · simp [hlater]
    · by_cases hid : entry.id = first.id
      · simp [hlater, hid, offered, without]
      · simp [hlater, hid, offered, without, Ne.symm hid]

theorem foldl_offered (entries : List QueueEntry) : entries.foldl offered [] = latest entries := by
  induction entries using List.reverseRecOn with
  | nil => rfl
  | append_singleton front entry ih =>
    rw [List.foldl_append, ih, latest_concat]
    rfl

end QueueEntry

open QueueEntry

namespace TimerQueue

variable {queue : TimerQueue} {offers : List QueueEntry}

/-- The offers may be thought of as made in the order of dispatch. -/
theorem StandsFor.settled (hqueue : queue.StandsFor offers) : queue.StandsFor (sorted offers) where
  coherent := hqueue.coherent
  entries := hqueue.entries.trans (sorted_eq_self (isSorted_sorted offers)).symm
  distinct := hqueue.entries ▸ hqueue.coherent.pairwise_id_ne
  fits entry hentry := hqueue.fits entry (mem_sorted.mp hentry)

theorem standsFor_normalForm {entries : List QueueEntry}
    (hfits : ∀ entry ∈ entries, entry.expiry < UInt64.size ∧ entry.id < UInt32.size) :
    (ofEntries entries).StandsFor (normalForm entries) := by
  rw [normalForm, ← foldl_offered]
  exact (standsFor_ofEntries hfits).settled

theorem StandsFor.entries_ofSaved? (hqueue : queue.StandsFor offers) :
    ∃ reloaded, ofSaved? queue.toSaved = some reloaded ∧ reloaded.entries = queue.entries := by
  obtain ⟨reloaded, hread, hreloaded⟩ := hqueue.reload
  exact ⟨reloaded, hread, hreloaded.entries.trans (hqueue.settled.entries.symm)⟩

/-- Entries that fit are read as the queue that is built from them. -/
theorem ofSaved?_list {entries : List QueueEntry}
    (hfits : ∀ entry ∈ entries, entry.expiry < UInt64.size ∧ entry.id < UInt32.size) :
    ofSaved? (.list (entries.map QueueEntry.toSaved)) = some (ofEntries entries) :=
  congrArg (Option.map ofEntries) <| readsBack_list fun entry hentry ↦
    QueueEntry.readsBack (hfits entry hentry).1 (hfits entry hentry).2

/-- A queue lists the normal form of the entries that it is built from. Whatever is done with it, it
is read back with the list that it is written as, and it goes on like every queue that is built from
entries of the same normal form. -/
theorem ofEntries_normalises {ι : Type} [DecidableEq ι] {entries : List QueueEntry}
    (hentries : ∀ entry ∈ entries, entry.expiry < UInt64.size ∧ entry.id < UInt32.size)
    {pool : ι → Timer} (hpool : ∀ slot, (pool slot).Fits) (calls : List (QueueCall ι)) :
    let last := QueueCall.performAll operations ⟨pool, ofEntries entries⟩ calls
    (ofEntries entries).entries = normalForm entries ∧
      ofSaved? (.list (entries.map QueueEntry.toSaved)) = some (ofEntries entries) ∧
      (ofEntries last.2.queue.entries).entries = last.2.queue.entries ∧
      (∃ reloaded, ofSaved? last.2.queue.toSaved = some reloaded ∧
        reloaded.entries = last.2.queue.entries) ∧
      ∀ others : List QueueEntry,
        (∀ entry ∈ others, entry.expiry < UInt64.size ∧ entry.id < UInt32.size) →
        normalForm others = normalForm entries →
        let other := QueueCall.performAll operations ⟨pool, ofEntries others⟩ calls
        other.1 = last.1 ∧ other.2.pool = last.2.pool ∧
          ∃ list, last.2.queue.Shows list ∧ other.2.queue.Shows list := by
  intro last
  have hstart : QueueBench.Mirrors ⟨pool, ofEntries entries⟩ ⟨pool, normalForm entries⟩ :=
    ⟨rfl, hpool, standsFor_normalForm hentries⟩
  obtain ⟨hanswers, hlast⟩ := hstart.performAll calls
  refine ⟨(standsFor_normalForm hentries).entries.trans (sorted_eq_self (isSorted_sorted _)),
    ofSaved?_list hentries, hlast.queue.coherent.entries_ofEntries,
    hlast.queue.entries_ofSaved?, fun others hothers hsame ↦ ?_⟩
  have hother : QueueBench.Mirrors ⟨pool, ofEntries others⟩ ⟨pool, normalForm entries⟩ :=
    ⟨rfl, hpool, hsame ▸ standsFor_normalForm hothers⟩
  obtain ⟨hanswers', hlast'⟩ := hother.performAll calls
  exact ⟨hanswers'.trans hanswers.symm, hlast'.pool.trans hlast.pool.symm, _,
    hlast.queue.shows, hlast'.queue.shows⟩

/-- Two timers occur twice, one of them with another expiry than before. -/
def repeatedEntries : List QueueEntry := [⟨5, 7⟩, ⟨3, 8⟩, ⟨5, 9⟩, ⟨9, 8⟩, ⟨5, 7⟩]

/-- No timer occurs twice. -/
def singleEntries : List QueueEntry := [⟨9, 8⟩, ⟨5, 9⟩, ⟨5, 7⟩]

theorem ofEntries_normalises_repeated :
    (ofEntries repeatedEntries).entries = [⟨5, 9⟩, ⟨5, 7⟩, ⟨9, 8⟩] ∧
      normalForm singleEntries = normalForm repeatedEntries ∧
      ∀ calls : List (QueueCall (Fin 3)),
        (QueueCall.performAll operations ⟨sharedPool, ofEntries singleEntries⟩ calls).1 =
          (QueueCall.performAll operations ⟨sharedPool, ofEntries repeatedEntries⟩ calls).1 := by
  have hrepeated : ∀ entry ∈ repeatedEntries,
      entry.expiry < UInt64.size ∧ entry.id < UInt32.size := by decide
  have hsingle : ∀ entry ∈ singleEntries,
      entry.expiry < UInt64.size ∧ entry.id < UInt32.size := by decide
  have hentries : (ofEntries singleEntries).entries = (ofEntries repeatedEntries).entries := rfl
  have hsame : normalForm singleEntries = normalForm repeatedEntries := calc
    normalForm singleEntries = (ofEntries singleEntries).entries :=
      (ofEntries_normalises hsingle fits_sharedPool []).1.symm
    _ = (ofEntries repeatedEntries).entries := hentries
    _ = normalForm repeatedEntries := (ofEntries_normalises hrepeated fits_sharedPool []).1
  refine ⟨rfl, hsame, fun calls ↦ ?_⟩
  obtain ⟨-, -, -, -, halike⟩ := ofEntries_normalises hrepeated fits_sharedPool calls
  exact (halike singleEntries hsingle hsame).1

end TimerQueue

end GuestMachine
