import GuestMachine.Proofs.Timer.Entries

/-!
# Stable sorting of entries

Entries are sorted by expiry, and those of one expiry stay in the order in which they are listed.
A sorted list is determined by its parts of one expiry each. So removing an entry commutes with the
sort, and an entry that is listed last is placed behind all others of its expiry.
-/

namespace GuestMachine

namespace QueueEntry

/-- The first entry does not expire after the second. -/
def isNoLater (left right : QueueEntry) : Bool := left.expiry ≤ right.expiry

@[simp]
theorem isNoLater_iff {left right : QueueEntry} :
    left.isNoLater right ↔ left.expiry ≤ right.expiry := decide_eq_true_iff

theorem isNoLater_trans (first second third : QueueEntry) :
    first.isNoLater second → second.isNoLater third → first.isNoLater third := by
  simpa using Nat.le_trans

theorem isNoLater_total (left right : QueueEntry) :
    left.isNoLater right || right.isNoLater left := by
  simpa using Nat.le_total left.expiry right.expiry

/-- Entries in ascending expiry, those of one expiry in the order in which they are listed. -/
def sorted (offers : List QueueEntry) : List QueueEntry := offers.mergeSort isNoLater

/-- In ascending expiry. -/
abbrev IsSorted (entries : List QueueEntry) : Prop :=
  entries.Pairwise fun left right ↦ left.expiry ≤ right.expiry

theorem mem_sorted {offers : List QueueEntry} {entry : QueueEntry} :
    entry ∈ sorted offers ↔ entry ∈ offers :=
  List.mem_mergeSort

theorem isSorted_sorted (offers : List QueueEntry) : IsSorted (sorted offers) :=
  (List.pairwise_mergeSort isNoLater_trans isNoLater_total offers).imp isNoLater_iff.mp

theorem sorted_eq_self {entries : List QueueEntry} (hsorted : IsSorted entries) :
    sorted entries = entries :=
  List.mergeSort_of_pairwise (hsorted.imp isNoLater_iff.mpr)

/-- The entries of one expiry. -/
def expiring (expiry : Nat) (entries : List QueueEntry) : List QueueEntry :=
  entries.filter (·.expiry = expiry)

/-- Sorting leaves the entries of one expiry as they are. -/
theorem expiring_sorted (expiry : Nat) (offers : List QueueEntry) :
    expiring expiry (sorted offers) = expiring expiry offers := by
  have hequal : (expiring expiry offers).Pairwise (isNoLater · ·) := by
    apply List.pairwise_of_forall_mem_list
    intro left hleft right hright
    rw [isNoLater_iff, of_decide_eq_true (List.mem_filter.mp hleft).2,
      of_decide_eq_true (List.mem_filter.mp hright).2]
  have hsublist : (expiring expiry offers).Sublist (sorted offers) :=
    List.sublist_mergeSort isNoLater_trans isNoLater_total hequal List.filter_sublist
  have hkept : (expiring expiry offers).Sublist (expiring expiry (sorted offers)) := by
    simpa [expiring, List.filter_filter] using hsublist.filter (·.expiry = expiry)
  have hlength : (expiring expiry (sorted offers)).length = (expiring expiry offers).length :=
    ((List.mergeSort_perm offers isNoLater).filter _).length_eq
  exact (hkept.eq_of_length hlength.symm).symm

/-- Of two sorted lists with the same parts neither starts later than the other. -/
theorem head_expiry_le {left right : QueueEntry} {lefts rights : List QueueEntry}
    (hright : IsSorted (right :: rights))
    (hparts : ∀ expiry, expiring expiry (left :: lefts) = expiring expiry (right :: rights)) :
    right.expiry ≤ left.expiry := by
  have hmem : left ∈ expiring left.expiry (right :: rights) := by
    rw [← hparts]
    exact List.mem_filter.mpr ⟨List.mem_cons_self, decide_eq_true rfl⟩
  rcases List.mem_cons.mp (List.mem_of_mem_filter hmem) with rfl | hlater
  · exact Nat.le_refl _
  · exact (List.pairwise_cons.mp hright).1 left hlater

/-- A sorted list is determined by its parts of one expiry each. -/
theorem eq_of_expiring_eq {left right : List QueueEntry} (hleft : IsSorted left)
    (hright : IsSorted right)
    (hparts : ∀ expiry, expiring expiry left = expiring expiry right) : left = right := by
  induction left generalizing right with
  | nil =>
    cases right with
    | nil => rfl
    | cons entry rest =>
      have hpart := hparts entry.expiry
      simp [expiring] at hpart
  | cons entry rest ih =>
    cases right with
    | nil =>
      have hpart := hparts entry.expiry
      simp [expiring] at hpart
    | cons other others =>
      have hexpiry : entry.expiry = other.expiry :=
        Nat.le_antisymm (head_expiry_le hleft fun expiry ↦ (hparts expiry).symm)
          (head_expiry_le hright hparts)
      have hheads := hparts entry.expiry
      simp only [expiring, List.filter_cons, hexpiry, decide_true, if_true, List.cons.injEq]
        at hheads
      obtain ⟨rfl, -⟩ := hheads
      rw [ih hleft.of_cons hright.of_cons]
      intro expiry
      have htails := hparts expiry
      simp only [expiring, List.filter_cons] at htails ⊢
      split at htails
      · exact (List.cons.inj htails).2
      · exact htails

/-- The stable sort is the sorted list that has the parts of the list. -/
theorem eq_sorted {entries offers : List QueueEntry} (hentries : IsSorted entries)
    (hparts : ∀ expiry, expiring expiry entries = expiring expiry offers) :
    entries = sorted offers :=
  eq_of_expiring_eq hentries (isSorted_sorted offers) fun expiry ↦
    (hparts expiry).trans (expiring_sorted expiry offers).symm

theorem without_sorted (id : TimerId) (offers : List QueueEntry) :
    without id (sorted offers) = sorted (without id offers) := by
  apply eq_sorted ((isSorted_sorted offers).filter _)
  intro expiry
  calc expiring expiry (without id (sorted offers))
      = without id (expiring expiry (sorted offers)) := List.filter_comm _ _ _
    _ = without id (expiring expiry offers) := by rw [expiring_sorted]
    _ = expiring expiry (without id offers) := List.filter_comm _ _ _

theorem isSorted_place {entries : List QueueEntry} (hentries : IsSorted entries)
    (entry : QueueEntry) : IsSorted (entry.place entries) := by
  rw [IsSorted, place, List.pairwise_append, List.pairwise_cons]
  refine ⟨hentries.filter _, ⟨?_, hentries.filter _⟩, ?_⟩
  · intro later hlater
    exact Nat.le_of_lt (of_decide_eq_true (List.mem_filter.mp hlater).2)
  · intro earlier hearlier other hother
    have hbefore : earlier.expiry ≤ entry.expiry :=
      of_decide_eq_true (List.mem_filter.mp hearlier).2
    rcases List.mem_cons.mp hother with rfl | hlater
    · exact hbefore
    · exact Nat.le_trans hbefore (Nat.le_of_lt (of_decide_eq_true (List.mem_filter.mp hlater).2))

/-- Leaving out entries by their expiry leaves a part of one expiry out or as it is. -/
theorem expiring_filter (expiry : Nat) (kept : Nat → Bool) (entries : List QueueEntry) :
    expiring expiry (entries.filter fun entry ↦ kept entry.expiry) =
      if kept expiry then expiring expiry entries else [] := by
  induction entries with
  | nil => simp [expiring]
  | cons entry rest ih =>
    simp only [expiring, List.filter_cons] at ih ⊢
    by_cases hexpiry : entry.expiry = expiry <;> cases hkept : kept entry.expiry <;> simp_all

/-- What is offered last stands behind all others of its expiry. -/
theorem place_sorted (entry : QueueEntry) (offers : List QueueEntry) :
    entry.place (sorted offers) = sorted (offers ++ [entry]) := by
  apply eq_sorted (isSorted_place (isSorted_sorted offers) entry)
  intro expiry
  have hearly := expiring_filter expiry (decide <| · ≤ entry.expiry) (sorted offers)
  have hlate := expiring_filter expiry (decide <| entry.expiry < ·) (sorted offers)
  have happend (left right : List QueueEntry) :
      expiring expiry (left ++ right) = expiring expiry left ++ expiring expiry right :=
    List.filter_append left right
  rw [expiring_sorted] at hearly hlate
  rw [place, List.append_cons, happend, happend, happend, hearly, hlate]
  by_cases hbefore : expiry ≤ entry.expiry
  · simp [hbefore, Nat.not_lt.mpr hbefore]
  · have hother : expiring expiry [entry] = [] := by
      simp [expiring, (Nat.lt_of_not_le hbefore).ne]
    simp [hbefore, Nat.lt_of_not_le hbefore, hother]

end QueueEntry

end GuestMachine
