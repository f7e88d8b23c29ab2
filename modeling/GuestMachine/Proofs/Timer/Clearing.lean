import GuestMachine.Proofs.Timer.Entries
import GuestMachine.Proofs.Timer.Splitting
import Mathlib.Data.Prod.Lex
import Mathlib.Logic.Relation
import Mathlib.Order.MinMax

/-!
# Advancing comes to an end

A handler may create timers and move pending ones while time advances. As long as it arms none for
the time of its dispatch or for before, each dispatch is followed by a later one, or leaves fewer
timers pending at its time. So advancing ends, and then no timer is due.
-/

namespace GuestMachine

open QueueEntry

/-! ## How far the queue is from the target -/

namespace QueueEntry

/-- The entries that are due at a time. -/
def dueBy (expiry : Nat) (entries : List QueueEntry) : List QueueEntry :=
  entries.filter (·.expiry ≤ expiry)

/-- How far the target is behind the first entry, and how many entries expire with that. -/
def rank (target : Nat) : List QueueEntry → ℕ ×ₗ ℕ
  | [] => toLex (0, 0)
  | first :: rest =>
    toLex (target + 1 - first.expiry, (dueBy first.expiry (first :: rest)).length)

variable {target expiry : Nat} {first entry : QueueEntry} {rest later entries : List QueueEntry}

theorem mem_dueBy_iff : entry ∈ dueBy expiry entries ↔ entry ∈ entries ∧ entry.expiry ≤ expiry := by
  rw [dueBy, List.mem_filter, decide_eq_true_eq]

theorem dueBy_without_sublist (id : TimerId) (entries : List QueueEntry) (expiry : Nat) :
    (dueBy expiry (without id entries)).Sublist (dueBy expiry entries) :=
  List.filter_sublist.filter _

/-- What is armed for later is not due. -/
theorem dueBy_place (hlater : expiry < entry.expiry) (entries : List QueueEntry) :
    dueBy expiry (entry.place entries) = dueBy expiry entries := by
  have hbefore : (entries.filter (·.expiry ≤ entry.expiry)).filter (·.expiry ≤ expiry) =
      entries.filter (·.expiry ≤ expiry) := by
    rw [List.filter_filter]
    apply List.filter_congr
    intro other _
    rw [Bool.and_eq_left_iff_imp, decide_eq_true_eq, decide_eq_true_eq]
    exact fun hother ↦ hother.trans hlater.le
  have hbehind : (entries.filter (entry.expiry < ·.expiry)).filter (·.expiry ≤ expiry) = [] := by
    rw [List.filter_filter, List.filter_eq_nil_iff]
    intro other _
    rw [Bool.and_eq_true, decide_eq_true_eq, decide_eq_true_eq]
    exact fun hother ↦ absurd (hlater.trans hother.2) (Nat.not_lt_of_le hother.1)
  have hentry : ¬ entry.expiry ≤ expiry := Nat.not_le_of_lt hlater
  rw [dueBy, place, List.filter_append, List.filter_cons_of_neg (by simpa using hentry), hbefore,
    hbehind, List.append_nil, dueBy]

/-- The first entry is taken away, and what is due at its time then was due at it before. -/
theorem rank_lt (hdue : first.expiry ≤ target)
    (hsorted : (first :: rest).Pairwise fun left right ↦ left.expiry ≤ right.expiry)
    (hlater : (dueBy first.expiry later).Sublist (dueBy first.expiry rest)) :
    rank target later < rank target (first :: rest) := by
  cases later with
  | nil =>
    rw [rank, rank, Prod.Lex.toLex_lt_toLex]
    exact Or.inl (by omega)
  | cons next others =>
    rw [rank, rank, Prod.Lex.toLex_lt_toLex]
    by_cases hnext : next.expiry ≤ first.expiry
    · -- The next dispatch is for the same time.
      have hmem : next ∈ dueBy first.expiry rest :=
        hlater.subset (mem_dueBy_iff.mpr ⟨List.mem_cons_self, hnext⟩)
      have hsame : next.expiry = first.expiry :=
        Nat.le_antisymm hnext (List.rel_of_pairwise_cons hsorted (mem_dueBy_iff.mp hmem).1)
      refine Or.inr ⟨by rw [hsame], ?_⟩
      rw [hsame]
      calc
        (dueBy first.expiry (next :: others)).length
        _ ≤ (dueBy first.expiry rest).length := hlater.length_le
        _ < (dueBy first.expiry (first :: rest)).length := by simp [dueBy]
    · exact Or.inl (by dsimp only; omega)

end QueueEntry

/-! ## Handlers that arm for later -/

/-- If the request arms a timer, then for later than `expiry`. -/
def Request.ArmsAfter (expiry : Nat) (clock : Clock) : Request → Prop
  | .setExpiry timer armed =>
    ∀ changed, clock.setExpiry timer.toNat armed.toNat = .ok changed → expiry < armed.toNat
  | .newTimer _ | .disable _ => True

namespace Clock

/-- One operation that arms no timer for `expiry` or before leads from one clock to the other. -/
def RearrangesTo (expiry : Nat) (clock changed : Clock) : Prop :=
  ∃ request : Request, request.ArmsAfter expiry clock ∧ (request.perform clock).2 = changed

variable {clock changed : Clock} {expiry : Nat}

theorem now_perform (clock : Clock) (request : Request) :
    (request.perform clock).2.now = clock.now := by
  cases request with
  | newTimer owner => rfl
  | setExpiry timer armed =>
    rw [Request.perform]
    cases hset : clock.setExpiry timer.toNat armed.toNat with
    | error reason => rfl
    | ok changed =>
      obtain ⟨_, -, rfl⟩ := setExpiry_eq_ok hset
      rfl
  | disable timer =>
    rw [Request.perform]
    cases hdisable : clock.disable timer.toNat with
    | error reason => rfl
    | ok result =>
      obtain ⟨_, -, hresult⟩ := disable_eq_ok hdisable
      rw [hresult]

theorem IsSound.dueBy_perform (hclock : clock.IsSound) {request : Request}
    (hafter : request.ArmsAfter expiry clock) :
    (dueBy expiry (request.perform clock).2.queue.entries).Sublist
      (dueBy expiry clock.queue.entries) := by
  cases request with
  | newTimer owner => exact List.Sublist.refl _
  | setExpiry id armed =>
    rw [Request.perform]
    cases hset : clock.setExpiry id.toNat armed.toNat with
    | error reason => exact List.Sublist.refl _
    | ok changed =>
      have hlater := hafter changed hset
      obtain ⟨timer, -, rfl⟩ := setExpiry_eq_ok hset
      dsimp only
      rw [hclock.coherent.entries_offer, queued, dueBy_place hlater]
      exact dueBy_without_sublist _ _ _
  | disable id =>
    rw [Request.perform]
    cases hdisable : clock.disable id.toNat with
    | error reason => exact List.Sublist.refl _
    | ok result =>
      obtain ⟨timer, -, hresult⟩ := disable_eq_ok hdisable
      rw [hresult]
      dsimp only
      rw [hclock.coherent.entries_unlink]
      exact dueBy_without_sublist _ _ _

/-- What any number of such operations leave as it was. -/
theorem IsSound.rearranged (hclock : clock.IsSound)
    (hchanged : Relation.ReflTransGen (RearrangesTo expiry) clock changed) :
    changed.IsSound ∧ changed.now = clock.now ∧
      (dueBy expiry changed.queue.entries).Sublist (dueBy expiry clock.queue.entries) := by
  induction hchanged with
  | refl => exact ⟨hclock, rfl, List.Sublist.refl _⟩
  | tail _ hlast ih =>
    obtain ⟨hsound, hnow, hdue⟩ := ih
    obtain ⟨request, hafter, rfl⟩ := hlast
    exact ⟨hsound.request request, (now_perform _ request).trans hnow,
      (hsound.dueBy_perform hafter).trans hdue⟩

/-- The clock is as a handler finds it that is called with the event. -/
def IsDispatching (clock : Clock) (event : TimerEvent) : Prop :=
  ∃ (before : Clock) (entry : QueueEntry) (timer : Timer) (rest : TimerQueue),
    before.IsSound ∧ before.queue.pop? = some (entry, rest) ∧
    before.timer entry.id = .ok timer ∧ clock = before.dispatched entry timer rest ∧
    event = ⟨entry.id, timer.owner, entry.expiry, max before.now entry.expiry⟩

end Clock

variable {σ : Type}

/-- When the handler is called for a time up to `target`, and by `latest`, it creates and disarms
timers, and arms them for later than the time that it is called for. -/
def TimerHandler.ArmsLater (handler : TimerHandler σ) (target latest : Nat) : Prop :=
  ∀ event state clock, Clock.IsDispatching clock event → event.expiry ≤ target →
    event.now ≤ latest →
    Relation.ReflTransGen (Clock.RearrangesTo event.expiry) clock (handler event state clock).2

/-- The handler with a list of its calls. -/
def TimerHandler.logged (handler : TimerHandler σ) : TimerHandler (σ × List TimerEvent) :=
  fun event (state, calls) clock ↦
    let (state, clock) := handler event state clock
    ((state, calls ++ [event]), clock)

theorem TimerHandler.ArmsLater.logged {handler : TimerHandler σ} {target latest : Nat}
    (hlater : handler.ArmsLater target latest) : handler.logged.ArmsLater target latest :=
  fun event memory clock ↦ hlater event memory.1 clock

namespace Clock

variable {clock : Clock} {target latest : Nat} {handler : TimerHandler σ}

/-! ## One dispatch -/

theorem IsSound.lt_of_not_due (hclock : clock.IsSound) (hdue : clock.isDue target = false) :
    ∀ entry ∈ clock.queue.entries, target < entry.expiry := by
  have hfirst := hclock.coherent.peekExpiry?_eq_head?
  have hsorted := TimerQueue.pairwise_expiry_le clock.queue
  rw [isDue, nextExpiry?, hfirst] at hdue
  cases hentries : clock.queue.entries with
  | nil => exact fun _ hmem ↦ absurd hmem List.not_mem_nil
  | cons first rest =>
    rw [hentries] at hdue hsorted
    have hbehind : target < first.expiry := Nat.lt_of_not_le (of_decide_eq_false hdue)
    intro entry hmem
    rcases List.mem_cons.mp hmem with rfl | hrest
    · exact hbehind
    · exact hbehind.trans_le (List.rel_of_pairwise_cons hsorted hrest)

theorem IsSound.exists_first (hclock : clock.IsSound) (hdue : clock.isDue target = true) :
    ∃ first changed, clock.queue.pop? = some (first, changed) ∧ first.expiry ≤ target ∧
      clock.queue.entries = first :: changed.entries := by
  have hpop := hclock.coherent.pop?_spec
  rw [isDue_eq] at hdue
  cases hentries : clock.queue.entries with
  | nil =>
    rw [hentries] at hpop
    rw [hpop] at hdue
    cases hdue
  | cons first rest =>
    rw [hentries] at hpop
    obtain ⟨changed, hpop, -, hrest⟩ := hpop
    rw [hpop] at hdue
    exact ⟨first, changed, hpop, of_decide_eq_true hdue, by rw [hrest]⟩

/-- The step dispatches the first entry, which is due. What the handler leaves pending does not come
before it, and is nearer to being cleared. -/
structure Fires (clock : Clock) (handler : TimerHandler σ) (target : Nat) (state : σ)
    (event : TimerEvent) (final : σ) (moved : Clock) : Prop where
  step_eq : clock.step handler state = (.ok (some event), final, moved)
  due : event.expiry ≤ target
  first : ∃ entry ∈ clock.queue.entries, entry.expiry = event.expiry
  left : ∀ entry ∈ moved.queue.entries, event.expiry ≤ entry.expiry
  now_eq : moved.now = max clock.now event.expiry
  sound : moved.IsSound
  rank_lt : rank target moved.queue.entries < rank target clock.queue.entries

theorem IsSound.exists_fires (hclock : clock.IsSound) (hlater : handler.ArmsLater target latest)
    (hdue : clock.isDue target = true) (hnow : max clock.now target ≤ latest) (state : σ) :
    ∃ event between, clock.Fires handler target state event (handler event state between).1
      (handler event state between).2 := by
  obtain ⟨first, rest, hpop, hexpiry, hentries⟩ := hclock.exists_first hdue
  obtain ⟨timer, htimer⟩ := hclock.timer_of_pop? hpop
  let event : TimerEvent := ⟨first.id, timer.owner, first.expiry, max clock.now first.expiry⟩
  have hsorted := TimerQueue.pairwise_expiry_le clock.queue
  rw [hentries] at hsorted
  have hdispatching : (clock.dispatched first timer rest).IsDispatching event :=
    ⟨clock, first, timer, rest, hclock, hpop, htimer, rfl, rfl⟩
  have hearly : max clock.now first.expiry ≤ latest := (max_le_max_left _ hexpiry).trans hnow
  obtain ⟨hsound, hnow, hleft⟩ := (hclock.dispatched hpop htimer).rearranged
    (hlater event state (clock.dispatched first timer rest) hdispatching hexpiry hearly)
  have hleft : (dueBy first.expiry
      (handler event state (clock.dispatched first timer rest)).2.queue.entries).Sublist
        (dueBy first.expiry rest.entries) := hleft
  refine ⟨event, clock.dispatched first timer rest,
    { step_eq := step_of_pop?_eq_some hpop htimer handler state, due := hexpiry
      first := ⟨first, by simp [hentries], rfl⟩, left := ?_, now_eq := hnow, sound := hsound
      rank_lt := ?_ }⟩
  · intro entry hmem
    by_contra hbefore
    have hdue : entry ∈ dueBy first.expiry rest.entries :=
      hleft.subset (mem_dueBy_iff.mpr ⟨hmem, Nat.le_of_not_le hbefore⟩)
    exact hbefore (List.rel_of_pairwise_cons hsorted (mem_dueBy_iff.mp hdue).1)
  · rw [hentries]
    exact rank_lt hexpiry hsorted hleft

/-! ## All dispatches -/

/-- After these calls time is at the target, and no timer is due. The calls were for what was due,
in order, and none of them before anything that had been pending. -/
structure IsCleared (target : Nat) (clock : Clock) (calls : List TimerEvent) (moved : Clock) :
    Prop where
  now_eq : moved.now = max clock.now target
  left : ∀ entry ∈ moved.queue.entries, target < entry.expiry
  due : ∀ event ∈ calls, event.expiry ≤ target
  sorted : calls.Pairwise fun earlier later ↦ earlier.expiry ≤ later.expiry
  not_before : ∀ expiry, (∀ entry ∈ clock.queue.entries, expiry ≤ entry.expiry) →
    ∀ event ∈ calls, expiry ≤ event.expiry

theorem IsCleared.cons {state final : σ} {event : TimerEvent} {between moved : Clock}
    {calls : List TimerEvent} (hfires : clock.Fires handler target state event final between)
    (hcleared : IsCleared target between calls moved) :
    IsCleared target clock (event :: calls) moved where
  now_eq := by
    have hdue := hfires.due
    rw [hcleared.now_eq, hfires.now_eq]
    omega
  left := hcleared.left
  due := List.forall_mem_cons.mpr ⟨hfires.due, hcleared.due⟩
  sorted := List.pairwise_cons.mpr
    ⟨hcleared.not_before event.expiry hfires.left, hcleared.sorted⟩
  not_before expiry hpending := by
    obtain ⟨entry, hmem, hentry⟩ := hfires.first
    have hevent : expiry ≤ event.expiry := hentry ▸ hpending entry hmem
    refine List.forall_mem_cons.mpr ⟨hevent, hcleared.not_before expiry fun other hother ↦ ?_⟩
    exact hevent.trans (hfires.left other hother)

/-- Each dispatch lowers the rank of what is pending. -/
theorem exists_advanceFrom_logged (hlater : handler.ArmsLater target latest)
    (hclock : clock.IsSound) (hnow : max clock.now target ≤ latest) (fired : Nat) (state : σ)
    (log : List TimerEvent) :
    ∃ bound calls final moved,
      advanceFrom handler.logged target bound fired (state, log) clock =
        some (.ok (fired + calls.length), (final, log ++ calls), moved) ∧
      IsCleared target clock calls moved := by
  induction hrank : rank target clock.queue.entries using WellFoundedLT.induction
    generalizing clock fired state log with
  | ind _ ih =>
    cases hdue : clock.isDue target with
    | false =>
      refine ⟨0, [], state, { clock with now := max clock.now target }, ?_, ?_⟩
      · rw [advanceFrom_of_not_due hdue, List.append_nil]
        rfl
      · exact
          { now_eq := rfl, left := hclock.lt_of_not_due hdue
            due := fun _ hmem ↦ absurd hmem List.not_mem_nil, sorted := .nil
            not_before := fun _ _ _ hmem ↦ absurd hmem List.not_mem_nil }
    | true =>
      obtain ⟨event, between, hfires⟩ :=
        hclock.exists_fires hlater.logged hdue hnow (state, log)
      have hbetween : max (handler event state between).2.now target ≤ latest := by
        have hexpiry := hfires.due
        have hmoved : (handler event state between).2.now = max clock.now event.expiry :=
          hfires.now_eq
        omega
      obtain ⟨bound, calls, final, moved, hadvance, hcleared⟩ :=
        ih _ (hrank ▸ hfires.rank_lt) hfires.sound hbetween (fired + 1)
          (handler event state between).1 (log ++ [event]) rfl
      refine ⟨bound + 1, event :: calls, final, moved, ?_, hcleared.cons hfires⟩
      rw [advanceFrom_of_step hdue _ hfires.step_eq, List.length_cons, Nat.add_comm calls.length,
        ← Nat.add_assoc, List.append_cons]
      exact hadvance

/-- Writing the calls down changes nothing else. -/
theorem step_logged (clock : Clock) (handler : TimerHandler σ) (state : σ)
    (log : List TimerEvent) :
    clock.step handler state =
      ((clock.step handler.logged (state, log)).1, (clock.step handler.logged (state, log)).2.1.1,
        (clock.step handler.logged (state, log)).2.2) := by
  unfold step
  split
  · rfl
  · dsimp only
    split <;> rfl

theorem advanceFrom_of_logged {bound fired : Nat} {memory final : σ × List TimerEvent}
    {outcome : Except Error Nat} {moved : Clock}
    (hadvance : advanceFrom handler.logged target bound fired memory clock =
      some (outcome, final, moved)) :
    advanceFrom handler target bound fired memory.1 clock = some (outcome, final.1, moved) := by
  induction bound, fired, memory, clock using advanceFrom_induction handler.logged target with
  | stop bound fired memory clock hdue =>
    rw [advanceFrom_of_not_due hdue] at hadvance ⊢
    cases hadvance
    rfl
  | exhausted fired memory clock hdue =>
    rw [advanceFrom_zero_of_due hdue] at hadvance
    cases hadvance
  | fail bound fired memory clock reason next between hdue hstep =>
    have hplain := step_logged clock handler memory.1 memory.2
    rw [hstep] at hplain
    rw [advanceFrom_of_step_error hdue _ _ hstep] at hadvance
    rw [advanceFrom_of_step_error hdue _ _ hplain]
    cases hadvance
    rfl
  | fire bound fired memory clock event? next between hdue hstep ih =>
    have hplain := step_logged clock handler memory.1 memory.2
    rw [hstep] at hplain
    rw [advanceFrom_of_step hdue _ hstep] at hadvance
    rw [advanceFrom_of_step hdue _ hplain]
    exact ih hadvance

/-- Advancing ends and leaves nothing due, if the handler arms no timer for the time that it is
called for or for before. It is called as often as advancing says. -/
theorem advanceTo_clears {clock : Clock} (hclock : clock.IsReachable) (target : UInt64)
    {handler : TimerHandler σ}
    (hlater : handler.ArmsLater target.toNat (max clock.now target.toNat)) (state : σ) :
    ∃ bound calls final moved,
      clock.advanceTo handler target.toNat bound state =
        some (.ok calls.length, final, moved) ∧
      clock.advanceTo handler.logged target.toNat bound (state, []) =
        some (.ok calls.length, (final, calls), moved) ∧
      IsCleared target.toNat clock calls moved := by
  obtain ⟨bound, calls, final, moved, hadvance, hcleared⟩ :=
    exists_advanceFrom_logged hlater hclock.isSound le_rfl 0 state []
  rw [Nat.zero_add, List.nil_append] at hadvance
  exact ⟨bound, calls, final, moved, advanceFrom_of_logged hadvance, hadvance, hcleared⟩

/-- Arms the timer that fires again. -/
def again (event : TimerEvent) : Request := .setExpiry (.ofNat event.id) (.ofNat (event.now + 3))

/-- Arms the other one of two timers for the next moment. -/
def hasten (event : TimerEvent) : Request :=
  .setExpiry (.ofNat (1 - event.id)) (.ofNat (event.now + 1))

def hastening : TimerHandler Unit := fun event _ clock ↦
  ((), ((hasten event).perform ((again event).perform clock).2).2)

theorem armsLater_hastening : hastening.ArmsLater 9 9 := by
  rintro event _ clock ⟨before, entry, timer, rest, -, -, -, rfl, rfl⟩ hdue hnow
  dsimp only at hdue hnow ⊢
  have hlater {more : Nat} (hmore : 0 < more) (hless : more < 9) :
      entry.expiry < (UInt64.ofNat (max before.now entry.expiry + more)).toNat := by
    have hfits : max before.now entry.expiry + more < 18 := by omega
    rw [UInt64.toNat_ofNat_of_lt' (hfits.trans (by decide))]
    omega
  refine .tail (.single ⟨again _, fun _ _ ↦ hlater ?_ ?_, rfl⟩)
    ⟨hasten _, fun _ _ ↦ hlater ?_ ?_, rfl⟩ <;> decide

/-- Two timers are armed for 5. Most dispatches bring the other timer forward. -/
theorem advanceTo_clears_hastening :
    (twoArmed.perform id [] {}).2.IsReachable ∧
      hastening.ArmsLater (9 : UInt64).toNat
        (max (twoArmed.perform id [] {}).2.now (9 : UInt64).toNat) ∧
      ∃ bound calls moved,
        (twoArmed.perform id [] {}).2.advanceTo hastening 9 bound () =
          some (.ok calls.length, (), moved) ∧
        IsCleared 9 (twoArmed.perform id [] {}).2 calls moved ∧
        calls.map (fun event ↦ (event.id, event.expiry)) =
          [(1, 5), (0, 6), (1, 7), (0, 8), (1, 9)] := by
  have hreach : (twoArmed.perform id [] {}).2.IsReachable := ⟨Unit, twoArmed, rfl⟩
  obtain ⟨bound, calls, _, moved, hadvance, hlogged, hcleared⟩ :=
    advanceTo_clears hreach 9 armsLater_hastening ()
  refine ⟨hreach, armsLater_hastening, bound, calls, moved, hadvance, hcleared, ?_⟩
  have hcalls : ((twoArmed.perform id [] {}).2.advanceTo hastening.logged 9 5 ((), [])).map
      (fun (_, (_, calls), _) ↦ calls.map fun event ↦ (event.id, event.expiry)) =
        some [(1, 5), (0, 6), (1, 7), (0, 8), (1, 9)] := by
    simp only [advanceTo, advanceFrom, isDue_eq, step, TimerQueue.pop?_eq_keys]
    decide +kernel
  obtain ⟨result, hfive, hevents⟩ := Option.map_eq_some_iff.mp hcalls
  -- The bound does not matter, once it is large enough.
  have hsame := advanceFrom_mono (Nat.le_max_right bound 5) hfive
  have hlogged : advanceFrom hastening.logged 9 bound 0 ((), []) (twoArmed.perform id [] {}).2 =
      some (.ok calls.length, ((), calls), moved) := hlogged
  rw [advanceFrom_mono (Nat.le_max_left bound 5) hlogged] at hsame
  cases hsame
  exact hevents

end Clock

end GuestMachine
