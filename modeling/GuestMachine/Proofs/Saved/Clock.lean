import GuestMachine.Proofs.Saved.Value
import GuestMachine.Proofs.Timer.Likeness

/-!
# Saving and restoring a clock

A clock with numbers of the right widths is read back from what it is saved as, except that its
queue draws sequence numbers from the first on again. Nobody can tell.
-/

namespace GuestMachine

open Saved

/-! ## The parts of a clock -/

theorem readsBack_id {id : Nat} (hid : id < UInt32.size) : ReadsBack readId .nat id :=
  readsBack_below hid

theorem readsBack_time {time : Nat} (htime : time < UInt64.size) : ReadsBack readTime .nat time :=
  readsBack_below htime

theorem Timer.Fits.readsBack {timer : Timer} (hfits : timer.Fits) :
    ReadsBack Timer.ofSaved? Timer.toSaved timer := by
  obtain ⟨fields, hfields, hread⟩ := exists_fields?_record ["id", "owner", "expiry", "enqueued"]
    [("id", .nat timer.id), ("owner", .nat timer.owner), ("expiry", .nat timer.expiry),
      ("enqueued", .bool timer.enqueued)] (by simp)
  have hid : fields.read "id" readId = some timer.id :=
    Fields.read_of_eq_some (hread _ _ (by simp)) (readsBack_id hfits.id)
  have howner : fields.read "owner" readId = some timer.owner :=
    Fields.read_of_eq_some (hread _ _ (by simp)) (readsBack_id hfits.owner)
  have hexpiry : fields.read "expiry" readTime = some timer.expiry :=
    Fields.read_of_eq_some (hread _ _ (by simp)) (readsBack_time hfits.expiry)
  have henqueued : fields.read "enqueued" readBool = some timer.enqueued :=
    Fields.read_of_eq_some (hread _ _ (by simp)) (readsBack_bool timer.enqueued)
  simp only [ReadsBack, Timer.ofSaved?, Timer.toSaved, hfields, Option.bind_eq_bind,
    Option.bind_some, hid, howner, hexpiry, henqueued]
  rfl

theorem QueueEntry.readsBack {entry : QueueEntry} (hexpiry : entry.expiry < UInt64.size)
    (hid : entry.id < UInt32.size) : ReadsBack QueueEntry.ofSaved? QueueEntry.toSaved entry := by
  obtain ⟨fields, hfields, hread⟩ := exists_fields?_record ["expiry", "id"]
    [("expiry", .nat entry.expiry), ("id", .nat entry.id)] (by simp)
  have hexpiry : fields.read "expiry" readTime = some entry.expiry :=
    Fields.read_of_eq_some (hread _ _ (by simp)) (readsBack_time hexpiry)
  have hid : fields.read "id" readId = some entry.id :=
    Fields.read_of_eq_some (hread _ _ (by simp)) (readsBack_id hid)
  simp only [ReadsBack, QueueEntry.ofSaved?, QueueEntry.toSaved, hfields, Option.bind_eq_bind,
    Option.bind_some, hexpiry, hid]
  rfl

/-! ## The clock -/

namespace Clock

/-- The clock with its queue numbered anew. -/
def renumbered (clock : Clock) : Clock :=
  { clock with queue := .ofEntries clock.queue.entries }

theorem alike_renumbered {clock : Clock} (hcoherent : clock.queue.Coherent) :
    clock.Alike clock.renumbered where
  now := rfl
  timers := rfl
  entries := hcoherent.entries_ofEntries.symm
  coherentLeft := hcoherent
  coherentRight := (TimerQueue.ofEntries_spec clock.queue.entries).1

theorem IsSound.readsBack_entry {clock : Clock} (hclock : clock.IsSound) {entry : QueueEntry}
    (hentry : entry ∈ clock.queue.entries) :
    ReadsBack QueueEntry.ofSaved? QueueEntry.toSaved entry := by
  obtain ⟨sequence, hheld⟩ := hclock.coherent.mem_entries_iff.mp hentry
  obtain ⟨history, hreflects⟩ := hclock.reflects
  exact QueueEntry.readsBack (hclock.fits.queue _ _ hheld)
    (hreflects.known _ _ ((hreflects.positions _ _).mp hheld)).2

/-- What is read back is the clock with its queue numbered anew. -/
theorem IsSound.ofSaved?_toSaved {clock : Clock} (hclock : clock.IsSound) :
    ofSaved? clock.toSaved = some clock.renumbered := by
  obtain ⟨fields, hfields, hread⟩ := exists_fields?_record ["now", "timers", "queue"]
    [("now", .nat clock.now), ("timers", .list (clock.timers.toList.map Timer.toSaved)),
      ("queue", clock.queue.toSaved)] (by simp)
  have hnow : fields.read "now" readTime = some clock.now :=
    Fields.read_of_eq_some (hread _ _ (by simp)) (readsBack_time hclock.fits.now)
  have htimers : fields.read "timers" (readList Timer.ofSaved?) = some clock.timers.toList :=
    Fields.read_of_eq_some (hread _ _ (by simp)) <| readsBack_list fun timer htimer ↦
      (hclock.fits.timers timer (Array.mem_toList_iff.mp htimer)).readsBack
  have hentries : readList QueueEntry.ofSaved? clock.queue.toSaved = some clock.queue.entries :=
    readsBack_list fun entry hentry ↦ hclock.readsBack_entry hentry
  have hqueue : fields.read "queue" TimerQueue.ofSaved? =
      some (.ofEntries clock.queue.entries) := by
    rw [Fields.read, hread "queue" clock.queue.toSaved (by simp)]
    exact congrArg (Option.map TimerQueue.ofEntries) hentries
  simp only [ofSaved?, toSaved, hfields, Option.bind_eq_bind, Option.bind_some, hnow, htimers,
    hqueue]
  rfl

/-- A clock that is saved and restored gives everyone the same answers as before, whatever is done
with it, by handlers that see all of a clock that can be asked. -/
theorem restore_transparent {clock : Clock} (hclock : clock.IsReachable) :
    ∃ restored, ofSaved? clock.toSaved = some restored ∧ restored.view = clock.view ∧
      ∀ (σ : Type) (routine : Routine ClockView σ) (journal : Journal ClockView),
        (routine.perform view journal restored).1 = (routine.perform view journal clock).1 ∧
          (routine.perform view journal restored).2.view =
            (routine.perform view journal clock).2.view := by
  have hsound := hclock.isSound
  have halike := alike_renumbered hsound.coherent
  refine ⟨clock.renumbered, hsound.ofSaved?_toSaved, halike.view_eq.symm, ?_⟩
  intro σ routine journal
  obtain ⟨hsame, hnext, -⟩ := isSimulation_alike.perform
    (fun _ _ hclocks ↦ hclocks.1.view_eq) routine journal ⟨halike, hsound⟩
  exact ⟨hsame.symm, hnext.view_eq.symm⟩

/-- The second arming of a timer moves it behind the other one. -/
def movedBehind : Routine Clock Unit :=
  .ask (.newTimer 7) fun _ _ ↦ .ask (.newTimer 8) fun _ _ ↦ .ask (.newTimer 9) fun _ _ ↦
    .ask (.setExpiry 0 5) fun _ _ ↦ .ask (.setExpiry 1 5) fun _ _ ↦
      .ask (.setExpiry 0 5) fun _ _ ↦ .finish ()

/-- Arms a third timer for the same time and collects what is dispatched. -/
def tiedBehind : Routine ClockView (List TimerId) :=
  .ask (.setExpiry 2 5) fun _ _ ↦
    .proceed (.advanceTo 5 3) [] (fun event names _ ↦ .finish (names ++ [event.id]))
      fun _ names _ ↦ .finish names

theorem restore_transparent_movedBehind : ∃ clock restored : Clock,
    clock.IsReachable ∧ ofSaved? clock.toSaved = some restored ∧
    clock.queue.nextSequence = 3 ∧ restored.queue.nextSequence = 2 ∧
    restored.view = clock.view ∧
    (tiedBehind.perform view [] restored).1.map Prod.fst = some [1, 0, 2] ∧
    (tiedBehind.perform view [] clock).1.map Prod.fst = some [1, 0, 2] := by
  have hreach : (movedBehind.perform id [] {}).2.IsReachable := ⟨Unit, movedBehind, rfl⟩
  have hsequence : (movedBehind.perform id [] {}).2.queue.nextSequence = 3 := rfl
  have hrenumbered : (ofSaved? (movedBehind.perform id [] {}).2.toSaved).map
      (·.queue.nextSequence) = some 2 := rfl
  have hnames : (tiedBehind.perform view [] (movedBehind.perform id [] {}).2).1.map Prod.fst =
      some [1, 0, 2] := by
    simp only [tiedBehind, Routine.perform, Drive.perform, advanceTo, advanceFrom, isDue_eq, step,
      TimerQueue.pop?_eq_keys]
    decide +kernel
  obtain ⟨restored, hread, hview, hsame⟩ := restore_transparent hreach
  rw [hread] at hrenumbered
  refine ⟨_, restored, hreach, hread, hsequence, Option.some.inj hrenumbered, hview, ?_, hnames⟩
  rw [(hsame _ tiedBehind []).1, hnames]

end Clock

end GuestMachine
