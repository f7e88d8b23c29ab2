import GuestMachine.Timer.Clock
import Mathlib.Data.List.Induction
import Mathlib.Order.Nat

/-!
# Histories of a clock

A history lists what was done with a clock, the latest last: timers created, armed and disarmed,
timers dispatched, and time that was let pass. It says which armings are live, how late it is, and
what a dispatch has to be like, without reference to a queue.
-/

namespace GuestMachine

/-- Something done with a clock. Refused operations leave no trace. -/
inductive Happening where
  | created (owner : TimerOwner)
  | armed (id : TimerId) (expiry : Nat)
  | disarmed (id : TimerId)
  | dispatched (event : TimerEvent)
  /-- The clock was advanced to a target. -/
  | elapsed (target : Nat)
  deriving DecidableEq, Repr

/-- The ways in which an arming can end, with the position of what ends it. -/
inductive Fate where
  | dispatched (later : Nat)
  | superseded (later : Nat)
  | cancelled (later : Nat)
  | pending
  deriving DecidableEq, Repr

namespace Happening

/-- The timer whose arming is put in place or brought to an end. -/
def timer? : Happening → Option TimerId
  | .created _ => none
  | .armed id _ => some id
  | .disarmed id => some id
  | .dispatched event => some event.id
  | .elapsed _ => none

def owner? : Happening → Option TimerOwner
  | .created owner => some owner
  | _ => none

def isArming : Happening → Bool
  | .armed _ _ => true
  | _ => false

/-- What an arming comes to when this, at `later`, is the next thing that concerns its timer. -/
def fate (later : Nat) : Happening → Fate
  | .armed _ _ => .superseded later
  | .disarmed _ => .cancelled later
  | .dispatched _ => .dispatched later
  | _ => .pending

/-- The time after something happened at time `now`. -/
def timeAfter (now : Nat) : Happening → Nat
  | .dispatched event => event.now
  | .elapsed target => max now target
  | _ => now

end Happening

abbrev History := List Happening

namespace History

def time (history : History) : Nat := history.foldl Happening.timeAfter 0

/-- The owners of the timers; the position of a timer is its name. -/
def owners (history : History) : List TimerOwner := history.filterMap Happening.owner?

def armings (history : History) : Nat := history.countP Happening.isArming

/-- The arming at `position` has not come to an end. -/
structure IsLive (history : History) (position : Nat) (id : TimerId) (expiry : Nat) : Prop where
  armed : history[position]? = some (.armed id expiry)
  untouched (later : Nat) (happening : Happening) :
    position < later → history[later]? = some happening → happening.timer? ≠ some id

/-- An event that may be dispatched after `past`. It is for the live arming that comes first by
expiry and, where expiries are equal, by the order of arming. -/
structure Dispatches (past : History) (event : TimerEvent) : Prop where
  owner : past.owners[event.id]? = some event.owner
  now : event.now = max past.time event.expiry
  least : ∃ position, past.IsLive position event.id event.expiry ∧
    ∀ other id expiry, past.IsLive other id expiry →
      event.expiry < expiry ∨ event.expiry = expiry ∧ position ≤ other

/-- Every dispatch is one that its past allows. -/
def IsSound (history : History) : Prop :=
  ∀ past event rest, history = past ++ .dispatched event :: rest → Dispatches past event

/-! ## One more happening -/

variable {history : History} {happening : Happening}

/-- A timer keeps its owner. -/
theorem owner_append {id : TimerId} {owner : TimerOwner}
    (howner : history.owners[id]? = some owner) (rest : History) :
    (owners (history ++ rest))[id]? = some owner := by
  rw [owners, List.filterMap_append]
  exact (List.getElem?_append_left (List.getElem?_eq_some_iff.mp howner).1).trans howner

theorem time_append (history : History) (happening : Happening) :
    time (history ++ [happening]) = happening.timeAfter history.time := by
  simp [time]

theorem owners_append (history : History) (happening : Happening) :
    owners (history ++ [happening]) = history.owners ++ happening.owner?.toList := by
  cases happening <;> simp [owners, Happening.owner?]

theorem owners_append_of_owner?_eq_none (hnone : happening.owner? = none) :
    owners (history ++ [happening]) = history.owners := by
  rw [owners_append, hnone, Option.toList_none, List.append_nil]

theorem armings_append (history : History) (happening : Happening) :
    armings (history ++ [happening]) = history.armings + if happening.isArming then 1 else 0 := by
  simp [armings, List.countP_singleton]

theorem IsLive.lt_length {position : Nat} {id : TimerId} {expiry : Nat}
    (hlive : history.IsLive position id expiry) : position < history.length :=
  (List.getElem?_eq_some_iff.mp hlive.armed).1

/-- What happens last may end the arming of a timer or put a new one in place. -/
theorem isLive_append_iff {position : Nat} {id : TimerId} {expiry : Nat} :
    IsLive (history ++ [happening]) position id expiry ↔
      (history.IsLive position id expiry ∧ happening.timer? ≠ some id) ∨
        (happening = .armed id expiry ∧ position = history.length) := by
  constructor
  · intro hlive
    have hposition := hlive.lt_length
    rw [List.length_append, List.length_singleton] at hposition
    rcases Nat.lt_succ_iff_lt_or_eq.mp hposition with hlt | heq
    · refine Or.inl ⟨⟨?_, ?_⟩, ?_⟩
      · rw [← List.getElem?_append_left hlt]
        exact hlive.armed
      · intro later other hlater hother
        have hbound := (List.getElem?_eq_some_iff.mp hother).1
        apply hlive.untouched later other hlater
        rw [List.getElem?_append_left hbound]
        exact hother
      · exact hlive.untouched history.length happening hlt List.getElem?_concat_length
    · have harmed := hlive.armed
      rw [heq, List.getElem?_concat_length] at harmed
      exact Or.inr ⟨Option.some.inj harmed, heq⟩
  · rintro (⟨hlive, hother⟩ | ⟨rfl, rfl⟩)
    · refine ⟨?_, ?_⟩
      · rw [List.getElem?_append_left hlive.lt_length]
        exact hlive.armed
      · intro later other hlater hsome
        have hbound := (List.getElem?_eq_some_iff.mp hsome).1
        rw [List.length_append, List.length_singleton] at hbound
        rcases Nat.lt_succ_iff_lt_or_eq.mp hbound with hlt | heq
        · rw [List.getElem?_append_left hlt] at hsome
          exact hlive.untouched later other hlater hsome
        · rw [heq, List.getElem?_concat_length] at hsome
          rw [← Option.some.inj hsome]
          exact hother
    · refine ⟨List.getElem?_concat_length, ?_⟩
      intro later other hlater hsome
      have hbound := (List.getElem?_eq_some_iff.mp hsome).1
      rw [List.length_append, List.length_singleton] at hbound
      omega

theorem isSound_nil : IsSound [] := by
  intro past event rest hsplit
  simp at hsplit

theorem IsSound.append (hsound : history.IsSound)
    (hlast : ∀ event, happening = .dispatched event → Dispatches history event) :
    IsSound (history ++ [happening]) := by
  intro past event rest hsplit
  rcases List.eq_nil_or_concat rest with rfl | ⟨front, last, rfl⟩
  · obtain ⟨rfl, hhappening⟩ := List.append_inj' hsplit rfl
    exact hlast event (List.singleton_inj.mp hhappening)
  · rw [List.concat_eq_append, ← List.cons_append, ← List.append_assoc] at hsplit
    exact hsound past event front (List.append_inj' hsplit rfl).1

/-! ## Live armings -/

/-- A timer has one live arming at most. -/
theorem IsLive.position_eq {left right : Nat} {id : TimerId} {before after : Nat}
    (hleft : history.IsLive left id before) (hright : history.IsLive right id after) :
    left = right := by
  rcases Nat.lt_trichotomy left right with hlt | heq | hgt
  · exact absurd rfl (hleft.untouched right _ hlt hright.armed)
  · exact heq
  · exact absurd rfl (hright.untouched left _ hgt hleft.armed)

/-- The number of armings before a position tells earlier armings from later ones. -/
theorem armings_take_lt {earlier later : Nat} {id : TimerId} {expiry : Nat}
    (harmed : history[earlier]? = some (.armed id expiry)) (hlt : earlier < later) :
    armings (history.take earlier) < armings (history.take later) := by
  have htake : history.take (earlier + 1) = history.take earlier ++ [.armed id expiry] := by
    rw [List.take_add_one, harmed]
    rfl
  calc
    armings (history.take earlier) < armings (history.take (earlier + 1)) := by
      rw [htake, armings_append]
      exact Nat.lt_succ_self _
    _ ≤ armings (history.take later) :=
      (List.take_sublist_take_left hlt).countP_le

/-- A timer has a live arming with this expiry, and this many armings came before it. -/
def Holds (history : History) (id : TimerId) (key : QueueKey) : Prop :=
  ∃ position, history.IsLive position id key.1 ∧ key.2 = armings (history.take position)

theorem holds_append_iff {id : TimerId} {key : QueueKey} :
    Holds (history ++ [happening]) id key ↔
      (history.Holds id key ∧ happening.timer? ≠ some id) ∨
        (happening = .armed id key.1 ∧ key.2 = history.armings) := by
  constructor
  · rintro ⟨position, hlive, hcount⟩
    rcases isLive_append_iff.mp hlive with ⟨hbefore, hother⟩ | ⟨hlast, rfl⟩
    · rw [List.take_append_of_le_length (Nat.le_of_lt hbefore.lt_length)] at hcount
      exact Or.inl ⟨⟨position, hbefore, hcount⟩, hother⟩
    · rw [List.take_left] at hcount
      exact Or.inr ⟨hlast, hcount⟩
  · rintro (⟨⟨position, hlive, hcount⟩, hother⟩ | ⟨hlast, hcount⟩)
    · refine ⟨position, isLive_append_iff.mpr (Or.inl ⟨hlive, hother⟩), ?_⟩
      rw [List.take_append_of_le_length (Nat.le_of_lt hlive.lt_length)]
      exact hcount
    · refine ⟨history.length, isLive_append_iff.mpr (Or.inr ⟨hlast, rfl⟩), ?_⟩
      rw [List.take_left]
      exact hcount

/-- Only an arming puts something in place. -/
theorem holds_append_of_not_arming (hnot : happening.isArming = false) {id : TimerId}
    {key : QueueKey} :
    Holds (history ++ [happening]) id key ↔ history.Holds id key ∧ happening.timer? ≠ some id := by
  rw [holds_append_iff]
  constructor
  · rintro (hbefore | ⟨rfl, -⟩)
    · exact hbefore
    · cases hnot
  · exact Or.inl

theorem holds_append_of_timer?_eq_none (hnone : happening.timer? = none) {id : TimerId}
    {key : QueueKey} : Holds (history ++ [happening]) id key ↔ history.Holds id key := by
  have hnot : happening.isArming = false := by
    cases happening with
    | armed id expiry => cases hnone
    | _ => rfl
  rw [holds_append_of_not_arming hnot, hnone]
  exact and_iff_left (by simp)

/-- Of two live armings the one that was made first has the smaller key at equal expiry. -/
theorem IsLive.position_le {left right : Nat} {id : TimerId} {expiry : Nat}
    (hright : history.IsLive right id expiry)
    (hle : armings (history.take left) ≤ armings (history.take right)) : left ≤ right := by
  by_contra hlater
  have hlt := armings_take_lt hright.armed (Nat.lt_of_not_le hlater)
  exact Nat.not_lt_of_le hle hlt

/-! ## Fates -/

/-- What happens at `later` is the first thing after `position` that concerns the timer `id`. -/
structure IsNext (history : History) (position : Nat) (id : TimerId) (later : Nat)
    (happening : Happening) : Prop where
  lt : position < later
  happens : history[later]? = some happening
  concerns : happening.timer? = some id
  first (between : Nat) (other : Happening) :
    position < between → between < later → history[between]? = some other → other.timer? ≠ some id

/-- The fate of the arming of `id` for `expiry` at `position`, where `entries` are what the queue
holds at the end. -/
def HasFate (history : History) (entries : List QueueEntry) (position : Nat) (id : TimerId)
    (expiry : Nat) : Fate → Prop
  | .dispatched later => ∃ event : TimerEvent, history.IsNext position id later (.dispatched event) ∧
      event.id = id ∧ history.owners[id]? = some event.owner ∧ event.expiry = expiry
  | .superseded later => ∃ newer, history.IsNext position id later (.armed id newer)
  | .cancelled later => history.IsNext position id later (.disarmed id)
  | .pending => history.IsLive position id expiry ∧ ⟨expiry, id⟩ ∈ entries

theorem IsNext.later_eq {position left right : Nat} {id : TimerId} {first second : Happening}
    (hleft : history.IsNext position id left first)
    (hright : history.IsNext position id right second) : left = right ∧ first = second := by
  have heq : left = right := by
    rcases Nat.lt_trichotomy left right with hlt | heq | hgt
    · exact absurd hleft.concerns (hright.first left first hleft.lt hlt hleft.happens)
    · exact heq
    · exact absurd hright.concerns (hleft.first right second hright.lt hgt hright.happens)
  subst heq
  have hsame := hleft.happens
  rw [hright.happens] at hsame
  exact ⟨rfl, (Option.some.inj hsame).symm⟩

theorem IsLive.not_isNext {position later : Nat} {id : TimerId} {expiry : Nat}
    (hlive : history.IsLive position id expiry) :
    ¬ history.IsNext position id later happening := fun hnext ↦
  hlive.untouched later happening hnext.lt hnext.happens hnext.concerns

theorem HasFate.live_or_next {entries : List QueueEntry} {position : Nat} {id : TimerId}
    {expiry : Nat} {fate : Fate} (hfate : history.HasFate entries position id expiry fate) :
    (history.IsLive position id expiry ∧ fate = .pending) ∨
      ∃ later happening, history.IsNext position id later happening ∧
        fate = happening.fate later := by
  cases fate with
  | pending => exact Or.inl ⟨hfate.1, rfl⟩
  | dispatched later =>
    obtain ⟨event, hnext, -⟩ := hfate
    exact Or.inr ⟨later, _, hnext, rfl⟩
  | superseded later =>
    obtain ⟨newer, hnext⟩ := hfate
    exact Or.inr ⟨later, _, hnext, rfl⟩
  | cancelled later => exact Or.inr ⟨later, _, hfate, rfl⟩

/-- An arming has at most one fate. -/
theorem HasFate.eq {entries : List QueueEntry} {position : Nat} {id : TimerId} {expiry : Nat}
    {left right : Fate} (hleft : history.HasFate entries position id expiry left)
    (hright : history.HasFate entries position id expiry right) : left = right := by
  rcases hleft.live_or_next with ⟨hlive, rfl⟩ | ⟨first, happening, hfirst, rfl⟩
  · rcases hright.live_or_next with ⟨-, rfl⟩ | ⟨later, other, hnext, -⟩
    · rfl
    · exact absurd hnext hlive.not_isNext
  · rcases hright.live_or_next with ⟨hlive, -⟩ | ⟨second, other, hsecond, rfl⟩
    · exact absurd hfirst hlive.not_isNext
    · obtain ⟨rfl, rfl⟩ := hfirst.later_eq hsecond
      rfl

/-- An arming is live until the first thing that concerns its timer. -/
theorem IsNext.isLive_take {position later : Nat} {id : TimerId} {expiry : Nat}
    (hnext : history.IsNext position id later happening)
    (harmed : history[position]? = some (.armed id expiry)) :
    IsLive (history.take later) position id expiry where
  armed := by
    rw [List.getElem?_take_of_lt hnext.lt]
    exact harmed
  untouched between other hbetween hother := by
    have hlater : between < later := by
      have hbound := (List.getElem?_eq_some_iff.mp hother).1
      rw [List.length_take] at hbound
      omega
    rw [List.getElem?_take_of_lt hlater] at hother
    exact hnext.first between other hbetween hlater hother

theorem isLive_or_exists_isNext {position : Nat} {id : TimerId} {expiry : Nat}
    (harmed : history[position]? = some (.armed id expiry)) :
    history.IsLive position id expiry ∨
      ∃ later happening, history.IsNext position id later happening := by
  classical
  by_cases hlater : ∃ later, position < later ∧
      ∃ happening, history[later]? = some happening ∧ happening.timer? = some id
  · obtain ⟨hlt, happening, hhappens, hconcerns⟩ := Nat.find_spec hlater
    refine Or.inr ⟨Nat.find hlater, happening, hlt, hhappens, hconcerns, ?_⟩
    intro between other hafter hbefore hother htimer
    exact Nat.find_min hlater hbefore ⟨hafter, other, hother, htimer⟩
  · refine Or.inl ⟨harmed, ?_⟩
    intro later other hlt hother htimer
    exact hlater ⟨later, hlt, other, hother, htimer⟩

/-- In a sound history every arming has exactly one fate, if the queue holds the live armings. -/
theorem IsSound.existsUnique_hasFate (hsound : history.IsSound) {entries : List QueueEntry}
    (hentries : ∀ position id expiry, history.IsLive position id expiry → ⟨expiry, id⟩ ∈ entries)
    {position : Nat} {id : TimerId} {expiry : Nat}
    (harmed : history[position]? = some (.armed id expiry)) :
    ∃! fate, history.HasFate entries position id expiry fate := by
  suffices hexists : ∃ fate, history.HasFate entries position id expiry fate by
    obtain ⟨fate, hfate⟩ := hexists
    exact ⟨fate, hfate, fun other hother ↦ hother.eq hfate⟩
  rcases isLive_or_exists_isNext harmed with hlive | ⟨later, happening, hnext⟩
  · exact ⟨.pending, hlive, hentries position id expiry hlive⟩
  · cases happening with
    | created owner => cases hnext.concerns
    | elapsed target => cases hnext.concerns
    | armed other newer =>
      obtain rfl : other = id := Option.some.inj hnext.concerns
      exact ⟨.superseded later, newer, hnext⟩
    | disarmed other =>
      obtain rfl : other = id := Option.some.inj hnext.concerns
      exact ⟨.cancelled later, hnext⟩
    | dispatched event =>
      obtain rfl : event.id = id := Option.some.inj hnext.concerns
      have hsplit : history = history.take later ++ .dispatched event :: history.drop (later + 1) := by
        obtain ⟨hbound, hevent⟩ := List.getElem?_eq_some_iff.mp hnext.happens
        rw [← hevent, List.getElem_cons_drop, List.take_append_drop]
      have hevent := hsound _ _ _ hsplit
      obtain ⟨armed, hlive, -⟩ := hevent.least
      have hhere := hnext.isLive_take harmed
      obtain rfl := hlive.position_eq hhere
      have hexpiry : event.expiry = expiry := by
        have hsame := hlive.armed
        rw [hhere.armed] at hsame
        cases hsame
        rfl
      refine ⟨.dispatched later, event, hnext, rfl, ?_, hexpiry⟩
      rw [hsplit]
      exact owner_append hevent.owner _

/-! ## Time -/

theorem IsSound.of_append {rest : History} (hsound : IsSound (history ++ rest)) :
    history.IsSound := by
  intro past event tail hsplit
  apply hsound past event (tail ++ rest)
  rw [hsplit, List.append_assoc, List.cons_append]

/-- Time never decreases. -/
theorem IsSound.time_le {rest : History} (hsound : IsSound (history ++ rest)) :
    history.time ≤ time (history ++ rest) := by
  induction rest using List.reverseRecOn with
  | nil => rw [List.append_nil]
  | append_singleton front last ih =>
    rw [← List.append_assoc] at hsound ⊢
    apply (ih hsound.of_append).trans
    rw [time_append]
    cases last with
    | dispatched event =>
      have hevent := hsound _ event [] rfl
      calc
        time (history ++ front) ≤ max (time (history ++ front)) event.expiry := Nat.le_max_left _ _
        _ = event.now := hevent.now.symm
    | elapsed target => exact Nat.le_max_left _ _
    | created owner => exact le_rfl
    | armed id expiry => exact le_rfl
    | disarmed id => exact le_rfl

end History

end GuestMachine
