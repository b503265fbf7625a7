import Mathlib.Algebra.BigOperators.Group.Multiset.Basic
import Mathlib.Algebra.Order.BigOperators.Group.List
import Mathlib.Algebra.Order.Group.Multiset
import Gpf.Library.BinaryHeap
import Gpf.Library.Transition
import Gpf.Reactor.Effects

/-!
# The turns of `fire_due`

Each turn of the loop in `fire_due` fires the timer on top and then pops whatever is on top by then. A
call is a run of such turns, which ends when nothing on top is due. What the pop takes out is the timer
that was fired unless its callback scheduled one with a strictly earlier deadline.
-/

namespace Gpf

open Transition

/-- A queue of timers on which the one on top stays there unless one with an earlier deadline is pushed. -/
abbrev SteadyTimerQueue (κ : Type) := SteadyQueue (DeadlineTimer κ) DeadlineTimer.deadline

variable {γ κ σ : Type}

/-- The timer which an action schedules, if it does. -/
def Action.timer? : Action κ → Option (DeadlineTimer κ)
  | .add timer => some timer
  | .setInactive _ _ | .requestStop => none

/-- The timers which a callback schedules. -/
def scheduled (actions : List (Action κ)) : List (DeadlineTimer κ) := actions.filterMap Action.timer?

/-- One turn of the loop: the timer on top and whether it was active, what its callback scheduled, the
timer taken out and whether that was active when the turn began. -/
structure Turn (κ : Type) where
  top : DeadlineTimer κ
  active : Bool
  added : List (DeadlineTimer κ)
  taken : DeadlineTimer κ
  takenActive : Bool

namespace Turn

/-- The timers whose callbacks the turns invoke. -/
def invoked (turns : List (Turn κ)) : List (DeadlineTimer κ) := (turns.filter active).map top

/-- The timers which the turns take out while they are active. -/
def takenWhileActive (turns : List (Turn κ)) : List (DeadlineTimer κ) :=
  (turns.filter takenActive).map taken

end Turn

namespace Running

variable {P : TimerQueue κ}

/-- The turns of `fire_due` at a captured time. -/
inductive TakesTurn (H : Handlers γ κ σ) (now : Time) :
    Running γ σ P → Turn κ → Running γ σ P → Prop
  | fires (s : Running γ σ P) (top taken : DeadlineTimer κ) (effect : σ × List (Action κ))
      (htop : P.top? s.reactor.timerQueue = some top) (hdue : top.isDue now = true)
      (hactive : s.reactor.active top.ptr = true)
      (heffect : H.onTimeout top.callback s.world = some effect)
      (htaken : P.top? (s.reactor.performAll effect.2).timerQueue = some taken) :
      TakesTurn H now s ⟨top, true, scheduled effect.2, taken, s.reactor.active taken.ptr⟩
        { s.after effect with fired := s.fired ++ [top] }.pop
  | skips (s : Running γ σ P) (top : DeadlineTimer κ)
      (htop : P.top? s.reactor.timerQueue = some top) (hdue : top.isDue now = true)
      (hinactive : s.reactor.active top.ptr = false) :
      TakesTurn H now s ⟨top, false, [], top, false⟩ s.pop

/-- The loop of `fire_due` ends here. -/
def NoneDue (now : Time) (s : Running γ σ P) : Prop :=
  ∀ top, P.top? s.reactor.timerQueue = some top → top.isDue now = false

/-- Whatever callback of the top runs next schedules nothing which is due before the top itself. -/
def Patient (H : Handlers γ κ σ) (s : Running γ σ P) : Prop :=
  ∀ top effect, P.top? s.reactor.timerQueue = some top → s.reactor.active top.ptr = true →
    H.onTimeout top.callback s.world = some effect →
      ∀ timer ∈ scheduled effect.2, top.deadline ≤ timer.deadline

end Running

namespace Reactor

variable {P : TimerQueue κ}

/-- The queue holds what the actions schedule besides what it held. -/
theorem elems_performAll (r : Reactor γ P) (actions : List (Action κ)) :
    P.elems (r.performAll actions).timerQueue =
      P.elems r.timerQueue + (scheduled actions : Multiset (DeadlineTimer κ)) := by
  induction actions generalizing r with
  | nil => exact (add_zero _).symm
  | cons action actions ih =>
    have hrest : P.elems (r.performAll (action :: actions)).timerQueue =
        P.elems (r.perform action).timerQueue + (scheduled actions : Multiset (DeadlineTimer κ)) :=
      ih (r.perform action)
    rw [hrest]
    cases action with
    | add timer =>
      have hscheduled : scheduled (.add timer :: actions) = timer :: scheduled actions := rfl
      rw [hscheduled, ← Multiset.cons_coe, Multiset.add_cons, ← Multiset.cons_add, perform, P.elems_push]
    | setInactive ptr b => cases b <;> rfl
    | requestStop => rfl

/-- In a steady queue the top stays the top as long as nothing is scheduled with an earlier deadline. -/
theorem top?_performAll {P : SteadyTimerQueue κ} {r : Reactor γ P.toPriorityQueue}
    {top : DeadlineTimer κ} (htop : P.top? r.timerQueue = some top) (actions : List (Action κ))
    (hlate : ∀ timer ∈ scheduled actions, top.deadline ≤ timer.deadline) :
    P.top? (r.performAll actions).timerQueue = some top := by
  induction actions generalizing r with
  | nil => exact htop
  | cons action actions ih =>
    have hrest : ∀ timer ∈ scheduled actions, top.deadline ≤ timer.deadline := by
      intro timer htimer
      apply hlate
      obtain ⟨action', hmem, heq⟩ := List.mem_filterMap.mp htimer
      exact List.mem_filterMap.mpr ⟨action', List.mem_cons_of_mem _ hmem, heq⟩
    change P.top? ((r.perform action).performAll actions).timerQueue = some top
    apply ih _ hrest
    cases action with
    | add timer =>
      apply P.top?_push _ _ _ htop
      apply hlate
      exact List.mem_filterMap.mpr ⟨_, List.mem_cons_self, rfl⟩
    | setInactive ptr b => cases b <;> exact htop
    | requestStop => exact htop

end Reactor

namespace Running

section Turns

variable {P : TimerQueue κ} {H : Handlers γ κ σ} {now : Time} {s t : Running γ σ P} {turn : Turn κ}

/-- A turn moves what it schedules into the queue and what it takes out of it. -/
theorem TakesTurn.elems (h : TakesTurn H now s turn t) :
    P.elems t.reactor.timerQueue + {turn.taken} =
      P.elems s.reactor.timerQueue + (turn.added : Multiset (DeadlineTimer κ)) := by
  cases h with
  | fires top taken effect htop hdue hactive heffect htaken =>
    have hpop := P.elems_pop _ _ htaken
    rw [Reactor.elems_performAll] at hpop
    rw [add_comm, Multiset.singleton_add]
    exact hpop
  | skips top htop hdue hinactive =>
    have hpop := P.elems_pop _ _ htop
    rw [add_comm, Multiset.singleton_add, Multiset.coe_nil, add_zero]
    exact hpop

/-- A turn invokes the callback of the top exactly if it is active. -/
theorem TakesTurn.fired (h : TakesTurn H now s turn t) :
    t.fired = s.fired ++ Turn.invoked [turn] := by
  cases h with
  | fires => rfl
  | skips => exact (List.append_nil _).symm

/-- The top is due. -/
theorem TakesTurn.top_le (h : TakesTurn H now s turn t) : turn.top.deadline ≤ now := by
  cases h with
  | fires top taken effect htop hdue => exact of_decide_eq_true hdue
  | skips top htop hdue => exact of_decide_eq_true hdue

/-- What is taken out is due no later than the top, and no later than what the turn schedules. -/
theorem TakesTurn.taken_le (h : TakesTurn H now s turn t) :
    turn.taken.deadline ≤ turn.top.deadline ∧
      ∀ timer ∈ turn.added, turn.taken.deadline ≤ timer.deadline := by
  cases h with
  | fires top taken effect htop hdue hactive heffect htaken =>
    have hleast := P.top?_le _ _ htaken
    simp only [Reactor.elems_performAll, Multiset.mem_add, Multiset.mem_coe] at hleast
    exact ⟨hleast top (.inl (P.mem_of_top? htop)), fun timer htimer => hleast timer (.inr htimer)⟩
  | skips => exact ⟨le_rfl, fun _ h => absurd h List.not_mem_nil⟩

/-- An inactive timer is taken out by the turn that finds it on top, as an inactive one. -/
theorem TakesTurn.takenActive_le (h : TakesTurn H now s turn t) (htaken : turn.takenActive = true) :
    turn.active = true := by
  cases h with
  | fires => rfl
  | skips => cases htaken

/-- Whether the next turn is patient can be told from what it schedules. -/
theorem TakesTurn.patient_iff (h : TakesTurn H now s turn t) :
    s.Patient H ↔ ∀ timer ∈ turn.added, turn.top.deadline ≤ timer.deadline := by
  cases h with
  | fires top taken effect htop hdue hactive heffect htaken =>
    constructor
    · intro hpatient
      exact hpatient top effect htop hactive heffect
    · intro hlate top' effect' htop' _ heffect'
      cases htop.symm.trans htop'
      cases heffect.symm.trans heffect'
      exact hlate
  | skips top htop hdue hinactive =>
    constructor
    · intro _ timer htimer
      exact absurd htimer List.not_mem_nil
    · intro _ top' effect' htop' hactive'
      cases htop.symm.trans htop'
      rw [hinactive] at hactive'
      cases hactive'

/-- The next turn is determined. -/
theorem TakesTurn.unique {turn' : Turn κ} {t' : Running γ σ P} (h : TakesTurn H now s turn t)
    (h' : TakesTurn H now s turn' t') : turn = turn' ∧ t = t' := by
  cases h with
  | fires top taken effect htop hdue hactive heffect htaken =>
    cases h' with
    | fires top' taken' effect' htop' hdue' hactive' heffect' htaken' =>
      cases htop.symm.trans htop'
      cases heffect.symm.trans heffect'
      cases htaken.symm.trans htaken'
      exact ⟨rfl, rfl⟩
    | skips top' htop' hdue' hinactive' =>
      cases htop.symm.trans htop'
      rw [hinactive'] at hactive
      cases hactive
  | skips top htop hdue hinactive =>
    cases h' with
    | fires top' taken' effect' htop' hdue' hactive' =>
      cases htop.symm.trans htop'
      rw [hinactive] at hactive'
      cases hactive'
    | skips top' htop' =>
      cases htop.symm.trans htop'
      exact ⟨rfl, rfl⟩

/-- Where nothing is due there is no turn. -/
theorem NoneDue.not_takesTurn (h : s.NoneDue now) : ¬ TakesTurn H now s turn t := by
  intro hstep
  cases hstep with
  | fires top taken effect htop hdue => exact Bool.false_ne_true ((h top htop).symm.trans hdue)
  | skips top htop hdue => exact Bool.false_ne_true ((h top htop).symm.trans hdue)

/-- The turns of a call are determined, and so is the state in which it ends. -/
theorem turns_unique {turns turns' : List (Turn κ)} {t' : Running γ σ P}
    (hrun : Run (TakesTurn H now) s turns t) (hdone : t.NoneDue now)
    (hrun' : Run (TakesTurn H now) s turns' t') (hdone' : t'.NoneDue now) : turns = turns' ∧ t = t' := by
  induction hrun generalizing turns' with
  | nil s =>
    cases hrun' with
    | nil => exact ⟨rfl, rfl⟩
    | cons hstep => exact absurd hstep hdone.not_takesTurn
  | cons hstep _ ih =>
    cases hrun' with
    | nil => exact absurd hstep hdone'.not_takesTurn
    | cons hstep' hrest' =>
      obtain ⟨rfl, rfl⟩ := hstep.unique hstep'
      obtain ⟨rfl, rfl⟩ := ih hdone hrest'
      exact ⟨rfl, rfl⟩

/-- A call of `fire_due` which returns is a run of turns to a state in which nothing is due. -/
theorem exists_turns (H : Handlers γ κ σ) (now : Time) (fuel : ℕ) {s t : Running γ σ P}
    (hfire : fireDue H now fuel s = some t) :
    ∃ turns, Run (TakesTurn H now) s turns t ∧ t.NoneDue now := by
  induction fuel generalizing s with
  | zero => cases hfire
  | succ fuel ih =>
    rw [fireDue] at hfire
    cases htop : P.top? s.reactor.timerQueue with
    | none =>
      rw [htop] at hfire
      cases hfire
      refine ⟨[], .nil _, ?_⟩
      intro top htop'
      rw [htop] at htop'
      cases htop'
    | some top =>
      rw [htop] at hfire
      by_cases hdue : top.isDue now = true
      · simp only [hdue, if_true, fire] at hfire
        by_cases hactive : s.reactor.active top.ptr = true
        · obtain ⟨mid, hmid, hrest⟩ := Option.bind_eq_some_iff.mp hfire
          rw [if_pos hactive] at hmid
          obtain ⟨effect, heffect, hsome⟩ := Option.bind_eq_some_iff.mp hmid
          cases hsome
          have hmem : top ∈ P.elems (s.reactor.performAll effect.2).timerQueue :=
            (Reactor.mem_performAll _ _ _).mpr (.inl (P.mem_of_top? htop))
          obtain ⟨taken, htaken, -⟩ := P.exists_top? hmem
          obtain ⟨turns, hrun, hdone⟩ := ih hrest
          exact ⟨_, .cons (.fires s top taken effect htop hdue hactive heffect htaken) hrun, hdone⟩
        · rw [if_neg hactive] at hfire
          obtain ⟨turns, hrun, hdone⟩ := ih hfire
          exact ⟨_, .cons (.skips s top htop hdue (Bool.eq_false_iff.mpr hactive)) hrun, hdone⟩
      · simp only [hdue] at hfire
        cases hfire
        refine ⟨[], .nil _, ?_⟩
        intro top' htop'
        cases htop.symm.trans htop'
        exact Bool.eq_false_iff.mpr hdue

/-- A run of turns to a state in which nothing is due is a call of `fire_due`. -/
theorem fireDue_of_turns {turns : List (Turn κ)} (hrun : Run (TakesTurn H now) s turns t)
    (hdone : t.NoneDue now) : fireDue H now (turns.length + 1) s = some t := by
  induction hrun with
  | nil s =>
    rw [fireDue]
    cases htop : P.top? s.reactor.timerQueue with
    | none => rfl
    | some top =>
      simp only [hdone top htop]
      rfl
  | cons hstep _ ih =>
    rw [List.length_cons, fireDue]
    cases hstep with
    | fires top taken effect htop hdue hactive heffect htaken =>
      simp only [htop, hdue, if_true, fire, hactive, heffect]
      exact ih hdone
    | skips top htop hdue hinactive =>
      simp only [htop, hdue, if_true, fire, hinactive]
      exact ih hdone

/-- A turn that finds an inactive timer on top schedules nothing. -/
theorem TakesTurn.added_eq_nil (h : TakesTurn H now s turn t) (hinactive : turn.active = false) :
    turn.added = [] := by
  cases h with
  | fires => cases hinactive
  | skips => rfl

variable {turns : List (Turn κ)}

/-- What the queue holds after some turns and what they took out is what it held and what they
scheduled. -/
theorem elems_turns (hrun : Run (TakesTurn H now) s turns t) :
    P.elems t.reactor.timerQueue + (turns.map Turn.taken : Multiset (DeadlineTimer κ)) =
      P.elems s.reactor.timerQueue + (turns.flatMap Turn.added : Multiset (DeadlineTimer κ)) := by
  induction hrun with
  | nil s => rfl
  | @cons s mid t turn turns hstep _ ih =>
    have hturn := hstep.elems
    rw [List.map_cons, List.flatMap_cons, ← Multiset.cons_coe, ← Multiset.coe_add,
      Multiset.add_cons, ih, ← add_assoc, ← hturn, add_right_comm, ← Multiset.singleton_add, add_comm]

/-- What the turns invoke is what the call reports to have fired. -/
theorem fired_turns (hrun : Run (TakesTurn H now) s turns t) :
    t.fired = s.fired ++ Turn.invoked turns := by
  induction hrun with
  | nil s => exact (List.append_nil _).symm
  | @cons s mid t turn turns hstep _ ih =>
    rw [ih, hstep.fired, List.append_assoc, Turn.invoked, Turn.invoked, ← List.map_append,
      ← List.filter_append]
    rfl

/-- Every turn is patient exactly if none schedules anything which is due before the timer it fires. -/
theorem throughout_patient_iff (hrun : Run (TakesTurn H now) s turns t) :
    Throughout (TakesTurn H now) (fun before _ _ => before.Patient H) s turns ↔
      ∀ turn ∈ turns, ∀ timer ∈ turn.added, turn.top.deadline ≤ timer.deadline := by
  induction hrun with
  | nil s => simp [Throughout]
  | @cons s mid t turn turns hstep _ ih =>
    rw [List.forall_mem_cons, ← hstep.patient_iff, ← ih]
    constructor
    · intro h
      exact h mid hstep
    · intro h mid' hstep'
      obtain ⟨-, rfl⟩ := hstep.unique hstep'
      exact h

end Turns

/-- A call of `fire_due` at a captured time, as the loop's turns account for it: each active timer that
was taken out was invoked as often, and no inactive one was; those which are due later are still
queued, as often as they were queued or scheduled, and were not invoked; none is left that is due. -/
structure FiresEachOnce {P : TimerQueue κ} (now : Time) (s t : Running γ σ P)
    (turns : List (Turn κ)) : Prop where
  once : (Turn.invoked turns : Multiset (DeadlineTimer κ)) = Turn.takenWhileActive turns
  kept : (P.elems t.reactor.timerQueue).filter (fun timer => now < timer.deadline) =
    (P.elems s.reactor.timerQueue +
      (turns.flatMap Turn.added : Multiset (DeadlineTimer κ))).filter fun timer => now < timer.deadline
  untouched : ∀ timer ∈ Turn.invoked turns, timer.deadline ≤ now
  none_due : ∀ timer ∈ P.elems t.reactor.timerQueue, now < timer.deadline

section Exact

variable {P : TimerQueue κ} {H : Handlers γ κ σ} {now : Time} {s t : Running γ σ P}
  {turns : List (Turn κ)}

/-- Timers which are due later stay, whatever the callbacks schedule. -/
theorem kept_turns (hrun : Run (TakesTurn H now) s turns t) :
    (P.elems t.reactor.timerQueue).filter (fun timer => now < timer.deadline) =
      (P.elems s.reactor.timerQueue +
        (turns.flatMap Turn.added : Multiset (DeadlineTimer κ))).filter
          fun timer => now < timer.deadline := by
  have htaken : (turns.map Turn.taken : Multiset (DeadlineTimer κ)).filter
      (fun timer => now < timer.deadline) = 0 := by
    apply Multiset.filter_eq_nil.mpr
    intro timer htimer
    obtain ⟨turn, hturn, rfl⟩ := List.mem_map.mp (Multiset.mem_coe.mp htimer)
    obtain ⟨u, v, hstep⟩ := hrun.exists_step hturn
    exact not_lt.mpr (hstep.taken_le.1.trans hstep.top_le)
  rw [← elems_turns hrun, Multiset.filter_add, htaken, add_zero]

/-- If what was invoked is what was taken out active, then in every turn in which a callback ran the
timer taken out was due no earlier than the one that fired: otherwise the deadlines of the former would
add up to less than those of the latter. -/
theorem deadline_eq_of_once (hrun : Run (TakesTurn H now) s turns t)
    (honce : (Turn.invoked turns : Multiset (DeadlineTimer κ)) = Turn.takenWhileActive turns) :
    ∀ turn ∈ turns, turn.active = true → turn.top.deadline ≤ turn.taken.deadline := by
  have hle : ∀ turn ∈ turns, turn.taken.deadline ≤ turn.top.deadline := by
    intro turn hturn
    obtain ⟨u, v, hstep⟩ := hrun.exists_step hturn
    exact hstep.taken_le.1
  have hfilter : turns.filter Turn.takenActive = turns.filter Turn.active := by
    have hboth : turns.filter Turn.takenActive = (turns.filter Turn.active).filter Turn.takenActive := by
      rw [List.filter_filter]
      apply List.filter_congr
      intro turn hturn
      obtain ⟨u, v, hstep⟩ := hrun.exists_step hturn
      cases htaken : turn.takenActive with
      | false => rfl
      | true => rw [hstep.takenActive_le htaken, Bool.true_and]
    have hlength := congrArg Multiset.card honce
    simp only [Turn.invoked, Turn.takenWhileActive, Multiset.coe_card, List.length_map] at hlength
    rw [hboth] at hlength ⊢
    exact List.filter_sublist.eq_of_length hlength.symm
  have hsum := congrArg (fun timers => (timers.map DeadlineTimer.deadline).sum) honce
  simp only [Turn.invoked, Turn.takenWhileActive, hfilter, Multiset.map_coe, Multiset.sum_coe,
    List.map_map] at hsum
  intro turn hturn hactive
  by_contra hlt
  have hmem : turn ∈ turns.filter Turn.active := List.mem_filter.mpr ⟨hturn, hactive⟩
  have hless := List.sum_lt_sum (l := turns.filter Turn.active)
    (DeadlineTimer.deadline ∘ Turn.taken) (DeadlineTimer.deadline ∘ Turn.top)
    (fun turn' hturn' => hle turn' (List.mem_of_mem_filter hturn')) ⟨turn, hmem, not_le.mp hlt⟩
  rw [hsum] at hless
  exact lt_irrefl _ hless

/-- In a steady queue a patient turn takes out the timer that it fires. -/
theorem TakesTurn.taken_eq {P : SteadyTimerQueue κ} {s t : Running γ σ P.toPriorityQueue}
    {turn : Turn κ} (h : TakesTurn H now s turn t)
    (hlate : ∀ timer ∈ turn.added, turn.top.deadline ≤ timer.deadline) :
    turn.taken = turn.top ∧ turn.takenActive = turn.active := by
  cases h with
  | fires top taken effect htop hdue hactive heffect htaken =>
    have hsame : taken = top :=
      Option.some.inj (htaken.symm.trans (Reactor.top?_performAll htop effect.2 hlate))
    subst hsame
    exact ⟨rfl, hactive⟩
  | skips => exact ⟨rfl, rfl⟩

/-- If every turn is patient, what was invoked is what was taken out active. -/
theorem once_of_patient {P : SteadyTimerQueue κ} {s t : Running γ σ P.toPriorityQueue}
    {turns : List (Turn κ)} (hrun : Run (TakesTurn H now) s turns t)
    (hlate : ∀ turn ∈ turns, ∀ timer ∈ turn.added, turn.top.deadline ≤ timer.deadline) :
    Turn.invoked turns = Turn.takenWhileActive turns := by
  have htaken (turn : Turn κ) (hturn : turn ∈ turns) :
      turn.taken = turn.top ∧ turn.takenActive = turn.active := by
    obtain ⟨u, v, hstep⟩ := hrun.exists_step hturn
    exact hstep.taken_eq (hlate turn hturn)
  have hfilter : turns.filter Turn.takenActive = turns.filter Turn.active :=
    List.filter_congr fun turn hturn => (htaken turn hturn).2
  rw [Turn.invoked, Turn.takenWhileActive, hfilter]
  apply List.map_congr_left
  intro turn hturn
  exact (htaken turn (List.mem_of_mem_filter hturn)).1.symm

end Exact

/-- Whenever `fire_due` returns, its turns account for the timers, and it fires each exactly once and
drops none exactly if no callback which it runs schedules a timer that is due before the one it runs
for. -/
theorem fires_each_once_iff {P : SteadyTimerQueue κ} (H : Handlers γ κ σ) (now : Time) (fuel : ℕ)
    {s t : Running γ σ P.toPriorityQueue} (hfire : fireDue H now fuel s = some t) :
    ∃ turns, Run (TakesTurn H now) s turns t ∧ t.fired = s.fired ++ Turn.invoked turns ∧
      P.elems t.reactor.timerQueue + (turns.map Turn.taken : Multiset (DeadlineTimer κ)) =
        P.elems s.reactor.timerQueue + (turns.flatMap Turn.added : Multiset (DeadlineTimer κ)) ∧
      (FiresEachOnce now s t turns ↔
        Throughout (TakesTurn H now) (fun before _ _ => before.Patient H) s turns) := by
  obtain ⟨turns, hrun, -⟩ := exists_turns H now fuel hfire
  refine ⟨turns, hrun, fired_turns hrun, elems_turns hrun, ?_⟩
  rw [throughout_patient_iff hrun]
  constructor
  · intro hexact turn hturn timer htimer
    obtain ⟨u, v, hstep⟩ := hrun.exists_step hturn
    cases hactive : turn.active with
    | false =>
      rw [hstep.added_eq_nil hactive] at htimer
      exact absurd htimer List.not_mem_nil
    | true =>
      have hdue := deadline_eq_of_once hrun hexact.once turn hturn hactive
      exact hdue.trans (hstep.taken_le.2 timer htimer)
  · intro hlate
    refine ⟨congrArg _ (once_of_patient hrun hlate), kept_turns hrun, ?_, fireDue_not_due H now fuel hfire⟩
    intro timer htimer
    obtain ⟨turn, hturn, rfl⟩ := List.mem_map.mp htimer
    obtain ⟨u, v, hstep⟩ := hrun.exists_step (List.mem_of_mem_filter hturn)
    exact hstep.top_le

/-- A reactor on a heap with one timer, whose deadline is 100. -/
def lateReactor : Running Unit Bool (SteadyQueue.binaryHeap (DeadlineTimer.deadline (κ := Unit))).toPriorityQueue :=
  { reactor := ({} : Reactor Unit _).perform (.add ⟨0, 100, ()⟩), world := false }

/-- A callback which, the first time it runs, schedules a timer whose deadline is 50. -/
def belatedHandlers : Handlers Unit Unit Bool :=
  ⟨fun _ _ world => some (world, []),
    fun _ world => some (true, if world then [] else [.add ⟨1, 50, ()⟩])⟩

/-- The timer that is scheduled is popped in place of the one that fired, which then fires again. -/
theorem belated_timer_dropped :
    ¬ ∀ turns t, fireDue belatedHandlers 100 3 lateReactor = some t →
      Run (TakesTurn belatedHandlers 100) lateReactor turns t →
        FiresEachOnce 100 lateReactor t turns := by
  intro hexact
  have hrun : Run (TakesTurn belatedHandlers 100) lateReactor
      [⟨⟨0, 100, ()⟩, true, [⟨1, 50, ()⟩], ⟨1, 50, ()⟩, true⟩,
        ⟨⟨0, 100, ()⟩, true, [], ⟨0, 100, ()⟩, true⟩] _ :=
    .cons (.fires lateReactor ⟨0, 100, ()⟩ ⟨1, 50, ()⟩ (true, [.add ⟨1, 50, ()⟩]) rfl rfl rfl rfl rfl)
      (.cons (.fires _ ⟨0, 100, ()⟩ ⟨0, 100, ()⟩ (true, []) rfl rfl rfl rfl rfl) (.nil _))
  have honce := (hexact _ _ rfl hrun).once
  revert honce
  decide

/-- The account of the call in which this happens. -/
theorem fires_each_once_late :
    ∃ t, fireDue belatedHandlers 100 3 lateReactor = some t ∧
      ∃ turns, Run (TakesTurn belatedHandlers 100) lateReactor turns t ∧
        t.fired = lateReactor.fired ++ Turn.invoked turns ∧
        (SteadyQueue.binaryHeap DeadlineTimer.deadline).elems t.reactor.timerQueue +
            (turns.map Turn.taken : Multiset (DeadlineTimer Unit)) =
          (SteadyQueue.binaryHeap DeadlineTimer.deadline).elems lateReactor.reactor.timerQueue +
            (turns.flatMap Turn.added : Multiset (DeadlineTimer Unit)) ∧
        (FiresEachOnce 100 lateReactor t turns ↔
          Throughout (TakesTurn belatedHandlers 100) (fun before _ _ => before.Patient belatedHandlers)
            lateReactor turns) :=
  ⟨_, rfl, fires_each_once_iff belatedHandlers 100 3 rfl⟩

end Running

end Gpf
