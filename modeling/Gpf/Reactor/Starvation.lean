import Gpf.Reactor.FireDue

/-!
# Which timers a call of the reactor leaves behind

A poll that reports nothing ends with every timer fired or popped whose deadline is reached at the time
which `fire_due` reads, and that is every timer which the poll saw overdue unless the clock is set back
in between. A poll that reports a ready socket fires no timer at all: the queue then keeps what it had
and what the callbacks scheduled, however long overdue.
-/

namespace Gpf

open Transition

variable {γ κ σ : Type} {P : TimerQueue κ}

namespace Running

/-- No active timer is left in the queue which the latest call did not fire although its deadline
was reached at the given time. -/
def NoneStarved (returnedAt : Time) (s : Running γ σ P) : Prop :=
  ∀ timer ∈ P.elems s.reactor.timerQueue,
    s.reactor.active timer.ptr = true → timer ∉ s.fired → returnedAt < timer.deadline

/-- After a call that ran socket callbacks, none is starved exactly when whatever was queued or
scheduled with a deadline up to the poll is inactive. -/
theorem noneStarved_after_iff (s : Running γ σ P) (poll : Polled σ) (world : σ)
    (actions : List (Action κ)) :
    ((s.polledInto poll).after (world, actions)).NoneStarved poll.returnedAt ↔
      ∀ timer, timer ∈ P.elems s.reactor.timerQueue ∨ Action.add timer ∈ actions →
        timer.deadline ≤ poll.returnedAt →
          timer.ptr ∈ actions.foldl Action.flag s.reactor.inactive := by
  apply forall_congr'
  intro timer
  have hmem := Reactor.mem_performAll s.reactor actions timer
  have hflags := Reactor.performAll_inactive s.reactor actions
  simp only [after, polledInto, hmem, Reactor.active, hflags, List.not_mem_nil, not_false_eq_true,
    true_imp_iff, decide_eq_true_eq]
  apply imp_congr_right
  intro _
  rw [← not_le, not_imp_not]

/-- After a call that fired what was due, none is starved exactly when whatever was queued or scheduled
with a deadline between the time that `fire_due` read and that of the poll is inactive. -/
theorem noneStarved_turns_iff {H : Handlers γ κ σ} {now returnedAt : Time} {s t : Running γ σ P}
    {turns : List (Turn κ)} (hrun : Run (TakesTurn H now) s turns t) (hnone : s.fired = [])
    (hlater : ∀ timer ∈ P.elems t.reactor.timerQueue, now < timer.deadline) :
    t.NoneStarved returnedAt ↔
      ∀ timer, timer ∈ P.elems s.reactor.timerQueue ∨ timer ∈ turns.flatMap Turn.added →
        now < timer.deadline → timer.deadline ≤ returnedAt → timer.ptr ∈ t.reactor.inactive := by
  have hkept (timer : DeadlineTimer κ) : timer ∈ P.elems t.reactor.timerQueue ↔
      (timer ∈ P.elems s.reactor.timerQueue ∨ timer ∈ turns.flatMap Turn.added) ∧
        now < timer.deadline := by
    have hfilter := congrArg (timer ∈ ·) (kept_turns hrun)
    simp only [Multiset.mem_filter, Multiset.mem_add, Multiset.mem_coe, eq_iff_iff] at hfilter
    rw [← hfilter]
    exact ⟨fun hmem => ⟨hmem, hlater timer hmem⟩, And.left⟩
  have hunfired (timer : DeadlineTimer κ) (htimer : now < timer.deadline) : timer ∉ t.fired := by
    rw [fired_turns hrun, hnone, List.nil_append]
    intro hmem
    obtain ⟨turn, hturn, rfl⟩ := List.mem_map.mp hmem
    obtain ⟨u, v, hstep⟩ := hrun.exists_step (List.mem_of_mem_filter hturn)
    exact absurd htimer (not_lt.mpr hstep.top_le)
  constructor
  · intro hserved timer hmem hafter hreached
    by_contra hactive
    have hlate := hserved timer ((hkept timer).mpr ⟨hmem, hafter⟩) (decide_eq_true hactive)
      (hunfired timer hafter)
    exact absurd hreached (not_le.mpr hlate)
  · intro hinactive timer hmem hactive _
    obtain ⟨hqueued, hafter⟩ := (hkept timer).mp hmem
    by_contra hreached
    exact of_decide_eq_true hactive (hinactive timer hqueued hafter (not_lt.mp hreached))

/-- A poll that reports nothing meets the condition unless the clock is set back before `fire_due` reads
it: then every timer with a deadline in between which is queued, or which the callbacks of the timers
that are due schedule, has to be inactive after these callbacks. A poll that reports ready sockets meets
it if every timer which is queued, or which their callbacks schedule, is inactive after these callbacks
if the poll saw its deadline. -/
def Undisturbed (H : Handlers γ κ σ) (timeout : ℤ) (s : Running γ σ P) (round : Round σ) : Prop :=
  let poll := s.polled timeout round
  (poll.ret = 0 ∧ (poll.returnedAt ≤ poll.now ∨
    ∀ turns after, Run (TakesTurn H poll.now) (s.polledInto poll) turns after → after.NoneDue poll.now →
      ∀ timer, timer ∈ P.elems s.reactor.timerQueue ∨ timer ∈ turns.flatMap Turn.added →
        poll.now < timer.deadline → timer.deadline ≤ poll.returnedAt →
          timer.ptr ∈ after.reactor.inactive)) ∨
  0 < poll.ret ∧
    ∀ world actions,
      H.activities (s.reactor.socketCalls poll.revents) (poll.arrivals s.world) =
        some (world, actions) →
      ∀ timer, timer ∈ P.elems s.reactor.timerQueue ∨ Action.add timer ∈ actions →
        timer.deadline ≤ poll.returnedAt →
          timer.ptr ∈ actions.foldl Action.flag s.reactor.inactive

/-- One call of `operator()` starves no timer exactly when it meets the condition. -/
theorem noneStarved_iff (H : Handlers γ κ σ) (timeout : ℤ) {s t : Running γ σ P} {round : Round σ}
    (hstep : Iterates H timeout s round t) :
    t.NoneStarved (s.polled timeout round).returnedAt ↔ s.Undisturbed H timeout round := by
  obtain ⟨-, fuel, hcall⟩ := hstep
  rcases call_cases H timeout round fuel hcall with
    ⟨hret, hfire⟩ | ⟨hret, world, actions, hactivities, rfl⟩
  · obtain ⟨turns, hrun, hdone⟩ := exists_turns H _ fuel hfire
    have hlater := fireDue_not_due H _ fuel hfire
    rw [noneStarved_turns_iff hrun rfl hlater]
    constructor
    · intro hinactive
      refine .inl ⟨hret, .inr fun turns' after hrun' hdone' => ?_⟩
      obtain ⟨rfl, rfl⟩ := turns_unique hrun hdone hrun' hdone'
      exact hinactive
    · intro hundisturbed timer hmem hafter hreached
      rcases hundisturbed with ⟨-, hclock | hinactive⟩ | ⟨hpos, -⟩
      · exact absurd (hreached.trans hclock) (not_le.mpr hafter)
      · exact hinactive turns t hrun hdone timer hmem hafter hreached
      · omega
  · rw [noneStarved_after_iff]
    constructor
    · intro hinactive
      refine .inr ⟨hret, ?_⟩
      intro world' actions' hactivities'
      rw [hactivities] at hactivities'
      cases hactivities'
      exact hinactive
    · intro hundisturbed
      rcases hundisturbed with ⟨hzero, -⟩ | ⟨-, hinactive⟩
      · omega
      · exact hinactive world actions hactivities

/-- In every run of the reactor, every call starves no timer exactly when every call meets the
condition. -/
theorem none_starved_iff (P : TimerQueue κ) (H : Handlers γ κ σ) (timeout : ℤ)
    (s : Running γ σ P) (rounds : List (Round σ)) :
    Throughout (Iterates H timeout)
        (fun before round after => after.NoneStarved (before.polled timeout round).returnedAt)
        s.start rounds ↔
      Throughout (Iterates H timeout) (fun before round _ => before.Undisturbed H timeout round)
        s.start rounds := by
  apply throughout_congr fun _ => True
  · intro _ _ _ _ _
    trivial
  · intro before round after _ hstep
    exact noneStarved_iff H timeout hstep
  · trivial

/-- As long as every poll reports a ready socket, every queued timer stays queued. -/
theorem queued_while_busy (H : Handlers γ κ σ) (timeout : ℤ) {s t : Running γ σ P}
    {rounds : List (Round σ)} (hrun : Run (Iterates H timeout) s rounds t)
    (hbusy : Throughout (Iterates H timeout)
      (fun before round _ => 0 < (before.polled timeout round).ret) s rounds)
    (timer : DeadlineTimer κ) (htimer : timer ∈ P.elems s.reactor.timerQueue) :
    timer ∈ P.elems t.reactor.timerQueue := by
  apply Run.preserves_throughout
    (fun s : Running γ σ P => timer ∈ P.elems s.reactor.timerQueue) ?_ hrun hbusy htimer
  rintro before round after hbefore ⟨-, fuel, hcall⟩ hready
  rcases call_cases H timeout round fuel hcall with ⟨hret, -⟩ | ⟨-, world, actions, -, rfl⟩
  · omega
  · exact (Reactor.mem_performAll before.reactor actions timer).mpr (Or.inl hbefore)

/-- A reactor in an idle world which polls one socket and has one timer queued for time 100. -/
def busyReactor : Running Unit Unit (PriorityQueue.sortedList (DeadlineTimer.deadline (κ := Unit))) :=
  let r := ((Reactor.init ()).addSocket 1 zmqPollin () true).1
  { reactor := r.perform (.add ⟨0, 100, ()⟩), world := () }

/-- A poll at time 150 which returns at once, the added socket being ready. -/
def busyRound : Round Unit where
  calledAt := 150
  poll _ := ⟨1, fun i => if i = 1 then zmqPollin else 0, 150, 150, id⟩

/-- Callbacks which do nothing. -/
def idleHandlers : Handlers Unit Unit Unit := ⟨fun _ _ _ => some ((), []), fun _ _ => some ((), [])⟩

/-- The ready socket starves the timer, although its deadline was reached before the poll. -/
theorem ready_socket_starves_timer :
    ¬ Throughout (Iterates idleHandlers (-1))
        (fun before round after => after.NoneStarved (before.polled (-1) round).returnedAt)
        busyReactor.start [busyRound] := by
  intro hserved
  have hcall : busyReactor.start.call idleHandlers (-1) busyRound 0 = some busyReactor := rfl
  have hnone := (hserved busyReactor ⟨rfl, 0, hcall⟩).1 ⟨0, 100, ()⟩
  have hstarved : (150 : ℤ) < 100 := hnone (Multiset.mem_singleton_self _) rfl List.not_mem_nil
  omega

end Running

end Gpf
