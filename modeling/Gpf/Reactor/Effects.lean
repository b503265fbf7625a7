import Gpf.Reactor.Dispatch

/-!
# What callbacks do to the reactor

The actions of a callback extend the queue and set flags. Socket callbacks do not see the reactor, so
their actions can be collected first; `fire_due`, once it returns, leaves nothing in the queue which is
due at the time it has read.
-/

namespace Gpf

variable {γ κ σ : Type} {P : TimerQueue κ}

/-- What a callback's action does to the flags of the timer objects. -/
def Action.flag (inactive : Finset ℕ) : Action κ → Finset ℕ
  | .setInactive ptr true => insert ptr inactive
  | .setInactive ptr false => inactive.erase ptr
  | .add _ | .requestStop => inactive

/-- The world after the given socket callbacks, and all they did to the reactor. -/
def Handlers.activities (H : Handlers γ κ σ) :
    List (γ × ℕ) → σ → Option (σ × List (Action κ))
  | [], world => some (world, [])
  | (cb, socket) :: calls, world => do
    let effect ← H.onActivity cb socket world
    let rest ← H.activities calls effect.1
    some (rest.1, effect.2 ++ rest.2)

namespace Reactor

/-- The queue holds what it held and what the actions scheduled. -/
theorem mem_performAll (r : Reactor γ P) (actions : List (Action κ)) (timer : DeadlineTimer κ) :
    timer ∈ P.elems (r.performAll actions).timerQueue ↔
      timer ∈ P.elems r.timerQueue ∨ Action.add timer ∈ actions := by
  induction actions generalizing r with
  | nil => simp [performAll]
  | cons action actions ih =>
    have hhead : timer ∈ P.elems (r.perform action).timerQueue ↔
        timer ∈ P.elems r.timerQueue ∨ Action.add timer = action := by
      cases action with
      | add added => simp [perform, or_comm]
      | setInactive ptr b => cases b <;> simp [perform]
      | requestStop => simp [perform]
    have hrest := ih (r.perform action)
    rw [hhead, or_assoc, ← List.mem_cons] at hrest
    exact hrest

/-- The flags after the actions depend on the actions and the flags before. -/
theorem performAll_inactive (r : Reactor γ P) (actions : List (Action κ)) :
    (r.performAll actions).inactive = actions.foldl Action.flag r.inactive := by
  induction actions generalizing r with
  | nil => rfl
  | cons action actions ih =>
    have hhead : (r.perform action).inactive = Action.flag r.inactive action := by
      cases action with
      | add added => rfl
      | setInactive ptr b => cases b <;> rfl
      | requestStop => rfl
    have hrest := ih (r.perform action)
    rw [hhead] at hrest
    exact hrest

/-- Scheduling timers which fail a test leaves the number of those that pass it. -/
theorem countP_performAll (test : DeadlineTimer κ → Prop) [DecidablePred test] (r : Reactor γ P)
    (actions : List (Action κ)) (hadd : ∀ timer, Action.add timer ∈ actions → ¬ test timer) :
    (P.elems (r.performAll actions).timerQueue).countP test =
      (P.elems r.timerQueue).countP test := by
  induction actions generalizing r with
  | nil => rfl
  | cons action actions ih =>
    have hhead : (P.elems (r.perform action).timerQueue).countP test =
        (P.elems r.timerQueue).countP test := by
      cases action with
      | add timer =>
        have htimer := hadd timer List.mem_cons_self
        rw [perform, P.elems_push, Multiset.countP_cons_of_neg _ htimer]
      | setInactive ptr b => cases b <;> rfl
      | requestStop => rfl
    rw [← hhead]
    apply ih
    intro timer htimer
    exact hadd timer (List.mem_cons_of_mem action htimer)

/-- Actions in two parts are the actions of the first, then those of the second. -/
theorem performAll_append (r : Reactor γ P) (first second : List (Action κ)) :
    r.performAll (first ++ second) = (r.performAll first).performAll second :=
  List.foldl_append

end Reactor

namespace Running

/-- Callbacks do not see the reactor, so their actions can be collected first. -/
theorem runCallbacks_eq (H : Handlers γ κ σ) (calls : List (γ × ℕ)) (s : Running γ σ P) :
    runCallbacks H calls s = (H.activities calls s.world).map s.after := by
  induction calls generalizing s with
  | nil => rfl
  | cons call calls ih =>
    simp only [runCallbacks, Handlers.activities]
    cases H.onActivity call.1 call.2 s.world with
    | none => rfl
    | some effect =>
      simp only [Option.bind_eq_bind, Option.bind_some, ih (s.after effect)]
      have hworld : (s.after effect).world = effect.1 := rfl
      rw [hworld]
      cases H.activities calls effect.1 with
      | none => rfl
      | some rest => simp [after, Reactor.performAll_append]

/-- Once `fire_due` returns, no timer in the queue has a deadline up to the clock it read. -/
theorem fireDue_not_due (H : Handlers γ κ σ) (now : Time) (fuel : ℕ) {s t : Running γ σ P}
    (hfire : fireDue H now fuel s = some t) (timer : DeadlineTimer κ)
    (htimer : timer ∈ P.elems t.reactor.timerQueue) : now < timer.deadline := by
  induction fuel generalizing s with
  | zero => cases hfire
  | succ fuel ih =>
    rw [fireDue] at hfire
    cases htop : P.top? s.reactor.timerQueue with
    | none =>
      rw [htop] at hfire
      cases hfire
      rw [(P.top?_eq_none _).mp htop] at htimer
      exact absurd htimer (Multiset.notMem_zero timer)
    | some first =>
      rw [htop] at hfire
      by_cases hdue : first.isDue now = true
      · simp only [hdue, if_true] at hfire
        obtain ⟨mid, -, hrest⟩ := Option.bind_eq_some_iff.mp hfire
        exact ih hrest
      · simp only [hdue] at hfire
        cases hfire
        have hfirst : now < first.deadline := by simpa [DeadlineTimer.isDue] using hdue
        exact lt_of_lt_of_le hfirst (P.top?_le _ first htop timer htimer)

/-- The callback of a timer, if it is run, adds to the queue what it schedules and nothing else. -/
theorem exists_fire (H : Handlers γ κ σ) (now : Time)
    (hreturns : ∀ callback world, ∃ effect, H.onTimeout callback world = some effect ∧
      ∀ timer, Action.add timer ∈ effect.2 → now < timer.deadline)
    (timer : DeadlineTimer κ) (s : Running γ σ P) :
    ∃ t, s.fire H timer = some t ∧
      (∀ other ∈ P.elems s.reactor.timerQueue, other ∈ P.elems t.reactor.timerQueue) ∧
      (P.elems t.reactor.timerQueue).countP (fun other => other.deadline ≤ now) =
        (P.elems s.reactor.timerQueue).countP (fun other => other.deadline ≤ now) := by
  unfold fire
  by_cases hactive : s.reactor.active timer.ptr = true
  · obtain ⟨effect, heffect, hlater⟩ := hreturns timer.callback s.world
    rw [if_pos hactive, heffect]
    refine ⟨_, rfl, ?_, ?_⟩
    · intro other hother
      exact (Reactor.mem_performAll s.reactor effect.2 other).mpr (Or.inl hother)
    · apply Reactor.countP_performAll
      intro other hother
      exact not_le.mpr (hlater other hother)
  · rw [if_neg hactive]
    exact ⟨s, rfl, fun _ h => h, rfl⟩

/-- `fire_due` returns if the callbacks do, and schedule only what is due later than the clock it
read: every iteration lowers the number of timers which are due. -/
theorem fireDue_returns (H : Handlers γ κ σ) (now : Time)
    (hreturns : ∀ callback world, ∃ effect, H.onTimeout callback world = some effect ∧
      ∀ timer, Action.add timer ∈ effect.2 → now < timer.deadline)
    (fuel : ℕ) (s : Running γ σ P)
    (hfuel : (P.elems s.reactor.timerQueue).countP (fun timer => timer.deadline ≤ now) < fuel) :
    ∃ t, fireDue H now fuel s = some t := by
  induction fuel generalizing s with
  | zero => omega
  | succ fuel ih =>
    rw [fireDue]
    cases htop : P.top? s.reactor.timerQueue with
    | none => exact ⟨s, rfl⟩
    | some first =>
      by_cases hdue : first.isDue now = true
      · obtain ⟨mid, hmid, hkept, hcount⟩ := exists_fire H now hreturns first s
        have hfirst : first.deadline ≤ now := of_decide_eq_true hdue
        obtain ⟨popped, hpopped, hle⟩ := P.exists_top? (hkept first (P.mem_of_top? htop))
        have hlower := P.countP_pop (fun timer => timer.deadline ≤ now) hpopped
          (le_trans hle hfirst)
        have hrest : (P.elems mid.pop.reactor.timerQueue).countP
            (fun timer => timer.deadline ≤ now) < fuel := by
          rw [hcount] at hlower
          change (P.elems (P.pop mid.reactor.timerQueue)).countP _ < fuel
          omega
        obtain ⟨t, ht⟩ := ih mid.pop hrest
        exact ⟨t, by simp only [hdue, if_true, hmid, Option.bind_eq_bind, Option.bind_some, ht]⟩
      · simp only [hdue]
        exact ⟨s, rfl⟩

/-- A call that returns has either fired what is due, or run the callbacks of the ready sockets. -/
theorem call_cases (H : Handlers γ κ σ) (timeout : ℤ) (round : Round σ) (fuel : ℕ)
    {s t : Running γ σ P} (hcall : s.call H timeout round fuel = some t) :
    let poll := s.polled timeout round
    (poll.ret = 0 ∧ fireDue H poll.now fuel (s.polledInto poll) = some t) ∨
      (0 < poll.ret ∧ ∃ world actions,
        H.activities (s.reactor.socketCalls poll.revents) (poll.arrivals s.world) =
          some (world, actions) ∧
        t = (s.polledInto poll).after (world, actions)) := by
  intro poll
  unfold call at hcall
  by_cases hret : poll.ret = 0
  · rw [if_pos hret] at hcall
    exact Or.inl ⟨hret, hcall⟩
  · rw [if_neg hret] at hcall
    by_cases hneg : poll.ret < 0
    · rw [if_pos hneg] at hcall
      cases hcall
    · rw [if_neg hneg, runCallbacks_eq] at hcall
      obtain ⟨⟨world, actions⟩, hactivities, ht⟩ := Option.map_eq_some_iff.mp hcall
      have hpos : 0 < poll.ret := by omega
      exact Or.inr ⟨hpos, world, actions, hactivities, ht.symm⟩

end Running

end Gpf
