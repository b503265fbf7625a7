import Mathlib.Order.Bounds.Basic
import Gpf.Reactor.Dispatch

/-!
# How long the reactor waits

`operator()` may be limited by its argument and by the closest deadline. A negative number stands for
no limit in either, and the wait which is handed to the poll is read in the same way. Their plain
minimum is taken as soon as the argument is a limit, so a missing deadline takes the limit away.
-/

namespace Gpf

variable {γ κ : Type} {P : TimerQueue κ}

namespace Reactor

/-- The limit which the argument of `operator()` sets, unless it is negative. -/
def argumentLimit (timeout : ℤ) : Set ℤ := { l | 0 ≤ timeout ∧ l = timeout }

/-- The limits which the queued timers set: the time left to each deadline. -/
def deadlineLimits (r : Reactor γ P) (clock : Time) : Set ℤ :=
  { l | ∃ timer ∈ P.elems r.timerQueue, l = max 0 (timer.deadline - clock) }

/-- A wait keeps to the limits: it is the least of them, and infinite only if there is none. -/
def KeepsTo (wait : ℤ) (limits : Set ℤ) : Prop :=
  (limits.Nonempty → IsLeast limits wait) ∧ (limits = ∅ → wait < 0)

/-- A wait which is the least limit keeps to the limits. -/
theorem KeepsTo.of_isLeast {wait : ℤ} {limits : Set ℤ} (h : IsLeast limits wait) : KeepsTo wait limits :=
  ⟨fun _ => h, fun hempty => absurd hempty (Set.nonempty_iff_ne_empty.mp h.nonempty)⟩

/-- Without a queued timer there is no next timeout and no limit. -/
theorem nextTimeout_of_empty {r : Reactor γ P} (clock : Time) (hempty : P.elems r.timerQueue = 0) :
    r.nextTimeout clock = -1 ∧ r.deadlineLimits clock = ∅ := by
  constructor
  · rw [nextTimeout, (P.top?_eq_none r.timerQueue).mpr hempty]
  · ext l
    simp [deadlineLimits, hempty]

/-- With a queued timer, the next timeout is the least time left to a deadline. -/
theorem isLeast_nextTimeout {r : Reactor γ P} (clock : Time) (hqueued : P.elems r.timerQueue ≠ 0) :
    IsLeast (r.deadlineLimits clock) (r.nextTimeout clock) := by
  cases htop : P.top? r.timerQueue with
  | none => exact absurd ((P.top?_eq_none r.timerQueue).mp htop) hqueued
  | some timer =>
    have hnext : r.nextTimeout clock = max 0 (timer.deadline - clock) := by rw [nextTimeout, htop]
    rw [hnext]
    refine ⟨⟨timer, P.mem_of_top? htop, rfl⟩, ?_⟩
    intro l hl
    obtain ⟨other, hother, rfl⟩ := hl
    have hdeadline := P.top?_le r.timerQueue timer htop other hother
    exact max_le_max_left 0 (Int.sub_le_sub_right hdeadline clock)

/-- The wait of `operator()` keeps to the limits exactly when its argument is no limit or a timer is
queued. -/
theorem poll_timeout_keeps_iff (r : Reactor γ P) (timeout : ℤ) (clock : Time) :
    KeepsTo (r.pollTimeout timeout clock) (argumentLimit timeout ∪ r.deadlineLimits clock) ↔
      timeout < 0 ∨ P.elems r.timerQueue ≠ 0 := by
  by_cases htimeout : timeout < 0
  · have hargument : argumentLimit timeout = ∅ := by
      ext l
      simp [argumentLimit, htimeout]
    rw [hargument, Set.empty_union, pollTimeout, if_pos htimeout]
    apply iff_of_true _ (.inl htimeout)
    by_cases hempty : P.elems r.timerQueue = 0
    · obtain ⟨hnext, hlimits⟩ := nextTimeout_of_empty clock hempty
      rw [hnext, hlimits]
      exact ⟨fun h => absurd h Set.not_nonempty_empty, fun _ => by decide⟩
    · exact .of_isLeast (isLeast_nextTimeout clock hempty)
  · have hargument : argumentLimit timeout = {timeout} := by
      ext l
      simp [argumentLimit, not_lt.mp htimeout]
    rw [hargument, pollTimeout, if_neg htimeout, or_iff_right htimeout]
    by_cases hempty : P.elems r.timerQueue = 0
    · obtain ⟨hnext, hlimits⟩ := nextTimeout_of_empty clock hempty
      rw [hnext, hlimits, Set.union_empty]
      apply iff_of_false _ (not_not.mpr hempty)
      intro hkeeps
      -- the minimum is `-1`, which is read as no limit at all
      have hmem : min timeout (-1) = timeout := (hkeeps.1 (Set.singleton_nonempty timeout)).1
      omega
    · exact iff_of_true (.of_isLeast (isLeast_singleton.union (isLeast_nextTimeout clock hempty))) hempty

/-- A call that is to wait no longer than 100 waits forever while no timer is queued. -/
theorem finite_wait_forever :
    ∃ r : Reactor Unit (PriorityQueue.sortedList (DeadlineTimer.deadline (κ := Unit))),
      r.pollTimeout 100 0 < 0 ∧
        ¬KeepsTo (r.pollTimeout 100 0) (argumentLimit 100 ∪ r.deadlineLimits 0) := by
  refine ⟨Reactor.init (), by decide, fun hkeeps => ?_⟩
  have hleast := hkeeps.1 ⟨100, .inl ⟨by decide, rfl⟩⟩
  rcases hleast.1 with ⟨-, hwait⟩ | ⟨timer, htimer, -⟩
  · exact absurd hwait (by decide)
  · exact Multiset.notMem_zero timer htimer

end Reactor

end Gpf
