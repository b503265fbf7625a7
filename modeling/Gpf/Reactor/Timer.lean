import Mathlib.Data.Finset.Basic

/-!
# Deadline timers and the contents of the timer queue

A `deadline_timer` is held by shared pointers: the queue owns one, and whoever scheduled the
timer may keep another and deactivate it while it is queued. `ptr` is the identity of that
shared object, so the flag is kept beside the queue and not inside it.

`Loop` is what the callbacks of the hub see of a reactor: which timers are queued. It fixes no
order among them.
-/

namespace Gpf

/-- Microseconds since the epoch of the clock, the resolution of `microsec_clock`. -/
abbrev Time := ℤ

/-- `boost::posix_time::milliseconds`, in microseconds. -/
def milliseconds (ms : ℤ) : Time := 1000 * ms

/-- A timer object: its identity, its deadline, and the callback it is bound to. -/
structure DeadlineTimer (κ : Type*) where
  ptr : ℕ
  deadline : Time
  callback : κ
deriving DecidableEq

/-- `deadline_timer::is_due`. -/
def DeadlineTimer.isDue {κ : Type*} (timer : DeadlineTimer κ) (now : Time) : Bool :=
  decide (timer.deadline ≤ now)

/-- The queued timers of a reactor, the deactivated timer objects, and the next fresh identity. -/
structure Loop (κ : Type*) where
  queue : List (DeadlineTimer κ) := []
  inactive : Finset ℕ := ∅
  nextPtr : ℕ := 0

namespace Loop

variable {κ : Type*}

/-- `reactor::add` of a new timer which waits from `now`. -/
def add (loop : Loop κ) (now waiting : Time) (callback : κ) : Loop κ :=
  { loop with
    queue := loop.queue ++ [⟨loop.nextPtr, now + waiting, callback⟩]
    nextPtr := loop.nextPtr + 1 }

/-- `deadline_timer::set_inactive` on a shared timer object. -/
def setInactive (loop : Loop κ) (ptr : ℕ) : Loop κ :=
  { loop with inactive := insert ptr loop.inactive }

/-- Whether a timer object still has `m_active` set. -/
def active (loop : Loop κ) (ptr : ℕ) : Bool := decide (ptr ∉ loop.inactive)

/-- `queue.pop()` of the timer with the given identity. -/
def pop (loop : Loop κ) (ptr : ℕ) : Loop κ :=
  { loop with queue := loop.queue.filter fun timer => decide (timer.ptr ≠ ptr) }

section Queue

variable {loop : Loop κ} {timer : DeadlineTimer κ}

/-- Scheduling queues the new timer besides the old ones. -/
theorem mem_add {now waiting : Time} {callback : κ} :
    timer ∈ (loop.add now waiting callback).queue ↔
      timer ∈ loop.queue ∨ timer = ⟨loop.nextPtr, now + waiting, callback⟩ := by
  rw [add, List.mem_append, List.mem_singleton]

/-- A pop leaves the timers with other identities. -/
theorem mem_pop {ptr : ℕ} : timer ∈ (loop.pop ptr).queue ↔ timer ∈ loop.queue ∧ timer.ptr ≠ ptr := by
  rw [pop, List.mem_filter, decide_eq_true_eq]

/-- A timer with a fresh identity keeps the identities distinct. -/
theorem nodup_add (hfresh : ∀ timer ∈ loop.queue, timer.ptr < loop.nextPtr)
    (hdistinct : (loop.queue.map DeadlineTimer.ptr).Nodup) (now waiting : Time) (callback : κ) :
    ((loop.add now waiting callback).queue.map DeadlineTimer.ptr).Nodup := by
  rw [add, List.map_append, List.map_singleton, List.nodup_append]
  refine ⟨hdistinct, List.nodup_singleton _, ?_⟩
  intro ptr hptr next hnext heq
  obtain ⟨timer, htimer, rfl⟩ := List.mem_map.mp hptr
  have hlt := hfresh timer htimer
  rw [heq, List.mem_singleton.mp hnext] at hlt
  exact lt_irrefl _ hlt

/-- A pop keeps the identities distinct. -/
theorem nodup_pop (hdistinct : (loop.queue.map DeadlineTimer.ptr).Nodup) (ptr : ℕ) :
    ((loop.pop ptr).queue.map DeadlineTimer.ptr).Nodup :=
  hdistinct.sublist (List.filter_sublist.map _)

/-- Timers with distinct identities are the same if these are. -/
theorem eq_of_ptr (hdistinct : (loop.queue.map DeadlineTimer.ptr).Nodup) (htimer : timer ∈ loop.queue)
    {other : DeadlineTimer κ} (hother : other ∈ loop.queue) (hptr : other.ptr = timer.ptr) :
    other = timer := List.inj_on_of_nodup_map hdistinct hother htimer hptr

/-- A timer with an identity of its own is found by it. -/
theorem find?_timer (hdistinct : (loop.queue.map DeadlineTimer.ptr).Nodup)
    (htimer : timer ∈ loop.queue) :
    loop.queue.find? (fun other => decide (other.ptr = timer.ptr)) = some timer := by
  cases hfind : loop.queue.find? fun other => decide (other.ptr = timer.ptr) with
  | none =>
    have hne := List.find?_eq_none.mp hfind timer htimer
    exact absurd (decide_eq_true rfl) hne
  | some other =>
    have hptr := List.find?_some hfind
    have hother := List.mem_of_find?_eq_some hfind
    rw [eq_of_ptr hdistinct htimer hother (of_decide_eq_true hptr)]

/-- Popping a timer with an identity of its own removes it and nothing else. -/
theorem cons_pop [DecidableEq κ] (hdistinct : (loop.queue.map DeadlineTimer.ptr).Nodup)
    (htimer : timer ∈ loop.queue) :
    timer ::ₘ ((loop.pop timer.ptr).queue : Multiset (DeadlineTimer κ)) = loop.queue := by
  have hpop : (loop.pop timer.ptr).queue = loop.queue.erase timer := by
    rw [(List.Nodup.of_map _ hdistinct).erase_eq_filter, pop]
    apply List.filter_congr
    intro other hother
    by_cases heq : other = timer
    · simp [heq]
    · have hne : other.ptr ≠ timer.ptr := fun hptr => heq (eq_of_ptr hdistinct htimer hother hptr)
      simp [heq, hne]
  rw [hpop, Multiset.cons_coe]
  exact Multiset.coe_eq_coe.mpr (List.perm_cons_erase htimer).symm

end Queue

end Loop

end Gpf
