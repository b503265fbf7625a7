import Gpf.Controller.TaskStep

/-!
# The tasks of a dead engine

`_handle_stranded_msgs` goes through the engine's list of outstanding messages, which no handler
ever fills. So the tasks that are pending on a dead engine stay pending.
-/

namespace Gpf

open Transition

/-- Under the identity there is an active timer of the given callback, which the queue hands out. -/
def Hub.Fires (hub : Hub) (ptr : ℕ) (callback : Callback) : Prop :=
  ∃ timer, hub.loop.queue.find? (fun timer => decide (timer.ptr = ptr)) = some timer ∧
    timer.callback = callback ∧ hub.loop.active ptr = true

/-- Every task that was pending on the engine is completed with an error, and the tasks of other
engines are as before. -/
structure StrandedHandled (eid : ℤ) (before after : TaskTracker) : Prop where
  completed : ∀ task ∈ before.tasks, task.engineUuid = eid → task.id ∈ before.pending →
    task.id ∉ after.pending ∧ task.id ∈ after.allCompleted ∧
      ∃ task' ∈ after.tasks, task'.id = task.id ∧ task'.completed.isSome ∧
        task'.content = "Engine died while running task `" ++ task.id ++ "'"
  others : ∀ task, task.engineUuid ≠ eid → (task ∈ after.tasks ↔ task ∈ before.tasks) ∧
    (task ∈ before.tasks → (task.id ∈ after.pending ↔ task.id ∈ before.pending) ∧
      (task.id ∈ after.allCompleted ↔ task.id ∈ before.allCompleted))

/-- No task is pending on the engine. -/
def NonePending (eid : ℤ) (tracker : TaskTracker) : Prop :=
  ∀ task ∈ tracker.tasks, task.engineUuid = eid → task.id ∉ tracker.pending

/-- If nothing changes, the tasks of an engine are handled exactly when none was pending. -/
theorem strandedHandled_self (eid : ℤ) (tracker : TaskTracker) :
    StrandedHandled eid tracker tracker ↔ NonePending eid tracker := by
  constructor
  · intro h task htask heid hpending
    exact (h.completed task htask heid hpending).1 hpending
  · intro h
    refine ⟨?_, fun _ _ => ⟨Iff.rfl, fun _ => ⟨Iff.rfl, Iff.rfl⟩⟩⟩
    intro task htask heid hpending
    exact absurd hpending (h task htask heid)

/-- The timer of a dead engine which is still listed can always fire, and when it does, the tasks of
the engine are handled exactly if none of them is pending. -/
theorem stranded_handled_iff {wire : Wire} {interval : ℤ} {s : System} {ptr : ℕ} {eid : ℤ}
    {uuid : String} (hreach : Reachable (System.Step wire) (System.initial interval) s)
    (hfires : s.hub.Fires ptr (.handleStrandedMsgs eid uuid)) :
    ∃ t, System.Step wire s (.timeout ptr) t ∧
      (StrandedHandled eid s.hub.ttracker t.hub.ttracker ↔ NonePending eid s.hub.ttracker) := by
  have hidle := (RegistryInvariant.reachable hreach).engine_idle
  obtain ⟨timer, hfind, hcallback, hactive⟩ := hfires
  have hrun : s.hub.timeout ptr =
      some ({ s.hub with loop := s.hub.loop.pop ptr }._handleStrandedMsgs eid uuid) := by
    simp only [Hub.timeout, hfind]
    rw [if_pos (show (s.hub.loop.pop ptr).active ptr = true from hactive), hcallback, Hub.runCallback]
  refine ⟨_, by rw [System.Step, System.next, hrun]; rfl, ?_⟩
  have hsame := Hub.ttracker_timeout hidle hrun
  simp only [hsame]
  exact strandedHandled_self eid s.hub.ttracker

/-- The task of the session is submitted to its engine, and the heart fails: when the timer is due and
fires, the task is still pending. -/
theorem session_task_stranded :
    ∃ s t, Reachable (System.Step .session) (System.initial 2000) s ∧ s.hub.Lists 0 ∧
      s.hub.Fires 0 (.handleStrandedMsgs 0 "q") ∧ System.Step .session s (.timeout 0) t ∧
      ¬StrandedHandled 0 s.hub.ttracker t.hub.ttracker := by
  obtain ⟨s, hrun, hlisted, hqueue, hactive, task, htask, heid, hpending, hfires⟩ :=
    System.exists_run .session (.initial 2000)
      [.heartAppears "h", .query .register, .monitor .submission, .heartFails "h", .tick 5000000]
      (fun s => s.hub.Lists 0 ∧ s.hub.loop.queue = [⟨0, 5000000, .handleStrandedMsgs 0 "q"⟩] ∧
        s.hub.loop.active 0 = true ∧ ∃ task ∈ s.hub.ttracker.tasks.records, task.engineUuid = 0 ∧
          task.id ∈ s.hub.ttracker.pending ∧ (s.next .session (.timeout 0)).any (fun t =>
            decide (task.id ∈ t.hub.ttracker.pending)) = true) (by decide)
  obtain ⟨t, hstep, hstill⟩ := (Option.any_eq_true _ _).mp hfires
  refine ⟨s, t, ⟨_, hrun⟩, hlisted, ⟨_, by rw [hqueue]; rfl, rfl, hactive⟩, hstep, fun h => ?_⟩
  exact (h.completed task htask heid hpending).1 (of_decide_eq_true hstill)

/-- The law at the state in which the heart of the session's engine has failed and the timer is due. -/
theorem stranded_handled_session :
    ∃ s t, System.Step .session s (.timeout 0) t ∧
      (StrandedHandled 0 s.hub.ttracker t.hub.ttracker ↔ NonePending 0 s.hub.ttracker) := by
  obtain ⟨s, hrun, hqueue, hactive⟩ := System.exists_run .session (.initial 2000)
    [.heartAppears "h", .query .register, .monitor .submission, .heartFails "h", .tick 5000000]
    (fun s => s.hub.loop.queue = [⟨0, 5000000, .handleStrandedMsgs 0 "q"⟩] ∧
      s.hub.loop.active 0 = true) (by decide)
  have hfires : s.hub.Fires 0 (.handleStrandedMsgs 0 "q") := ⟨_, by rw [hqueue]; rfl, rfl, hactive⟩
  obtain ⟨t, ht⟩ := stranded_handled_iff ⟨_, hrun⟩ hfires
  exact ⟨s, t, ht⟩

end Gpf
