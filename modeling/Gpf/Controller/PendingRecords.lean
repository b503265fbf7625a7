import Gpf.Controller.TaskStep

/-!
# Pending tasks and their records

The results of a pending task are recorded as long as its record exists. A purge by message ids
refuses pending ids, but a purge of everything clears the records and leaves the ids pending.
-/

namespace Gpf

open Transition

namespace TaskTracker

/-- Every pending id is the id of a record. -/
def PendingRecorded (tracker : TaskTracker) : Prop :=
  ∀ id ∈ tracker.pending, ∃ task ∈ tracker.tasks, task.id = id

/-- The next result for a pending id, if its timestamps parse, is recorded: the id moves from pending
to completed, and its record is completed. -/
def ResultsRecorded (wire : Wire) (tracker : TaskTracker) : Prop :=
  ∀ incoming id, incoming.Timed wire → incoming.reports? wire = some id → id ∈ tracker.pending →
    ∃ after, tracker.dispatchMonitorTraffic wire incoming = .returned after ∧
      id ∉ after.pending ∧ id ∈ after.allCompleted ∧
      ∃ task ∈ after.tasks, task.id = id ∧ task.completed.isSome

/-- A result takes its id out of the pending ones and leaves the others there. -/
theorem mem_pending_complete {tracker : TaskTracker} {id id' : String} :
    id' ∈ (tracker.complete id).pending ↔ id' ∈ tracker.pending ∧ id' ≠ id := by
  unfold complete
  by_cases hid : id ∈ tracker.pending
  · rw [if_pos hid, Finset.mem_erase, and_comm]
  · rw [if_neg hid]
    exact ⟨fun h => ⟨h, fun heq => hid (heq ▸ h)⟩, And.left⟩

/-- A result puts its id among the completed ones if it was pending. -/
theorem mem_allCompleted_complete {tracker : TaskTracker} {id id' : String} :
    id' ∈ (tracker.complete id).allCompleted ↔
      id' ∈ tracker.allCompleted ∨ id' = id ∧ id ∈ tracker.pending := by
  unfold complete
  by_cases hid : id ∈ tracker.pending
  · rw [if_pos hid, Finset.mem_insert, or_comm, and_iff_left hid]
  · rw [if_neg hid]
    exact ⟨.inl, fun h => h.resolve_right fun hnew => hid hnew.2⟩

end TaskTracker

/-- Changing one record keeps the ids of the table. -/
theorem TaskSet.Changes.exists_id {before after : TaskSet} {id id' : String} {f : Task → Task}
    (h : TaskSet.Changes before after id f) (hf : ∀ t, (f t).id = t.id) :
    (∃ task ∈ after, task.id = id') ↔ ∃ task ∈ before, task.id = id' := by
  have hid : ∀ t : Task, (if t.id = id then f t else t).id = t.id := by
    intro t
    by_cases heq : t.id = id
    · rw [if_pos heq, hf]
    · rw [if_neg heq]
  constructor
  · intro hexists
    obtain ⟨task, htask, rfl⟩ := hexists
    obtain ⟨t, ht, rfl⟩ := (h task).mp htask
    exact ⟨t, ht, (hid t).symm⟩
  · intro hexists
    obtain ⟨t, ht, rfl⟩ := hexists
    exact ⟨_, (h _).mpr ⟨t, ht, rfl⟩, hid t⟩

namespace TaskTracker

variable {wire : Wire} {before after : TaskTracker}

/-- When every pending id has a record, no result for one is lost. -/
theorem PendingRecorded.resultsRecorded {tracker : TaskTracker} (h : tracker.PendingRecorded) :
    tracker.ResultsRecorded wire := by
  intro incoming id htimed hreports hpending
  obtain ⟨after, hreturned⟩ := dispatchMonitorTraffic_returned tracker htimed
  refine ⟨after, hreturned, ?_⟩
  cases dispatchMonitorTraffic_step hreturned with
  | ignored _ hnone _ =>
    obtain ⟨task, htask, hid⟩ := h id hpending
    exact absurd hid (hnone id hreports task htask)
  | submitted _ _ hnone _ _ _ _ _ _ => rw [hreports] at hnone; cases hnone
  | reported id' completed started engine _ hreports' hrecord htasks hpending' hallCompleted =>
    obtain rfl : id = id' := Option.some.inj (hreports.symm.trans hreports')
    obtain ⟨task, htask, hid⟩ := hrecord
    refine ⟨?_, ?_, _, (htasks _).mpr ⟨task, htask, rfl⟩, ?_⟩
    · rw [hpending', mem_pending_complete]
      exact fun hmem => hmem.2 rfl
    · rw [hallCompleted, mem_allCompleted_complete]
      exact .inr ⟨rfl, hpending⟩
    · rw [if_pos hid]
      exact ⟨hid, rfl⟩
  | moved _ _ _ hnone _ _ _ => rw [hreports] at hnone; cases hnone

/-- Monitor messages keep every pending id recorded. -/
theorem PendingRecorded.monitorStep {incoming : Incoming} (h : before.PendingRecorded)
    (hstep : MonitorStep wire incoming before after) : after.PendingRecorded := by
  intro id hid
  cases hstep with
  | ignored _ _ hsame =>
    subst hsame
    exact h id hid
  | submitted task _ _ _ _ _ htasks hpending _ =>
    rw [hpending, Finset.mem_insert] at hid
    rw [htasks]
    by_cases hrecord : ∃ t ∈ before.tasks, t.id = id
    · obtain ⟨t, ht, hid⟩ := hrecord
      exact ⟨t, KeyedTable.mem_insert.mpr (.inl ht), hid⟩
    · have hnew : id = task.id := hid.resolve_right fun hold => hrecord (h id hold)
      refine ⟨task, KeyedTable.mem_insert.mpr (.inr ⟨rfl, fun t ht heq => ?_⟩), hnew.symm⟩
      exact hrecord ⟨t, ht, heq.trans hnew.symm⟩
  | reported id' completed started engine _ _ _ htasks hpending _ =>
    rw [hpending, mem_pending_complete] at hid
    exact (htasks.exists_id fun _ => rfl).mpr (h id hid.1)
  | moved id' eid _ _ htasks hpending _ =>
    rw [hpending] at hid
    exact (htasks.exists_id fun _ => rfl).mpr (h id hid)

/-- A purge by message ids removes no pending record. -/
theorem PendingRecorded.purgeMsgIds {tracker : TaskTracker} (ids : List String)
    (h : tracker.PendingRecorded) : (Hub.purgeMsgIds tracker ids).1.PendingRecorded := by
  induction ids generalizing tracker with
  | nil => exact h
  | cons id ids ih =>
    rw [Hub.purgeMsgIds]
    by_cases hid : id ∈ tracker.pending
    · rw [if_pos hid]
      exact h
    · rw [if_neg hid]
      apply ih
      intro id' hid'
      obtain ⟨task, htask, heq⟩ := h id' hid'
      refine ⟨task, KeyedTable.mem_erase.mpr ⟨htask, fun hne => ?_⟩, heq⟩
      exact hid (hne ▸ heq ▸ hid')

/-- An event keeps every pending id recorded exactly if it does not purge everything while an id is
pending. -/
theorem pendingRecorded_step {e : Event} (h : before.PendingRecorded)
    (hstep : TaskStep wire e before after) :
    after.PendingRecorded ↔ (e.PurgesAll wire → before.pending = ∅) := by
  cases hstep with
  | same _ hpurge hsame =>
    subst hsame
    exact iff_of_true h fun hall => absurd hall hpurge
  | monitored incoming he hmonitor =>
    refine iff_of_true (h.monitorStep hmonitor) ?_
    intro hexists
    obtain ⟨_, _, hquery, _⟩ := hexists
    rw [he] at hquery
    cases hquery
  | purgedAll _ hpurge hafter =>
    subst hafter
    constructor
    · intro hrecorded _
      apply Finset.eq_empty_of_forall_notMem
      intro id hid
      obtain ⟨task, htask, _⟩ := hrecorded id hid
      exact KeyedTable.notMem_empty task htask
    · intro hempty id hid
      have hnone : before.pending = ∅ := hempty hpurge
      exact absurd hid (hnone ▸ Finset.notMem_empty id)
  | purged ids _ hpurge hafter =>
    subst hafter
    exact iff_of_true (h.purgeMsgIds ids) fun hall => absurd hall hpurge

end TaskTracker

/-- Whatever the hub receives: every pending id has a record and every first result is recorded
exactly when no request purges everything while a task is pending. -/
theorem pending_recorded_iff (wire : Wire) (interval : ℤ) (es : List Event) :
    Always (System.Step wire)
        (fun s => s.hub.ttracker.PendingRecorded ∧ s.hub.ttracker.ResultsRecorded wire)
        (System.initial interval) es ↔
      Throughout (System.Step wire) (fun s e _ => e.PurgesAll wire → s.hub.ttracker.pending = ∅)
        (System.initial interval) es := by
  have hboth : ∀ tracker : TaskTracker,
      tracker.PendingRecorded ∧ tracker.ResultsRecorded wire ↔ tracker.PendingRecorded := fun _ =>
    and_iff_left_of_imp TaskTracker.PendingRecorded.resultsRecorded
  refine always_iff_throughout (fun s : System => RegistryInvariant s.hub)
    (fun _ _ _ inv h => inv.step h) ?_ (.create interval) ?_ es
  · intro s e t inv hprop h
    rw [hboth] at hprop ⊢
    exact TaskTracker.pendingRecorded_step hprop (System.step_tasks inv.engine_idle h)
  · rw [hboth]
    intro id hid
    exact absurd hid (Finset.notMem_empty id)

/-- The task of the session is submitted, and a purge of everything removes its record while it is
pending. -/
theorem session_pending_unrecorded :
    ¬Always (System.Step .session)
      (fun s => s.hub.ttracker.PendingRecorded ∧ s.hub.ttracker.ResultsRecorded .session)
      (System.initial 2000) [.monitor .submission, .query .purgeAll] := by
  obtain ⟨s, hrun, hpending, htasks⟩ := System.exists_run .session (.initial 2000)
    [.monitor .submission, .query .purgeAll]
    (fun s => "t" ∈ s.hub.ttracker.pending ∧ s.hub.ttracker.tasks.records = []) (by decide)
  intro h
  obtain ⟨task, htask, _⟩ := (h.run hrun).1 "t" hpending
  rw [KeyedTable.mem_def, htasks] at htask
  exact List.not_mem_nil htask

end Gpf
