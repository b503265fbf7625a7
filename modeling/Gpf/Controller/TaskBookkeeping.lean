import Gpf.Controller.PendingRecords

/-!
# Two encodings of a finished task

A task is finished when its record has a completion time, and when its id is in `all_completed`.
Both are kept in step by every message except the submission of an id which is already completed:
the record is not replaced, but the id becomes pending again.
-/

namespace Gpf

open Transition

namespace TaskTracker

/-- A monitor message whose handler returns. -/
def Monitored (wire : Wire) (before : TaskTracker) (incoming : Incoming) (after : TaskTracker) : Prop :=
  before.dispatchMonitorTraffic wire incoming = .returned after

/-- The tracker after a list of messages, if every handler returns. -/
def handleAll (wire : Wire) (tracker : TaskTracker) (messages : List Incoming) : Option TaskTracker :=
  messages.foldlM (fun tracker incoming => (tracker.dispatchMonitorTraffic wire incoming).returned?)
    tracker

/-- What is computed of the last tracker holds at the end of a run. -/
theorem exists_run (wire : Wire) (tracker : TaskTracker) (messages : List Incoming)
    (P : TaskTracker → Prop) [DecidablePred P]
    (h : (tracker.handleAll wire messages).any (fun t => decide (P t)) = true) :
    ∃ t, Run (Monitored wire) tracker messages t ∧ P t := by
  refine Transition.exists_run ?_ tracker messages P h
  intro before incoming after hnext
  exact Outcome.eq_returned hnext

/-- The sets of ids agree with the records. -/
structure BookkeepingAgrees (tracker : TaskTracker) : Prop where
  disjoint : ∀ id ∈ tracker.pending, id ∉ tracker.allCompleted
  pending_iff : ∀ task ∈ tracker.tasks, (task.id ∈ tracker.pending ↔ task.completed = none)
  completed_iff : ∀ task ∈ tracker.tasks, (task.id ∈ tracker.allCompleted ↔ task.completed ≠ none)

/-- Along the given messages, no completed id becomes pending again. -/
def NeverPendingAgain (wire : Wire) (start : TaskTracker) (messages : List Incoming) : Prop :=
  ∀ {first second s t}, first ++ second <+: messages → Run (Monitored wire) start first s →
    Run (Monitored wire) s second t → ∀ id ∈ s.allCompleted, id ∉ t.pending

/-- The message does not submit an id which is already completed. -/
def NoResubmission (wire : Wire) (tracker : TaskTracker) (incoming : Incoming) : Prop :=
  ∀ id, incoming.submits? wire = some id → id ∉ tracker.allCompleted

variable {wire : Wire} {before after : TaskTracker} {incoming : Incoming}

/-- A submission keeps the sets and records in agreement exactly if its id is not completed. -/
theorem agrees_submitted {task : Task} (h : before.BookkeepingAgrees) (hcompleted : task.completed = none)
    (htasks : after.tasks = before.tasks.insert task)
    (hpending : after.pending = insert task.id before.pending)
    (hallCompleted : after.allCompleted = before.allCompleted) :
    after.BookkeepingAgrees ↔ task.id ∉ before.allCompleted := by
  have hmem : ∀ id, id ∈ after.pending ↔ id = task.id ∨ id ∈ before.pending := by
    intro id
    rw [hpending, Finset.mem_insert]
  constructor
  · intro hafter hcompletedId
    refine hafter.disjoint task.id ((hmem _).mpr (.inl rfl)) ?_
    rw [hallCompleted]
    exact hcompletedId
  · intro hfresh
    -- a record which is already there under the id is an unfinished one
    have hrecord : ∀ t ∈ after.tasks, t.id = task.id → t.completed = none := by
      intro t ht hid
      rw [htasks, KeyedTable.mem_insert] at ht
      rcases ht with hold | ⟨rfl, _⟩
      · by_contra hne
        exact hfresh (hid ▸ (h.completed_iff t hold).mpr hne)
      · exact hcompleted
    have hother : ∀ t ∈ after.tasks, t.id ≠ task.id → t ∈ before.tasks := by
      intro t ht hne
      rw [htasks, KeyedTable.mem_insert] at ht
      exact ht.resolve_right fun hnew => hne (hnew.1 ▸ rfl)
    refine ⟨?_, ?_, ?_⟩
    · intro id hid
      rw [hallCompleted]
      rcases (hmem id).mp hid with rfl | hold
      · exact hfresh
      · exact h.disjoint id hold
    · intro t ht
      rw [hmem]
      by_cases hid : t.id = task.id
      · exact iff_of_true (.inl hid) (hrecord t ht hid)
      · rw [or_iff_right hid]
        exact h.pending_iff t (hother t ht hid)
    · intro t ht
      rw [hallCompleted]
      by_cases hid : t.id = task.id
      · exact iff_of_false (hid ▸ hfresh) (not_not.mpr (hrecord t ht hid))
      · exact h.completed_iff t (hother t ht hid)

/-- A result keeps the sets and records in agreement. -/
theorem agrees_reported {id : String} {f : Task → Task} (h : before.BookkeepingAgrees)
    (hid : ∀ t, (f t).id = t.id) (hcompleted : ∀ t, (f t).completed ≠ none)
    (htasks : TaskSet.Changes before.tasks after.tasks id f)
    (hpending : after.pending = (before.complete id).pending)
    (hallCompleted : after.allCompleted = (before.complete id).allCompleted) :
    after.BookkeepingAgrees := by
  refine ⟨?_, ?_, ?_⟩
  · intro id' hid'
    rw [hpending, mem_pending_complete] at hid'
    rw [hallCompleted, mem_allCompleted_complete]
    intro hcase
    rcases hcase with hold | ⟨heq, _⟩
    · exact h.disjoint id' hid'.1 hold
    · exact hid'.2 heq
  · intro t' ht'
    obtain ⟨t, ht, rfl⟩ := (htasks t').mp ht'
    rw [hpending, mem_pending_complete]
    by_cases heq : t.id = id
    · rw [if_pos heq, hid]
      exact iff_of_false (fun hmem => hmem.2 heq) (hcompleted t)
    · rw [if_neg heq, and_iff_left heq]
      exact h.pending_iff t ht
  · intro t' ht'
    obtain ⟨t, ht, rfl⟩ := (htasks t').mp ht'
    rw [hallCompleted, mem_allCompleted_complete]
    by_cases heq : t.id = id
    · rw [if_pos heq, hid]
      refine iff_of_true ?_ (hcompleted t)
      by_cases hwas : id ∈ before.pending
      · exact .inr ⟨heq, hwas⟩
      · left
        have hsome : t.completed ≠ none := fun hnone =>
          hwas (heq ▸ (h.pending_iff t ht).mpr hnone)
        exact (h.completed_iff t ht).mpr hsome
    · rw [if_neg heq, or_iff_left fun hnew => heq hnew.1]
      exact h.completed_iff t ht

/-- Moving a task keeps the sets and records in agreement. -/
theorem agrees_moved {id : String} {f : Task → Task} (h : before.BookkeepingAgrees)
    (hid : ∀ t, (f t).id = t.id) (hcompleted : ∀ t, (f t).completed = t.completed)
    (htasks : TaskSet.Changes before.tasks after.tasks id f) (hpending : after.pending = before.pending)
    (hallCompleted : after.allCompleted = before.allCompleted) : after.BookkeepingAgrees := by
  have hsame : ∀ t : Task, (if t.id = id then f t else t).id = t.id ∧
      (if t.id = id then f t else t).completed = t.completed := by
    intro t
    by_cases heq : t.id = id
    · rw [if_pos heq]
      exact ⟨hid t, hcompleted t⟩
    · rw [if_neg heq]
      exact ⟨rfl, rfl⟩
  refine ⟨?_, ?_, ?_⟩
  · rw [hpending, hallCompleted]
    exact h.disjoint
  · intro t' ht'
    obtain ⟨t, ht, rfl⟩ := (htasks t').mp ht'
    rw [hpending, (hsame t).1, (hsame t).2]
    exact h.pending_iff t ht
  · intro t' ht'
    obtain ⟨t, ht, rfl⟩ := (htasks t').mp ht'
    rw [hallCompleted, (hsame t).1, (hsame t).2]
    exact h.completed_iff t ht

/-- A message keeps the sets and records in agreement exactly if it does not submit a completed id. -/
theorem agrees_step (h : before.BookkeepingAgrees) (hstep : MonitorStep wire incoming before after) :
    after.BookkeepingAgrees ↔ NoResubmission wire before incoming := by
  have hnone (hsubmits : incoming.submits? wire = none) : NoResubmission wire before incoming := by
    intro id hid
    rw [hsubmits] at hid
    cases hid
  cases hstep with
  | ignored hsubmits _ hsame =>
    subst hsame
    exact iff_of_true h (hnone hsubmits)
  | submitted task hsubmits _ hcompleted _ _ htasks hpending hallCompleted =>
    rw [agrees_submitted h hcompleted htasks hpending hallCompleted, NoResubmission, hsubmits]
    constructor
    · intro hfresh id hid
      exact Option.some.inj hid ▸ hfresh
    · intro hfresh
      exact hfresh task.id rfl
  | reported id completed started engine hsubmits _ _ htasks hpending hallCompleted =>
    refine iff_of_true (agrees_reported h ?_ ?_ htasks hpending hallCompleted) (hnone hsubmits)
    · intro t
      rfl
    · intro t
      exact Option.some_ne_none completed
  | moved id eid hsubmits _ htasks hpending hallCompleted =>
    refine iff_of_true (agrees_moved h ?_ ?_ htasks hpending hallCompleted) (hnone hsubmits)
    · intro t
      rfl
    · intro t
      rfl

/-- A completed id stays a completed one. -/
theorem allCompleted_step (hstep : MonitorStep wire incoming before after) :
    before.allCompleted ⊆ after.allCompleted := by
  intro id hid
  cases hstep with
  | ignored _ _ hsame => exact hsame ▸ hid
  | submitted _ _ _ _ _ _ _ _ hallCompleted => exact hallCompleted ▸ hid
  | reported _ _ _ _ _ _ _ _ _ hallCompleted =>
    rw [hallCompleted, mem_allCompleted_complete]
    exact .inl hid
  | moved _ _ _ _ _ _ hallCompleted => exact hallCompleted ▸ hid

/-- As long as the sets and records agree, no completed id becomes pending again. -/
theorem neverPendingAgain_of_always {start : TaskTracker} {messages : List Incoming}
    (h : Always (Monitored wire) BookkeepingAgrees start messages) :
    NeverPendingAgain wire start messages := by
  intro first second s t hprefix hfirst hsecond id hid hpending
  obtain ⟨rest, rfl⟩ := hprefix
  have hkept : id ∈ t.allCompleted :=
    hsecond.preserves (fun tracker => id ∈ tracker.allCompleted)
      (fun _ _ _ hmem hstep => allCompleted_step (dispatchMonitorTraffic_step hstep) hmem) hid
  have hagrees : t.BookkeepingAgrees := by
    have hwhole : Always (Monitored wire) BookkeepingAgrees start (first ++ second) :=
      ⟨h.1, h.2.left⟩
    exact hwhole.run (hfirst.append hsecond)
  exact hagrees.disjoint id hpending hkept

end TaskTracker

/-- Whatever messages are handled from the empty tracker on: the sets and records agree and no
completed id becomes pending again, exactly when no message submits a completed id. -/
theorem bookkeeping_agrees_iff (wire : Wire) (messages : List Incoming) :
    (Always (TaskTracker.Monitored wire) TaskTracker.BookkeepingAgrees {} messages ∧
        TaskTracker.NeverPendingAgain wire {} messages) ↔
      Throughout (TaskTracker.Monitored wire)
        (fun tracker incoming _ => TaskTracker.NoResubmission wire tracker incoming) {} messages := by
  have hempty : TaskTracker.BookkeepingAgrees {} :=
    ⟨fun id hid => absurd hid (Finset.notMem_empty id),
      fun task htask => absurd htask (KeyedTable.notMem_empty task),
      fun task htask => absurd htask (KeyedTable.notMem_empty task)⟩
  rw [and_iff_left_of_imp TaskTracker.neverPendingAgain_of_always]
  refine always_iff_throughout (fun _ => True) ?_ ?_ trivial hempty messages
  · intro _ _ _ _ _
    trivial
  · intro before incoming after _ h hstep
    exact TaskTracker.agrees_step h (TaskTracker.dispatchMonitorTraffic_step hstep)

/-- The task of the session is submitted again after its result: it is pending and completed. -/
theorem session_task_resubmitted :
    ¬Always (TaskTracker.Monitored .session) TaskTracker.BookkeepingAgrees {}
        [.submission, .result, .submission] ∧
      ¬TaskTracker.NeverPendingAgain .session {} [.submission, .result, .submission] := by
  obtain ⟨s, hfirst, hcompleted, hrest⟩ := TaskTracker.exists_run .session {} [.submission, .result]
    (fun s => "t" ∈ s.allCompleted ∧ (s.handleAll .session [.submission]).any (fun t =>
      decide ("t" ∈ t.pending ∧ "t" ∈ t.allCompleted)) = true) (by decide)
  obtain ⟨t, hsecond, hpending, hstill⟩ := TaskTracker.exists_run _ _ _ _ hrest
  constructor
  · intro h
    exact (h.run (hfirst.append hsecond)).disjoint "t" hpending hstill
  · intro h
    exact h (List.prefix_refl _) hfirst hsecond "t" hcompleted hpending

end Gpf
