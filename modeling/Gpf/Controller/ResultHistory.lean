import Gpf.Controller.TaskStep

/-!
# The history of the results

Beside a run we keep which result message was last recorded for each task. In every reachable state
the records agree with this history, except for their content: no handler ever writes
`result_content`.
-/

namespace Gpf

open Transition

/-- The result message last recorded for each id which has a record. -/
abbrev ResultHistory := String → Option Incoming

/-- The result which an event reports for an id. -/
def Event.resultFor (wire : Wire) (e : Event) (id : String) : Option Incoming :=
  match e with
  | .monitor incoming => if incoming.reports? wire = some id then some incoming else none
  | _ => none

/-- What becomes of the history in a step: it forgets the ids without a record, and a result takes the
place of the one before. -/
def ResultHistory.next (wire : Wire) (after : TaskTracker) (e : Event) (history : ResultHistory) :
    ResultHistory := fun id =>
  if (after.tasks.find? id).isNone then none else (e.resultFor wire id).or (history id)

/-- A step of the system together with the history. -/
def Recorded (wire : Wire) (s : System × ResultHistory) (e : Event) (t : System × ResultHistory) :
    Prop :=
  System.Step wire s.1 e t.1 ∧ t.2 = s.2.next wire t.1.hub.ttracker e

/-- The state and the history after a list of events, computed. -/
def Recorded.run (wire : Wire) (s : System × ResultHistory) (es : List Event) :
    Option (System × ResultHistory) :=
  es.foldlM (fun s e => (s.1.next wire e).map fun t => (t, s.2.next wire t.hub.ttracker e)) s

/-- What is computed of the last state and history holds at the end of a run. -/
theorem Recorded.exists_run (wire : Wire) (s : System × ResultHistory) (es : List Event)
    (P : System × ResultHistory → Prop) [DecidablePred P]
    (h : (Recorded.run wire s es).any (fun t => decide (P t)) = true) :
    ∃ t, Run (Recorded wire) s es t ∧ P t := by
  refine Transition.exists_run ?_ s es P h
  intro s e t hnext
  obtain ⟨next, hstep, rfl⟩ := Option.map_eq_some_iff.mp hnext
  exact ⟨hstep, rfl⟩

/-- The records agree with the history, but their content is always empty. -/
structure HistoryAgrees (tracker : TaskTracker) (history : ResultHistory) : Prop where
  outgoing : ∀ task ∈ tracker.tasks, task.outgoingMsg = history task.id
  completed : ∀ task ∈ tracker.tasks, task.completed.isSome = (history task.id).isSome
  content : ∀ task ∈ tracker.tasks, task.resultContent = ""
  absent : ∀ id, (∀ task ∈ tracker.tasks, task.id ≠ id) → history id = none

namespace ResultHistory

variable {wire : Wire} {before after : TaskTracker} {e : Event} {history : ResultHistory}

/-- Ids without a record have no history. -/
theorem next_absent {id : String} (h : ∀ task ∈ after.tasks, task.id ≠ id) :
    history.next wire after e id = none := by
  simp only [next, KeyedTable.find?_eq_none.mpr h, Option.isNone_none, if_true]

/-- A record has the result of the event for its history, or else the former one. -/
theorem next_of_mem {task : Task} (htask : task ∈ after.tasks) :
    history.next wire after e task.id = (e.resultFor wire task.id).or (history task.id) := by
  have hfind : after.tasks.find? task.id = some task := KeyedTable.find?_eq_some.mpr ⟨htask, rfl⟩
  simp [next, hfind]

/-- A record keeps its history unless the event is a result for it. -/
theorem next_kept {task : Task} (htask : task ∈ after.tasks)
    (he : ∀ incoming, e = .monitor incoming → incoming.reports? wire ≠ some task.id) :
    history.next wire after e task.id = history task.id := by
  have hnone : e.resultFor wire task.id = none := by
    cases e with
    | monitor incoming => exact if_neg (he incoming rfl)
    | _ => rfl
  rw [next_of_mem htask, hnone, Option.none_or]

/-- A result for a record becomes its history. -/
theorem next_reported {task : Task} {incoming : Incoming} (htask : task ∈ after.tasks)
    (hreports : incoming.reports? wire = some task.id) :
    history.next wire after (.monitor incoming) task.id = some incoming := by
  have hsome : Event.resultFor wire (.monitor incoming) task.id = some incoming := if_pos hreports
  rw [next_of_mem htask, hsome, Option.some_or]

end ResultHistory

namespace HistoryAgrees

variable {wire : Wire} {before after : TaskTracker} {e : Event} {history : ResultHistory}

/-- What a record of an agreeing tracker holds. -/
theorem record (h : HistoryAgrees before history) {task : Task} (htask : task ∈ before.tasks) :
    task.outgoingMsg = history task.id ∧ task.completed.isSome = (history task.id).isSome ∧
      task.resultContent = "" :=
  ⟨h.outgoing task htask, h.completed task htask, h.content task htask⟩

/-- Only the records have to agree: without one, the next history is empty. -/
theorem of_records
    (hrecords : ∀ task ∈ after.tasks, task.outgoingMsg = history.next wire after e task.id ∧
      task.completed.isSome = (history.next wire after e task.id).isSome ∧ task.resultContent = "") :
    HistoryAgrees after (history.next wire after e) where
  outgoing task htask := (hrecords task htask).1
  completed task htask := (hrecords task htask).2.1
  content task htask := (hrecords task htask).2.2
  absent _ hid := ResultHistory.next_absent hid

/-- Without a result among the events, records that stay agree as before. -/
theorem of_subset (h : HistoryAgrees before history)
    (he : ∀ task ∈ after.tasks, ∀ incoming, e = .monitor incoming →
      incoming.reports? wire ≠ some task.id)
    (htasks : ∀ task ∈ after.tasks, task ∈ before.tasks) :
    HistoryAgrees after (history.next wire after e) := by
  apply of_records
  intro task htask
  rw [ResultHistory.next_kept htask (he task htask)]
  exact h.record (htasks task htask)

/-- A submission brings in an unfinished record, whose id had no history. -/
theorem submitted {incoming : Incoming} {task : Task} (h : HistoryAgrees before history)
    (hreports : incoming.reports? wire = none) (hcompleted : task.completed = none)
    (houtgoing : task.outgoingMsg = none) (hcontent : task.resultContent = "")
    (htasks : after.tasks = before.tasks.insert task) :
    HistoryAgrees after (history.next wire after (.monitor incoming)) := by
  apply of_records
  intro t ht
  have hnext : history.next wire after (.monitor incoming) t.id = history t.id := by
    apply ResultHistory.next_kept ht
    intro incoming' heq hreported
    rw [← Event.monitor.inj heq, hreports] at hreported
    cases hreported
  rw [hnext]
  rw [htasks, KeyedTable.mem_insert] at ht
  rcases ht with hold | ⟨rfl, hfresh⟩
  · exact h.record hold
  · rw [h.absent t.id hfresh, houtgoing, hcompleted]
    exact ⟨rfl, rfl, hcontent⟩

/-- A result is kept in the record it is for, and becomes its history. -/
theorem reported {incoming : Incoming} {id : String} {f : Task → Task}
    (h : HistoryAgrees before history) (hreports : incoming.reports? wire = some id)
    (hid : ∀ t, (f t).id = t.id) (houtgoing : ∀ t, (f t).outgoingMsg = some incoming)
    (hcompleted : ∀ t, (f t).completed.isSome) (hcontent : ∀ t, (f t).resultContent = t.resultContent)
    (htasks : TaskSet.Changes before.tasks after.tasks id f) :
    HistoryAgrees after (history.next wire after (.monitor incoming)) := by
  apply of_records
  intro t' ht'
  obtain ⟨t, ht, heq⟩ := (htasks t').mp ht'
  by_cases hsame : t.id = id
  · rw [if_pos hsame] at heq
    have hreported : incoming.reports? wire = some t'.id := by rw [heq, hid, hsame, hreports]
    rw [ResultHistory.next_reported ht' hreported, heq, houtgoing, hcompleted, hcontent]
    exact ⟨rfl, rfl, h.content t ht⟩
  · rw [if_neg hsame] at heq
    have hkept : history.next wire after (.monitor incoming) t'.id = history t'.id := by
      apply ResultHistory.next_kept ht'
      intro incoming' hincoming hreported
      rw [← Event.monitor.inj hincoming, hreports, heq] at hreported
      exact hsame (Option.some.inj hreported).symm
    rw [hkept, heq]
    exact h.record ht

/-- A move to another engine changes nothing that the history is about. -/
theorem moved {incoming : Incoming} {id : String} {eid : ℤ} (h : HistoryAgrees before history)
    (hreports : incoming.reports? wire = none)
    (htasks : TaskSet.Changes before.tasks after.tasks id fun t => { t with engineUuid := eid }) :
    HistoryAgrees after (history.next wire after (.monitor incoming)) := by
  apply of_records
  intro t' ht'
  have hkept : history.next wire after (.monitor incoming) t'.id = history t'.id := by
    apply ResultHistory.next_kept ht'
    intro incoming' heq hreported
    rw [← Event.monitor.inj heq, hreports] at hreported
    cases hreported
  rw [hkept]
  obtain ⟨t, ht, rfl⟩ := (htasks t').mp ht'
  have hrecord := h.record ht
  by_cases hid : t.id = id
  · rw [if_pos hid]
    exact hrecord
  · rw [if_neg hid]
    exact hrecord

/-- Monitor messages keep the records in agreement with the history. -/
theorem monitorStep {incoming : Incoming} (h : HistoryAgrees before history)
    (hstep : MonitorStep wire incoming before after) :
    HistoryAgrees after (history.next wire after (.monitor incoming)) := by
  cases hstep with
  | ignored _ hreports hsame =>
    subst hsame
    apply h.of_subset _ fun _ htask => htask
    intro task htask incoming' heq hreported
    rw [← Event.monitor.inj heq] at hreported
    exact hreports task.id hreported task htask rfl
  | submitted task _ hreports hcompleted houtgoing hcontent htasks _ _ =>
    exact h.submitted hreports hcompleted houtgoing hcontent htasks
  | reported id completed started engine _ hreports _ htasks _ _ =>
    apply h.reported hreports _ _ _ _ htasks
    all_goals exact fun _ => rfl
  | moved id eid _ hreports htasks _ _ => exact h.moved hreports htasks

/-- The records which a purge by message ids leaves were there before. -/
theorem mem_purgeMsgIds {tracker : TaskTracker} {ids : List String} {task : Task}
    (h : task ∈ (Hub.purgeMsgIds tracker ids).1.tasks) : task ∈ tracker.tasks := by
  induction ids generalizing tracker with
  | nil => exact h
  | cons id ids ih =>
    rw [Hub.purgeMsgIds] at h
    by_cases hid : id ∈ tracker.pending
    · rw [if_pos hid] at h
      exact h
    · rw [if_neg hid] at h
      exact (KeyedTable.mem_erase.mp (ih h)).1

/-- Every event keeps the records in agreement with the history. -/
theorem taskStep (h : HistoryAgrees before history) (hstep : TaskStep wire e before after) :
    HistoryAgrees after (history.next wire after e) := by
  cases hstep with
  | same hmonitor _ hsame =>
    subst hsame
    exact h.of_subset (fun _ _ incoming he => absurd he (hmonitor incoming)) fun _ htask => htask
  | monitored incoming he hmonitor =>
    subst he
    exact h.monitorStep hmonitor
  | purgedAll hmonitor _ hafter =>
    subst hafter
    refine h.of_subset (fun _ _ incoming he => absurd he (hmonitor incoming)) fun task htask => ?_
    exact absurd htask (KeyedTable.notMem_empty task)
  | purged ids hmonitor _ hafter =>
    subst hafter
    exact h.of_subset (fun _ _ incoming he => absurd he (hmonitor incoming)) fun _ htask =>
      mem_purgeMsgIds htask

/-- The records agree with the history in every state that a run reaches. -/
theorem reachable {interval : ℤ} {s : System × ResultHistory}
    (h : Reachable (Recorded wire) (System.initial interval, fun _ => none) s) :
    HistoryAgrees s.1.hub.ttracker s.2 := by
  have hboth : RegistryInvariant s.1.hub ∧ HistoryAgrees s.1.hub.ttracker s.2 := by
    refine h.preserves (fun s => RegistryInvariant s.1.hub ∧ HistoryAgrees s.1.hub.ttracker s.2) ?_ ?_
    · refine ⟨.create interval, ?_, ?_, ?_, fun _ _ => rfl⟩
      all_goals exact fun task htask => absurd htask (KeyedTable.notMem_empty task)
    · rintro ⟨s, history⟩ e ⟨t, history'⟩ ⟨inv, hagrees⟩ ⟨hstep, hhistory⟩
      refine ⟨inv.step hstep, ?_⟩
      simp only at hhistory
      rw [hhistory]
      exact hagrees.taskStep (System.step_tasks inv.engine_idle hstep)
  exact hboth.2

end HistoryAgrees

end Gpf
