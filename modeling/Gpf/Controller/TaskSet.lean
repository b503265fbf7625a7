import Gpf.Library.KeyedTable
import Gpf.Controller.Messages

/-!
# Tasks and the task tracker

The tracker holds one record for each task id, and beside the records three sets of ids. The
handlers update records and sets separately, so nothing here makes them agree.
-/

namespace Gpf

/-- A task record. Each `ptime` is `none` while it is `not_a_date_time`. -/
structure Task where
  id : String
  engineUuid : ℤ
  queue : String
  submitted : Option Time := none
  started : Option Time := none
  completed : Option Time := none
  content : String := ""
  resultContent : String := ""
  incomingMsg : Option Incoming := none
  outgoingMsg : Option Incoming := none
deriving DecidableEq

/-- `task_set`, unique by task id. -/
abbrev TaskSet := KeyedTable Task Task.id

/-- `task_tracker`. -/
structure TaskTracker where
  tasks : TaskSet := .empty
  pending : Finset String := ∅
  allCompleted : Finset String := ∅
  unassigned : Finset String := ∅

namespace TaskTracker

/-- Write the mutable fields of the record which an iterator points to. -/
def modifyTask (tracker : TaskTracker) (id : String) (f : Task → Task)
    (hf : ∀ t, (f t).id = t.id := by exact fun _ => rfl) : TaskTracker :=
  { tracker with tasks := tracker.tasks.modify id f hf }

/-- A submission: the id becomes pending, and the record is inserted unless its id has one. -/
def submit (tracker : TaskTracker) (task : Task) : TaskTracker :=
  { tracker with
    pending := insert task.id tracker.pending
    tasks := tracker.tasks.insert task }

/-- A result: a pending id becomes a completed one, any other stays where it is. -/
def complete (tracker : TaskTracker) (id : String) : TaskTracker :=
  if id ∈ tracker.pending then
    { tracker with
      pending := tracker.pending.erase id
      allCompleted := insert id tracker.allCompleted }
  else tracker

/-- Replace the record of a task which has moved to another engine. -/
def reassign (tracker : TaskTracker) (id : String) (eid : ℤ) : TaskTracker :=
  match tracker.tasks.find? id with
  | none => tracker
  | some task =>
    if eid ≠ task.engineUuid then
      { tracker with tasks := tracker.tasks.replace { task with engineUuid := eid } }
    else tracker

end TaskTracker

end Gpf
