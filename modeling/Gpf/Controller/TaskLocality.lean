import Gpf.Controller.TaskBookkeeping

/-!
# The tracker as a family of independent tasks

What the tracker holds of a task is its record and whether its id is in each of the three sets. A
monitor message acts on one task, and what it does depends on nothing that is held of another. So
messages about different tasks may be reordered, and a repeated result or destination is absorbed.
-/

namespace Gpf

open Transition

/-- What the tracker holds of one task. -/
structure TaskView where
  record : Option Task := none
  pending : Bool := false
  completed : Bool := false
  unassigned : Bool := false
deriving DecidableEq

/-- What is held of the task with the given id. -/
def TaskTracker.view (tracker : TaskTracker) (id : String) : TaskView where
  record := tracker.tasks.find? id
  pending := decide (id ∈ tracker.pending)
  completed := decide (id ∈ tracker.allCompleted)
  unassigned := decide (id ∈ tracker.unassigned)

/-- What a monitor message has happen to a task. -/
inductive TaskAction
  | submit (task : Task) (unassigned : Bool)
  | report (id : String) (completed started : Option Time) (outgoing : Incoming) (engine : Option ℤ)
  | move (id : String) (engine : ℤ)

namespace TaskAction

/-- The task that an action is about. -/
def id : TaskAction → String
  | submit task _ => task.id
  | report id _ _ _ _ => id
  | move id _ => id

/-- The effect of an action on its task; results and moves of an unknown task are dropped. -/
def effect : TaskAction → TaskView → TaskView
  | submit task unassigned, v =>
    { v with
      record := v.record.or (some task)
      pending := true
      unassigned := v.unassigned || unassigned }
  | report _ completed started outgoing engine, v =>
    match v.record with
    | none => v
    | some task =>
      { record := some { task with
          completed := completed
          started := started
          outgoingMsg := some outgoing
          engineUuid := engine.getD task.engineUuid }
        pending := false
        completed := v.completed || v.pending
        unassigned := v.unassigned && engine.isNone }
  | move _ engine, v =>
    match v.record with
    | none => v
    | some task =>
      { v with
        record := some { task with engineUuid := engine }
        unassigned := false }

end TaskAction

/-- The action that a monitor message asks for, if its header parses. -/
def Incoming.action? (wire : Wire) (incoming : Incoming) : Option TaskAction :=
  match incoming.type with
  | "in" => (wire.inMsg incoming.header).map fun msg =>
      .submit
        { id := msg.msgId
          incomingMsg := some incoming
          engineUuid := msg.eid
          submitted := TaskTracker.timestamp wire msg.submitted
          queue := "mux" } false
  | "out" => (wire.outMsg incoming.header).map fun msg =>
      .report msg.msgId (TaskTracker.timestamp wire msg.completed)
        (TaskTracker.timestamp wire msg.started) incoming none
  | "intask" => (wire.intask incoming.header).map fun msg =>
      .submit
        { id := msg.msgId
          incomingMsg := some incoming
          engineUuid := msg.eid.getD (-1)
          submitted := TaskTracker.timestamp wire msg.submitted
          queue := "task" } msg.eid.isSome
  | "outtask" => (wire.outtask incoming.header).map fun msg =>
      .report msg.msgId (TaskTracker.timestamp wire msg.completed)
        (TaskTracker.timestamp wire msg.started) incoming (if msg.hasEid then some msg.eid else none)
  | "tracktask" => (wire.tracktask incoming.header).map fun msg => .move msg.msgId msg.eid
  | _ => none

/-- The task that a monitor message is about, if its header parses. -/
def Incoming.taskId? (wire : Wire) (incoming : Incoming) : Option String :=
  (incoming.action? wire).map TaskAction.id

/-- The effect of a monitor message on the task it is about. -/
def Incoming.effect (wire : Wire) (incoming : Incoming) (v : TaskView) : TaskView :=
  match incoming.action? wire with
  | none => v
  | some action => action.effect v

namespace TaskTracker

/-- One task has been acted on, and everything held of the others is as before. -/
def Acts (before after : TaskTracker) (id : String) (f : TaskView → TaskView) : Prop :=
  ∀ id', after.view id' = if id = id' then f (before.view id') else before.view id'

/-- An action is known by what becomes of its task and of the others. -/
theorem Acts.of_view {before after : TaskTracker} {id : String} {f : TaskView → TaskView}
    (htask : after.view id = f (before.view id))
    (hothers : ∀ id', id ≠ id' → after.view id' = before.view id') : Acts before after id f := by
  intro id'
  by_cases hid : id = id'
  · rw [if_pos hid, ← hid, htask]
  · rw [if_neg hid, hothers id' hid]

/-- Two actions on the same task are one. -/
theorem Acts.trans {first second third : TaskTracker} {id : String} {f g : TaskView → TaskView}
    (h : Acts first second id f) (h' : Acts second third id g) :
    Acts first third id fun v => g (f v) := by
  intro id'
  rw [h', h]
  by_cases hid : id = id'
  · rw [if_pos hid, if_pos hid, if_pos hid]
  · rw [if_neg hid, if_neg hid, if_neg hid]

/-- Only what an action does to the present state of its task matters. -/
theorem Acts.congr {before after : TaskTracker} {id : String} {f g : TaskView → TaskView}
    (h : Acts before after id f) (hfg : f (before.view id) = g (before.view id)) :
    Acts before after id g := by
  intro id'
  rw [h]
  by_cases hid : id = id'
  · rw [if_pos hid, if_pos hid, ← hid, hfg]
  · rw [if_neg hid, if_neg hid]

/-- An action which changes nothing. -/
theorem Acts.refl (tracker : TaskTracker) (id : String) : Acts tracker tracker id fun v => v :=
  fun _ => (ite_self _).symm

/-- A submission acts on its task. -/
theorem acts_submit (tracker : TaskTracker) (task : Task) :
    Acts tracker (tracker.submit task) task.id (TaskAction.effect (.submit task false)) := by
  intro id
  have hrecord : (tracker.submit task).tasks.find? id =
      if task.id = id then (tracker.tasks.find? id).or (some task) else tracker.tasks.find? id :=
    KeyedTable.find?_insert
  have hpending : id ∈ (tracker.submit task).pending ↔ id = task.id ∨ id ∈ tracker.pending :=
    Finset.mem_insert
  by_cases hid : task.id = id
  · rw [view, hrecord, if_pos hid, if_pos hid, decide_eq_true (hpending.mpr (.inl hid.symm))]
    simp only [TaskAction.effect, Bool.or_false]
    rfl
  · rw [view, hrecord, if_neg hid, if_neg hid, decide_eq_decide.mpr (hpending.trans (or_iff_right (Ne.symm hid)))]
    rfl

/-- Writing the fields of a record acts on its task. -/
theorem acts_modifyTask (tracker : TaskTracker) (id : String) (f : Task → Task)
    (hf : ∀ t, (f t).id = t.id) :
    Acts tracker (tracker.modifyTask id f hf) id fun v => { v with record := v.record.map f } := by
  intro id'
  have hrecord : (tracker.modifyTask id f hf).tasks.find? id' =
      if id = id' then (tracker.tasks.find? id').map f else tracker.tasks.find? id' :=
    KeyedTable.find?_modify hf
  by_cases hid : id = id'
  · rw [view, hrecord, if_pos hid, if_pos hid]
    rfl
  · rw [view, hrecord, if_neg hid, if_neg hid]
    rfl

/-- A result moves its task from the pending to the completed ones. -/
theorem acts_complete (tracker : TaskTracker) (id : String) :
    Acts tracker (tracker.complete id) id fun v =>
      { v with pending := false, completed := v.completed || v.pending } := by
  by_cases hpending : id ∈ tracker.pending
  · apply Acts.of_view
    · simp [complete, view, hpending]
    · intro id' hid
      simp [complete, view, hpending, Ne.symm hid]
  · apply Acts.of_view
    · simp [complete, view, hpending]
    · intro id' _
      simp [complete, view, hpending]

/-- A task which is taken out of the unassigned ones. -/
theorem acts_assign (tracker : TaskTracker) (id : String) :
    Acts tracker { tracker with unassigned := tracker.unassigned.erase id } id fun v =>
      { v with unassigned := false } := by
  apply Acts.of_view
  · simp [view]
  · intro id' hid
    simp [view, Ne.symm hid]

/-- A submitted task is put among the unassigned ones if its message says so. -/
theorem acts_unassign (tracker : TaskTracker) (id : String) (b : Bool) :
    Acts tracker
      (if b then { tracker with unassigned := insert id tracker.unassigned } else tracker) id
      fun v => { v with unassigned := v.unassigned || b } := by
  cases b with
  | false => simp [Acts]
  | true =>
    apply Acts.of_view
    · simp [view]
    · intro id' hid
      simp [view, Ne.symm hid]

/-- Moving a task writes the engine into its record. -/
theorem acts_reassign (tracker : TaskTracker) (id : String) (eid : ℤ) :
    Acts tracker (tracker.reassign id eid) id fun v =>
      { v with record := v.record.map fun t => { t with engineUuid := eid } } := by
  unfold reassign
  cases hfind : tracker.tasks.find? id with
  | none =>
    apply Acts.of_view
    · simp [view, hfind]
    · exact fun _ _ => rfl
  | some task =>
    have htask := (KeyedTable.find?_eq_some.mp hfind).2
    by_cases hengine : eid = task.engineUuid
    · apply Acts.of_view
      · simp [view, hfind, hengine]
      · intro id' _
        simp [hengine]
    · apply Acts.of_view
      · simp [view, hfind, hengine, KeyedTable.find?_replace, htask]
      · intro id' hid
        simp [view, hengine, KeyedTable.find?_replace, htask, hid]

variable {wire : Wire} {before after : TaskTracker} {incoming : Incoming}

/-- A stamped result writes both timestamps and the message into the record. -/
theorem acts_stampResult {id : String} {completed started : Option String}
    (h : stampResult wire before id completed started incoming = .returned after) :
    Acts before after id fun v =>
      { v with record := v.record.map fun t =>
        { t with
          completed := timestamp wire completed
          started := timestamp wire started
          outgoingMsg := some incoming } } := by
  obtain ⟨completedTime, startedTime, hcompleted, hstarted, rfl⟩ :=
    (stampResult_eq_returned wire).mp h
  apply ((acts_modifyTask before id _ _).trans (acts_modifyTask _ id _ _)).congr
  simp only [Option.map_map, hcompleted, hstarted]
  rfl

/-- A result of an unknown task has no effect. -/
theorem effect_report_none {id : String} {completed started : Option Time} {engine : Option ℤ}
    (hfind : before.tasks.find? id = none) :
    TaskAction.effect (.report id completed started incoming engine) (before.view id) =
      before.view id := by
  have hrecord : (before.view id).record = none := hfind
  simp only [TaskAction.effect, hrecord]

/-- What a message does when its handler returns: it acts on its task as the action says. -/
def Handles (wire : Wire) (incoming : Incoming) (before after : TaskTracker) : Prop :=
  match incoming.action? wire with
  | none => after = before
  | some action => Acts before after action.id action.effect

/-- What an `in` message does. -/
theorem saveQueueRequest_handles (htype : incoming.type = "in")
    (h : saveQueueRequest wire before incoming = .returned after) :
    Handles wire incoming before after := by
  unfold Handles Incoming.action?
  rw [htype]
  rcases saveQueueRequest_cases wire before incoming with
    ⟨hparse, hends⟩ | ⟨msg, hparse, ⟨-, hends⟩ | ⟨submitted, htime, hends⟩⟩
  · cases hends.symm.trans h
    simp only [hparse, Option.map_none]
  · cases hends.symm.trans h
  · cases hends.symm.trans h
    simp only [hparse, Option.map_some, htime]
    exact acts_submit before _

/-- What an `intask` message does. -/
theorem saveTaskRequest_handles (htype : incoming.type = "intask")
    (h : saveTaskRequest wire before incoming = .returned after) :
    Handles wire incoming before after := by
  unfold Handles Incoming.action?
  rw [htype]
  rcases saveTaskRequest_cases wire before incoming with
    ⟨hparse, hends⟩ | ⟨msg, hparse, ⟨-, hends⟩ | ⟨submitted, htime, hends⟩⟩
  · cases hends.symm.trans h
    simp only [hparse, Option.map_none]
  · cases hends.symm.trans h
  · cases hends.symm.trans h
    simp only [hparse, Option.map_some, htime]
    apply ((acts_unassign before msg.msgId msg.eid.isSome).trans (acts_submit _ _)).congr
    simp [TaskAction.effect]

/-- What an `out` message does. -/
theorem saveQueueResult_handles (htype : incoming.type = "out")
    (h : saveQueueResult wire before incoming = .returned after) :
    Handles wire incoming before after := by
  unfold Handles Incoming.action?
  rw [htype]
  rcases saveQueueResult_cases wire before incoming with
    ⟨hparse, hends⟩ | ⟨msg, hparse, ⟨hfind, hends⟩ | ⟨task, hfind, hends⟩⟩
  · cases hends.symm.trans h
    simp only [hparse, Option.map_none]
  · cases hends.symm.trans h
    simp only [hparse, Option.map_some]
    exact (Acts.refl _ msg.msgId).congr (effect_report_none hfind).symm
  · rw [hends] at h
    have hrecord : (before.view msg.msgId).record = some task := hfind
    simp only [hparse, Option.map_some]
    apply ((acts_complete before msg.msgId).trans (acts_stampResult h)).congr
    simp [TaskAction.effect, hrecord]

/-- What an `outtask` message does. -/
theorem saveTaskResult_handles (htype : incoming.type = "outtask")
    (h : saveTaskResult wire before incoming = .returned after) :
    Handles wire incoming before after := by
  unfold Handles Incoming.action?
  rw [htype]
  rcases saveTaskResult_cases wire before incoming with
    ⟨hparse, hends⟩ | ⟨msg, hparse, ⟨hfind, hends⟩ | ⟨task, hfind, hends⟩⟩
  · cases hends.symm.trans h
    simp only [hparse, Option.map_none]
  · cases hends.symm.trans h
    simp only [hparse, Option.map_some]
    exact (Acts.refl _ msg.msgId).congr (effect_report_none hfind).symm
  · rw [hends] at h
    have hrecord : (before.view msg.msgId).record = some task := hfind
    simp only [hparse, Option.map_some]
    split at h
    · cases h
    · rename_i stamped hstamp
      cases h
      have hassigned := acts_assign before msg.msgId
      have hcompleted := hassigned.trans (acts_complete _ msg.msgId)
      have hstamped := hcompleted.trans (acts_stampResult hstamp)
      apply (hstamped.trans (acts_reassign stamped msg.msgId msg.eid)).congr
      simp [TaskAction.effect, hrecord, Outtask.hasEid]

/-- What a `tracktask` message does. -/
theorem saveTaskDestination_handles (htype : incoming.type = "tracktask")
    (h : saveTaskDestination wire before incoming = .returned after) :
    Handles wire incoming before after := by
  unfold Handles Incoming.action?
  rw [htype]
  rcases saveTaskDestination_cases wire before incoming with
    ⟨hparse, hends⟩ | ⟨msg, hparse, ⟨hfind, hends⟩ | ⟨task, hfind, hends⟩⟩
  · cases hends.symm.trans h
    simp only [hparse, Option.map_none]
  · cases hends.symm.trans h
    have hrecord : (before.view msg.msgId).record = none := hfind
    simp only [hparse, Option.map_some]
    apply (Acts.refl _ msg.msgId).congr
    simp [TaskAction.effect, hrecord]
  · cases hends.symm.trans h
    have hrecord : (before.view msg.msgId).record = some task := hfind
    have hassigned := acts_assign before msg.msgId
    simp only [hparse, Option.map_some]
    apply (hassigned.trans (acts_reassign _ msg.msgId msg.eid)).congr
    simp [TaskAction.effect, hrecord]

/-- Every monitor message whose handler returns acts on its task only. -/
theorem dispatchMonitorTraffic_handles (h : dispatchMonitorTraffic wire before incoming = .returned after) :
    Handles wire incoming before after := by
  unfold dispatchMonitorTraffic at h
  split at h
  · rename_i htype
    exact saveQueueRequest_handles htype h
  · rename_i htype
    exact saveQueueResult_handles htype h
  · rename_i htype
    exact saveTaskRequest_handles htype h
  · rename_i htype
    exact saveTaskResult_handles htype h
  · rename_i htype
    exact saveTaskDestination_handles htype h
  · cases h
    simp [Handles, Incoming.action?]

/-- The same, in terms of what is held of each task. -/
theorem view_monitored (wire : Wire) (before : TaskTracker) (incoming : Incoming) (after : TaskTracker)
    (h : Monitored wire before incoming after) (id : String) : after.view id =
      if incoming.taskId? wire = some id then incoming.effect wire (before.view id)
      else before.view id := by
  have hhandles := dispatchMonitorTraffic_handles h
  unfold Handles at hhandles
  unfold Incoming.taskId? Incoming.effect
  cases haction : incoming.action? wire with
  | none =>
    rw [haction] at hhandles
    rw [hhandles]
    simp
  | some action =>
    rw [haction] at hhandles
    rw [hhandles id]
    simp

/-- The trackers hold the same records, and the same ids in each set. -/
structure SameTasks (s t : TaskTracker) : Prop where
  tasks : ∀ task, task ∈ s.tasks ↔ task ∈ t.tasks
  pending : s.pending = t.pending
  allCompleted : s.allCompleted = t.allCompleted
  unassigned : s.unassigned = t.unassigned

/-- Trackers which hold the same of every task hold the same. -/
theorem sameTasks_of_view {s t : TaskTracker} (h : ∀ id, s.view id = t.view id) : SameTasks s t where
  tasks := KeyedTable.mem_congr fun id => congrArg TaskView.record (h id)
  pending := Finset.ext fun id => decide_eq_decide.mp (congrArg TaskView.pending (h id))
  allCompleted := Finset.ext fun id => decide_eq_decide.mp (congrArg TaskView.completed (h id))
  unassigned := Finset.ext fun id => decide_eq_decide.mp (congrArg TaskView.unassigned (h id))

/-- Messages whose timestamps parse are all handled to the end. -/
theorem exists_handleAll (tracker : TaskTracker) {messages : List Incoming}
    (htimed : ∀ m ∈ messages, m.Timed wire) :
    ∃ t, tracker.handleAll wire messages = some t ∧ Run (Monitored wire) tracker messages t := by
  have hstep : ∀ (s : TaskTracker) (m : Incoming), m.Timed wire → ∃ t, Monitored wire s m t :=
    fun s m hm => dispatchMonitorTraffic_returned s hm
  obtain ⟨t, hrun⟩ := exists_run_of_forall hstep tracker messages htimed
  refine ⟨t, hrun.foldlM ?_, hrun⟩
  intro before incoming after hmonitored
  rw [show before.dispatchMonitorTraffic wire incoming = .returned after from hmonitored]
  rfl

end TaskTracker

/-- A repeated result or destination has no further effect. -/
theorem Incoming.effect_effect {wire : Wire} {incoming : Incoming}
    (htype : incoming.type = "out" ∨ incoming.type = "outtask" ∨ incoming.type = "tracktask")
    (v : TaskView) : incoming.effect wire (incoming.effect wire v) = incoming.effect wire v := by
  have hidempotent : ∀ action : TaskAction, (∀ task b, action ≠ .submit task b) →
      action.effect (action.effect v) = action.effect v := by
    intro action haction
    cases action with
    | submit task b => exact absurd rfl (haction task b)
    | report id completed started outgoing engine =>
      cases hrecord : v.record with
      | none => simp [TaskAction.effect, hrecord]
      | some task => cases engine <;> simp [TaskAction.effect, hrecord]
    | move id engine =>
      cases hrecord : v.record with
      | none => simp [TaskAction.effect, hrecord]
      | some task => simp [TaskAction.effect, hrecord]
  unfold effect
  cases haction : incoming.action? wire with
  | none => rfl
  | some action =>
    apply hidempotent action
    intro task b hsubmit
    subst hsubmit
    unfold action? at haction
    rcases htype with h | h | h <;> rw [h] at haction <;>
      exact absurd haction (by simp [Option.map_eq_some_iff])

/-- From every tracker, messages with timestamps that parse lead to the same records and the same sets in
any order which keeps the messages about each task in order, and so they do when a result or a
destination is received twice in a row. -/
theorem tasks_independent (wire : Wire) (tracker : TaskTracker) :
    (∀ first second : List Incoming, (∀ m ∈ first, m.Timed wire) → (∀ m ∈ second, m.Timed wire) →
      (∀ id, labelsAt (Incoming.taskId? wire) id first = labelsAt (Incoming.taskId? wire) id second) →
      ∃ s t, tracker.handleAll wire first = some s ∧ tracker.handleAll wire second = some t ∧
        s.SameTasks t) ∧
    ∀ before m after, (∀ m' ∈ before ++ m :: after, m'.Timed wire) →
      (m.type = "out" ∨ m.type = "outtask" ∨ m.type = "tracktask") →
      ∃ s t, tracker.handleAll wire (before ++ m :: after) = some s ∧
        tracker.handleAll wire (before ++ m :: m :: after) = some t ∧ s.SameTasks t := by
  constructor
  · intro first second hfirst hsecond hsame
    obtain ⟨s, hs, hrun⟩ := tracker.exists_handleAll hfirst
    obtain ⟨t, ht, hrun'⟩ := tracker.exists_handleAll hsecond
    refine ⟨s, t, hs, ht, TaskTracker.sameTasks_of_view ?_⟩
    exact hrun.component_congr (TaskTracker.view_monitored wire) hrun' hsame
  · intro before m after htimed htype
    have hrepeated : ∀ m' ∈ before ++ m :: m :: after, m'.Timed wire := by
      intro m' hm'
      apply htimed m'
      simpa using hm'
    obtain ⟨s, hs, hrun⟩ := tracker.exists_handleAll htimed
    obtain ⟨t, ht, hrun'⟩ := tracker.exists_handleAll hrepeated
    refine ⟨s, t, hs, ht, TaskTracker.sameTasks_of_view ?_⟩
    intro id
    rw [hrun.component (TaskTracker.view_monitored wire) id,
      hrun'.component (TaskTracker.view_monitored wire) id]
    by_cases hid : m.taskId? wire = some id
    · simp [labelsAt, hid, Incoming.effect_effect htype]
    · simp [labelsAt, hid]

/-- The wire format of a session on the task queue: task `t` is submitted without an engine and arrives
on engine 1, task `u` is submitted to engine 0. -/
def Wire.taskQueue : Wire :=
  { Wire.session with
    intask s :=
      if s = "\n\x01t\x1a\x0f20140101T000000" then
        some { msgId := "t", submitted := some "20140101T000000" }
      else if s = "\n\x01u\x10\x00\x1a\x0f20140101T000000" then
        some { msgId := "u", eid := some 0, submitted := some "20140101T000000" }
      else none
    tracktask s := if s = "\n\x01t\x10\x01" then some { msgId := "t", eid := 1 } else none }

namespace Incoming

/-- The submission of a task without an engine. -/
def taskFree : Incoming := { type := "intask", header := "\n\x01t\x1a\x0f20140101T000000" }

/-- The submission of a task to an engine. -/
def taskBound : Incoming := { type := "intask", header := "\n\x01u\x10\x00\x1a\x0f20140101T000000" }

/-- The arrival of the free task on an engine. -/
def taskArrives : Incoming := { type := "tracktask", header := "\n\x01t\x10\x01" }

/-- The timestamps of the session parse. -/
theorem timed_taskQueue {m : Incoming} (h : m ∈ [taskFree, taskBound, taskArrives]) :
    m.Timed .taskQueue := by
  simp only [List.mem_cons, List.not_mem_nil, or_false] at h
  rcases h with rfl | rfl | rfl
  · intro msg hmsg
    cases (show some _ = some msg from hmsg)
    rfl
  · intro msg hmsg
    cases (show some _ = some msg from hmsg)
    rfl
  · trivial

end Incoming

/-- What becomes of the free task of the session. -/
def Task.arrived : Task where
  id := "t"
  engineUuid := 1
  queue := "task"
  submitted := some 1388534400000000
  incomingMsg := some .taskFree

/-- The two tasks of the session are submitted in either order, and the arrival is reported twice; each time
the record of the free task says that it is on engine 1. -/
theorem tasks_independent_taskQueue :
    (∃ s t, TaskTracker.handleAll .taskQueue {} [.taskFree, .taskBound, .taskArrives] = some s ∧
      TaskTracker.handleAll .taskQueue {} [.taskBound, .taskFree, .taskArrives] = some t ∧
        s.SameTasks t ∧ s.tasks.find? "t" = some .arrived ∧ t.tasks.find? "t" = some .arrived) ∧
    ∃ s t, TaskTracker.handleAll .taskQueue {} ([.taskFree] ++ .taskArrives :: [.taskBound]) = some s ∧
      TaskTracker.handleAll .taskQueue {} ([.taskFree] ++ .taskArrives :: .taskArrives :: [.taskBound]) =
        some t ∧ s.SameTasks t ∧ s.tasks.find? "t" = some .arrived ∧ t.tasks.find? "t" = some .arrived := by
  have hlaw := tasks_independent .taskQueue {}
  have hrecord {messages : List Incoming} {s : TaskTracker}
      (h : TaskTracker.handleAll .taskQueue {} messages = some s)
      (hfind : (TaskTracker.handleAll .taskQueue {} messages).bind (fun s => s.tasks.find? "t") =
        some .arrived) : s.tasks.find? "t" = some .arrived := by
    rwa [h] at hfind
  constructor
  · obtain ⟨s, t, hs, ht, hsame⟩ := hlaw.1 [.taskFree, .taskBound, .taskArrives]
      [.taskBound, .taskFree, .taskArrives] (fun m hm => Incoming.timed_taskQueue hm)
      (by
        intro m hm
        exact Incoming.timed_taskQueue (by simp at hm ⊢; tauto))
      (by
        intro id
        have hfree : Incoming.taskFree.taskId? .taskQueue = some "t" := rfl
        have hbound : Incoming.taskBound.taskId? .taskQueue = some "u" := rfl
        by_cases hid : "t" = id
        · subst hid
          simp [labelsAt, hfree, hbound]
        · simp [labelsAt, List.filter_cons, hfree, hid])
    exact ⟨s, t, hs, ht, hsame, hrecord hs (by decide +kernel), hrecord ht (by decide +kernel)⟩
  · obtain ⟨s, t, hs, ht, hsame⟩ := hlaw.2 [.taskFree] .taskArrives [.taskBound]
      (by
        intro m hm
        exact Incoming.timed_taskQueue (by simp at hm ⊢; tauto))
      (.inr (.inr rfl))
    exact ⟨s, t, hs, ht, hsame, hrecord hs (by decide +kernel), hrecord ht (by decide +kernel)⟩

end Gpf
