import Gpf.Controller.RegistryInvariant

/-!
# What one event does to the task tracker

A monitor message submits a task, reports a result, moves a task to another engine, or is ignored.
Beside these only purge requests change the tracker: the timer of a dead engine finds no
outstanding work and does nothing.
-/

namespace Gpf

open Transition

/-- The id under which a message submits a task. -/
def Incoming.submits? (wire : Wire) (incoming : Incoming) : Option String :=
  match incoming.type with
  | "in" => (wire.inMsg incoming.header).map In.msgId
  | "intask" => (wire.intask incoming.header).map Intask.msgId
  | _ => none

/-- The id whose result a message reports. -/
def Incoming.reports? (wire : Wire) (incoming : Incoming) : Option String :=
  match incoming.type with
  | "out" => (wire.outMsg incoming.header).map Out.msgId
  | "outtask" => (wire.outtask incoming.header).map Outtask.msgId
  | _ => none

/-- The timestamps which the handler of a message reads can be parsed. -/
def Incoming.Timed (wire : Wire) (incoming : Incoming) : Prop :=
  match incoming.type with
  | "in" => ∀ msg, wire.inMsg incoming.header = some msg →
      (TaskTracker.timestamp wire msg.submitted).isSome
  | "out" => ∀ msg, wire.outMsg incoming.header = some msg →
      (TaskTracker.timestamp wire msg.completed).isSome ∧ (TaskTracker.timestamp wire msg.started).isSome
  | "intask" => ∀ msg, wire.intask incoming.header = some msg →
      (TaskTracker.timestamp wire msg.submitted).isSome
  | "outtask" => ∀ msg, wire.outtask incoming.header = some msg →
      (TaskTracker.timestamp wire msg.completed).isSome ∧ (TaskTracker.timestamp wire msg.started).isSome
  | _ => True

/-- The table holds exactly the former records, with the one under the given id changed. -/
def TaskSet.Changes (before after : TaskSet) (id : String) (f : Task → Task) : Prop :=
  ∀ t', t' ∈ after ↔ ∃ t ∈ before, t' = if t.id = id then f t else t

/-- Two changes of the same record are one. -/
theorem TaskSet.Changes.trans {first second third : TaskSet} {id : String} {f g : Task → Task}
    (h : TaskSet.Changes first second id f) (hf : ∀ t, (f t).id = t.id)
    (h' : TaskSet.Changes second third id g) :
    TaskSet.Changes first third id fun t => g (f t) := by
  intro t''
  rw [h']
  constructor
  · intro hexists
    obtain ⟨t', ht', rfl⟩ := hexists
    obtain ⟨t, ht, rfl⟩ := (h t').mp ht'
    refine ⟨t, ht, ?_⟩
    by_cases hid : t.id = id <;> simp [hid, hf]
  · intro hexists
    obtain ⟨t, ht, rfl⟩ := hexists
    refine ⟨_, (h _).mpr ⟨t, ht, rfl⟩, ?_⟩
    by_cases hid : t.id = id <;> simp [hid, hf]

/-- Everything that a monitor message can do when its handler returns. -/
inductive MonitorStep (wire : Wire) (incoming : Incoming) (before after : TaskTracker) : Prop
  | ignored (hsubmits : incoming.submits? wire = none)
      (hreports : ∀ id, incoming.reports? wire = some id → ∀ t ∈ before.tasks, t.id ≠ id)
      (hsame : after = before)
  | submitted (task : Task) (hsubmits : incoming.submits? wire = some task.id)
      (hreports : incoming.reports? wire = none) (hcompleted : task.completed = none)
      (houtgoing : task.outgoingMsg = none) (hcontent : task.resultContent = "")
      (htasks : after.tasks = before.tasks.insert task)
      (hpending : after.pending = insert task.id before.pending)
      (hallCompleted : after.allCompleted = before.allCompleted)
  | reported (id : String) (completed started : Time) (engine : Option ℤ)
      (hsubmits : incoming.submits? wire = none) (hreports : incoming.reports? wire = some id)
      (hrecord : ∃ t ∈ before.tasks, t.id = id)
      (htasks : TaskSet.Changes before.tasks after.tasks id fun t =>
        { t with
          completed := some completed
          started := some started
          outgoingMsg := some incoming
          engineUuid := engine.getD t.engineUuid })
      (hpending : after.pending = (before.complete id).pending)
      (hallCompleted : after.allCompleted = (before.complete id).allCompleted)
  | moved (id : String) (eid : ℤ) (hsubmits : incoming.submits? wire = none)
      (hreports : incoming.reports? wire = none)
      (htasks : TaskSet.Changes before.tasks after.tasks id fun t => { t with engineUuid := eid })
      (hpending : after.pending = before.pending)
      (hallCompleted : after.allCompleted = before.allCompleted)

namespace TaskTracker

/-- A result leaves the records alone until they are stamped. -/
@[simp] theorem tasks_complete (tracker : TaskTracker) (id : String) :
    (tracker.complete id).tasks = tracker.tasks := by
  unfold complete
  split <;> rfl

/-- Writing the fields of a record changes that record. -/
theorem changes_modifyTask (tracker : TaskTracker) (id : String) (f : Task → Task)
    (hf : ∀ t, (f t).id = t.id) :
    TaskSet.Changes tracker.tasks (tracker.modifyTask id f hf).tasks id f :=
  fun _ => KeyedTable.mem_modify hf

/-- Moving a task to another engine changes only its record. -/
theorem sets_reassign (tracker : TaskTracker) (id : String) (eid : ℤ) :
    (tracker.reassign id eid).pending = tracker.pending ∧
      (tracker.reassign id eid).allCompleted = tracker.allCompleted := by
  unfold reassign
  split
  · exact ⟨rfl, rfl⟩
  · split <;> exact ⟨rfl, rfl⟩

/-- Moving a task writes the engine into its record, whether or not that is a change. -/
theorem changes_reassign (tracker : TaskTracker) (id : String) (eid : ℤ) :
    TaskSet.Changes tracker.tasks (tracker.reassign id eid).tasks id
      fun t => { t with engineUuid := eid } := by
  intro t'
  cases hfind : tracker.tasks.find? id with
  | none =>
    have hid := KeyedTable.find?_eq_none.mp hfind
    simp only [reassign, hfind]
    constructor
    · intro ht'
      exact ⟨t', ht', (if_neg (hid t' ht')).symm⟩
    · intro hexists
      obtain ⟨t, ht, rfl⟩ := hexists
      rwa [if_neg (hid t ht)]
  | some task =>
    obtain ⟨htask, hid⟩ := KeyedTable.find?_eq_some.mp hfind
    subst hid
    have hunique : ∀ t ∈ tracker.tasks, t.id = task.id → t = task := fun t ht heq =>
      KeyedTable.eq_of_key_eq ht htask heq
    by_cases hengine : eid = task.engineUuid
    · -- the record is left as it is, which is what writing the same engine would do
      simp only [reassign, hfind, hengine, ne_eq, not_true_eq_false, if_false]
      constructor
      · intro ht'
        by_cases heq : t'.id = task.id
        · refine ⟨t', ht', ?_⟩
          rw [if_pos heq, hunique t' ht' heq]
        · exact ⟨t', ht', (if_neg heq).symm⟩
      · intro hexists
        obtain ⟨t, ht, rfl⟩ := hexists
        by_cases heq : t.id = task.id
        · rw [if_pos heq, hunique t ht heq]
          exact htask
        · rwa [if_neg heq]
    · simp only [reassign, hfind, ne_eq, hengine, not_false_eq_true, if_true, KeyedTable.mem_replace]
      constructor
      · intro hcase
        rcases hcase with ⟨ht', hne⟩ | rfl
        · exact ⟨t', ht', (if_neg hne).symm⟩
        · exact ⟨task, htask, (if_pos rfl).symm⟩
      · intro hexists
        obtain ⟨t, ht, rfl⟩ := hexists
        by_cases heq : t.id = task.id
        · rw [if_pos heq, hunique t ht heq]
          exact .inr rfl
        · rw [if_neg heq]
          exact .inl ⟨ht, heq⟩

/-- Both timestamps of a stamped result parsed, and its record was written. -/
theorem stampResult_cases {wire : Wire} {tracker after : TaskTracker} {id : String}
    {completed started : Option String} {incoming : Incoming}
    (h : stampResult wire tracker id completed started incoming = .returned after) :
    ∃ completedTime startedTime, after.pending = tracker.pending ∧
      after.allCompleted = tracker.allCompleted ∧
      TaskSet.Changes tracker.tasks after.tasks id fun t =>
        { t with
          completed := some completedTime
          started := some startedTime
          outgoingMsg := some incoming } := by
  obtain ⟨completedTime, startedTime, -, -, rfl⟩ := (stampResult_eq_returned wire).mp h
  refine ⟨completedTime, startedTime, rfl, rfl, ?_⟩
  have hfirst := changes_modifyTask tracker id
    (fun t => { t with completed := some completedTime }) fun _ => rfl
  have hsecond := changes_modifyTask
    (tracker.modifyTask id fun t => { t with completed := some completedTime }) id
    (fun t => { t with started := some startedTime, outgoingMsg := some incoming }) fun _ => rfl
  exact hfirst.trans (fun _ => rfl) hsecond

variable {wire : Wire} {before after : TaskTracker} {incoming : Incoming}

/-- A result moves its id whatever is unassigned. -/
theorem sets_complete_unassigned (tracker : TaskTracker) (ids : Finset String) (id : String) :
    (complete { tracker with unassigned := ids } id).pending = (tracker.complete id).pending ∧
      (complete { tracker with unassigned := ids } id).allCompleted =
        (tracker.complete id).allCompleted := by
  unfold complete
  split <;> exact ⟨rfl, rfl⟩

/-- A result of an unknown task is ignored. -/
theorem monitorStep_unknown {id : String} (hsubmits : incoming.submits? wire = none)
    (hreports : incoming.reports? wire = some id) (hfind : before.tasks.find? id = none) :
    MonitorStep wire incoming before before := by
  refine .ignored hsubmits (fun id' hid => ?_) rfl
  rw [hreports] at hid
  exact Option.some.inj hid ▸ KeyedTable.find?_eq_none.mp hfind

/-- What an `in` message does. -/
theorem saveQueueRequest_step (htype : incoming.type = "in")
    (h : saveQueueRequest wire before incoming = .returned after) :
    MonitorStep wire incoming before after := by
  have hsubmits : incoming.submits? wire = (wire.inMsg incoming.header).map In.msgId := by
    rw [Incoming.submits?, htype]
    rfl
  have hreports : incoming.reports? wire = none := by
    rw [Incoming.reports?, htype]
    rfl
  rcases saveQueueRequest_cases wire before incoming with
    ⟨hparse, hends⟩ | ⟨msg, hparse, ⟨-, hends⟩ | ⟨submitted, -, hends⟩⟩
  · cases hends.symm.trans h
    exact .ignored (by rw [hsubmits, hparse]; rfl) (by simp [hreports]) rfl
  · cases hends.symm.trans h
  · cases hends.symm.trans h
    exact .submitted _ (by rw [hsubmits, hparse]; rfl) hreports rfl rfl rfl rfl rfl rfl

/-- What an `intask` message does. -/
theorem saveTaskRequest_step (htype : incoming.type = "intask")
    (h : saveTaskRequest wire before incoming = .returned after) :
    MonitorStep wire incoming before after := by
  have hsubmits : incoming.submits? wire = (wire.intask incoming.header).map Intask.msgId := by
    rw [Incoming.submits?, htype]
    rfl
  have hreports : incoming.reports? wire = none := by
    rw [Incoming.reports?, htype]
    rfl
  rcases saveTaskRequest_cases wire before incoming with
    ⟨hparse, hends⟩ | ⟨msg, hparse, ⟨-, hends⟩ | ⟨submitted, -, hends⟩⟩
  · cases hends.symm.trans h
    exact .ignored (by rw [hsubmits, hparse]; rfl) (by simp [hreports]) rfl
  · cases hends.symm.trans h
  · cases hends.symm.trans h
    -- the set `unassigned`, which differs between the two branches, is not looked at
    by_cases heid : msg.eid.isSome
    · rw [if_pos heid]
      exact .submitted _ (by rw [hsubmits, hparse]; rfl) hreports rfl rfl rfl rfl rfl rfl
    · rw [if_neg heid]
      exact .submitted _ (by rw [hsubmits, hparse]; rfl) hreports rfl rfl rfl rfl rfl rfl

/-- What an `out` message does. -/
theorem saveQueueResult_step (htype : incoming.type = "out")
    (h : saveQueueResult wire before incoming = .returned after) :
    MonitorStep wire incoming before after := by
  have hsubmits : incoming.submits? wire = none := by
    rw [Incoming.submits?, htype]
    rfl
  have hreports : incoming.reports? wire = (wire.outMsg incoming.header).map Out.msgId := by
    rw [Incoming.reports?, htype]
    rfl
  rcases saveQueueResult_cases wire before incoming with
    ⟨hparse, hends⟩ | ⟨msg, hparse, ⟨hfind, hends⟩ | ⟨task, hfind, hends⟩⟩
  · cases hends.symm.trans h
    exact .ignored hsubmits (by simp [hreports, hparse]) rfl
  · cases hends.symm.trans h
    rw [hparse] at hreports
    exact monitorStep_unknown hsubmits hreports hfind
  · rw [hends] at h
    rw [hparse] at hreports
    obtain ⟨completed, started, hpending, hallCompleted, htasks⟩ := stampResult_cases h
    rw [tasks_complete] at htasks
    exact .reported msg.msgId completed started none hsubmits hreports
      ⟨task, KeyedTable.find?_eq_some.mp hfind⟩ htasks hpending hallCompleted

/-- What an `outtask` message does. -/
theorem saveTaskResult_step (htype : incoming.type = "outtask")
    (h : saveTaskResult wire before incoming = .returned after) :
    MonitorStep wire incoming before after := by
  have hsubmits : incoming.submits? wire = none := by
    rw [Incoming.submits?, htype]
    rfl
  have hreports : incoming.reports? wire = (wire.outtask incoming.header).map Outtask.msgId := by
    rw [Incoming.reports?, htype]
    rfl
  rcases saveTaskResult_cases wire before incoming with
    ⟨hparse, hends⟩ | ⟨msg, hparse, ⟨hfind, hends⟩ | ⟨task, hfind, hends⟩⟩
  · cases hends.symm.trans h
    exact .ignored hsubmits (by simp [hreports, hparse]) rfl
  · cases hends.symm.trans h
    rw [hparse] at hreports
    exact monitorStep_unknown hsubmits hreports hfind
  · obtain ⟨hpending₀, hallCompleted₀⟩ :=
      sets_complete_unassigned before (before.unassigned.erase msg.msgId) msg.msgId
    rw [hends] at h
    rw [hparse] at hreports
    split at h
    · cases h
    · rename_i stamped hstamp
      obtain ⟨completed, started, hpending, hallCompleted, htasks⟩ := stampResult_cases hstamp
      rw [tasks_complete] at htasks
      cases h
      obtain ⟨hpending₁, hallCompleted₁⟩ := sets_reassign stamped msg.msgId msg.eid
      exact .reported msg.msgId completed started (some msg.eid) hsubmits hreports
        ⟨task, KeyedTable.find?_eq_some.mp hfind⟩
        (htasks.trans (fun _ => rfl) (changes_reassign stamped msg.msgId msg.eid))
        (hpending₁.trans (hpending.trans hpending₀))
        (hallCompleted₁.trans (hallCompleted.trans hallCompleted₀))

/-- What a `tracktask` message does. -/
theorem saveTaskDestination_step (htype : incoming.type = "tracktask")
    (h : saveTaskDestination wire before incoming = .returned after) :
    MonitorStep wire incoming before after := by
  have hsubmits : incoming.submits? wire = none := by
    rw [Incoming.submits?, htype]
    rfl
  have hreports : incoming.reports? wire = none := by
    rw [Incoming.reports?, htype]
    rfl
  rcases saveTaskDestination_cases wire before incoming with
    ⟨-, hends⟩ | ⟨msg, -, ⟨-, hends⟩ | ⟨_, -, hends⟩⟩
  · cases hends.symm.trans h
    exact .ignored hsubmits (by simp [hreports]) rfl
  · cases hends.symm.trans h
    exact .ignored hsubmits (by simp [hreports]) rfl
  · cases hends.symm.trans h
    obtain ⟨hpending, hallCompleted⟩ := sets_reassign
      { before with unassigned := before.unassigned.erase msg.msgId } msg.msgId msg.eid
    exact .moved msg.msgId msg.eid hsubmits hreports (changes_reassign _ _ _) hpending hallCompleted

/-- Every monitor message whose handler returns does one of the listed things. -/
theorem dispatchMonitorTraffic_step
    (h : dispatchMonitorTraffic wire before incoming = .returned after) :
    MonitorStep wire incoming before after := by
  unfold dispatchMonitorTraffic at h
  split at h
  · rename_i htype
    exact saveQueueRequest_step htype h
  · rename_i htype
    exact saveQueueResult_step htype h
  · rename_i htype
    exact saveTaskRequest_step htype h
  · rename_i htype
    exact saveTaskResult_step htype h
  · rename_i htype
    exact saveTaskDestination_step htype h
  · cases h
    exact .ignored (by simp [Incoming.submits?]) (by simp [Incoming.reports?]) rfl

/-- A result whose timestamps parse is stamped. -/
theorem stampResult_returned {tracker : TaskTracker} {id : String} {completed started : Option String}
    (hcompleted : (timestamp wire completed).isSome) (hstarted : (timestamp wire started).isSome) :
    ∃ after, stampResult wire tracker id completed started incoming = .returned after := by
  obtain ⟨completedTime, hcompleted⟩ := Option.isSome_iff_exists.mp hcompleted
  obtain ⟨startedTime, hstarted⟩ := Option.isSome_iff_exists.mp hstarted
  exact ⟨_, (stampResult_eq_returned wire).mpr ⟨completedTime, startedTime, hcompleted, hstarted, rfl⟩⟩

/-- A message whose timestamps parse is handled to the end. -/
theorem dispatchMonitorTraffic_returned (tracker : TaskTracker) (htimed : incoming.Timed wire) :
    ∃ after, dispatchMonitorTraffic wire tracker incoming = .returned after := by
  unfold dispatchMonitorTraffic
  split
  · rename_i htype
    rw [Incoming.Timed, htype] at htimed
    rcases saveQueueRequest_cases wire tracker incoming with
      ⟨-, hends⟩ | ⟨msg, hparse, ⟨htime, -⟩ | ⟨_, -, hends⟩⟩
    · exact ⟨_, hends⟩
    · exact absurd (htimed msg hparse) (by simp [htime])
    · exact ⟨_, hends⟩
  · rename_i htype
    rw [Incoming.Timed, htype] at htimed
    rcases saveQueueResult_cases wire tracker incoming with
      ⟨-, hends⟩ | ⟨msg, hparse, ⟨-, hends⟩ | ⟨_, -, hends⟩⟩
    · exact ⟨_, hends⟩
    · exact ⟨_, hends⟩
    · rw [hends]
      exact stampResult_returned (htimed msg hparse).1 (htimed msg hparse).2
  · rename_i htype
    rw [Incoming.Timed, htype] at htimed
    rcases saveTaskRequest_cases wire tracker incoming with
      ⟨-, hends⟩ | ⟨msg, hparse, ⟨htime, -⟩ | ⟨_, -, hends⟩⟩
    · exact ⟨_, hends⟩
    · exact absurd (htimed msg hparse) (by simp [htime])
    · exact ⟨_, hends⟩
  · rename_i htype
    rw [Incoming.Timed, htype] at htimed
    rcases saveTaskResult_cases wire tracker incoming with
      ⟨-, hends⟩ | ⟨msg, hparse, ⟨-, hends⟩ | ⟨_, -, hends⟩⟩
    · exact ⟨_, hends⟩
    · exact ⟨_, hends⟩
    · obtain ⟨_, hreturned⟩ := stampResult_returned (htimed msg hparse).1 (htimed msg hparse).2
      rw [hends, hreturned]
      exact ⟨_, rfl⟩
  · rcases saveTaskDestination_cases wire tracker incoming with
      ⟨-, hends⟩ | ⟨_, -, ⟨-, hends⟩ | ⟨_, -, hends⟩⟩ <;> exact ⟨_, hends⟩
  · exact ⟨_, rfl⟩

end TaskTracker

/-- A request to purge every record. -/
def Event.PurgesAll (wire : Wire) (e : Event) : Prop :=
  ∃ incoming msg, e = .query incoming ∧ incoming.type = "purge_request" ∧
    wire.purgeResultsRequest incoming.header = some msg ∧ msg.all = true

/-- Everything that one event can do to the task tracker. -/
inductive TaskStep (wire : Wire) (e : Event) (before after : TaskTracker) : Prop
  | same (hmonitor : ∀ incoming, e ≠ .monitor incoming) (hpurge : ¬e.PurgesAll wire)
      (hsame : after = before)
  | monitored (incoming : Incoming) (he : e = .monitor incoming)
      (h : MonitorStep wire incoming before after)
  | purgedAll (hmonitor : ∀ incoming, e ≠ .monitor incoming) (hpurge : e.PurgesAll wire)
      (hafter : after = { before with tasks := .empty })
  | purged (ids : List String) (hmonitor : ∀ incoming, e ≠ .monitor incoming)
      (hpurge : ¬e.PurgesAll wire) (hafter : after = (Hub.purgeMsgIds before ids).1)

namespace Hub

/-- Finishing a registration leaves the tasks alone. -/
theorem ttracker_finishRegistration (hub : Hub) (heart : String) :
    (hub.finishRegistration heart).ttracker = hub.ttracker := by
  unfold finishRegistration
  split <;> rfl

/-- A registration request leaves the tasks alone. -/
theorem ttracker_registerEngine (wire : Wire) (alive : String → Bool) (hub : Hub)
    (incoming : Incoming) : (hub.registerEngine wire alive incoming).ttracker = hub.ttracker := by
  cases hparse : wire.registration incoming.header with
  | none => simp only [registerEngine, hparse]
  | some msg =>
    rw [registerEngine_eq hparse]
    by_cases htaken : namesTaken hub.tracker msg.queue msg.heartbeat = true
    · rw [if_pos htaken]
      rfl
    · rw [if_neg htaken]
      by_cases halive : alive msg.heartbeat = true
      · rw [if_pos halive, ttracker_finishRegistration]
        rfl
      · rw [if_neg halive]
        rfl

/-- The failure of a heart leaves the tasks alone. -/
theorem ttracker_handleHeartFailure (hub : Hub) (heart : String) :
    (hub.handleHeartFailure heart).ttracker = hub.ttracker := by
  unfold handleHeartFailure
  split
  · rfl
  · unfold _unregisterEngine
    split <;> rfl

/-- Without outstanding work, the timer of a dead engine leaves the tasks alone. -/
theorem ttracker_handleStrandedMsgs (hub : Hub)
    (hidle : ∀ ec ∈ hub.tracker.engines, ec.queues = []) (eid : ℤ) (uuid : String) :
    (hub._handleStrandedMsgs eid uuid).ttracker = hub.ttracker := by
  unfold _handleStrandedMsgs
  cases hfind : hub.tracker.engines.find? eid with
  | none => rfl
  | some ec =>
    simp only [hidle ec (KeyedTable.find?_eq_some.mp hfind).1, List.foldl_nil]

/-- Without outstanding work, no timer of the hub changes the tasks. -/
theorem ttracker_timeout {hub hub' : Hub} {ptr : ℕ}
    (hidle : ∀ ec ∈ hub.tracker.engines, ec.queues = []) (h : hub.timeout ptr = some hub') :
    hub'.ttracker = hub.ttracker := by
  obtain ⟨timer, _, _, ⟨_, hrun⟩ | ⟨_, rfl⟩⟩ := timeout_cases h
  · cases hcallback : timer.callback with
    | purgeStalledRegistration heart =>
      rw [hcallback, runCallback, Option.some.injEq, _purgeStalledRegistration] at hrun
      split at hrun <;> exact hrun ▸ rfl
    | handleStrandedMsgs eid uuid =>
      rw [hcallback, runCallback, Option.some.injEq] at hrun
      rw [← hrun, ttracker_handleStrandedMsgs { hub with loop := hub.loop.pop ptr } hidle]
    | shutdown =>
      rw [hcallback, runCallback] at hrun
      contradiction
    | beat =>
      rw [hcallback, runCallback, Option.some.injEq] at hrun
      rw [← hrun]
  · rfl

/-- A handler which only answers leaves the tasks alone. -/
theorem Answers.ttracker {hub hub' : Hub} (h : hub.Answers hub') : hub'.ttracker = hub.ttracker := by
  obtain ⟨messages, rfl, _⟩ := h
  rfl

/-- A purge removes every record, or only by message ids, or none if it does not parse. -/
theorem purgeResults_tasks (wire : Wire) (hub : Hub) {incoming : Incoming}
    (htype : incoming.type = "purge_request") :
    TaskStep wire (.query incoming) hub.ttracker (hub.purgeResults wire incoming).ttracker := by
  unfold purgeResults
  cases hparse : wire.purgeResultsRequest incoming.header with
  | none =>
    refine .same (by simp) ?_ rfl
    intro hexists
    obtain ⟨_, _, he, _, hparse', _⟩ := hexists
    rw [← Event.query.inj he, hparse] at hparse'
    cases hparse'
  | some msg =>
    by_cases hall : msg.all = true
    · simp only [hall, if_true]
      exact .purgedAll (by simp) ⟨incoming, msg, rfl, htype, hparse, hall⟩ rfl
    · have hno : ¬Event.PurgesAll wire (.query incoming) := by
        intro hexists
        obtain ⟨_, _, he, _, hparse', hall'⟩ := hexists
        rw [← Event.query.inj he, hparse] at hparse'
        exact hall (Option.some.inj hparse' ▸ hall')
      simp only [hall]
      refine .purged msg.msgIds (by simp) hno ?_
      simp only [Bool.false_eq_true, if_false]
      split <;> simp [reply, *]

/-- Among the queries only a purge changes the tasks. -/
theorem dispatchQuery_tasks (wire : Wire) (alive : String → Bool) (hub : Hub) (incoming : Incoming) :
    TaskStep wire (.query incoming) hub.ttracker (hub.dispatchQuery wire alive incoming).ttracker := by
  have hsame {hub' : Hub} (htype : incoming.type ≠ "purge_request")
      (h : hub'.ttracker = hub.ttracker) :
      TaskStep wire (.query incoming) hub.ttracker hub'.ttracker := by
    refine .same (by simp) ?_ h
    intro hexists
    obtain ⟨_, _, he, htype', _⟩ := hexists
    exact htype (Event.query.inj he ▸ htype')
  unfold dispatchQuery
  split
  · rename_i htype
    exact hsame (by rw [htype]; decide) (queueStatus_answers wire hub incoming).ttracker
  · rename_i htype
    exact hsame (by rw [htype]; decide) (getResults_answers wire hub incoming).ttracker
  · rename_i htype
    exact purgeResults_tasks wire hub htype
  · rename_i htype
    exact hsame (by rw [htype]; decide) (checkLoad_answers wire hub incoming).ttracker
  · rename_i htype
    exact hsame (by rw [htype]; decide) rfl
  · rename_i htype
    exact hsame (by rw [htype]; decide) (ttracker_registerEngine wire alive hub incoming)
  · rename_i htype
    apply hsame (by rw [htype]; decide)
    unfold unregisterEngine
    split <;> rfl
  · exact hsame (by assumption) rfl

end Hub

/-- Every event does one of the listed things to the task tracker. -/
theorem System.step_tasks {wire : Wire} {s t : System} {e : Event}
    (hidle : ∀ ec ∈ s.hub.tracker.engines, ec.queues = []) (h : System.Step wire s e t) :
    TaskStep wire e s.hub.ttracker t.hub.ttracker := by
  have hsame {t : System} (hmonitor : ∀ incoming, e ≠ .monitor incoming)
      (hquery : ∀ incoming, e ≠ .query incoming) (ht : t.hub.ttracker = s.hub.ttracker) :
      TaskStep wire e s.hub.ttracker t.hub.ttracker :=
    .same hmonitor (fun ⟨incoming, _, he, _⟩ => hquery incoming he) ht
  cases e with
  | tick now =>
    cases h
    exact hsame (by simp) (by simp) rfl
  | query incoming =>
    cases h
    exact Hub.dispatchQuery_tasks wire _ s.hub incoming
  | monitor incoming =>
    obtain ⟨ttracker, hreturned, rfl⟩ := Option.map_eq_some_iff.mp h
    exact .monitored incoming rfl (TaskTracker.dispatchMonitorTraffic_step (Outcome.eq_returned hreturned))
  | heartAppears heart =>
    obtain ⟨_, h⟩ := Option.ite_none_left_eq_some.mp h
    cases h
    refine hsame (by simp) (by simp) ?_
    unfold Hub.handleNewHeart
    split
    · rfl
    · exact Hub.ttracker_finishRegistration s.hub heart
  | heartFails heart =>
    obtain ⟨_, h⟩ := Option.ite_none_right_eq_some.mp h
    cases h
    exact hsame (by simp) (by simp) (Hub.ttracker_handleHeartFailure s.hub heart)
  | beatScheduled waiting =>
    cases h
    exact hsame (by simp) (by simp) rfl
  | timeout ptr =>
    obtain ⟨hub, htimeout, rfl⟩ := Option.map_eq_some_iff.mp h
    exact hsame (by simp) (by simp) (Hub.ttracker_timeout hidle htimeout)

end Gpf
