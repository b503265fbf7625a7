import Gpf.Controller.PurgeRequests
import Gpf.Controller.TaskLocality

/-!
# Where the task records come from

A record begins as what the submission of its id says, and every later result or destination of that id
writes into it. A purge may drop it, and then the next submission begins a new one. No other handler of
the hub has a part in this, so the table of tasks can be told from the messages alone.
-/

namespace Gpf

open Transition

namespace TaskAction

/-- The record which an action begins, where there is none. -/
def begin? : TaskAction → Option Task
  | submit task _ => some task
  | _ => none

/-- What an action writes into a record which there is. -/
def amend : TaskAction → Task → Task
  | submit _ _, task => task
  | report _ completed started outgoing engine, task =>
    { task with
      completed := completed
      started := started
      outgoingMsg := some outgoing
      engineUuid := engine.getD task.engineUuid }
  | move _ engine, task => { task with engineUuid := engine }

/-- Begin and amend are all that an action does to the record. -/
theorem record_effect (action : TaskAction) (v : TaskView) :
    (action.effect v).record = v.record.elim action.begin? fun task => some (action.amend task) := by
  cases hrecord : v.record with
  | none => cases action <;> simp [effect, begin?, hrecord]
  | some task => cases action <;> simp [effect, amend, hrecord]

end TaskAction

namespace Event

variable (wire : Wire)

/-- What an event has happen to the task with the given id. -/
def about (id : String) (e : Event) : Option TaskAction :=
  match e with
  | .monitor incoming => (incoming.action? wire).filter fun action => decide (action.id = id)
  | _ => none

/-- The record which an event begins under the given id, if there is none. -/
def begin? (id : String) (e : Event) : Option Task := (e.about wire id).bind TaskAction.begin?

/-- What an event makes of the record under the given id. -/
def amend (id : String) (e : Event) (task : Task) : Task :=
  (e.about wire id).elim task fun action => action.amend task

end Event

/-- The event is a purge request which drops the record under the given id: a request to purge everything,
or one which lists the id before any pending one. -/
def System.Drops (wire : Wire) (id : String) (s : System) (e : Event) : Prop :=
  ∃ incoming msg, e = .query incoming ∧ incoming.type = "purge_request" ∧
    wire.purgeResultsRequest incoming.header = some msg ∧
    (msg.all = true ∨ id ∈ s.hub.ttracker.beforePending msg.msgIds)

namespace Hub

/-- Queries other than a purge leave the tasks alone. -/
theorem ttracker_dispatchQuery (wire : Wire) (alive : String → Bool) (hub : Hub) {incoming : Incoming}
    (htype : incoming.type ≠ "purge_request") :
    (hub.dispatchQuery wire alive incoming).ttracker = hub.ttracker := by
  unfold dispatchQuery
  split
  · exact (queueStatus_answers wire hub incoming).ttracker
  · exact (getResults_answers wire hub incoming).ttracker
  · contradiction
  · exact (checkLoad_answers wire hub incoming).ttracker
  · rfl
  · exact ttracker_registerEngine wire alive hub incoming
  · unfold unregisterEngine
    split <;> rfl
  · rfl

/-- What a purge request leaves under an id. -/
theorem find?_purgeResults (wire : Wire) (hub : Hub) {incoming : Incoming} {msg : PurgeResultsRequest}
    (hparse : wire.purgeResultsRequest incoming.header = some msg) (id : String) :
    (hub.purgeResults wire incoming).ttracker.tasks.find? id =
      if msg.all = true ∨ id ∈ hub.ttracker.beforePending msg.msgIds then none
      else hub.ttracker.tasks.find? id := by
  cases hall : msg.all with
  | true =>
    rw [if_pos (.inl rfl)]
    simp only [purgeResults, hparse, hall, if_true]
    rfl
  | false =>
    have htasks : (hub.purgeResults wire incoming).ttracker.tasks =
        (hub.ttracker.beforePending msg.msgIds).foldl KeyedTable.erase hub.ttracker.tasks := by
      rw [purgeResults_eq hparse hall, purgeMsgIds_eq]
      cases hub.ttracker.firstPending? msg.msgIds <;> rfl
    rw [htasks, KeyedTable.find?_foldl_erase]
    simp only [Bool.false_eq_true, false_or]

end Hub

namespace System

variable {wire : Wire} {s t : System} {e : Event}

/-- Only monitor messages and purge requests touch the tasks. -/
theorem ttracker_step (hidle : ∀ ec ∈ s.hub.tracker.engines, ec.queues = [])
    (hmonitor : ∀ incoming, e ≠ .monitor incoming)
    (hpurge : ∀ incoming, e = .query incoming → incoming.type ≠ "purge_request")
    (h : System.Step wire s e t) : t.hub.ttracker = s.hub.ttracker := by
  cases e with
  | tick now =>
    cases h
    rfl
  | query incoming =>
    cases h
    exact Hub.ttracker_dispatchQuery wire _ s.hub (hpurge incoming rfl)
  | monitor incoming => exact absurd rfl (hmonitor incoming)
  | heartAppears heart =>
    obtain ⟨_, h⟩ := Option.ite_none_left_eq_some.mp h
    cases h
    unfold Hub.handleNewHeart
    split
    · rfl
    · exact Hub.ttracker_finishRegistration s.hub heart
  | heartFails heart =>
    obtain ⟨_, h⟩ := Option.ite_none_right_eq_some.mp h
    cases h
    exact Hub.ttracker_handleHeartFailure s.hub heart
  | beatScheduled waiting =>
    cases h
    rfl
  | timeout ptr =>
    obtain ⟨hub, htimeout, rfl⟩ := Option.map_eq_some_iff.mp h
    exact Hub.ttracker_timeout hidle htimeout

/-- The record under an id is dropped, or begun or amended as the event says. -/
def RecordLaw (wire : Wire) (s : System) (e : Event) (t : System) (id : String) : Prop :=
  (s.Drops wire id e → t.hub.ttracker.tasks.find? id = none) ∧
    (¬s.Drops wire id e → t.hub.ttracker.tasks.find? id =
      (s.hub.ttracker.tasks.find? id).elim (e.begin? wire id) fun task => some (e.amend wire id task))

/-- An event which is not about a task, and does not drop its record, leaves the record as it is. -/
theorem RecordLaw.of_same {id : String} (habout : e.about wire id = none) (hkept : ¬s.Drops wire id e)
    (hfind : t.hub.ttracker.tasks.find? id = s.hub.ttracker.tasks.find? id) : RecordLaw wire s e t id := by
  constructor
  · exact fun hdrops => absurd hdrops hkept
  · intro _
    rw [hfind, Event.begin?, habout]
    cases s.hub.ttracker.tasks.find? id with
    | none => rfl
    | some task => simp [Event.amend, habout]

/-- A monitor message acts on the record of its task. -/
theorem recordLaw_monitor {incoming : Incoming} (h : System.Step wire s (.monitor incoming) t)
    (id : String) : RecordLaw wire s (.monitor incoming) t id := by
  obtain ⟨ttracker, hreturned, rfl⟩ := Option.map_eq_some_iff.mp h
  have hview := TaskTracker.view_monitored wire _ _ _ (Outcome.eq_returned hreturned) id
  have hrecord : ttracker.tasks.find? id = _ := congrArg TaskView.record hview
  have hkept : ¬s.Drops wire id (.monitor incoming) := by
    intro hdrops
    obtain ⟨_, _, he, _⟩ := hdrops
    cases he
  cases haction : incoming.action? wire with
  | none =>
    apply RecordLaw.of_same _ hkept
    · rw [hrecord, Incoming.taskId?, haction]
      rfl
    · simp [Event.about, haction]
  | some action =>
    by_cases hid : action.id = id
    · have habout : Event.about wire id (.monitor incoming) = some action := by
        simp [Event.about, haction, hid]
      refine ⟨fun hdrops => absurd hdrops hkept, fun _ => ?_⟩
      rw [hrecord, Incoming.taskId?, Incoming.effect, haction, Option.map_some, hid, if_pos rfl,
        TaskAction.record_effect]
      simp only [Event.begin?, Event.amend, habout]
      rfl
    · apply RecordLaw.of_same _ hkept
      · rw [hrecord, Incoming.taskId?, haction, Option.map_some, if_neg (by simpa using hid)]
        rfl
      · simp [Event.about, haction, hid]

/-- A purge request drops records, and leaves the others as they are. -/
theorem recordLaw_purge {incoming : Incoming} (htype : incoming.type = "purge_request")
    (h : System.Step wire s (.query incoming) t) (id : String) :
    RecordLaw wire s (.query incoming) t id := by
  have hhub : t.hub = s.hub.purgeResults wire incoming := by
    cases h
    simp only [Hub.dispatchQuery, htype]
  cases hparse : wire.purgeResultsRequest incoming.header with
  | none =>
    apply RecordLaw.of_same rfl
    · intro hdrops
      obtain ⟨_, _, he, _, hparse', _⟩ := hdrops
      cases he
      rw [hparse] at hparse'
      cases hparse'
    · rw [hhub]
      simp only [Hub.purgeResults, hparse]
  | some msg =>
    have hfind := Hub.find?_purgeResults wire s.hub hparse id
    rw [← hhub] at hfind
    by_cases hmsg : msg.all = true ∨ id ∈ s.hub.ttracker.beforePending msg.msgIds
    · rw [if_pos hmsg] at hfind
      exact ⟨fun _ => hfind, fun hkept => absurd ⟨incoming, msg, rfl, htype, hparse, hmsg⟩ hkept⟩
    · rw [if_neg hmsg] at hfind
      apply RecordLaw.of_same rfl _ hfind
      intro hdrops
      obtain ⟨_, _, he, _, hparse', hmsg'⟩ := hdrops
      cases he
      cases hparse.symm.trans hparse'
      exact hmsg hmsg'

/-- Every event drops, begins, amends or leaves the record under an id. -/
theorem step_recordLaw (hidle : ∀ ec ∈ s.hub.tracker.engines, ec.queues = [])
    (h : System.Step wire s e t) (id : String) : RecordLaw wire s e t id := by
  by_cases hmonitor : ∃ incoming, e = .monitor incoming
  · obtain ⟨incoming, rfl⟩ := hmonitor
    exact recordLaw_monitor h id
  · by_cases hpurge : ∃ incoming, e = .query incoming ∧ incoming.type = "purge_request"
    · obtain ⟨incoming, rfl, htype⟩ := hpurge
      exact recordLaw_purge htype h id
    · apply RecordLaw.of_same
      · cases e with
        | monitor incoming => exact absurd ⟨incoming, rfl⟩ hmonitor
        | _ => rfl
      · intro hdrops
        obtain ⟨incoming, _, he, htype, _⟩ := hdrops
        exact hpurge ⟨incoming, he, htype⟩
      · rw [ttracker_step hidle (fun incoming he => hmonitor ⟨incoming, he⟩)
          (fun incoming he htype => hpurge ⟨incoming, he, htype⟩) h]

end System

/-- At the end of every run there is a record under an id exactly if some message of the run submitted it
while there was none and no purge request has dropped it since, and the record is what the later messages
about the id have made of that submission. -/
theorem task_recorded_iff {wire : Wire} {interval : ℤ} {es : List Event} {s : System}
    (hrun : Run (System.Step wire) (System.initial interval) es s) (id : String) (task : Task) :
    s.hub.ttracker.tasks.find? id = some task ↔
      ∃ first e rest u v submitted, es = first ++ e :: rest ∧
        Run (System.Step wire) (System.initial interval) first u ∧ System.Step wire u e v ∧
        Run (fun s e t => System.Step wire s e t ∧ ¬s.Drops wire id e) v rest s ∧
        u.hub.ttracker.tasks.find? id = none ∧ e.begin? wire id = some submitted ∧
        rest.foldl (fun task e => e.amend wire id task) submitted = task := by
  apply hrun.lineage (fun s => RegistryInvariant s.hub)
  · exact fun s e t registry h => registry.step h
  · intro s e t registry h hnone
    obtain ⟨hdropped, hkept⟩ := System.step_recordLaw registry.engine_idle h id
    by_cases hdrops : s.Drops wire id e
    · rw [hdropped hdrops]
      obtain ⟨incoming, _, rfl, _⟩ := hdrops
      rfl
    · rw [hkept hdrops, hnone, Option.elim_none]
  · intro s e t v registry h hsome hdrops
    rw [(System.step_recordLaw registry.engine_idle h id).2 hdrops, hsome, Option.elim_some]
  · intro s e t registry h hdrops
    exact (System.step_recordLaw registry.engine_idle h id).1 hdrops
  · exact RegistryInvariant.create interval
  · rfl

/-- The task of the session is submitted, finished and purged, and then submitted and finished again. -/
theorem task_recorded_session :
    ∃ s task, s.hub.ttracker.tasks.find? "t" = some task ∧
      ∃ first e rest u v submitted,
        [.monitor .submission, .monitor .result, .query .purgeAll, .monitor .submission, .monitor .result] =
          first ++ e :: rest ∧
        Run (System.Step .session) (System.initial 2000) first u ∧ System.Step .session u e v ∧
        Run (fun s e t => System.Step .session s e t ∧ ¬s.Drops .session "t" e) v rest s ∧
        u.hub.ttracker.tasks.find? "t" = none ∧ e.begin? .session "t" = some submitted ∧
        rest.foldl (fun task e => e.amend .session "t" task) submitted = task := by
  obtain ⟨s, hrun, hsome⟩ := System.exists_run .session (System.initial 2000)
    [.monitor .submission, .monitor .result, .query .purgeAll, .monitor .submission, .monitor .result]
    (fun s => (s.hub.ttracker.tasks.find? "t").isSome) (by decide)
  obtain ⟨task, htask⟩ := Option.isSome_iff_exists.mp hsome
  exact ⟨s, task, htask, (task_recorded_iff hrun "t" task).mp htask⟩

end Gpf
