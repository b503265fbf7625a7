import Mathlib.Data.List.TakeWhile
import Gpf.Controller.HubRun
import Gpf.Controller.RegistryStep

/-!
# Purge requests by message ids and engine ids

The loop over the message ids erases as it goes and stops at the first pending id, so a refused
request has already erased the records of the ids listed before that one. The loop over the engine
ids runs on the engines of the registry, and no record of a task is looked up by its engine.
-/

namespace Gpf

open Transition

namespace TaskTracker

/-- The listed ids up to the first pending one. -/
def beforePending (tracker : TaskTracker) (ids : List String) : List String :=
  ids.takeWhile fun id => decide (id ∉ tracker.pending)

/-- The first of the listed ids which is pending. -/
def firstPending? (tracker : TaskTracker) (ids : List String) : Option String :=
  ids.find? fun id => decide (id ∈ tracker.pending)

/-- Whatever is listed before the first pending id has no record. -/
def NothingBeforePending (tracker : TaskTracker) (ids : List String) : Prop :=
  ∀ before id after, ids = before ++ id :: after → id ∈ tracker.pending →
    (∀ id' ∈ before, id' ∉ tracker.pending) → ∀ task ∈ tracker.tasks, task.id ∉ before

/-- No pending id stops the loop exactly if none of the listed ids is pending. -/
theorem firstPending?_eq_none {tracker : TaskTracker} {ids : List String} :
    tracker.firstPending? ids = none ↔ ∀ id ∈ ids, id ∉ tracker.pending := by
  simp only [firstPending?, List.find?_eq_none, decide_eq_true_eq]

/-- The ids before the first pending one do not depend on how the list is cut there. -/
theorem beforePending_eq {tracker : TaskTracker} {before after : List String} {id : String}
    (hid : id ∈ tracker.pending) (hnone : ∀ id' ∈ before, id' ∉ tracker.pending) :
    tracker.beforePending (before ++ id :: after) = before := by
  have hstop : (id :: after).takeWhile (fun id => decide (id ∉ tracker.pending)) = [] :=
    List.takeWhile_cons_of_neg (by simpa using hid)
  rw [beforePending, List.takeWhile_append_of_pos, hstop, List.append_nil]
  intro id' hid'
  exact decide_eq_true (hnone id' hid')

/-- A list with a pending id is what comes before the first one, that one, and a rest. -/
theorem exists_beforePending {tracker : TaskTracker} {ids : List String} {id : String}
    (h : tracker.firstPending? ids = some id) :
    ∃ after, ids = tracker.beforePending ids ++ id :: after ∧ id ∈ tracker.pending ∧
      ∀ id' ∈ tracker.beforePending ids, id' ∉ tracker.pending := by
  obtain ⟨htest, before, after, rfl, hbefore⟩ := List.find?_eq_some_iff_append.mp h
  have hid : id ∈ tracker.pending := of_decide_eq_true htest
  have hnone : ∀ id' ∈ before, id' ∉ tracker.pending := by
    intro id' hid'
    simpa using hbefore id' hid'
  rw [beforePending_eq hid hnone]
  exact ⟨after, rfl, hid, hnone⟩

end TaskTracker

namespace Hub

/-- The loop over the message ids erases the records up to the first pending id and stops there. -/
theorem purgeMsgIds_eq (tracker : TaskTracker) (ids : List String) :
    purgeMsgIds tracker ids =
      ({ tracker with tasks := (tracker.beforePending ids).foldl KeyedTable.erase tracker.tasks },
        tracker.firstPending? ids) := by
  induction ids generalizing tracker with
  | nil => rfl
  | cons id ids ih =>
    rw [purgeMsgIds, TaskTracker.beforePending, TaskTracker.firstPending?]
    by_cases hid : id ∈ tracker.pending
    · simp [hid]
    · rw [if_neg hid, ih]
      simp [hid, TaskTracker.beforePending, TaskTracker.firstPending?]

/-- What a purge by ids leaves and answers, depending on whether one of the message ids is pending. -/
theorem purgeResults_eq {wire : Wire} {hub : Hub} {incoming : Incoming} {msg : PurgeResultsRequest}
    (hparse : wire.purgeResultsRequest incoming.header = some msg) (hall : msg.all = false) :
    hub.purgeResults wire incoming =
      match hub.ttracker.firstPending? msg.msgIds with
      | some id =>
        { hub with ttracker := (purgeMsgIds hub.ttracker msg.msgIds).1 }.reply incoming
          [.text "purge_results_reply", .text ("Error: Got pending msg_id " ++ id)]
      | none =>
        { hub with
          ttracker := (purgeMsgIds hub.ttracker msg.msgIds).1
          tracker := { hub.tracker with
            engines := purgeEngines hub.tracker.engines msg.eids } }.reply incoming
          [.text "load_reply", .purgeResultsReply] := by
  simp only [purgeResults, hparse, hall, Bool.false_eq_true, if_false, purgeMsgIds_eq]
  cases hub.ttracker.firstPending? msg.msgIds <;> rfl

/-- The request is answered with the error which names a pending id. -/
def AnswersPending (before after : Hub) (incoming : Incoming) : Prop :=
  ∃ id, after.sent = before.sent ++ [⟨.query, some incoming.envelope,
    [.text "purge_results_reply", .text ("Error: Got pending msg_id " ++ id)]⟩]

/-- Exactly the records asked for are gone, no pending one is, and the registry is unchanged. -/
structure PurgesExactly (before after : Hub) (msg : PurgeResultsRequest) : Prop where
  tasks : ∀ task, task ∈ after.ttracker.tasks ↔ task ∈ before.ttracker.tasks ∧
    ¬(task.id ∈ msg.msgIds ∨ task.completed ≠ none ∧ task.engineUuid ∈ msg.eids)
  pending : ∀ task ∈ before.ttracker.tasks, task.id ∈ before.ttracker.pending →
    task ∈ after.ttracker.tasks
  registry : after.tracker = before.tracker

end Hub

namespace TaskTracker

/-- With a pending id in the list, the condition is about the ids before the first one. -/
theorem nothingBeforePending_iff {tracker : TaskTracker} {ids : List String} {id : String}
    (h : tracker.firstPending? ids = some id) :
    tracker.NothingBeforePending ids ↔ ∀ task ∈ tracker.tasks, task.id ∉ tracker.beforePending ids := by
  obtain ⟨after, hids, hid, hnone⟩ := exists_beforePending h
  constructor
  · intro hnothing
    exact hnothing _ id after hids hid hnone
  · intro hnothing before id' after' hids' hid' hnone'
    rw [← beforePending_eq hid' hnone', ← hids']
    exact hnothing

/-- The loop leaves the tracker as it was exactly if what it erases has no record. -/
theorem purgeMsgIds_eq_self {tracker : TaskTracker} {ids : List String} :
    (Hub.purgeMsgIds tracker ids).1 = tracker ↔
      ∀ task ∈ tracker.tasks, task.id ∉ tracker.beforePending ids := by
  rw [Hub.purgeMsgIds_eq]
  constructor
  · intro heq task htask
    have htasks := congrArg TaskTracker.tasks heq
    rw [← htasks] at htask
    exact (KeyedTable.mem_foldl_erase.mp htask).2
  · intro hnone
    rw [KeyedTable.foldl_erase_of_notMem hnone]

end TaskTracker

/-- In every state, a purge by ids which is answered with the pending-id error changes neither tasks nor
registry, exactly when no id listed before the first pending one has a record. -/
theorem refused_purge_unchanged_iff {wire : Wire} {s t : System} {incoming : Incoming}
    {msg : PurgeResultsRequest} (htype : incoming.type = "purge_request")
    (hparse : wire.purgeResultsRequest incoming.header = some msg) (hall : msg.all = false)
    (hstep : System.Step wire s (.query incoming) t) :
    (s.hub.AnswersPending t.hub incoming →
        t.hub.ttracker = s.hub.ttracker ∧ t.hub.tracker = s.hub.tracker) ↔
      s.hub.ttracker.NothingBeforePending msg.msgIds := by
  have hhub : t.hub = s.hub.purgeResults wire incoming := by
    cases hstep
    simp only [Hub.dispatchQuery, htype]
  rw [hhub, Hub.purgeResults_eq hparse hall]
  cases hfirst : s.hub.ttracker.firstPending? msg.msgIds with
  | some id =>
    rw [TaskTracker.nothingBeforePending_iff hfirst, ← TaskTracker.purgeMsgIds_eq_self]
    constructor
    · intro h
      exact (h ⟨id, rfl⟩).1
    · intro h _
      exact ⟨h, rfl⟩
  | none =>
    apply iff_of_true
    · intro hpending
      obtain ⟨id, hsent⟩ := hpending
      simp [Hub.reply] at hsent
    · intro before id after hids hid
      have hnone := TaskTracker.firstPending?_eq_none.mp hfirst id
      exact absurd hid (hnone (hids ▸ by simp))

/-- The wire format of a session with a second task `u` and two purges by ids: of both tasks, and of the
results on engine 0. -/
def Wire.purging : Wire :=
  { Wire.session with
    inMsg s :=
      if s = "\n\x01u\x10\x00\x1a\x0f20140101T000000" then
        some { msgId := "u", eid := 0, submitted := some "20140101T000000" }
      else Wire.session.inMsg s
    purgeResultsRequest s :=
      if s = "\x12\x01t\x12\x01u" then some { msgIds := ["t", "u"] }
      else if s = "\x18\x00" then some { eids := [0] }
      else none }

namespace Incoming

/-- The submission of the second task. -/
def secondSubmission : Incoming :=
  { type := "in", header := "\n\x01u\x10\x00\x1a\x0f20140101T000000" }

/-- The request to purge both tasks. -/
def purgeTasks : Incoming := { type := "purge_request", header := "\x12\x01t\x12\x01u" }

/-- The request to purge the results on engine 0. -/
def purgeEngine : Incoming := { type := "purge_request", header := "\x18\x00" }

end Incoming

/-- The purge of a finished task and a pending one is refused, and the finished one is gone. -/
theorem refused_purge_erases :
    ∃ s t, Reachable (System.Step .purging) (System.initial 2000) s ∧
      Wire.purging.purgeResultsRequest Incoming.purgeTasks.header = some { msgIds := ["t", "u"] } ∧
      System.Step .purging s (.query .purgeTasks) t ∧
      ¬(s.hub.AnswersPending t.hub .purgeTasks →
        t.hub.ttracker = s.hub.ttracker ∧ t.hub.tracker = s.hub.tracker) := by
  obtain ⟨s, hrun, hbefore, hstep⟩ := System.exists_run .purging (System.initial 2000)
    [.monitor .submission, .monitor .result, .monitor .secondSubmission]
    (fun s => s.hub.sent = [] ∧ (s.next .purging (.query .purgeTasks)).any (fun t =>
      decide (t.hub.sent = [⟨.query, some [],
          [.text "purge_results_reply", .text ("Error: Got pending msg_id " ++ "u")]⟩] ∧
        (s.hub.ttracker.tasks.find? "t").isSome ∧ t.hub.ttracker.tasks.find? "t" = none)) = true)
    (by decide)
  obtain ⟨t, hstep, ht⟩ := (Option.any_eq_true _ _).mp hstep
  obtain ⟨hsent, hrecorded, hgone⟩ := of_decide_eq_true ht
  refine ⟨s, t, ⟨_, hrun⟩, by decide, hstep, fun h => ?_⟩
  have hunchanged := (h ⟨"u", by rw [hbefore, hsent]; rfl⟩).1
  rw [hunchanged] at hgone
  rw [hgone] at hrecorded
  cases hrecorded

/-- The law for the purge of both tasks, when one is finished and the other is pending. -/
theorem refused_purge_session :
    ∃ (s t : System) (msg : PurgeResultsRequest), msg.msgIds = ["t", "u"] ∧
      ((s.hub.AnswersPending t.hub .purgeTasks →
          t.hub.ttracker = s.hub.ttracker ∧ t.hub.tracker = s.hub.tracker) ↔
        s.hub.ttracker.NothingBeforePending msg.msgIds) := by
  obtain ⟨s, _, _⟩ := System.exists_run .purging (System.initial 2000)
    [.monitor .submission, .monitor .result, .monitor .secondSubmission]
    (fun s => s.hub.sent = []) (by decide)
  have hparse : Wire.purging.purgeResultsRequest Incoming.purgeTasks.header =
      some { msgIds := ["t", "u"] } := by decide
  exact ⟨s, _, _, rfl, refused_purge_unchanged_iff rfl hparse rfl rfl⟩

/-- In every state, a purge by ids none of which is pending removes exactly what was asked for, exactly
when no other completed record belongs to a listed engine and no listed engine is registered. -/
theorem purges_exactly_iff {wire : Wire} {s t : System} {incoming : Incoming}
    {msg : PurgeResultsRequest} (htype : incoming.type = "purge_request")
    (hparse : wire.purgeResultsRequest incoming.header = some msg) (hall : msg.all = false)
    (hpending : ∀ id ∈ msg.msgIds, id ∉ s.hub.ttracker.pending)
    (hstep : System.Step wire s (.query incoming) t) :
    s.hub.PurgesExactly t.hub msg ↔
      (∀ task ∈ s.hub.ttracker.tasks, task.id ∉ msg.msgIds → task.completed ≠ none →
        task.engineUuid ∉ msg.eids) ∧
      ∀ ec ∈ s.hub.tracker.engines, ec.id ∉ msg.eids := by
  have hnone := TaskTracker.firstPending?_eq_none.mpr hpending
  have hbefore : s.hub.ttracker.beforePending msg.msgIds = msg.msgIds :=
    List.takeWhile_eq_self_iff.mpr fun id hid => decide_eq_true (hpending id hid)
  have hhub : t.hub = s.hub.purgeResults wire incoming := by
    cases hstep
    simp only [Hub.dispatchQuery, htype]
  rw [Hub.purgeResults_eq hparse hall, hnone] at hhub
  have htasks : ∀ task, task ∈ t.hub.ttracker.tasks ↔
      task ∈ s.hub.ttracker.tasks ∧ task.id ∉ msg.msgIds := by
    intro task
    rw [← KeyedTable.mem_foldl_erase, ← hbefore, hhub, Hub.reply, Hub.purgeMsgIds_eq]
  have hengines : t.hub.tracker = { s.hub.tracker with
      engines := Hub.purgeEngines s.hub.tracker.engines msg.eids } := by
    rw [hhub, Hub.reply]
  constructor
  · intro h
    constructor
    · intro task htask hid hcompleted heid
      have hkept := (h.tasks task).mp ((htasks task).mpr ⟨htask, hid⟩)
      exact hkept.2 (.inr ⟨hcompleted, heid⟩)
    · intro ec hec
      have hkept := congrArg EngineTracker.engines (hengines.symm.trans h.registry)
      rw [← hkept] at hec
      exact (Hub.mem_purgeEngines.mp hec).2
  · intro hcond
    obtain ⟨hrecords, hregistered⟩ := hcond
    refine ⟨?_, ?_, ?_⟩
    · intro task
      rw [htasks, not_or]
      constructor
      · intro hkept
        exact ⟨hkept.1, hkept.2, fun hboth => hrecords task hkept.1 hkept.2 hboth.1 hboth.2⟩
      · intro hkept
        exact ⟨hkept.1, hkept.2.1⟩
    · intro task htask hid
      exact (htasks task).mpr ⟨htask, fun hmem => hpending task.id hmem hid⟩
    · rw [hengines, Hub.purgeEngines, KeyedTable.foldl_erase_of_notMem hregistered]

/-- The purge of the results on engine 0 keeps the finished one and unregisters the engine. -/
theorem purge_unregisters_engine :
    ∃ s t, Reachable (System.Step .purging) (System.initial 2000) s ∧
      Wire.purging.purgeResultsRequest Incoming.purgeEngine.header = some { eids := [0] } ∧
      System.Step .purging s (.query .purgeEngine) t ∧ ¬s.hub.PurgesExactly t.hub { eids := [0] } := by
  obtain ⟨s, hrun, hstep⟩ := System.exists_run .purging (System.initial 2000)
    [.heartAppears "h", .query .register, .monitor .submission, .monitor .result]
    (fun s => (s.next .purging (.query .purgeEngine)).any (fun t =>
      decide ((s.hub.tracker.engines.find? 0).isSome ∧ t.hub.tracker.engines.find? 0 = none)) = true)
    (by decide)
  obtain ⟨t, hstep, ht⟩ := (Option.any_eq_true _ _).mp hstep
  obtain ⟨hregistered, hgone⟩ := of_decide_eq_true ht
  refine ⟨s, t, ⟨_, hrun⟩, by decide, hstep, fun h => ?_⟩
  rw [h.registry] at hgone
  rw [hgone] at hregistered
  cases hregistered

/-- The law for the purge of the results on engine 0. -/
theorem purges_exactly_session :
    ∃ (s t : System) (msg : PurgeResultsRequest), msg.eids = [0] ∧
      (s.hub.PurgesExactly t.hub msg ↔
        (∀ task ∈ s.hub.ttracker.tasks, task.id ∉ msg.msgIds → task.completed ≠ none →
          task.engineUuid ∉ msg.eids) ∧
        ∀ ec ∈ s.hub.tracker.engines, ec.id ∉ msg.eids) := by
  obtain ⟨s, _, _⟩ := System.exists_run .purging (System.initial 2000)
    [.heartAppears "h", .query .register, .monitor .submission, .monitor .result]
    (fun s => (s.hub.tracker.engines.find? 0).isSome) (by decide)
  have hparse : Wire.purging.purgeResultsRequest Incoming.purgeEngine.header =
      some { eids := [0] } := by decide
  exact ⟨s, _, _, rfl, purges_exactly_iff rfl hparse rfl (by simp) rfl⟩

end Gpf
