import Gpf.Controller.RegistryInvariant

/-!
# The status of the queues

`queue_status` goes through the records of each engine, but it looks at them only if the request is
verbose. It then takes every unfinished task for one of the task queue, and the number of tasks in
the mux queue, which the message requires, is never set.
-/

namespace Gpf

open Transition

/-- The first of the ids which no engine has. -/
def EngineConnectorSet.firstUnlisted? (engines : EngineConnectorSet) (eids : List ℤ) : Option ℤ :=
  eids.find? fun eid => (engines.find? eid).isNone

/-- Every id is that of an engine exactly when none is unlisted. -/
theorem EngineConnectorSet.firstUnlisted?_eq_none {engines : EngineConnectorSet} {eids : List ℤ} :
    engines.firstUnlisted? eids = none ↔ ∀ eid ∈ eids, ∃ ec ∈ engines, ec.id = eid := by
  rw [firstUnlisted?, List.find?_eq_none]
  refine forall₂_congr fun eid _ => ?_
  rw [Option.isNone_iff_eq_none, KeyedTable.find?_eq_none]
  simp only [not_forall, not_not, exists_prop]

/-- The id of an engine does not count. -/
theorem EngineConnectorSet.firstUnlisted?_cons {engines : EngineConnectorSet} {eid : ℤ}
    {ec : EngineConnector} (hfind : engines.find? eid = some ec) (eids : List ℤ) :
    engines.firstUnlisted? (eid :: eids) = engines.firstUnlisted? eids := by
  rw [firstUnlisted?, List.find?_cons_of_neg (by simp [hfind]), firstUnlisted?]

namespace TaskTracker

/-- The ids of the unfinished tasks of an engine in one of the queues. -/
def openIds (tracker : TaskTracker) (queue : String) (eid : ℤ) : List String :=
  (tracker.tasks.records.filter fun t =>
    decide (t.engineUuid = eid ∧ t.queue = queue ∧ t.completed = none)).map Task.id

/-- The ids of the finished tasks of an engine. -/
def finishedIds (tracker : TaskTracker) (eid : ℤ) : List String :=
  (tracker.tasks.records.filter fun t =>
    decide (t.engineUuid = eid ∧ t.completed ≠ none)).map Task.id

/-- The ids of all tasks of an engine. -/
def engineIds (tracker : TaskTracker) (eid : ℤ) : List String :=
  (tracker.tasks.records.filter fun t => decide (t.engineUuid = eid)).map Task.id

end TaskTracker

/-- What the status of an engine is to say: how many unfinished tasks it has in either queue, and if
asked for, the ids of all its tasks, each in the list of its queue or of the finished ones. -/
structure StatusExact (tracker : TaskTracker) (verbose : Bool) (eid : ℤ) (status : QueueStatus) : Prop where
  eid_eq : status.eid = some eid
  queuelen : status.queuelen = some ((tracker.openIds "mux" eid).length : ℤ)
  taskslen : status.taskslen = some ((tracker.openIds "task" eid).length : ℤ)
  queues : verbose = true → status.queues.Perm (tracker.openIds "mux" eid)
  tasks : verbose = true → status.tasks.Perm (tracker.openIds "task" eid)
  completed : verbose = true → status.completed.Perm (tracker.finishedIds eid)
  all : verbose = true →
    (status.queues ++ status.tasks ++ status.completed).Perm (tracker.engineIds eid)

/-- One reply has been sent, with an exact status for each requested engine in the order of the request. -/
def Hub.ReportsStatus (before after : Hub) (incoming : Incoming) (msg : QueueStatusRequest) : Prop :=
  ∃ statuses, after.sent = before.sent ++ [⟨.query, some incoming.envelope,
      [.text "queue_status_reply", .queueStatusReply statuses]⟩] ∧
    List.Forall₂ (StatusExact before.ttracker msg.verbose) msg.eids statuses

namespace Hub

/-- A reply reports exactly when the statuses which it carries are exact. -/
theorem reportsStatus_iff {before after : Hub} {incoming : Incoming} {msg : QueueStatusRequest}
    {statuses : List QueueStatus} (hsent : after.sent = before.sent ++ [⟨.query, some incoming.envelope,
      [.text "queue_status_reply", .queueStatusReply statuses]⟩]) :
    before.ReportsStatus after incoming msg ↔
      List.Forall₂ (StatusExact before.ttracker msg.verbose) msg.eids statuses := by
  constructor
  · intro hexists
    obtain ⟨statuses', hsent', hexact⟩ := hexists
    rw [hsent, List.append_cancel_left_eq] at hsent'
    cases hsent'
    exact hexact
  · intro hexact
    exact ⟨statuses, hsent, hexact⟩

/-- The inner loop of `queue_status`: a verbose request gets the ids of all unfinished tasks in the list of
the task queue, any other nothing. -/
theorem foldl_countTask (verbose : Bool) (records : List Task) (status : QueueStatus) (count : ℤ) :
    records.foldl (countTask verbose) (status, count) =
      if verbose then
        ({ status with
            tasks := status.tasks ++ (records.filter fun t => t.completed.isNone).map Task.id
            completed := status.completed ++ (records.filter fun t => t.completed.isSome).map Task.id },
          count + ((records.filter fun t => t.completed.isNone).length : ℤ))
      else (status, count) := by
  induction records generalizing status count with
  | nil => simp
  | cons t records ih =>
    rw [List.foldl_cons]
    cases hverbose : verbose with
    | false =>
      rw [hverbose] at ih
      simpa [countTask] using ih status count
    | true =>
      rw [hverbose] at ih
      cases hcompleted : t.completed with
      | none =>
        simp [countTask, hcompleted, ih]
        omega
      | some time => simp [countTask, hcompleted, ih]

/-- The status which `queue_status` gives of an engine. -/
theorem engineStatus_eq (verbose : Bool) (tasks : TaskSet) (eid : ℤ) :
    engineStatus verbose tasks eid =
      { eid := some eid
        taskslen := some (if verbose then
          (((tasks.records.filter fun t => decide (t.engineUuid = eid)).filter
            fun t => t.completed.isNone).length : ℤ) else 0)
        tasks := if verbose then
          ((tasks.records.filter fun t => decide (t.engineUuid = eid)).filter
            fun t => t.completed.isNone).map Task.id else []
        completed := if verbose then
          ((tasks.records.filter fun t => decide (t.engineUuid = eid)).filter
            fun t => t.completed.isSome).map Task.id else [] } := by
  simp only [engineStatus, foldl_countTask]
  cases verbose <;> simp

/-- The loop of `queue_status` stops at the first unlisted id, or serves every id in order. -/
theorem statusNumbers_eq (verbose : Bool) (engines : EngineConnectorSet) (tasks : TaskSet)
    (eids : List ℤ) (outmsg : List QueueStatus) :
    statusNumbers verbose engines tasks eids outmsg =
      match engines.firstUnlisted? eids with
      | some eid => .error eid
      | none => .ok (outmsg ++ eids.map (engineStatus verbose tasks)) := by
  induction eids generalizing outmsg with
  | nil => simp [statusNumbers, EngineConnectorSet.firstUnlisted?]
  | cons eid eids ih =>
    cases hfind : engines.find? eid with
    | none => simp [statusNumbers, EngineConnectorSet.firstUnlisted?, hfind]
    | some ec =>
      simp only [statusNumbers, hfind, ih, EngineConnectorSet.firstUnlisted?_cons hfind]
      cases engines.firstUnlisted? eids with
      | some unlisted => rfl
      | none => simp

/-- What `queue_status` sends when every id is that of an engine. -/
theorem queueStatus_sent {wire : Wire} {hub : Hub} {incoming : Incoming} {msg : QueueStatusRequest}
    (hparse : wire.queueStatusRequest incoming.header = some msg)
    (hlisted : ∀ eid ∈ msg.eids, hub.Lists eid) :
    (hub.queueStatus wire incoming).sent = hub.sent ++ [⟨.query, some incoming.envelope,
      [.text "queue_status_reply", .queueStatusReply
        (msg.eids.map (engineStatus msg.verbose hub.ttracker.tasks))]⟩] := by
  have hknown : hub.tracker.engines.firstUnlisted? msg.eids = none :=
    EngineConnectorSet.firstUnlisted?_eq_none.mpr hlisted
  simp only [queueStatus, hparse, statusNumbers_eq, hknown, List.nil_append, reply]

/-- No status which `queue_status` gives is exact: the length of the mux queue is not set. -/
theorem not_statusExact_engineStatus {tracker : TaskTracker} {verbose : Bool} {eid : ℤ} :
    ¬StatusExact tracker verbose eid (engineStatus verbose tracker.tasks eid) := by
  intro h
  have hqueuelen := h.queuelen
  rw [engineStatus_eq] at hqueuelen
  cases hqueuelen

end Hub

/-- In every state, a request for the status of registered engines is answered exactly, verbose or not,
only when it names no engine. -/
theorem queue_status_exact_iff {wire : Wire} {s t : System} {incoming : Incoming}
    {msg : QueueStatusRequest} (htype : incoming.type = "queue_request")
    (hparse : wire.queueStatusRequest incoming.header = some msg)
    (hlisted : ∀ eid ∈ msg.eids, s.hub.Lists eid) (hstep : System.Step wire s (.query incoming) t) :
    s.hub.ReportsStatus t.hub incoming msg ↔ msg.eids = [] := by
  have hhub : t.hub = s.hub.queueStatus wire incoming := by
    cases hstep
    simp only [Hub.dispatchQuery, htype]
  rw [hhub, Hub.reportsStatus_iff (Hub.queueStatus_sent hparse hlisted), List.forall₂_map_right_iff,
    List.forall₂_same, List.eq_nil_iff_forall_not_mem]
  refine forall₂_congr fun eid _ => ?_
  exact iff_of_false Hub.not_statusExact_engineStatus id

/-- The parsers of the session, which also read a request for the load of its engine, and one for its
status, verbose or not. -/
def Wire.asking : Wire :=
  { Wire.session with
    loadRequest := fun s => if s = "\x08\x00" then some { eid := [0] } else none
    queueStatusRequest := fun s =>
      if s = "\x10\x00" then some { eids := [0] }
      else if s = "\x08\x01\x10\x00" then some { verbose := true, eids := [0] }
      else none }

/-- The request for the status of the session's engine. -/
def Incoming.status : Incoming := { type := "queue_request", header := "\x10\x00" }

/-- The verbose request for it. -/
def Incoming.verboseStatus : Incoming := { type := "queue_request", header := "\x08\x01\x10\x00" }

/-- The task of the session waits in the mux queue: the replies do not tell the length of that queue, the
verbose one counts the task for the task queue, and the other one does not count it at all. -/
theorem session_status_inexact :
    ∃ s t u, Reachable (System.Step .asking) (System.initial 2000) s ∧ s.hub.Lists 0 ∧
      System.Step .asking s (.query .status) t ∧ System.Step .asking s (.query .verboseStatus) u ∧
      ¬s.hub.ReportsStatus t.hub .status { eids := [0] } ∧
      ¬s.hub.ReportsStatus u.hub .verboseStatus { verbose := true, eids := [0] } := by
  obtain ⟨s, hrun, hlisted, hplain, hverbose⟩ := System.exists_run .asking (.initial 2000)
    [.heartAppears "h", .query .register, .monitor .submission]
    (fun s => s.hub.Lists 0 ∧
      (s.next .asking (.query .status)).any (fun t => decide (t.hub.sent = s.hub.sent ++
        [(⟨.query, some [], [.text "queue_status_reply",
          .queueStatusReply [{ eid := some 0, taskslen := some 0 }]]⟩ : Sent)])) = true ∧
      (s.next .asking (.query .verboseStatus)).any (fun u => decide (u.hub.sent = s.hub.sent ++
        [(⟨.query, some [], [.text "queue_status_reply",
          .queueStatusReply [{ eid := some 0, taskslen := some 1, tasks := ["t"] }]]⟩ : Sent)])) = true)
    (by decide)
  obtain ⟨t, hstep, hsent⟩ := (Option.any_eq_true _ _).mp hplain
  obtain ⟨u, hstep', hsent'⟩ := (Option.any_eq_true _ _).mp hverbose
  refine ⟨s, t, u, ⟨_, hrun⟩, hlisted, hstep, hstep', ?_, ?_⟩
  · rw [Hub.reportsStatus_iff (of_decide_eq_true hsent)]
    intro hexact
    cases hexact with
    | cons hstatus _ => cases hstatus.queuelen
  · rw [Hub.reportsStatus_iff (of_decide_eq_true hsent')]
    intro hexact
    cases hexact with
    | cons hstatus _ => cases hstatus.queuelen

/-- The law for the request for the status of the session's engine, once it is registered. -/
theorem queue_status_exact_asking :
    ∃ (s t : System) (msg : QueueStatusRequest), msg.eids = [0] ∧
      (s.hub.ReportsStatus t.hub .status msg ↔ msg.eids = []) := by
  obtain ⟨s, _, hlisted⟩ := System.exists_run .asking (.initial 2000)
    [.heartAppears "h", .query .register] (fun s => s.hub.Lists 0) (by decide)
  have hparse : Wire.asking.queueStatusRequest Incoming.status.header = some { eids := [0] } := by decide
  have hall : ∀ eid ∈ ([0] : List ℤ), s.hub.Lists eid := List.forall_mem_singleton.mpr hlisted
  exact ⟨s, _, _, rfl, queue_status_exact_iff rfl hparse hall rfl⟩

end Gpf
