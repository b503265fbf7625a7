import Gpf.Controller.Hub

/-!
# The hub: queries

The handlers behind `dispatch_query` which answer the requester. Their loops leave early on the
first id they cannot serve; `Except.error` carries that id.
-/

namespace Gpf

namespace Hub

/-- An answer on the query socket, behind the envelope of the request. -/
def reply (hub : Hub) (incoming : Incoming) (frames : List Frame) : Hub :=
  { hub with sent := hub.sent ++ [⟨.query, some incoming.envelope, frames⟩] }

/-- The loop of `check_load`. -/
def loadNumbers (engines : EngineConnectorSet) : List ℤ → LoadReply → Except ℤ LoadReply
  | [], outmsg => .ok outmsg
  | eid :: eids, outmsg =>
    match engines.find? eid with
    | none => .error eid
    | some ec =>
      loadNumbers engines eids
        { eid := outmsg.eid ++ [eid]
          queuelen := outmsg.queuelen ++ [(ec.queues.length : ℤ)]
          taskslen := outmsg.taskslen ++ [(ec.tasks.length : ℤ)] }

/-- `hub::check_load`. -/
def checkLoad (wire : Wire) (hub : Hub) (incoming : Incoming) : Hub :=
  match wire.loadRequest incoming.header with
  | none => hub
  | some inmsg =>
    match loadNumbers hub.tracker.engines inmsg.eid {} with
    | .ok outmsg => hub.reply incoming [.text "load_reply", .loadReply outmsg]
    | .error _ => hub.reply incoming [.text "load_reply", .text "Error: Got unknown ID"]

/-- One round of the inner loop of `queue_status`, over the status message and `task_cnt`. -/
def countTask (verbose : Bool) (acc : QueueStatus × ℤ) (t : Task) : QueueStatus × ℤ :=
  if verbose then
    if t.completed.isNone then ({ acc.1 with tasks := acc.1.tasks ++ [t.id] }, acc.2 + 1)
    else ({ acc.1 with completed := acc.1.completed ++ [t.id] }, acc.2)
  else acc

/-- The status of one engine as `queue_status` fills it in; `queuelen` is never set. -/
def engineStatus (verbose : Bool) (tasks : TaskSet) (eid : ℤ) : QueueStatus :=
  let acc := (tasks.records.filter fun t => decide (t.engineUuid = eid)).foldl
    (countTask verbose) ({}, 0)
  { acc.1 with eid := some eid, taskslen := some acc.2 }

/-- The loop of `queue_status`. -/
def statusNumbers (verbose : Bool) (engines : EngineConnectorSet) (tasks : TaskSet) :
    List ℤ → List QueueStatus → Except ℤ (List QueueStatus)
  | [], outmsg => .ok outmsg
  | eid :: eids, outmsg =>
    match engines.find? eid with
    | none => .error eid
    | some _ => statusNumbers verbose engines tasks eids (outmsg ++ [engineStatus verbose tasks eid])

/-- `hub::queue_status`. -/
def queueStatus (wire : Wire) (hub : Hub) (incoming : Incoming) : Hub :=
  match wire.queueStatusRequest incoming.header with
  | none => hub
  | some inmsg =>
    match statusNumbers inmsg.verbose hub.tracker.engines hub.ttracker.tasks inmsg.eids [] with
    | .ok outmsg => hub.reply incoming [.text "queue_status_reply", .queueStatusReply outmsg]
    | .error _ => hub.reply incoming [.text "queue_status_reply", .text "Error: Got unknown ID"]

/-- The loop of `purge_results` over the message ids: the tracker it leaves, and the pending id at
which it stops, if any. -/
def purgeMsgIds : TaskTracker → List String → TaskTracker × Option String
  | tracker, [] => (tracker, none)
  | tracker, id :: ids =>
    if id ∈ tracker.pending then (tracker, some id)
    else purgeMsgIds { tracker with tasks := tracker.tasks.erase id } ids

/-- The loop of `purge_results` over the engine ids, which runs on the engines of the registry. -/
def purgeEngines (engines : EngineConnectorSet) (eids : List ℤ) : EngineConnectorSet :=
  eids.foldl KeyedTable.erase engines

/-- `hub::purge_results`. -/
def purgeResults (wire : Wire) (hub : Hub) (incoming : Incoming) : Hub :=
  match wire.purgeResultsRequest incoming.header with
  | none => hub
  | some inmsg =>
    if inmsg.all then
      { hub with ttracker := { hub.ttracker with tasks := .empty } }.reply incoming
        [.text "load_reply", .purgeResultsReply]
    else
      match purgeMsgIds hub.ttracker inmsg.msgIds with
      | (ttracker, some id) =>
        { hub with ttracker := ttracker }.reply incoming
          [.text "purge_results_reply", .text ("Error: Got pending msg_id " ++ id)]
      | (ttracker, none) =>
        { hub with
          ttracker := ttracker
          tracker := { hub.tracker with
            engines := purgeEngines hub.tracker.engines inmsg.eids } }.reply incoming
          [.text "load_reply", .purgeResultsReply]

/-- The loop of `get_results`: the entries of the reply and the buffers to send after it. -/
def resultEntries (tasks : TaskSet) (statusOnly : Bool) :
    List String → List ResultEntry → List String → Except String (List ResultEntry × List String)
  | [], results, buffers => .ok (results, buffers)
  | id :: ids, results, buffers =>
    match tasks.find? id with
    | none => .error id
    | some task =>
      resultEntries tasks statusOnly ids
        (results ++ [⟨id, if task.completed.isNone then .pending else .completed⟩])
        (if statusOnly then buffers else buffers ++ [task.resultContent])

/-- `hub::get_results`. -/
def getResults (wire : Wire) (hub : Hub) (incoming : Incoming) : Hub :=
  match wire.getResultsRequest incoming.header with
  | none => hub
  | some inmsg =>
    match resultEntries hub.ttracker.tasks inmsg.statusOnly inmsg.msgIds [] [] with
    | .error id =>
      hub.reply incoming [.text "get_results_reply", .text ("Unknown message id " ++ id)]
    | .ok (results, buffers) =>
      hub.reply incoming
        (.text "load_reply" :: .getResultsReply results :: buffers.map Frame.text)

/-- `hub::shutdown_request`. -/
def shutdownRequest (hub : Hub) : Hub :=
  { hub with
    sent := hub.sent ++
      [⟨.query, none, [.text "shutdown_reply", .text "ok"]⟩,
        ⟨.notifier, none, [.text "shutdown_notification"]⟩]
    loop := hub.loop.add hub.clock (milliseconds 1000) .shutdown }

/-- `hub::dispatch_query`, with the handler table of the constructor. A bad message type is only
logged; `resubmit_task` and `connection_request` have empty bodies. -/
def dispatchQuery (wire : Wire) (alive : String → Bool) (hub : Hub) (incoming : Incoming) : Hub :=
  match incoming.type with
  | "queue_request" => queueStatus wire hub incoming
  | "result_request" => getResults wire hub incoming
  | "purge_request" => purgeResults wire hub incoming
  | "load_request" => checkLoad wire hub incoming
  | "shutdown_request" => shutdownRequest hub
  | "registration_request" => registerEngine wire alive hub incoming
  | "unregistration_request" => unregisterEngine hub incoming
  | _ => hub

end Hub

end Gpf
