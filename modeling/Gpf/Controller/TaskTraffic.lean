import Gpf.Controller.TaskSet

/-!
# Monitor traffic

The handlers of the mux queue and of the task queue. A handler whose header does not parse
returns at once. A handler in which `from_iso_string` throws is left in the middle, and the
tracker keeps what was written before the throw; nothing between the handler and `hub::run`
catches the exception.
-/

namespace Gpf

/-- How a handler ends: it returns, or an exception leaves it with what it wrote so far. -/
inductive Outcome (σ : Type*)
  | returned (state : σ)
  | threw (state : σ)

/-- The state in which a handler leaves its object, on either exit. -/
def Outcome.state {σ : Type*} : Outcome σ → σ
  | returned s => s
  | threw s => s

/-- The state after a handler which returned. -/
def Outcome.returned? {σ : Type*} : Outcome σ → Option σ
  | returned s => some s
  | threw _ => none

/-- A state after a handler which returned is the one it returned. -/
theorem Outcome.eq_returned {σ : Type*} {outcome : Outcome σ} {s : σ}
    (h : outcome.returned? = some s) : outcome = .returned s := by
  cases outcome with
  | returned state => rw [Option.some.inj h]
  | threw state => cases h

namespace TaskTracker

variable (wire : Wire)

/-- A timestamp field, read as the empty string when it is absent. -/
def timestamp (field : Option String) : Option Time := wire.fromIsoString (field.getD "")

/-- `hub::save_queue_request`. -/
def saveQueueRequest (tracker : TaskTracker) (incoming : Incoming) : Outcome TaskTracker :=
  match wire.inMsg incoming.header with
  | none => .returned tracker
  | some inmsg =>
    match timestamp wire inmsg.submitted with
    | none => .threw tracker
    | some submitted =>
      .returned (tracker.submit
        { id := inmsg.msgId
          incomingMsg := some incoming
          engineUuid := inmsg.eid
          submitted := some submitted
          queue := "mux" })

/-- The record update at the end of both result handlers: `completed`, then `started`, then the
message itself, with either timestamp able to throw. -/
def stampResult (tracker : TaskTracker) (id : String) (completed started : Option String)
    (incoming : Incoming) : Outcome TaskTracker :=
  match timestamp wire completed with
  | none => .threw tracker
  | some completedTime =>
    let tracker := tracker.modifyTask id fun t => { t with completed := some completedTime }
    match timestamp wire started with
    | none => .threw tracker
    | some startedTime =>
      .returned (tracker.modifyTask id fun t =>
        { t with started := some startedTime, outgoingMsg := some incoming })

/-- `hub::save_queue_result`. -/
def saveQueueResult (tracker : TaskTracker) (incoming : Incoming) : Outcome TaskTracker :=
  match wire.outMsg incoming.header with
  | none => .returned tracker
  | some inmsg =>
    match tracker.tasks.find? inmsg.msgId with
    | none => .returned tracker
    | some _ =>
      stampResult wire (tracker.complete inmsg.msgId) inmsg.msgId inmsg.completed inmsg.started incoming

/-- `hub::save_task_request`. -/
def saveTaskRequest (tracker : TaskTracker) (incoming : Incoming) : Outcome TaskTracker :=
  match wire.intask incoming.header with
  | none => .returned tracker
  | some inmsg =>
    match timestamp wire inmsg.submitted with
    | none => .threw tracker
    | some submitted =>
      -- the condition is the source's: the id becomes unassigned when an engine is named
      let tracker :=
        if inmsg.eid.isSome then
          { tracker with unassigned := insert inmsg.msgId tracker.unassigned }
        else tracker
      .returned (tracker.submit
        { id := inmsg.msgId
          incomingMsg := some incoming
          engineUuid := inmsg.eid.getD (-1)
          submitted := some submitted
          queue := "task" })

/-- `hub::save_task_result`. -/
def saveTaskResult (tracker : TaskTracker) (incoming : Incoming) : Outcome TaskTracker :=
  match wire.outtask incoming.header with
  | none => .returned tracker
  | some inmsg =>
    match tracker.tasks.find? inmsg.msgId with
    | none => .returned tracker
    | some _ =>
      let tracker := { tracker with unassigned := tracker.unassigned.erase inmsg.msgId }
      match stampResult wire (tracker.complete inmsg.msgId) inmsg.msgId inmsg.completed
          inmsg.started incoming with
      | .threw tracker => .threw tracker
      | .returned tracker =>
        .returned (if inmsg.hasEid then tracker.reassign inmsg.msgId inmsg.eid else tracker)

/-- `hub::save_task_destination`. -/
def saveTaskDestination (tracker : TaskTracker) (incoming : Incoming) : Outcome TaskTracker :=
  match wire.tracktask incoming.header with
  | none => .returned tracker
  | some inmsg =>
    match tracker.tasks.find? inmsg.msgId with
    | none => .returned tracker
    | some _ =>
      let tracker := { tracker with unassigned := tracker.unassigned.erase inmsg.msgId }
      .returned (tracker.reassign inmsg.msgId inmsg.eid)

/-- `hub::dispatch_monitor_traffic`, with the handler table of the constructor. An unknown topic is
only logged, and the control topics go to `hub::nop`. -/
def dispatchMonitorTraffic (tracker : TaskTracker) (incoming : Incoming) : Outcome TaskTracker :=
  match incoming.type with
  | "in" => saveQueueRequest wire tracker incoming
  | "out" => saveQueueResult wire tracker incoming
  | "intask" => saveTaskRequest wire tracker incoming
  | "outtask" => saveTaskResult wire tracker incoming
  | "tracktask" => saveTaskDestination wire tracker incoming
  | _ => .returned tracker

/-- How `save_queue_request` ends. -/
theorem saveQueueRequest_cases (tracker : TaskTracker) (incoming : Incoming) :
    (wire.inMsg incoming.header = none ∧ saveQueueRequest wire tracker incoming = .returned tracker) ∨
      ∃ msg, wire.inMsg incoming.header = some msg ∧
        ((timestamp wire msg.submitted = none ∧
            saveQueueRequest wire tracker incoming = .threw tracker) ∨
          ∃ submitted, timestamp wire msg.submitted = some submitted ∧
            saveQueueRequest wire tracker incoming = .returned (tracker.submit
              { id := msg.msgId
                incomingMsg := some incoming
                engineUuid := msg.eid
                submitted := some submitted
                queue := "mux" })) := by
  unfold saveQueueRequest
  cases hparse : wire.inMsg incoming.header with
  | none => exact .inl ⟨rfl, rfl⟩
  | some msg =>
    cases htime : timestamp wire msg.submitted with
    | none => exact .inr ⟨msg, rfl, .inl ⟨htime, by simp only [htime]⟩⟩
    | some submitted => exact .inr ⟨msg, rfl, .inr ⟨submitted, htime, by simp only [htime]⟩⟩

/-- How `save_task_request` ends. -/
theorem saveTaskRequest_cases (tracker : TaskTracker) (incoming : Incoming) :
    (wire.intask incoming.header = none ∧ saveTaskRequest wire tracker incoming = .returned tracker) ∨
      ∃ msg, wire.intask incoming.header = some msg ∧
        ((timestamp wire msg.submitted = none ∧ saveTaskRequest wire tracker incoming = .threw tracker) ∨
          ∃ submitted, timestamp wire msg.submitted = some submitted ∧
            saveTaskRequest wire tracker incoming = .returned (submit
              (if msg.eid.isSome then { tracker with unassigned := insert msg.msgId tracker.unassigned }
                else tracker)
              { id := msg.msgId
                incomingMsg := some incoming
                engineUuid := msg.eid.getD (-1)
                submitted := some submitted
                queue := "task" })) := by
  unfold saveTaskRequest
  cases hparse : wire.intask incoming.header with
  | none => exact .inl ⟨rfl, rfl⟩
  | some msg =>
    cases htime : timestamp wire msg.submitted with
    | none => exact .inr ⟨msg, rfl, .inl ⟨htime, by simp only [htime]⟩⟩
    | some submitted => exact .inr ⟨msg, rfl, .inr ⟨submitted, htime, by simp only [htime]⟩⟩

/-- A result is stamped exactly if both timestamps parse. -/
theorem stampResult_eq_returned {tracker after : TaskTracker} {id : String}
    {completed started : Option String} {incoming : Incoming} :
    stampResult wire tracker id completed started incoming = .returned after ↔
      ∃ completedTime startedTime, timestamp wire completed = some completedTime ∧
        timestamp wire started = some startedTime ∧
        (tracker.modifyTask id fun t => { t with completed := some completedTime }).modifyTask id
          (fun t => { t with started := some startedTime, outgoingMsg := some incoming }) = after := by
  unfold stampResult
  cases hcompleted : timestamp wire completed with
  | none => simp
  | some completedTime =>
    cases hstarted : timestamp wire started with
    | none => simp
    | some startedTime => simp

/-- How `save_queue_result` ends. -/
theorem saveQueueResult_cases (tracker : TaskTracker) (incoming : Incoming) :
    (wire.outMsg incoming.header = none ∧ saveQueueResult wire tracker incoming = .returned tracker) ∨
      ∃ msg, wire.outMsg incoming.header = some msg ∧
        ((tracker.tasks.find? msg.msgId = none ∧
            saveQueueResult wire tracker incoming = .returned tracker) ∨
          ∃ task, tracker.tasks.find? msg.msgId = some task ∧
            saveQueueResult wire tracker incoming = stampResult wire (tracker.complete msg.msgId)
              msg.msgId msg.completed msg.started incoming) := by
  unfold saveQueueResult
  cases hparse : wire.outMsg incoming.header with
  | none => exact .inl ⟨rfl, rfl⟩
  | some msg =>
    cases hfind : tracker.tasks.find? msg.msgId with
    | none => exact .inr ⟨msg, rfl, .inl ⟨hfind, by simp only [hfind]⟩⟩
    | some task => exact .inr ⟨msg, rfl, .inr ⟨task, hfind, by simp only [hfind]⟩⟩

/-- How `save_task_result` ends; the test for an engine id is always met. -/
theorem saveTaskResult_cases (tracker : TaskTracker) (incoming : Incoming) :
    (wire.outtask incoming.header = none ∧ saveTaskResult wire tracker incoming = .returned tracker) ∨
      ∃ msg, wire.outtask incoming.header = some msg ∧
        ((tracker.tasks.find? msg.msgId = none ∧
            saveTaskResult wire tracker incoming = .returned tracker) ∨
          ∃ task, tracker.tasks.find? msg.msgId = some task ∧
            saveTaskResult wire tracker incoming =
              match stampResult wire
                (complete { tracker with unassigned := tracker.unassigned.erase msg.msgId } msg.msgId)
                msg.msgId msg.completed msg.started incoming with
              | .threw stamped => .threw stamped
              | .returned stamped => .returned (stamped.reassign msg.msgId msg.eid)) := by
  unfold saveTaskResult
  cases hparse : wire.outtask incoming.header with
  | none => exact .inl ⟨rfl, rfl⟩
  | some msg =>
    cases hfind : tracker.tasks.find? msg.msgId with
    | none => exact .inr ⟨msg, rfl, .inl ⟨hfind, by simp only [hfind]⟩⟩
    | some task =>
      exact .inr ⟨msg, rfl, .inr ⟨task, hfind, by simp only [hfind, Outtask.hasEid, if_true]⟩⟩

/-- How `save_task_destination` ends. -/
theorem saveTaskDestination_cases (tracker : TaskTracker) (incoming : Incoming) :
    (wire.tracktask incoming.header = none ∧
        saveTaskDestination wire tracker incoming = .returned tracker) ∨
      ∃ msg, wire.tracktask incoming.header = some msg ∧
        ((tracker.tasks.find? msg.msgId = none ∧
            saveTaskDestination wire tracker incoming = .returned tracker) ∨
          ∃ task, tracker.tasks.find? msg.msgId = some task ∧
            saveTaskDestination wire tracker incoming = .returned (reassign
              { tracker with unassigned := tracker.unassigned.erase msg.msgId } msg.msgId msg.eid)) := by
  unfold saveTaskDestination
  cases hparse : wire.tracktask incoming.header with
  | none => exact .inl ⟨rfl, rfl⟩
  | some msg =>
    cases hfind : tracker.tasks.find? msg.msgId with
    | none => exact .inr ⟨msg, rfl, .inl ⟨hfind, by simp only [hfind]⟩⟩
    | some task => exact .inr ⟨msg, rfl, .inr ⟨task, hfind, by simp only [hfind]⟩⟩

end TaskTracker

end Gpf
