import Gpf.Controller.EngineSet
import Gpf.Controller.TaskTraffic

/-!
# The hub: registration, hearts and timers

The handlers are functions on the hub. What they send, schedule and write to the log is part of
its state. `clock` is what `microsec_clock::universal_time` answers while a handler runs, and
`m_heartmonitor->alive` is handed to the one handler that asks for it.

The log keeps the lines that tell what became of a registration. No handler reads it.
-/

namespace Gpf

/-- What the timers of the controller's reactor are bound to. -/
inductive Callback
  | purgeStalledRegistration (heart : String)
  | handleStrandedMsgs (eid : ℤ) (uuid : String)
  | shutdown
  | beat
deriving DecidableEq

/-- The log lines about registrations: the heart of an accepted one is or is not beating,
`Finishing registration of engine`, `Purging stalled registration` and `Unregistring engine`. -/
inductive LogLine
  | accepted (eid : ℤ) (queue heart : String)
  | finishing (eid : ℤ)
  | purging (eid : ℤ)
  | unregistering (eid : ℤ)
deriving DecidableEq

/-- The hub, with the reactor it adds its timers to and the messages it has sent so far. -/
structure Hub where
  tracker : EngineTracker := {}
  ttracker : TaskTracker := {}
  loop : Loop Callback := {}
  clock : Time := 0
  sent : List Sent := []
  log : List LogLine := []
  registrationTimeout : ℤ

namespace Hub

/-- The hub constructor, given the interval of its heartmonitor in milliseconds. The product is one of two
numbers of type `int`, which wraps around. -/
def create (interval : ℤ) : Hub := { registrationTimeout := max 5000 ((2 * interval).bmod 4294967296) }

/-- As long as twice the interval is an `int`, a registration waits that long, and five seconds at least. -/
theorem create_registrationTimeout {interval : ℤ} (hlow : -1073741824 ≤ interval)
    (hhigh : interval < 1073741824) : (create interval).registrationTimeout = max 5000 (2 * interval) := by
  have hproduct : (2 * interval).bmod 4294967296 = 2 * interval :=
    Int.bmod_eq_of_le (by omega) (by omega)
  rw [create, hproduct]

/-- The notification that a new engine is registered. -/
def registrationNotification (ec : EngineConnector) : Sent :=
  { socket := .notifier
    frames := [.text "registration_notification",
      .registration
        { heartbeat := ec.heartbeat
          queue := ec.queue
          reg := ec.registration
          services := ec.services
          eid := some ec.id }] }

/-- The answer to the registration request kept in the connector. -/
def registrationAck (ec : EngineConnector) : Sent :=
  { socket := .query
    envelope := some ec.incomingMsg.envelope
    frames := [.text "registration_request", .text "ACK"] }

/-- The notification that an engine is unregistered. -/
def unregistrationNotification (eid : ℤ) : Sent :=
  { socket := .notifier
    frames := [.text "unregistration_notification", .number eid] }

/-- The body of `hub::finish_registration`, once the waiting registration is found. -/
def finishFound (hub : Hub) (ec : EngineConnector) : Hub :=
  { hub with
    loop := match ec.deletionCallback with
      | some ptr => hub.loop.setInactive ptr
      | none => hub.loop
    tracker := { hub.tracker with engines := hub.tracker.engines.insert ec }
    sent := hub.sent ++ [registrationNotification ec, registrationAck ec]
    log := hub.log ++ [.finishing ec.id] }

/-- `hub::finish_registration`. -/
def finishRegistration (hub : Hub) (heart : String) : Hub :=
  match hub.tracker.incomingRegistrations.findHeart heart with
  | none => hub
  | some ec => hub.finishFound ec

/-- `hub::handle_new_heart`. -/
def handleNewHeart (hub : Hub) (heart : String) : Hub :=
  match hub.tracker.incomingRegistrations.findHeart heart with
  | none => hub
  | some _ => hub.finishRegistration heart

/-- `hub::_unregister_engine`. -/
def _unregisterEngine (hub : Hub) (eid : ℤ) : Hub :=
  match hub.tracker.engines.find? eid with
  | none => hub
  | some ec =>
    { hub with
      tracker := { hub.tracker with deadEngines := insert ec.queue hub.tracker.deadEngines }
      loop := hub.loop.add hub.clock (milliseconds hub.registrationTimeout)
        (.handleStrandedMsgs eid ec.queue)
      sent := hub.sent ++ [unregistrationNotification eid] }

/-- `hub::handle_heart_failure`. -/
def handleHeartFailure (hub : Hub) (heart : String) : Hub :=
  match hub.tracker.engines.findHeart heart with
  | none => hub
  | some ec => hub._unregisterEngine ec.id

/-- The four searches after which `register_engine` reports a name in use and returns. -/
def namesTaken (tracker : EngineTracker) (queue heart : String) : Bool :=
  (tracker.engines.findQueue queue).isSome || (tracker.engines.findHeart heart).isSome ||
    (tracker.incomingRegistrations.findQueue queue).isSome ||
    (tracker.incomingRegistrations.findHeart heart).isSome

/-- The connector which `register_engine` fills in from the request. -/
def connectorOf (eid : ℤ) (msg : Registration) (incoming : Incoming)
    (deletionCallback : Option ℕ) : EngineConnector :=
  { id := eid
    queue := msg.queue
    heartbeat := msg.heartbeat
    services := msg.services
    incomingMsg := incoming
    registration := msg.reg
    deletionCallback := deletionCallback }

/-- Insert an accepted registration. -/
def insertIncoming (hub : Hub) (ec : EngineConnector) : Hub :=
  { hub with
    tracker := { hub.tracker with
      incomingRegistrations := hub.tracker.incomingRegistrations.insert ec }
    log := hub.log ++ [.accepted ec.id ec.queue ec.heartbeat] }

/-- `next_id`: hand out an id and advance the counter. -/
def nextId (hub : Hub) : ℤ × Hub :=
  (hub.tracker.nextId, { hub with tracker := { hub.tracker with nextId := hub.tracker.nextId + 1 } })

/-- `hub::register_engine`. -/
def registerEngine (wire : Wire) (alive : String → Bool) (hub : Hub) (incoming : Incoming) : Hub :=
  match wire.registration incoming.header with
  | none => hub
  | some msg =>
    let (eid, hub) := hub.nextId
    if namesTaken hub.tracker msg.queue msg.heartbeat then hub
    else if alive msg.heartbeat then
      (hub.insertIncoming (connectorOf eid msg incoming none)).finishRegistration msg.heartbeat
    else
      let hub' := hub.insertIncoming (connectorOf eid msg incoming (some hub.loop.nextPtr))
      { hub' with
        loop := hub'.loop.add hub'.clock (milliseconds hub'.registrationTimeout)
          (.purgeStalledRegistration msg.heartbeat) }

/-- `hub::_purge_stalled_registration`. -/
def _purgeStalledRegistration (hub : Hub) (heart : String) : Hub :=
  match hub.tracker.incomingRegistrations.findHeart heart with
  | none => hub
  | some ec =>
    { hub with
      tracker := { hub.tracker with
        incomingRegistrations := hub.tracker.incomingRegistrations.erase ec.id }
      log := hub.log ++ [.purging ec.id] }

/-- `hub::unregister_engine`; the second part of the message is the queue name itself. -/
def unregisterEngine (hub : Hub) (incoming : Incoming) : Hub :=
  match hub.tracker.engines.findQueue incoming.header with
  | none => hub
  | some ec =>
    { hub with
      tracker := { hub.tracker with engines := hub.tracker.engines.erase ec.id }
      log := hub.log ++ [.unregistering ec.id] }

/-- One round of the loop in `_handle_stranded_msgs`; without a record only the sets change. -/
def strandTask (now : Time) (tracker : TaskTracker) (msgId : String) : TaskTracker :=
  { tracker with
    pending := tracker.pending.erase msgId
    allCompleted := insert msgId tracker.allCompleted }.modifyTask msgId fun t =>
      { t with
        content := "Engine died while running task `" ++ msgId ++ "'"
        completed := some now }

/-- `hub::_handle_stranded_msgs`. -/
def _handleStrandedMsgs (hub : Hub) (eid : ℤ) (_uuid : String) : Hub :=
  match hub.tracker.engines.find? eid with
  | none => hub
  | some ec => { hub with ttracker := ec.queues.foldl (strandTask hub.clock) hub.ttracker }

/-- Run the callback that a timer is bound to, as far as it is the hub's. `_shutdown` exits the process
and leaves no hub; `beat` is the heartmonitor's and by itself does nothing to the hub. -/
def runCallback (hub : Hub) : Callback → Option Hub
  | .purgeStalledRegistration heart => some (hub._purgeStalledRegistration heart)
  | .handleStrandedMsgs eid uuid => some (hub._handleStrandedMsgs eid uuid)
  | .shutdown => none
  | .beat => some hub

/-- The heartmonitor schedules its next beat on the reactor it shares with the hub. -/
def scheduleBeat (hub : Hub) (waiting : Time) : Hub :=
  { hub with loop := hub.loop.add hub.clock waiting .beat }

/-- A queued timer is taken out of the queue, and fires if it is still active. -/
def timeout (hub : Hub) (ptr : ℕ) : Option Hub :=
  match hub.loop.queue.find? fun timer => decide (timer.ptr = ptr) with
  | none => none
  | some timer =>
    let hub := { hub with loop := hub.loop.pop ptr }
    if hub.loop.active ptr then hub.runCallback timer.callback else some hub

end Hub

end Gpf
