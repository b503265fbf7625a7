import Gpf.Controller.TimerIdentity

/-!
# The two ways an engine leaves

A failed heart marks the engine's queue as dead, announces the departure and schedules
`_handle_stranded_msgs`, but the engine stays listed, also after that timer. An unregistration
request takes the engine out of the list and does nothing else.
-/

namespace Gpf

open Transition

namespace Hub

/-- Fire, in the order of the queue and each when it is due, all timers scheduled since the given
identity was next. -/
def fireSince (hub : Hub) (ptr : ℕ) : Option Hub :=
  (hub.loop.queue.filter fun timer => decide (ptr ≤ timer.ptr)).foldlM
    (fun hub timer => { hub with clock := max hub.clock timer.deadline }.timeout timer.ptr) hub

/-- The heart of the engine fails, and the timer which that schedules fires. -/
def leaveByHeartFailure (hub : Hub) (e : EngineConnector) : Option Hub :=
  (hub.handleHeartFailure e.heartbeat).fireSince hub.loop.nextPtr

/-- The engine asks to leave, and any timer which that schedules fires. -/
def leaveByRequest (hub : Hub) (e : EngineConnector) : Option Hub :=
  (hub.unregisterEngine { type := "unregistration_request", header := e.queue }).fireSince
    hub.loop.nextPtr

end Hub

/-- What it means that an engine has left: it is not listed, its queue is dead, its departure was
announced once on the way, and the records of the other engines are as before. -/
structure LeftHub (before after : Hub) (e : EngineConnector) : Prop where
  gone : ¬after.Lists e.id
  dead : e.queue ∈ after.tracker.deadEngines
  announced : ∃ messages, after.sent = before.sent ++ messages ∧
    messages.count (Hub.unregistrationNotification e.id) = 1
  others : ∀ ec, ec.id ≠ e.id → (ec ∈ after.tracker.engines ↔ ec ∈ before.tracker.engines)

namespace Hub

/-- Before a handler runs, no timer was scheduled since. -/
theorem filter_queue_since {hub : Hub} (inv : TimerIdentity hub) :
    hub.loop.queue.filter (fun timer => decide (hub.loop.nextPtr ≤ timer.ptr)) = [] := by
  apply List.filter_eq_nil_iff.mpr
  intro timer htimer hle
  have hlt := inv.queued_lt timer htimer
  have hge := of_decide_eq_true hle
  omega

/-- A new timer is the only one scheduled since. -/
theorem filter_queue_add {hub : Hub} (inv : TimerIdentity hub) (now waiting : Time)
    (callback : Callback) :
    ((hub.loop.add now waiting callback).queue.filter fun timer =>
        decide (hub.loop.nextPtr ≤ timer.ptr)) =
      [⟨hub.loop.nextPtr, now + waiting, callback⟩] := by
  rw [Loop.add, List.filter_append, filter_queue_since inv]
  simp

/-- Firing a timer just scheduled runs its callback. -/
theorem timeout_added {hub : Hub} {now waiting : Time} {callback : Callback} {ptr : ℕ} {old : Loop Callback}
    (hloop : hub.loop = old.add now waiting callback) (hptr : ptr = old.nextPtr)
    (hqueue : ∀ timer ∈ old.queue, timer.ptr < old.nextPtr)
    (hinactive : ∀ ptr ∈ old.inactive, ptr < old.nextPtr) :
    hub.timeout ptr = { hub with loop := hub.loop.pop ptr }.runCallback callback := by
  have hfind : hub.loop.queue.find? (fun timer => decide (timer.ptr = ptr)) =
      some ⟨old.nextPtr, now + waiting, callback⟩ := by
    have hnone : old.queue.find? (fun timer => decide (timer.ptr = ptr)) = none := by
      refine List.find?_eq_none.mpr fun timer htimer heq => ?_
      have hlt := hqueue timer htimer
      have hsame := of_decide_eq_true heq
      omega
    rw [hloop, Loop.add, List.find?_append, hnone]
    simp [hptr]
  have hactive : (hub.loop.pop ptr).active ptr = true := by
    apply decide_eq_true
    intro hmem
    rw [hloop] at hmem
    have hlt := hinactive ptr hmem
    omega
  simp only [timeout, hfind, hactive, if_true]

/-- The timer of a failed heart leaves the engines as they are. -/
theorem engines_handleStrandedMsgs (hub : Hub) (eid : ℤ) (uuid : String) :
    (hub._handleStrandedMsgs eid uuid).tracker = hub.tracker := by
  unfold _handleStrandedMsgs
  split <;> rfl

/-- After its heart has failed and the timer has fired, every engine is listed as before. -/
theorem leaveByHeartFailure_engines {hub : Hub} {e : EngineConnector} (inv : TimerIdentity hub)
    (he : e ∈ hub.tracker.engines) :
    ∃ after, hub.leaveByHeartFailure e = some after ∧ after.tracker.engines = hub.tracker.engines := by
  cases hheart : hub.tracker.engines.findHeart e.heartbeat with
  | none => exact absurd rfl (EngineConnectorSet.findHeart_eq_none.mp hheart e he)
  | some ec =>
    have hfind : hub.tracker.engines.find? ec.id = some ec :=
      KeyedTable.find?_eq_some.mpr ⟨(EngineConnectorSet.findHeart_some hheart).1, rfl⟩
    have hfailure : hub.handleHeartFailure e.heartbeat =
        { hub with
          tracker := { hub.tracker with deadEngines := insert ec.queue hub.tracker.deadEngines }
          loop := hub.loop.add hub.clock (milliseconds hub.registrationTimeout)
            (.handleStrandedMsgs ec.id ec.queue)
          sent := hub.sent ++ [unregistrationNotification ec.id] } := by
      simp only [handleHeartFailure, hheart, _unregisterEngine, hfind]
    simp only [leaveByHeartFailure, hfailure, fireSince, filter_queue_add inv]
    rw [List.foldlM_cons, timeout_added rfl rfl inv.queued_lt inv.inactive_lt, runCallback]
    refine ⟨_, rfl, ?_⟩
    rw [engines_handleStrandedMsgs]

/-- An unregistration request schedules nothing, sends nothing and marks nothing as dead. -/
theorem leaveByRequest_eq {hub : Hub} {e : EngineConnector} (inv : TimerIdentity hub) :
    ∃ after, hub.leaveByRequest e = some after ∧ after.sent = hub.sent ∧
      after.tracker.deadEngines = hub.tracker.deadEngines := by
  have hquiet : (hub.unregisterEngine { type := "unregistration_request", header := e.queue }).loop =
        hub.loop ∧
      (hub.unregisterEngine { type := "unregistration_request", header := e.queue }).sent = hub.sent ∧
      (hub.unregisterEngine
        { type := "unregistration_request", header := e.queue }).tracker.deadEngines =
          hub.tracker.deadEngines := by
    unfold unregisterEngine
    split <;> exact ⟨rfl, rfl, rfl⟩
  obtain ⟨hloop, hsent, hdead⟩ := hquiet
  refine ⟨_, ?_, hsent, hdead⟩
  rw [leaveByRequest, fireSince, hloop, filter_queue_since inv]
  rfl

end Hub

/-- From every reachable state and for every engine, both ways of leaving come to an end, and neither
has done what leaving means: the first keeps the engine listed, the second announces nothing. -/
theorem departures_incomplete {wire : Wire} {interval : ℤ} {s : System} {e : EngineConnector}
    (hreach : Reachable (System.Step wire) (System.initial interval) s)
    (he : e ∈ s.hub.tracker.engines) :
    (∃ after, s.hub.leaveByHeartFailure e = some after ∧ ¬LeftHub s.hub after e) ∧
      ∃ after, s.hub.leaveByRequest e = some after ∧ ¬LeftHub s.hub after e := by
  have inv := TimerIdentity.reachable hreach
  constructor
  · obtain ⟨after, hleave, hengines⟩ := Hub.leaveByHeartFailure_engines inv he
    refine ⟨after, hleave, fun hleft => ?_⟩
    exact hleft.gone ⟨e, hengines ▸ he, rfl⟩
  · obtain ⟨after, hleave, hsent, _⟩ := Hub.leaveByRequest_eq inv
    refine ⟨after, hleave, fun hleft => ?_⟩
    obtain ⟨messages, hmessages, hcount⟩ := hleft.announced
    have hnone : messages = [] := List.self_eq_append_right.mp (hsent.symm.trans hmessages)
    rw [hnone, List.count_nil] at hcount
    omega

/-- The engine of the session, once its heart has failed and the timer has fired, is still listed;
once it has asked to leave instead, its queue is not dead. -/
theorem session_departures_differ :
    ∃ s, Reachable (System.Step .session) (System.initial 2000) s ∧
      ∃ e ∈ s.hub.tracker.engines,
        (∀ after, s.hub.leaveByHeartFailure e = some after → ¬LeftHub s.hub after e) ∧
          ∀ after, s.hub.leaveByRequest e = some after → ¬LeftHub s.hub after e := by
  obtain ⟨s, hrun, e, he, hfailure, hrequest⟩ := System.exists_run .session (.initial 2000)
    [.heartAppears "h", .query .register]
    (fun s => ∃ e ∈ s.hub.tracker.engines.records,
      (s.hub.leaveByHeartFailure e).all (fun after => decide (e ∈ after.tracker.engines)) = true ∧
        (s.hub.leaveByRequest e).all (fun after => decide (e.queue ∉ after.tracker.deadEngines)) = true)
    (by decide)
  refine ⟨s, ⟨_, hrun⟩, e, he, ?_, ?_⟩
  · intro after hleave hleft
    rw [hleave] at hfailure
    exact hleft.gone ⟨e, of_decide_eq_true hfailure, rfl⟩
  · intro after hleave hleft
    rw [hleave] at hrequest
    exact of_decide_eq_true hrequest hleft.dead

/-- The general fact at the state in which the engine of the session is registered. -/
theorem departures_incomplete_session :
    ∃ (s : System) (e : EngineConnector), (∃ after, s.hub.leaveByHeartFailure e = some after ∧ ¬LeftHub s.hub after e) ∧
      ∃ after, s.hub.leaveByRequest e = some after ∧ ¬LeftHub s.hub after e := by
  obtain ⟨s, hrun, e, he⟩ := System.exists_run .session (.initial 2000)
    [.heartAppears "h", .query .register]
    (fun s => ∃ e ∈ s.hub.tracker.engines.records, e.id = 0) (by decide)
  exact ⟨s, e, departures_incomplete ⟨_, hrun⟩ he.1⟩

end Gpf
