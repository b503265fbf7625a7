import Gpf.Controller.QueueStatus

/-!
# The load of an engine

`check_load` answers the lengths of two lists in the connector of each engine. Connectors come from
`register_engine`, which leaves both lists empty, and no handler changes a connector. The numbers
are therefore zero, whatever is pending.
-/

namespace Gpf

open Transition

/-- The connector is one that `register_engine` has filled in. -/
def EngineConnector.Filled (ec : EngineConnector) : Prop :=
  ∃ eid msg incoming deletionCallback, ec = Hub.connectorOf eid msg incoming deletionCallback

/-- So are all connectors of the registry, waiting or finished. -/
structure Hub.AllFilled (hub : Hub) : Prop where
  incoming : ∀ ec ∈ hub.tracker.incomingRegistrations, ec.Filled
  engines : ∀ ec ∈ hub.tracker.engines, ec.Filled

namespace Hub.AllFilled

variable {hub hub' : Hub}

/-- Connectors which were there before are filled in. -/
theorem of_subset (h : hub.AllFilled)
    (hincoming : ∀ ec ∈ hub'.tracker.incomingRegistrations, ec ∈ hub.tracker.incomingRegistrations)
    (hengines : ∀ ec ∈ hub'.tracker.engines, ec ∈ hub.tracker.engines) : hub'.AllFilled where
  incoming ec hec := h.incoming ec (hincoming ec hec)
  engines ec hec := h.engines ec (hengines ec hec)

/-- A calm step brings no connector in. -/
theorem calm (h : hub.AllFilled) (hcalm : Calm hub hub') : hub'.AllFilled :=
  h.of_subset (fun _ hec => hcalm.incoming ▸ hec) hcalm.engines

/-- Finishing a registration moves a connector. -/
theorem finishRegistration (h : hub.AllFilled) (heart : String) :
    (hub.finishRegistration heart).AllFilled := by
  unfold Hub.finishRegistration
  cases hfind : hub.tracker.incomingRegistrations.findHeart heart with
  | none => exact h
  | some ec =>
    refine ⟨h.incoming, fun c hc => ?_⟩
    rcases KeyedTable.mem_insert.mp hc with hold | ⟨rfl, -⟩
    · exact h.engines c hold
    · exact h.incoming c (EngineConnectorSet.findHeart_some hfind).1

/-- A registration request brings in the connector which it fills. -/
theorem registerEngine (h : hub.AllFilled) (wire : Wire) (alive : String → Bool) (incoming : Incoming) :
    (hub.registerEngine wire alive incoming).AllFilled := by
  cases hparse : wire.registration incoming.header with
  | none =>
    simp only [Hub.registerEngine, hparse]
    exact h
  | some msg =>
    have hinserted (callback : Option ℕ) : (hub.nextId.2.insertIncoming
        (connectorOf hub.tracker.nextId msg incoming callback)).AllFilled := by
      refine ⟨fun c hc => ?_, h.engines⟩
      rcases KeyedTable.mem_insert.mp hc with hold | ⟨rfl, -⟩
      · exact h.incoming c hold
      · exact ⟨_, _, _, _, rfl⟩
    rw [registerEngine_eq hparse]
    split
    · exact ⟨h.incoming, h.engines⟩
    · split
      · exact (hinserted none).finishRegistration msg.heartbeat
      · exact ⟨(hinserted _).incoming, h.engines⟩

/-- Queries keep the connectors filled in. -/
theorem dispatchQuery (h : hub.AllFilled) (wire : Wire) (alive : String → Bool) (incoming : Incoming) :
    (hub.dispatchQuery wire alive incoming).AllFilled := by
  unfold Hub.dispatchQuery
  split
  · exact h.calm (queueStatus_answers wire hub incoming).calm
  · exact h.calm (getResults_answers wire hub incoming).calm
  · exact h.calm (purgeResults_calm wire hub incoming)
  · exact h.calm (checkLoad_answers wire hub incoming).calm
  · exact h.calm (shutdownRequest_calm hub)
  · exact h.registerEngine wire alive incoming
  · exact h.calm (unregisterEngine_calm hub incoming)
  · exact h

/-- Timers keep the connectors filled in. -/
theorem runCallback {callback : Callback} (h : hub.AllFilled)
    (hrun : hub.runCallback callback = some hub') : hub'.AllFilled := by
  cases callback with
  | purgeStalledRegistration heart =>
    cases hrun
    unfold Hub._purgeStalledRegistration
    split
    · exact h
    · exact h.of_subset (fun _ hec => (KeyedTable.mem_erase.mp hec).1) fun _ hec => hec
  | handleStrandedMsgs eid uuid =>
    cases hrun
    unfold Hub._handleStrandedMsgs
    split <;> exact ⟨h.incoming, h.engines⟩
  | shutdown => cases hrun
  | beat =>
    cases hrun
    exact h

/-- Every event keeps the connectors filled in. -/
theorem step {wire : Wire} {s t : System} {e : Event} (h : s.hub.AllFilled)
    (hstep : System.Step wire s e t) : t.hub.AllFilled := by
  cases e with
  | tick now =>
    cases hstep
    exact ⟨h.incoming, h.engines⟩
  | query incoming =>
    cases hstep
    exact h.dispatchQuery wire _ incoming
  | monitor incoming =>
    obtain ⟨ttracker, _, rfl⟩ := Option.map_eq_some_iff.mp hstep
    exact ⟨h.incoming, h.engines⟩
  | heartAppears heart =>
    obtain ⟨_, hnext⟩ := Option.ite_none_left_eq_some.mp hstep
    cases hnext
    change (s.hub.handleNewHeart heart).AllFilled
    unfold Hub.handleNewHeart
    split
    · exact h
    · exact h.finishRegistration heart
  | heartFails heart =>
    obtain ⟨_, hnext⟩ := Option.ite_none_right_eq_some.mp hstep
    cases hnext
    exact h.calm (handleHeartFailure_calm s.hub heart)
  | beatScheduled waiting =>
    cases hstep
    exact ⟨h.incoming, h.engines⟩
  | timeout ptr =>
    obtain ⟨hub, htimeout, rfl⟩ := Option.map_eq_some_iff.mp hstep
    obtain ⟨timer, _, _, ⟨_, hrun⟩ | ⟨_, rfl⟩⟩ := timeout_cases htimeout
    · have hpopped : Hub.AllFilled { s.hub with loop := s.hub.loop.pop ptr } := ⟨h.incoming, h.engines⟩
      exact hpopped.runCallback hrun
    · exact ⟨h.incoming, h.engines⟩

/-- In every reachable state, all connectors are filled in by `register_engine`. -/
theorem reachable {wire : Wire} {interval : ℤ} {s : System}
    (h : Reachable (System.Step wire) (System.initial interval) s) : s.hub.AllFilled :=
  h.preserves (fun s => s.hub.AllFilled)
    ⟨fun _ hec => absurd hec (KeyedTable.notMem_empty _),
      fun _ hec => absurd hec (KeyedTable.notMem_empty _)⟩
    fun _ _ _ hfilled hstep => hfilled.step hstep

end Hub.AllFilled

/-- How many pending tasks of an engine are in the given queue. -/
def TaskTracker.pendingCount (tracker : TaskTracker) (queue : String) (eid : ℤ) : ℕ :=
  tracker.tasks.records.countP fun t =>
    decide (t.engineUuid = eid ∧ t.queue = queue ∧ t.id ∈ tracker.pending)

/-- What a request for loads is owed: the number of pending tasks of either queue for each engine, in the
order of the request, or the error if an id is unknown. -/
structure Hub.ReportsLoad (before after : Hub) (incoming : Incoming) (msg : LoadRequest) : Prop where
  known : (∀ eid ∈ msg.eid, before.Lists eid) →
    after.sent = before.sent ++ [⟨.query, some incoming.envelope, [.text "load_reply",
      .loadReply
        { eid := msg.eid
          queuelen := msg.eid.map fun eid => (before.ttracker.pendingCount "mux" eid : ℤ)
          taskslen := msg.eid.map fun eid => (before.ttracker.pendingCount "task" eid : ℤ) }]⟩]
  unknown : (∃ eid ∈ msg.eid, ¬before.Lists eid) →
    after.sent = before.sent ++ [⟨.query, some incoming.envelope,
      [.text "load_reply", .text "Error: Got unknown ID"]⟩]

/-- No task of either queue is pending on the engine. -/
def TaskTracker.Unloaded (tracker : TaskTracker) (eid : ℤ) : Prop :=
  ∀ t ∈ tracker.tasks, t.engineUuid = eid → t.queue = "mux" ∨ t.queue = "task" →
    t.id ∉ tracker.pending

namespace TaskTracker

variable {tracker : TaskTracker} {eid : ℤ}

/-- No task is counted exactly when none of the queue is pending on the engine. -/
theorem pendingCount_eq_zero {queue : String} : tracker.pendingCount queue eid = 0 ↔
    ∀ t ∈ tracker.tasks, t.engineUuid = eid → t.queue = queue → t.id ∉ tracker.pending := by
  rw [pendingCount, List.countP_eq_zero]
  refine forall₂_congr fun t _ => ?_
  rw [decide_eq_true_eq, not_and, not_and]

/-- An engine is unloaded exactly when no task is counted for it. -/
theorem unloaded_iff : tracker.Unloaded eid ↔
    tracker.pendingCount "mux" eid = 0 ∧ tracker.pendingCount "task" eid = 0 := by
  rw [pendingCount_eq_zero, pendingCount_eq_zero]
  constructor
  · intro h
    exact ⟨fun t ht heid hqueue => h t ht heid (.inl hqueue),
      fun t ht heid hqueue => h t ht heid (.inr hqueue)⟩
  · intro h t ht heid hqueue
    exact hqueue.elim (h.1 t ht heid) (h.2 t ht heid)

/-- Engines are unloaded exactly when zero is the number for each of them in either queue. -/
theorem forall_unloaded_iff {eids : List ℤ} : (∀ eid ∈ eids, tracker.Unloaded eid) ↔
    (eids.map fun _ => (0 : ℤ)) = (eids.map fun eid => (tracker.pendingCount "mux" eid : ℤ)) ∧
      (eids.map fun _ => (0 : ℤ)) = eids.map fun eid => (tracker.pendingCount "task" eid : ℤ) := by
  rw [List.map_inj_left, List.map_inj_left, ← forall₂_and]
  refine forall₂_congr fun eid _ => ?_
  rw [unloaded_iff]
  omega

end TaskTracker

namespace Hub

/-- The loop of `check_load` over filled connectors: an error at the first unlisted id, or zero twice for
each id. -/
theorem loadNumbers_eq {engines : EngineConnectorSet} (hfilled : ∀ ec ∈ engines, ec.Filled)
    (eids : List ℤ) (outmsg : LoadReply) :
    loadNumbers engines eids outmsg =
      match engines.firstUnlisted? eids with
      | some eid => .error eid
      | none => .ok
        { eid := outmsg.eid ++ eids
          queuelen := outmsg.queuelen ++ eids.map fun _ => 0
          taskslen := outmsg.taskslen ++ eids.map fun _ => 0 } := by
  induction eids generalizing outmsg with
  | nil => simp [loadNumbers, EngineConnectorSet.firstUnlisted?]
  | cons eid eids ih =>
    cases hfind : engines.find? eid with
    | none => simp [loadNumbers, EngineConnectorSet.firstUnlisted?, hfind]
    | some ec =>
      obtain ⟨_, msg, _, _, rfl⟩ := hfilled ec (KeyedTable.find?_eq_some.mp hfind).1
      simp only [loadNumbers, hfind, ih, EngineConnectorSet.firstUnlisted?_cons hfind]
      cases engines.firstUnlisted? eids with
      | some unlisted => rfl
      | none => simp [connectorOf]

/-- What `check_load` sends when an id is that of no engine. -/
theorem checkLoad_sent_unknown {wire : Wire} {hub : Hub} {incoming : Incoming} {msg : LoadRequest}
    (hfilled : hub.AllFilled) (hparse : wire.loadRequest incoming.header = some msg)
    (hunknown : ∃ eid ∈ msg.eid, ¬hub.Lists eid) :
    (hub.checkLoad wire incoming).sent = hub.sent ++ [⟨.query, some incoming.envelope,
      [.text "load_reply", .text "Error: Got unknown ID"]⟩] := by
  obtain ⟨eid, heid, hnot⟩ := hunknown
  cases hfirst : hub.tracker.engines.firstUnlisted? msg.eid with
  | none => exact absurd (EngineConnectorSet.firstUnlisted?_eq_none.mp hfirst eid heid) hnot
  | some unlisted => simp only [checkLoad, hparse, loadNumbers_eq hfilled.engines, hfirst, reply]

/-- What `check_load` sends when every id is that of an engine: zero twice for each. -/
theorem checkLoad_sent {wire : Wire} {hub : Hub} {incoming : Incoming} {msg : LoadRequest}
    (hfilled : hub.AllFilled) (hparse : wire.loadRequest incoming.header = some msg)
    (hknown : ∀ eid ∈ msg.eid, hub.Lists eid) :
    (hub.checkLoad wire incoming).sent = hub.sent ++ [⟨.query, some incoming.envelope,
      [.text "load_reply", .loadReply
        { eid := msg.eid
          queuelen := msg.eid.map fun _ => 0
          taskslen := msg.eid.map fun _ => 0 }]⟩] := by
  have hfirst : hub.tracker.engines.firstUnlisted? msg.eid = none :=
    EngineConnectorSet.firstUnlisted?_eq_none.mpr hknown
  simp only [checkLoad, hparse, loadNumbers_eq hfilled.engines, hfirst, List.nil_append, reply]

end Hub

/-- In every reachable state, a request for loads is answered truthfully exactly if an id is unknown or no
task of either queue is pending on any of the engines. -/
theorem load_truthful_iff {wire : Wire} {interval : ℤ} {s t : System} {incoming : Incoming}
    {msg : LoadRequest} (hreach : Reachable (System.Step wire) (System.initial interval) s)
    (htype : incoming.type = "load_request") (hparse : wire.loadRequest incoming.header = some msg)
    (hstep : System.Step wire s (.query incoming) t) :
    s.hub.ReportsLoad t.hub incoming msg ↔
      (∃ eid ∈ msg.eid, ¬s.hub.Lists eid) ∨ ∀ eid ∈ msg.eid, s.hub.ttracker.Unloaded eid := by
  have hhub : t.hub = s.hub.checkLoad wire incoming := by
    cases hstep
    simp only [Hub.dispatchQuery, htype]
  have hfilled := Hub.AllFilled.reachable hreach
  by_cases hunknown : ∃ eid ∈ msg.eid, ¬s.hub.Lists eid
  · have hsent := Hub.checkLoad_sent_unknown hfilled hparse hunknown
    rw [← hhub] at hsent
    obtain ⟨eid, heid, hnot⟩ := id hunknown
    exact iff_of_true ⟨fun hknown => absurd (hknown eid heid) hnot, fun _ => hsent⟩ (.inl hunknown)
  · have hknown : ∀ eid ∈ msg.eid, s.hub.Lists eid := by
      intro eid heid
      by_contra hnot
      exact hunknown ⟨eid, heid, hnot⟩
    have hsent := Hub.checkLoad_sent hfilled hparse hknown
    rw [← hhub] at hsent
    rw [or_iff_right hunknown, TaskTracker.forall_unloaded_iff]
    constructor
    · intro h
      have hreply := h.known hknown
      rw [hsent, List.append_cancel_left_eq] at hreply
      simp only [List.cons.injEq, Sent.mk.injEq, Frame.loadReply.injEq, LoadReply.mk.injEq, true_and,
        and_true] at hreply
      exact hreply
    · intro hcounts
      refine ⟨fun _ => ?_, fun hsome => absurd hsome hunknown⟩
      rw [← hcounts.1, ← hcounts.2, hsent]

/-- The request for the load of the session's engine. -/
def Incoming.load : Incoming := { type := "load_request", header := "\x08\x00" }

/-- The task of the session is pending on its engine, and the reply tells of no load. -/
theorem session_load_untold :
    ∃ s t, Reachable (System.Step .asking) (System.initial 2000) s ∧ s.hub.Lists 0 ∧
      System.Step .asking s (.query .load) t ∧ ¬s.hub.ReportsLoad t.hub .load { eid := [0] } := by
  obtain ⟨s, hrun, hlisted, hcount, hload⟩ := System.exists_run .asking (.initial 2000)
    [.heartAppears "h", .query .register, .monitor .submission]
    (fun s => s.hub.Lists 0 ∧ s.hub.ttracker.pendingCount "mux" 0 = 1 ∧
      (s.next .asking (.query .load)).any (fun t => decide (t.hub.sent = s.hub.sent ++
        [(⟨.query, some [], [.text "load_reply",
          .loadReply { eid := [0], queuelen := [0], taskslen := [0] }]⟩ : Sent)])) = true)
    (by decide)
  obtain ⟨t, hstep, hsent⟩ := (Option.any_eq_true _ _).mp hload
  refine ⟨s, t, ⟨_, hrun⟩, hlisted, hstep, fun h => ?_⟩
  have hknown : ∀ eid ∈ ([0] : List ℤ), s.hub.Lists eid := List.forall_mem_singleton.mpr hlisted
  have hreply := h.known hknown
  rw [of_decide_eq_true hsent, List.append_cancel_left_eq] at hreply
  simp [hcount] at hreply

/-- The law for the request of the session, once its engine is registered. -/
theorem load_truthful_asking :
    ∃ (s t : System) (msg : LoadRequest), msg.eid = [0] ∧
      (s.hub.ReportsLoad t.hub .load msg ↔
        (∃ eid ∈ msg.eid, ¬s.hub.Lists eid) ∨ ∀ eid ∈ msg.eid, s.hub.ttracker.Unloaded eid) := by
  obtain ⟨s, hrun, _⟩ := System.exists_run .asking (.initial 2000)
    [.heartAppears "h", .query .register] (fun s => s.hub.Lists 0) (by decide)
  have hparse : Wire.asking.loadRequest Incoming.load.header = some { eid := [0] } := by decide
  exact ⟨s, _, _, rfl, load_truthful_iff ⟨_, hrun⟩ rfl hparse rfl⟩

end Gpf
