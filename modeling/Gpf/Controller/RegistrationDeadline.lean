import Gpf.Controller.HubReactor
import Gpf.Controller.RegistryUnique
import Gpf.Controller.TimerCauses
import Gpf.Util.IsoTime

/-!
# When a registration is decided

A registration which the hub accepts on its reactor is finished or purged. It is not purged before its time
is over, and it is decided by the end of the first iteration after it whose poll reports nothing.
-/

namespace Gpf

open Transition

namespace Hub

/-- Finishing a registration hands out no identity. -/
theorem nextPtr_finishRegistration (hub : Hub) (heart : String) :
    (hub.finishRegistration heart).loop.nextPtr = hub.loop.nextPtr := by
  unfold finishRegistration
  split
  · rfl
  · rename_i ec _
    cases hcallback : ec.deletionCallback with
    | none => simp only [finishFound, hcallback]
    | some ptr => simp only [finishFound, hcallback, Loop.setInactive]

/-- No query takes an identity back. -/
theorem nextPtr_dispatchQuery (wire : Wire) (alive : String → Bool) (hub : Hub) (incoming : Incoming) :
    hub.loop.nextPtr ≤ (hub.dispatchQuery wire alive incoming).loop.nextPtr := by
  by_cases hregistration : incoming.type = "registration_request"
  · simp only [dispatchQuery, hregistration]
    cases hparse : wire.registration incoming.header with
    | none => simp only [registerEngine, hparse, le_rfl]
    | some msg =>
      rw [registerEngine_eq hparse]
      split
      · exact le_rfl
      · split
        · rw [nextPtr_finishRegistration]
          exact le_rfl
        · exact Nat.le_succ _
  · by_cases hshutdown : incoming.type = "shutdown_request"
    · simp only [dispatchQuery, hshutdown]
      exact Nat.le_succ _
    · rw [loop_dispatchQuery wire alive hub hregistration hshutdown]

end Hub

namespace System

variable {wire : Wire} {interval : ℤ} {s t : System} {e : Event} {ec : EngineConnector}

/-- No event takes an identity back. -/
theorem nextPtr_le (h : Step wire s e t) : s.hub.loop.nextPtr ≤ t.hub.loop.nextPtr := by
  cases e with
  | tick now =>
    cases h
    exact le_rfl
  | query incoming =>
    cases h
    exact Hub.nextPtr_dispatchQuery wire _ s.hub incoming
  | monitor incoming =>
    obtain ⟨ttracker, _, rfl⟩ := Option.map_eq_some_iff.mp h
    exact le_rfl
  | heartAppears heart =>
    obtain ⟨_, h⟩ := (Option.ite_none_left_eq_some).mp h
    cases h
    unfold Hub.handleNewHeart
    split
    · exact le_rfl
    · exact (Hub.nextPtr_finishRegistration s.hub heart).ge
  | heartFails heart =>
    obtain ⟨_, h⟩ := (Option.ite_none_right_eq_some).mp h
    cases h
    unfold Hub.handleHeartFailure
    split
    · exact le_rfl
    · unfold Hub._unregisterEngine
      split
      · exact le_rfl
      · exact Nat.le_succ _
  | beatScheduled waiting =>
    cases h
    exact Nat.le_succ _
  | timeout ptr =>
    obtain ⟨hub, htimeout, rfl⟩ := Option.map_eq_some_iff.mp h
    obtain ⟨timer, _, _, ⟨_, hrun⟩ | ⟨_, rfl⟩⟩ := Hub.timeout_cases htimeout
    · rw [(Hub.loop_runCallback hrun).1]
      exact le_rfl
    · exact le_rfl

/-- A registration that joins has a fresh id, and its timer, if it has one, is a fresh object. -/
theorem fresh_of_joins (registry : RegistryInvariant s.hub) (timed : WaitingTimed s)
    (h : Step wire s e t) (hec : ec ∈ t.hub.tracker.incomingRegistrations)
    (hnew : ec ∉ s.hub.tracker.incomingRegistrations) :
    ec.id = s.hub.tracker.nextId ∧
      (ec.deletionCallback = some s.hub.loop.nextPtr ∨ ec.deletionCallback = none ∧ t.hub.Finished ec.id) := by
  have hjoins {hub : Hub} {ec' : EngineConnector} (haccept : Accepts s.hub hub ec')
      (hmem : ec ∈ hub.tracker.incomingRegistrations) : ec = ec' :=
    ((registry.mem_incoming_accepts haccept).mp hmem).resolve_left hnew
  cases step_waiting registry timed.ptr_nodup h with
  | untouched hsame => exact absurd (hsame.incoming ▸ hec) hnew
  | accepted ec' now waiting haccept _ _ hcallback _ =>
    rw [hjoins haccept hec]
    exact ⟨haccept.id_eq, .inl hcallback⟩
  | started mid ec' haccept hfinish hcallback _ _ =>
    rw [hfinish.tracker] at hec
    rw [hjoins haccept hec]
    exact ⟨haccept.id_eq, .inr ⟨hcallback, (WaitingTimed.finished_finishes hfinish _).mpr (.inr rfl)⟩⟩
  | finished ec' hfinish _ _ _ =>
    rw [hfinish.tracker] at hec
    exact absurd hec hnew
  | purged timer ec' _ _ _ _ htracker _ _ _ =>
    rw [htracker] at hec
    exact absurd (KeyedTable.mem_erase.mp hec).1 hnew

end System

/-- The registration with the given id has been accepted, and the timer was made for it and for no other. -/
structure Tracked (eid : ℤ) (timer : DeadlineTimer Callback) (s : System) : Prop where
  accepted : ∃ queue heart, .accepted eid queue heart ∈ s.hub.log
  callback_iff : ∀ ec ∈ s.hub.tracker.incomingRegistrations,
    ec.deletionCallback = some timer.ptr ↔ ec.id = eid
  ptr_lt : timer.ptr < s.hub.loop.nextPtr
  queued_eq : ∀ other ∈ s.hub.loop.queue, other.ptr = timer.ptr → other = timer

namespace Tracked

variable {wire : Wire} {interval : ℤ} {s t : System} {e : Event} {eid : ℤ}
  {timer : DeadlineTimer Callback}

/-- Every event keeps track. -/
theorem step (inv : Tracked eid timer s) (hs : Reachable (System.Step wire) (System.initial interval) s)
    (h : System.Step wire s e t) : Tracked eid timer t where
  accepted := by
    obtain ⟨queue, heart, hmem⟩ := inv.accepted
    exact ⟨queue, heart, (System.log_grows (.reachable hs) h).subset hmem⟩
  callback_iff ec hec := by
    by_cases hold : ec ∈ s.hub.tracker.incomingRegistrations
    · exact inv.callback_iff ec hold
    · obtain ⟨hid, hcallback⟩ := System.fresh_of_joins (.reachable hs) (.reachable hs) h hec hold
      obtain ⟨queue, heart, hmem⟩ := inv.accepted
      have hlt := (RegistryInvariant.reachable hs).accepted_lt eid queue heart hmem
      have hptr := inv.ptr_lt
      constructor
      · intro hsame
        rcases hcallback with hnext | ⟨hnone, -⟩
        · rw [Option.some.inj (hsame.symm.trans hnext)] at hptr
          exact absurd hptr (lt_irrefl _)
        · rw [hnone] at hsame
          cases hsame
      · intro heq
        rw [← heq, hid] at hlt
        exact absurd hlt (lt_irrefl _)
  ptr_lt := inv.ptr_lt.trans_le (System.nextPtr_le h)
  queued_eq other hother hptr := by
    rcases (System.step_queueLaw (.reachable hs) (.reachable hs) h other).mp hother with
      ⟨hold, _⟩ | hschedules
    · exact inv.queued_eq other hold hptr
    · have hlt := inv.ptr_lt
      rw [← hptr, hschedules.ptr_eq] at hlt
      exact absurd hlt (lt_irrefl _)

/-- Every run does. -/
theorem run {es : List Event} (inv : Tracked eid timer s)
    (hs : Reachable (System.Step wire) (System.initial interval) s) (hrun : Run (System.Step wire) s es t) :
    Tracked eid timer t :=
  Reachable.along (Tracked eid timer) (fun _ _ _ hreach inv hstep => inv.step hreach hstep) hs hrun inv

/-- A registration whose timer is queued has not been purged. -/
theorem not_purged (inv : Tracked eid timer s)
    (hs : Reachable (System.Step wire) (System.initial interval) s) (htimer : timer ∈ s.hub.loop.queue)
    {heart : String} (hpurges : timer.Purges heart) : .purging eid ∉ s.hub.log := by
  have hkeeps : ∃ ec ∈ s.hub.tracker.incomingRegistrations, ec.deletionCallback = some timer.ptr := by
    cases hactive : s.hub.loop.active timer.ptr with
    | true =>
      obtain ⟨ec, hec, hcallback, -⟩ :=
        (WaitingTimed.reachable hs).has_registration timer htimer hactive heart hpurges
      exact ⟨ec, hec, hcallback⟩
    | false =>
      obtain ⟨ec, hec, hcallback, -⟩ := (TimerFates.reachable hs).inactive_finished timer.ptr hactive
      exact ⟨ec, hec, hcallback⟩
  obtain ⟨ec, hec, hcallback⟩ := hkeeps
  rw [← (inv.callback_iff ec hec).mp hcallback]
  exact ((RegistryInvariant.reachable hs).incoming_accepted ec hec).2

/-- A registration whose timer is queued no longer has been finished or purged, and never both. -/
theorem decided (inv : Tracked eid timer s)
    (hs : Reachable (System.Step wire) (System.initial interval) s) (htimer : timer ∉ s.hub.loop.queue) :
    .purging eid ∈ s.hub.log ↔ ¬s.hub.Finished eid := by
  constructor
  · exact (WaitingTimed.reachable hs).purged_waiting eid
  · intro hwaiting
    by_contra hpurging
    obtain ⟨queue, heart, hmem⟩ := inv.accepted
    obtain ⟨ec, hec, rfl, -⟩ :=
      (RegistryInvariant.reachable hs).accepted_incoming eid queue heart hmem hpurging
    obtain ⟨other, hother, hcallback, -⟩ := (WaitingTimed.reachable hs).has_timer ec hec hwaiting
    have hptr := (inv.callback_iff ec hec).mpr rfl
    rw [hcallback] at hptr
    exact htimer (inv.queued_eq other hother (Option.some.inj hptr) ▸ hother)

/-- A registration which waits is tracked by its timer. -/
theorem begin (hs : Reachable (System.Step wire) (System.initial interval) s) {ec : EngineConnector}
    (hec : ec ∈ s.hub.tracker.incomingRegistrations) (htimer : timer ∈ s.hub.loop.queue)
    (hcallback : ec.deletionCallback = some timer.ptr) : Tracked ec.id timer s where
  accepted := ⟨_, _, ((RegistryInvariant.reachable hs).incoming_accepted ec hec).1⟩
  callback_iff c hc := by
    constructor
    · intro hsame
      rw [(WaitingTimed.reachable hs).callback_unique c hc ec hec _ hsame hcallback]
    · intro heq
      rw [KeyedTable.eq_of_key_eq hc hec heq]
      exact hcallback
  ptr_lt := (TimerIdentity.reachable hs).queued_lt timer htimer
  queued_eq _ hother hptr := Loop.eq_of_ptr (WaitingTimed.reachable hs).ptr_nodup htimer hother hptr

end Tracked

namespace System

variable {wire : Wire} {interval : ℤ} {s t : System}

/-- A registration that joins has been finished or is tracked by a timer, which gives it its time. -/
theorem finished_or_tracked (hlow : -1073741824 ≤ interval) (hhigh : interval < 1073741824)
    (hs : Reachable (Step wire) (initial interval) s) {incoming : Incoming}
    (h : Step wire s (.query incoming) t) {ec : EngineConnector}
    (hec : ec ∈ t.hub.tracker.incomingRegistrations) (hnew : ec ∉ s.hub.tracker.incomingRegistrations) :
    t.hub.Finished ec.id ∨ ∃ timer ∈ t.hub.loop.queue, timer.Purges ec.heartbeat ∧
      timer.deadline = s.hub.clock + milliseconds (max 5000 (2 * interval)) ∧ Tracked ec.id timer t := by
  have ht : Reachable (Step wire) (initial interval) t := by
    obtain ⟨before, hbefore⟩ := hs
    exact ⟨_, hbefore.append (.single h)⟩
  by_cases hfinished : t.hub.Finished ec.id
  · exact .inl hfinished
  · right
    obtain ⟨timer, htimer, hcallback, hpurges, -⟩ := (WaitingTimed.reachable ht).has_timer ec hec hfinished
    refine ⟨timer, htimer, hpurges, ?_, .begin ht hec htimer hcallback⟩
    obtain ⟨-, hnext | ⟨-, hdone⟩⟩ := fresh_of_joins (.reachable hs) (.reachable hs) h hec hnew
    · rcases (step_queueLaw (.reachable hs) (.reachable hs) h timer).mp htimer with ⟨hold, _⟩ | hschedules
      · have hlt := (TimerIdentity.reachable hs).queued_lt timer hold
        rw [Option.some.inj (hcallback.symm.trans hnext)] at hlt
        exact absurd hlt (lt_irrefl _)
      · rw [← registrationTimeout_reachable hlow hhigh hs]
        cases hschedules with
        | purge => rfl
        | shutdown => cases hpurges
    · exact absurd hdone hfinished

end System

section Reactor

variable {ω : Type} {O : Outside ω} {wire : Wire} {toIso : Time → String} {interval : ℤ}
  {lifetime tic lastPing clock : Time} {w : ω} {P : SteadyTimerQueue Callback}
  {s t : Running HubSocket (HubWorld ω) P.toPriorityQueue} {socket : ℕ} {ec : EngineConnector}

/-- A query at the reactor is one at the hub on its own, when that has read the same clock. -/
theorem HubStep.query_mirror
    (h : Reachable (HubStep O wire toIso)
      (hubReactor P.toPriorityQueue interval lifetime tic lastPing clock w) s)
    (hstep : HubStep O wire toIso s (.activity .query socket) t) :
    ∃ u v, Reachable (System.Step wire) (System.initial interval) u ∧
      u.hub.clock = O.clock t.world.world ∧ u.hub.tracker = s.world.controller.hub.tracker ∧
      System.Step wire u (.query (O.receiveQuery s.world.world).1) v ∧ Mirrors t v := by
  obtain ⟨base, hreflects, before, hbefore⟩ := HubStep.exists_mirror h
  cases hstep with
  | activity cb socket effect heffect =>
    change O.hears wire toIso s.world (.query _) (O.receiveQuery s.world.world).2 = some effect at heffect
    obtain ⟨d, hd, rfl⟩ := Option.map_eq_some_iff.mp heffect
    obtain ⟨hnext, hregistration⟩ := Controller.next_atop base (by simp) (by simp) hd
    have hclock : System.Step wire (s.world.controller.atop base).view
        (.tick (O.clock (O.receiveQuery s.world.world).2))
        ((s.world.controller.atClock (O.clock (O.receiveQuery s.world.world).2)).atop base).view := rfl
    have hquery := congrArg (Option.map Controller.view) hnext
    refine ⟨_, (d.atop base).view, ⟨_, hbefore.append (.single hclock)⟩, rfl, rfl, hquery,
      d.hub.loop.atop base, ?_, ?_⟩
    · exact hreflects.returns _ hregistration s.fired
    · exact congrArg Controller.view (Controller.detached_atop d base).symm

/-- A registration that joins on the reactor has been finished or is tracked by a timer in its queue. -/
theorem HubStep.finished_or_tracked (hlow : -1073741824 ≤ interval) (hhigh : interval < 1073741824)
    (h : Reachable (HubStep O wire toIso)
      (hubReactor P.toPriorityQueue interval lifetime tic lastPing clock w) s)
    (hstep : HubStep O wire toIso s (.activity .query socket) t)
    (hec : ec ∈ t.world.controller.hub.tracker.incomingRegistrations)
    (hnew : ec ∉ s.world.controller.hub.tracker.incomingRegistrations) :
    ∃ u, Mirrors t u ∧ Reachable (System.Step wire) (System.initial interval) u ∧
      (u.hub.Finished ec.id ∨ ∃ timer ∈ P.elems t.reactor.timerQueue, timer.Purges ec.heartbeat ∧
        timer.deadline = O.clock t.world.world + milliseconds (max 5000 (2 * interval)) ∧
          Tracked ec.id timer u) := by
  obtain ⟨u, v, hu, hclock, htracker, hquery, hmirrors⟩ := HubStep.query_mirror h hstep
  have hv : Reachable (System.Step wire) (System.initial interval) v := by
    obtain ⟨before, hbefore⟩ := hu
    exact ⟨_, hbefore.append (.single hquery)⟩
  refine ⟨v, hmirrors, hv, ?_⟩
  obtain ⟨base, hreflects, rfl⟩ := hmirrors
  rw [← htracker] at hnew
  apply (System.finished_or_tracked hlow hhigh hu hquery hec hnew).imp_right
  intro hexists
  obtain ⟨timer, htimer, hpurges, hdeadline, htracked⟩ := hexists
  refine ⟨timer, ?_, hpurges, hclock ▸ hdeadline, htracked⟩
  rw [← hreflects.queue, Multiset.mem_coe, ← (Controller.loop_atop hreflects.idle base).1]
  exact htimer

/-- A timer stays in the queue as long as every turn of `fire_due` has read a time before its deadline. -/
theorem HubStep.timer_kept {e : HubEvent} (hstep : HubStep O wire toIso s e t)
    {timer : DeadlineTimer Callback} (hearly : ∀ now, e = .turn now → now < timer.deadline)
    (htimer : timer ∈ P.elems s.reactor.timerQueue) : timer ∈ P.elems t.reactor.timerQueue := by
  cases hstep with
  | poll w => exact htimer
  | activity cb socket effect heffect => exact (Reactor.mem_performAll _ _ _).mpr (.inl htimer)
  | turn t now turn hnow hturn =>
    have hne : timer ≠ turn.taken := by
      rintro rfl
      exact absurd (hearly now rfl) (not_lt.mpr (hturn.taken_le.1.trans hturn.top_le))
    have hmem : timer ∈ P.elems t.reactor.timerQueue + {turn.taken} := by
      rw [hturn.elems]
      exact Multiset.mem_add.mpr (.inl htimer)
    exact (Multiset.mem_add.mp hmem).resolve_right fun hin => hne (Multiset.mem_singleton.mp hin)

/-- Where the hub gets on its own while the reactor runs. -/
theorem HubStep.run_mirror {es : List HubEvent} {u : System}
    (hrun : Run (HubStep O wire toIso) s es t) (hmirrors : Mirrors s u)
    (hu : Reachable (System.Step wire) (System.initial interval) u) :
    ∃ ds v, Run (System.Step wire) u ds v ∧ Mirrors t v :=
  hrun.simulate_rel hmirrors hu fun _ _ _ _ hmirrors hreach hstep => HubStep.simulate hmirrors hreach hstep

/-- The timers in the loop of the hub on its own are those in the queue of the reactor. -/
theorem Mirrors.mem_queue {u : System} (h : Mirrors s u) (timer : DeadlineTimer Callback) :
    timer ∈ u.hub.loop.queue ↔ timer ∈ P.elems s.reactor.timerQueue := by
  obtain ⟨base, hreflects, rfl⟩ := h
  rw [← hreflects.queue, Multiset.mem_coe, ← (Controller.loop_atop hreflects.idle base).1]
  rfl

/-- Hub and reactor have the same log. -/
theorem Mirrors.log {u : System} (h : Mirrors s u) : u.hub.log = s.world.controller.hub.log := by
  obtain ⟨base, -, rfl⟩ := h
  rfl

end Reactor

section Deadline

variable {ω : Type} {O : Outside ω} {wire : Wire} {toIso : Time → String} {interval : ℤ}
  {lifetime tic lastPing clock : Time} {w : ω} {P : SteadyTimerQueue Callback}
  {before accepted late after : Running HubSocket (HubWorld ω) P.toPriorityQueue} {socket : ℕ}
  {ec : EngineConnector} {es : List HubEvent}

/-- A registration that the hub has accepted on its reactor is decided in time: after every iteration whose
poll reports nothing and at which `fire_due` reads a time that lies the registration timeout or more after
the acceptance, whatever the handlers have done since, it has been purged exactly if it has not been
finished. -/
theorem registration_decided {timeout : ℤ} {round : Round ω} (hlow : -1073741824 ≤ interval)
    (hhigh : interval < 1073741824)
    (h : Reachable (HubStep O wire toIso)
      (hubReactor P.toPriorityQueue interval lifetime tic lastPing clock w) before)
    (hstep : HubStep O wire toIso before (.activity .query socket) accepted)
    (hnew : ec ∉ before.world.controller.hub.tracker.incomingRegistrations)
    (hec : ec ∈ accepted.world.controller.hub.tracker.incomingRegistrations)
    (hrun : Run (HubStep O wire toIso) accepted es late)
    (hforward : O.Forward round) (hiterates : O.Iterates wire toIso timeout late round after)
    (hnothing : (round.poll (late.reactor.pollTimeout timeout round.calledAt)).ret = 0)
    (hover : O.clock accepted.world.world + milliseconds (max 5000 (2 * interval)) ≤
      (round.poll (late.reactor.pollTimeout timeout round.calledAt)).now) :
    .purging ec.id ∈ after.world.controller.hub.log ↔ ¬after.world.controller.hub.Finished ec.id := by
  obtain ⟨u, hmirrors, hu, hdecided⟩ := HubStep.finished_or_tracked hlow hhigh h hstep hec hnew
  obtain ⟨fs, hiteration⟩ := HubStep.run_iterates hforward hiterates
  obtain ⟨ds, v, hds, hafter⟩ := HubStep.run_mirror (hrun.append hiteration) hmirrors hu
  have hv : Reachable (System.Step wire) (System.initial interval) v := by
    obtain ⟨first, hfirst⟩ := hu
    exact ⟨_, hfirst.append hds⟩
  rw [Hub.Finished, ← hafter.log, ← Hub.Finished]
  rcases hdecided with hfinished | ⟨timer, -, -, hdeadline, htracked⟩
  · have hdone := System.finished_run hu hds hfinished
    exact iff_of_false (fun hpurging => (WaitingTimed.reachable hv).purged_waiting ec.id hpurging hdone)
      (not_not_intro hdone)
  · apply (htracked.run hu hds).decided hv
    rw [hafter.mem_queue]
    intro htimer
    obtain ⟨-, fuel, hcall⟩ := hiterates
    rcases Running.call_cases _ _ _ fuel hcall with ⟨-, hfire⟩ | ⟨hready, -⟩
    · have hlater := Running.fireDue_not_due _ _ fuel hfire timer htimer
      rw [hdeadline] at hlater
      exact absurd hover (not_le.mpr hlater)
    · exact absurd hnothing hready.ne'

/-- An outside whose clock is its state, and from which the registration of the session arrives. -/
def clockOutside : Outside Time where
  clock w := w
  elapse w := w
  receiveQuery w := (.register, w)
  receiveMonitor w := (.register, w)
  receivePong w := (⟨"h", ""⟩, w)
  clock_elapse _ := le_rfl

/-- The reactor of the session, which has a heap for its timers, before anything has happened. -/
def sessionReactor : Running HubSocket (HubWorld Time)
    (SteadyQueue.binaryHeap (DeadlineTimer.deadline (κ := Callback))).toPriorityQueue :=
  hubReactor _ 2000 0 0 0 0 0

/-- A poll which reports nothing, after five seconds. -/
def quietRound : Round Time where
  calledAt := 5000000
  poll _ := ⟨0, fun _ => 0, 5000000, 5000000, fun _ => 5000000⟩

/-- Nothing is heard of the heart of the session, and after five seconds its registration is decided. -/
theorem registration_decided_session :
    ∃ accepted after : Running HubSocket (HubWorld Time)
        (SteadyQueue.binaryHeap (DeadlineTimer.deadline (κ := Callback))).toPriorityQueue,
      HubStep clockOutside .session Time.toIsoString sessionReactor (.activity .query 2) accepted ∧
        clockOutside.Iterates .session Time.toIsoString (-1) accepted quietRound after ∧
        (.purging 0 ∈ after.world.controller.hub.log ↔ ¬after.world.controller.hub.Finished 0) := by
  have hreturns : (((clockOutside.handlers .session Time.toIsoString).onActivity .query 2
      sessionReactor.world).bind fun effect =>
        (sessionReactor.after effect).call (clockOutside.handlers .session Time.toIsoString) (-1)
        (quietRound.map fun arrivals s => { s with world := arrivals s.world }) 3).isSome = true := by
    decide +kernel
  obtain ⟨after, hafter⟩ := Option.isSome_iff_exists.mp hreturns
  obtain ⟨effect, heffect, hcall⟩ := Option.bind_eq_some_iff.mp hafter
  have hstep : HubStep clockOutside .session Time.toIsoString sessionReactor (.activity .query 2) _ :=
    .activity _ .query 2 effect heffect
  have hiterates : clockOutside.Iterates .session Time.toIsoString (-1) (sessionReactor.after effect)
      quietRound after := by
    cases heffect
    exact ⟨by decide +kernel, 3, hcall⟩
  let ec := Hub.connectorOf 0 { heartbeat := "h", queue := "q" } .register (some 1)
  have hec : ec ∈ (sessionReactor.after effect).world.controller.hub.tracker.incomingRegistrations := by
    cases heffect
    exact List.mem_singleton_self _
  have hover : clockOutside.clock (sessionReactor.after effect).world.world +
      milliseconds (max 5000 (2 * 2000)) ≤ 5000000 := by
    cases heffect
    decide
  exact ⟨_, after, hstep, hiterates, registration_decided (by decide) (by decide) ⟨[], .nil _⟩ hstep
    (KeyedTable.notMem_empty _) hec (.nil _) (fun _ _ => le_rfl) hiterates rfl hover⟩

/-- A registration that the hub has accepted on its reactor is not purged before its time: as long as every
turn of `fire_due` has read a time that lies less than the registration timeout after the acceptance, it has
not been purged, whatever the handlers have done. -/
theorem registration_not_purged_early (hlow : -1073741824 ≤ interval) (hhigh : interval < 1073741824)
    (h : Reachable (HubStep O wire toIso)
      (hubReactor P.toPriorityQueue interval lifetime tic lastPing clock w) before)
    (hstep : HubStep O wire toIso before (.activity .query socket) accepted)
    (hnew : ec ∉ before.world.controller.hub.tracker.incomingRegistrations)
    (hec : ec ∈ accepted.world.controller.hub.tracker.incomingRegistrations)
    (hrun : Run (HubStep O wire toIso) accepted es late)
    (hearly : ∀ now, .turn now ∈ es →
      now < O.clock accepted.world.world + milliseconds (max 5000 (2 * interval))) :
    .purging ec.id ∉ late.world.controller.hub.log := by
  obtain ⟨u, hmirrors, hu, hdecided⟩ := HubStep.finished_or_tracked hlow hhigh h hstep hec hnew
  obtain ⟨ds, v, hds, hlate⟩ := HubStep.run_mirror hrun hmirrors hu
  have hv : Reachable (System.Step wire) (System.initial interval) v := by
    obtain ⟨first, hfirst⟩ := hu
    exact ⟨_, hfirst.append hds⟩
  rw [← hlate.log]
  rcases hdecided with hfinished | ⟨timer, htimer, hpurges, hdeadline, htracked⟩
  · intro hpurging
    exact (WaitingTimed.reachable hv).purged_waiting ec.id hpurging (System.finished_run hu hds hfinished)
  · apply (htracked.run hu hds).not_purged hv _ hpurges
    rw [hlate.mem_queue]
    apply hrun.preserves_of_forall (fun s => timer ∈ P.elems s.reactor.timerQueue) _ _ htimer
    · exact fun e => ∀ now, e = .turn now → now < timer.deadline
    · exact fun s e t hearly htimer hstep => hstep.timer_kept hearly htimer
    · rintro e he now rfl
      rw [hdeadline]
      exact hearly now he

/-- A second after the registration of the session has been accepted it has not been purged. -/
theorem registration_not_purged_early_session :
    ∃ accepted late : Running HubSocket (HubWorld Time)
        (SteadyQueue.binaryHeap (DeadlineTimer.deadline (κ := Callback))).toPriorityQueue,
      HubStep clockOutside .session Time.toIsoString sessionReactor (.activity .query 2) accepted ∧
        Run (HubStep clockOutside .session Time.toIsoString) accepted [.poll] late ∧
        clockOutside.clock late.world.world = 1000000 ∧ .purging 0 ∉ late.world.controller.hub.log := by
  have hstep : HubStep clockOutside .session Time.toIsoString sessionReactor (.activity .query 2) _ :=
    .activity _ .query 2 _ rfl
  let ec := Hub.connectorOf 0 { heartbeat := "h", queue := "q" } .register (some 1)
  have hearly := registration_not_purged_early (by decide) (by decide) ⟨[], .nil _⟩ hstep
    (KeyedTable.notMem_empty ec) (List.mem_singleton_self _) (.single (.poll _ 1000000)) (by simp)
  exact ⟨_, _, hstep, .single (.poll _ 1000000), rfl, hearly⟩

end Deadline

end Gpf
