import Gpf.Controller.HubHeartbeat
import Gpf.Controller.RegistryStep

/-!
# What the handlers of the controller do to its loop

A handler never looks at the timers which are queued or deactivated already: it does to a loop with more
of them what it does to one with fewer. And whatever it schedules, apart from a beat, is due no earlier
than it was called.
-/

namespace Gpf

namespace Loop

variable {κ : Type*}

/-- The timers of another loop underneath those of this one. -/
def atop (loop base : Loop κ) : Loop κ where
  queue := base.queue ++ loop.queue
  inactive := base.inactive ∪ loop.inactive
  nextPtr := loop.nextPtr

/-- Scheduling does not look underneath. -/
theorem add_atop (loop base : Loop κ) (now waiting : Time) (callback : κ) :
    (loop.atop base).add now waiting callback = (loop.add now waiting callback).atop base := by
  simp only [add, atop, List.append_assoc]

/-- Deactivating does not look underneath. -/
theorem setInactive_atop (loop base : Loop κ) (ptr : ℕ) :
    (loop.atop base).setInactive ptr = (loop.setInactive ptr).atop base := by
  simp only [setInactive, atop, Finset.union_insert]

end Loop

namespace Hub

/-- The hub with the timers of another loop underneath its own. -/
def atop (hub : Hub) (base : Loop Callback) : Hub := { hub with loop := hub.loop.atop base }

@[simp] theorem atop_tracker (hub : Hub) (base : Loop Callback) :
    (hub.atop base).tracker = hub.tracker := rfl

@[simp] theorem atop_ttracker (hub : Hub) (base : Loop Callback) :
    (hub.atop base).ttracker = hub.ttracker := rfl

/-- What a handler makes of a hub, given what it makes of it with other timers underneath. -/
structure Handled (hub : Hub) (base : Loop Callback) (result result' : Hub) : Prop where
  atop : result' = result.atop base
  clock : result.clock = hub.clock
  registrationTimeout : result.registrationTimeout = hub.registrationTimeout
  added : 0 ≤ hub.registrationTimeout → ∀ timer ∈ result.loop.queue,
    timer ∈ hub.loop.queue ∨ timer.callback = .beat ∨ hub.clock ≤ timer.deadline

/-- What all handlers have in common. -/
def Handles (f : Hub → Hub) : Prop := ∀ hub base, Handled hub base (f hub) (f (hub.atop base))

/-- A handler which leaves the queue alone. -/
theorem Handled.of_queue {hub result result' : Hub} {base : Loop Callback}
    (hatop : result' = result.atop base) (hclock : result.clock = hub.clock)
    (htimeout : result.registrationTimeout = hub.registrationTimeout)
    (hqueue : result.loop.queue = hub.loop.queue) : Handled hub base result result' :=
  ⟨hatop, hclock, htimeout, fun _ _ htimer => .inl (hqueue ▸ htimer)⟩

/-- A handler which schedules a timer. -/
theorem Handled.of_add {hub result result' : Hub} {base : Loop Callback}
    (hatop : result' = result.atop base) (hclock : result.clock = hub.clock)
    (htimeout : result.registrationTimeout = hub.registrationTimeout) {waiting : Time}
    {callback : Callback} (hloop : result.loop = hub.loop.add hub.clock waiting callback)
    (hlate : 0 ≤ hub.registrationTimeout → callback = .beat ∨ 0 ≤ waiting) :
    Handled hub base result result' := by
  refine ⟨hatop, hclock, htimeout, ?_⟩
  intro hpos timer htimer
  rw [hloop, Loop.mem_add] at htimer
  rcases htimer with hold | rfl
  · exact .inl hold
  · right
    exact (hlate hpos).imp_right fun hwaiting => Int.le_add_of_nonneg_right hwaiting

/-- Doing nothing. -/
theorem Handled.refl (hub : Hub) (base : Loop Callback) : Handled hub base hub (hub.atop base) :=
  .of_queue rfl rfl rfl rfl

/-- One handler after the other. -/
theorem Handles.comp {f g : Hub → Hub} (hg : Handles g) (hf : Handles f) :
    Handles fun hub => g (f hub) := by
  intro hub base
  have hfirst := hf hub base
  have hsecond := hg (f hub) base
  refine ⟨(congrArg g hfirst.atop).trans hsecond.atop, hsecond.clock.trans hfirst.clock,
    hsecond.registrationTimeout.trans hfirst.registrationTimeout, ?_⟩
  intro hpos timer htimer
  have hadded := hsecond.added (hfirst.registrationTimeout ▸ hpos) timer htimer
  rw [hfirst.clock] at hadded
  rcases hadded with hmid | hlate
  · exact hfirst.added hpos timer hmid
  · exact .inr hlate

/-- Handlers for a list of hearts. -/
theorem Handles.foldl {f : Hub → String → Hub} (hf : ∀ heart, Handles fun hub => f hub heart)
    (hearts : List String) : Handles fun hub => hearts.foldl f hub := by
  induction hearts with
  | nil => exact Handled.refl
  | cons heart hearts ih => exact ih.comp (hf heart)

/-- `finish_registration` may deactivate a timer. -/
theorem handles_finishRegistration (heart : String) :
    Handles fun hub => hub.finishRegistration heart := by
  intro hub base
  cases hfind : hub.tracker.incomingRegistrations.findHeart heart with
  | none =>
    simp only [finishRegistration, atop_tracker, hfind]
    exact .refl hub base
  | some ec =>
    simp only [finishRegistration, atop_tracker, hfind]
    cases hcallback : ec.deletionCallback with
    | none =>
      simp only [finishFound, hcallback]
      exact .of_queue rfl rfl rfl rfl
    | some ptr =>
      simp only [finishFound, hcallback, atop, Loop.setInactive_atop]
      exact .of_queue rfl rfl rfl rfl

/-- A new heart. -/
theorem handles_handleNewHeart (heart : String) : Handles fun hub => hub.handleNewHeart heart := by
  intro hub base
  cases hfind : hub.tracker.incomingRegistrations.findHeart heart with
  | none =>
    simp only [handleNewHeart, atop_tracker, hfind]
    exact .refl hub base
  | some ec =>
    simp only [handleNewHeart, atop_tracker, hfind]
    exact handles_finishRegistration heart hub base

/-- A failed heart. -/
theorem handles_handleHeartFailure (heart : String) :
    Handles fun hub => hub.handleHeartFailure heart := by
  intro hub base
  cases hheart : hub.tracker.engines.findHeart heart with
  | none =>
    simp only [handleHeartFailure, atop_tracker, hheart]
    exact .refl hub base
  | some ec =>
    simp only [handleHeartFailure, atop_tracker, hheart, _unregisterEngine]
    cases hfind : hub.tracker.engines.find? ec.id with
    | none => exact .refl hub base
    | some ec' =>
      simp only [atop, Loop.add_atop]
      exact .of_add rfl rfl rfl rfl fun hpos => .inr (Int.mul_nonneg (by decide) hpos)

/-- The heartmonitor schedules its next beat. -/
theorem handles_scheduleBeat (waiting : Time) : Handles fun hub => hub.scheduleBeat waiting := by
  intro hub base
  simp only [scheduleBeat, atop, Loop.add_atop]
  exact .of_add rfl rfl rfl rfl fun _ => .inl rfl

/-- A registration request may schedule the purge of the registration, or finish it. -/
theorem handles_registerEngine (wire : Wire) (alive : String → Bool) (incoming : Incoming) :
    Handles fun hub => hub.registerEngine wire alive incoming := by
  intro hub base
  cases hparse : wire.registration incoming.header with
  | none =>
    simp only [registerEngine, hparse]
    exact .refl hub base
  | some msg =>
    cases htaken : namesTaken hub.tracker msg.queue msg.heartbeat with
    | true =>
      simp only [registerEngine_eq hparse, atop_tracker, htaken, if_true]
      exact .of_queue rfl rfl rfl rfl
    | false =>
      cases halive : alive msg.heartbeat with
      | true =>
        simp only [registerEngine_eq hparse, atop_tracker, htaken, halive, if_true]
        have hfinish := handles_finishRegistration msg.heartbeat
          (hub.nextId.2.insertIncoming (connectorOf hub.tracker.nextId msg incoming none)) base
        exact ⟨hfinish.atop, hfinish.clock, hfinish.registrationTimeout, hfinish.added⟩
      | false =>
        simp only [registerEngine_eq hparse, atop_tracker, htaken, halive, Bool.false_eq_true, if_false]
        simp only [atop, Loop.add_atop]
        exact .of_add rfl rfl rfl rfl fun hpos => .inr (Int.mul_nonneg (by decide) hpos)

/-- A handler which only answers. -/
theorem Handled.of_reply {hub result result' : Hub} {base : Loop Callback} {incoming : Incoming}
    {frames : List Frame} (hatop : result' = result.atop base) (hclock : result.clock = hub.clock)
    (htimeout : result.registrationTimeout = hub.registrationTimeout)
    (hqueue : result.loop.queue = hub.loop.queue) :
    Handled hub base (result.reply incoming frames) (result'.reply incoming frames) :=
  .of_queue (by rw [hatop]; rfl) hclock htimeout hqueue

/-- `queue_status`, which answers from the registry and the tasks. -/
theorem handles_queueStatus (wire : Wire) (incoming : Incoming) :
    Handles fun hub => hub.queueStatus wire incoming := by
  intro hub base
  cases hparse : wire.queueStatusRequest incoming.header with
  | none =>
    simp only [queueStatus, hparse]
    exact .refl hub base
  | some inmsg =>
    simp only [queueStatus, hparse, atop_tracker, atop_ttracker]
    split <;> exact .of_reply rfl rfl rfl rfl

/-- `get_results`, which answers from the tasks. -/
theorem handles_getResults (wire : Wire) (incoming : Incoming) :
    Handles fun hub => hub.getResults wire incoming := by
  intro hub base
  cases hparse : wire.getResultsRequest incoming.header with
  | none =>
    simp only [getResults, hparse]
    exact .refl hub base
  | some inmsg =>
    simp only [getResults, hparse, atop_ttracker]
    split <;> exact .of_reply rfl rfl rfl rfl

/-- `check_load`, which answers from the registry. -/
theorem handles_checkLoad (wire : Wire) (incoming : Incoming) :
    Handles fun hub => hub.checkLoad wire incoming := by
  intro hub base
  cases hparse : wire.loadRequest incoming.header with
  | none =>
    simp only [checkLoad, hparse]
    exact .refl hub base
  | some inmsg =>
    simp only [checkLoad, hparse, atop_tracker]
    split <;> exact .of_reply rfl rfl rfl rfl

/-- `purge_results`, which removes tasks and engines and answers. -/
theorem handles_purgeResults (wire : Wire) (incoming : Incoming) :
    Handles fun hub => hub.purgeResults wire incoming := by
  intro hub base
  cases hparse : wire.purgeResultsRequest incoming.header with
  | none =>
    simp only [purgeResults, hparse]
    exact .refl hub base
  | some inmsg =>
    simp only [purgeResults, hparse, atop_tracker, atop_ttracker]
    split
    · exact .of_reply rfl rfl rfl rfl
    · split <;> exact .of_reply rfl rfl rfl rfl

/-- `dispatch_query`, whatever the query. -/
theorem handles_dispatchQuery (wire : Wire) (alive : String → Bool) (incoming : Incoming) :
    Handles fun hub => hub.dispatchQuery wire alive incoming := by
  intro hub base
  simp only [dispatchQuery]
  split
  · exact handles_queueStatus wire incoming hub base
  · exact handles_getResults wire incoming hub base
  · exact handles_purgeResults wire incoming hub base
  · exact handles_checkLoad wire incoming hub base
  · simp only [shutdownRequest, atop, Loop.add_atop]
    exact .of_add rfl rfl rfl rfl fun _ => .inr (by decide)
  · exact handles_registerEngine wire alive incoming hub base
  · cases hfind : hub.tracker.engines.findQueue incoming.header with
    | none =>
      simp only [unregisterEngine, atop_tracker, hfind]
      exact .refl hub base
    | some ec =>
      simp only [unregisterEngine, atop_tracker, hfind]
      exact .of_queue rfl rfl rfl rfl
  · exact .refl hub base

/-- The hub's callbacks of timers do not look at the loop. -/
theorem runCallback_atop (hub : Hub) (base : Loop Callback) (callback : Callback) :
    (hub.atop base).runCallback callback =
      (hub.runCallback callback).map fun hub' => hub'.atop base := by
  cases callback with
  | purgeStalledRegistration heart =>
    cases hfind : hub.tracker.incomingRegistrations.findHeart heart with
    | none => simp only [runCallback, _purgeStalledRegistration, atop_tracker, hfind, Option.map_some]
    | some ec =>
      simp only [runCallback, _purgeStalledRegistration, atop_tracker, hfind, Option.map_some]
      rfl
  | handleStrandedMsgs eid uuid =>
    cases hfind : hub.tracker.engines.find? eid with
    | none => simp only [runCallback, _handleStrandedMsgs, atop_tracker, hfind, Option.map_some]
    | some ec =>
      simp only [runCallback, _handleStrandedMsgs, atop_tracker, hfind, Option.map_some]
      rfl
  | shutdown => rfl
  | beat => rfl

/-- Nor do they change it. -/
theorem loop_runCallback {hub hub' : Hub} {callback : Callback}
    (h : hub.runCallback callback = some hub') :
    hub'.loop = hub.loop ∧ hub'.registrationTimeout = hub.registrationTimeout := by
  cases callback with
  | purgeStalledRegistration heart =>
    rw [runCallback, Option.some.injEq, _purgeStalledRegistration] at h
    split at h <;> exact h ▸ ⟨rfl, rfl⟩
  | handleStrandedMsgs eid uuid =>
    rw [runCallback, Option.some.injEq, _handleStrandedMsgs] at h
    split at h <;> exact h ▸ ⟨rfl, rfl⟩
  | shutdown => cases h
  | beat =>
    cases h
    exact ⟨rfl, rfl⟩

end Hub

namespace Controller

/-- A beat. -/
theorem handles_beat (toIso : Time → String) (c : Controller) :
    Hub.Handles fun hub => (beat toIso { c with hub := hub }).hub := by
  have hnew := Hub.Handles.foldl Hub.handles_handleNewHeart (c.monitor.newHearts.sort (· ≤ ·))
  have hfailed := Hub.Handles.foldl Hub.handles_handleHeartFailure (c.monitor.heartFailures.sort (· ≤ ·))
  have hscheduled := Hub.handles_scheduleBeat (milliseconds c.monitor.interval)
  intro hub base
  simp only [hub_beat]
  exact hfailed.comp (hnew.comp hscheduled) hub base

/-- The heartmonitor does not look at the loop of the hub. -/
theorem monitor_beat_atop (toIso : Time → String) (c : Controller) (hub : Hub) (base : Loop Callback) :
    (beat toIso { c with hub := hub.atop base }).monitor = (beat toIso { c with hub := hub }).monitor := by
  simp only [beat, HeartMonitor.beat_eq]
  rfl

end Controller

end Gpf
