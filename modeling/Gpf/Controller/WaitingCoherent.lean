import Gpf.Controller.HubReactor
import Gpf.Controller.RegistryUnique
import Gpf.Util.IsoTime

/-!
# Waiting registrations on the reactor

What holds of the hub on its own, holds of the hub on the reactor: between any two handlers the waiting
registrations, the active timers in the queue which are going to purge them, and the hearts fit together.
-/

namespace Gpf

open Transition

variable {ω : Type}

/-- The active timers in the queue which are going to purge a registration with the given heart. -/
def activePurges {P : TimerQueue Callback} (s : Running HubSocket (HubWorld ω) P) (heart : String) :
    Multiset (DeadlineTimer Callback) :=
  (P.elems s.reactor.timerQueue).filter fun timer =>
    s.reactor.active timer.ptr = true ∧ timer.callback = .purgeStalledRegistration heart

section Coherence

variable {P : TimerQueue Callback} {s : Running HubSocket (HubWorld ω) P} {base : Loop Callback}

/-- They are those of the hub on its own. -/
theorem Reflects.mem_activePurges (h : Reflects s base) {heart : String}
    {timer : DeadlineTimer Callback} :
    timer ∈ activePurges s heart ↔ timer ∈ (s.world.controller.atop base).hub.loop.queue ∧
      (s.world.controller.atop base).hub.loop.active timer.ptr = true ∧ timer.Purges heart := by
  have hloop := Controller.loop_atop h.idle base
  rw [activePurges, Multiset.mem_filter, ← h.queue, Multiset.mem_coe, hloop.1, Reactor.active,
    ← h.inactive, ← hloop.2]
  rfl

/-- No timer is in the queue of the reactor twice. -/
theorem Reflects.nodup_activePurges (h : Reflects s base)
    (timed : WaitingTimed (s.world.controller.atop base).view) (heart : String) :
    (activePurges s heart).Nodup := by
  have hnodup := timed.ptr_nodup.of_map
  rw [Controller.view, (Controller.loop_atop h.idle base).1, ← Multiset.coe_nodup, h.queue] at hnodup
  exact hnodup.filter _

/-- A waiting registration has exactly one active timer. -/
theorem Reflects.activePurges_eq (h : Reflects s base)
    (timed : WaitingTimed (s.world.controller.atop base).view)
    (registry : RegistryInvariant (s.world.controller.atop base).hub) {ec : EngineConnector}
    (hec : ec ∈ s.world.controller.hub.tracker.incomingRegistrations)
    (hwaiting : ¬s.world.controller.hub.Finished ec.id) :
    ∃ timer, activePurges s ec.heartbeat = {timer} ∧ ec.deletionCallback = some timer.ptr := by
  obtain ⟨timer, htimer, hcallback, hpurges, hactive⟩ := timed.has_timer ec hec hwaiting
  refine ⟨timer, ?_, hcallback⟩
  apply ((h.nodup_activePurges timed _).ext (Multiset.nodup_singleton timer)).mpr
  intro other
  rw [h.mem_activePurges, Multiset.mem_singleton]
  constructor
  · intro hother
    obtain ⟨hmem, hon, hsame⟩ := hother
    obtain ⟨ec', hec', hcallback', hheart, -⟩ := timed.has_registration other hmem hon _ hsame
    have heq : ec' = ec := registry.eq_of_shares hec' hec (.inr (.inr hheart))
    subst heq
    have hptr : other.ptr = timer.ptr := Option.some.inj (hcallback'.symm.trans hcallback)
    exact Loop.eq_of_ptr timed.ptr_nodup htimer hmem hptr
  · intro heq
    subst heq
    exact ⟨htimer, hactive, hpurges⟩

/-- An active timer belongs to exactly one waiting registration. -/
theorem Reflects.existsUnique_registration (h : Reflects s base)
    (timed : WaitingTimed (s.world.controller.atop base).view)
    (registry : RegistryInvariant (s.world.controller.atop base).hub) {heart : String}
    {timer : DeadlineTimer Callback} (htimer : timer ∈ activePurges s heart) :
    ∃! ec, ec ∈ s.world.controller.hub.tracker.incomingRegistrations ∧ ec.heartbeat = heart ∧
      ¬s.world.controller.hub.Finished ec.id := by
  obtain ⟨hmem, hactive, hpurges⟩ := h.mem_activePurges.mp htimer
  obtain ⟨ec, hec, -, hheart, hwaiting⟩ := timed.has_registration timer hmem hactive heart hpurges
  refine ⟨ec, ⟨hec, hheart, hwaiting⟩, ?_⟩
  intro other hother
  exact registry.eq_of_shares hother.1 hec (.inr (.inr (hother.2.1.trans hheart.symm)))

end Coherence

/-- `_purge_stalled_registration` keeps a registration unless it reports to purge it. -/
theorem Hub.mem_purgeStalled (hub : Hub) (heart : String) {ec : EngineConnector}
    (hec : ec ∈ hub.tracker.incomingRegistrations) :
    ec ∈ (hub._purgeStalledRegistration heart).tracker.incomingRegistrations ∨
      .purging ec.id ∈ (hub._purgeStalledRegistration heart).log := by
  cases hfind : hub.tracker.incomingRegistrations.findHeart heart with
  | none =>
    left
    rw [_purgeStalledRegistration, hfind]
    exact hec
  | some purged =>
    rw [_purgeStalledRegistration, hfind]
    by_cases hid : ec.id = purged.id
    · exact .inr (List.mem_append_right _ (hid ▸ List.mem_singleton_self _))
    · exact .inl (KeyedTable.mem_erase.mpr ⟨hec, hid⟩)

/-- What was finished before, is finished after it. -/
theorem Hub.finished_purgeStalled (hub : Hub) (heart : String) {eid : ℤ} (h : hub.Finished eid) :
    (hub._purgeStalledRegistration heart).Finished eid := by
  rw [Finished, _purgeStalledRegistration]
  split
  · exact h
  · exact List.mem_append_left _ h

/-- A turn of `fire_due` for a purge timer runs `_purge_stalled_registration` or nothing. -/
theorem purge_turn {P : TimerQueue Callback} {O : Outside ω} {wire : Wire} {toIso : Time → String}
    {s t : Running HubSocket (HubWorld ω) P} {now : Time} {turn : Turn Callback} {heart : String}
    (h : Running.TakesTurn (O.handlers wire toIso) now s turn t) (hpurges : turn.top.Purges heart) :
    t.world = s.world ∨ ∃ clock,
      t.world.controller.hub.tracker =
          ((s.world.controller.atClock clock).hub._purgeStalledRegistration heart).tracker ∧
        t.world.controller.hub.log =
          ((s.world.controller.atClock clock).hub._purgeStalledRegistration heart).log := by
  cases h with
  | skips => exact .inl rfl
  | fires top taken effect htop hdue hactive heffect htaken =>
    obtain ⟨d, hd, rfl⟩ := Option.map_eq_some_iff.mp heffect
    have hcallback : top.callback = .purgeStalledRegistration heart := hpurges
    rw [hcallback] at hd
    cases hd
    exact .inr ⟨O.clock (O.elapse s.world.world), rfl, rfl⟩

/-- In every state between handlers that the hub on its reactor reaches: each waiting registration that
has not been finished has a heart which is not alive, and exactly one active timer in the queue is going
to purge it; each active purge timer belongs to exactly one such registration; and no turn of `fire_due`
which runs a purge removes a registration that has been finished. -/
theorem waiting_coherent {P : SteadyTimerQueue Callback} {O : Outside ω} {wire : Wire}
    {toIso : Time → String} {interval : ℤ} {lifetime tic lastPing clock : Time} {w : ω}
    {s : Running HubSocket (HubWorld ω) P.toPriorityQueue}
    (h : Reachable (HubStep O wire toIso)
      (hubReactor P.toPriorityQueue interval lifetime tic lastPing clock w) s) :
    let hub := s.world.controller.hub
    (∀ ec ∈ hub.tracker.incomingRegistrations, ¬hub.Finished ec.id →
      s.world.controller.monitor.alive ec.heartbeat = false ∧
        ∃ timer, activePurges s ec.heartbeat = {timer} ∧ ec.deletionCallback = some timer.ptr) ∧
    (∀ heart, ∀ timer ∈ activePurges s heart, ∃! ec,
      ec ∈ hub.tracker.incomingRegistrations ∧ ec.heartbeat = heart ∧ ¬hub.Finished ec.id) ∧
    ∀ now turn t, now ≤ O.clock s.world.world →
      Running.TakesTurn (O.handlers wire toIso) now s turn t →
      ∀ heart, turn.top.Purges heart → ∀ ec ∈ hub.tracker.incomingRegistrations,
        hub.Finished ec.id → ec ∈ t.world.controller.hub.tracker.incomingRegistrations := by
  intro hub
  obtain ⟨base, hreflects, hreach⟩ := HubStep.exists_mirror h
  have timed := WaitingTimed.reachable hreach
  have registry := RegistryInvariant.reachable hreach
  refine ⟨?_, ?_, ?_⟩
  · intro ec hec hwaiting
    exact ⟨decide_eq_false (timed.heart_dead ec hec hwaiting),
      hreflects.activePurges_eq timed registry hec hwaiting⟩
  · intro heart timer htimer
    exact hreflects.existsUnique_registration timed registry htimer
  · intro now turn t hnow hturn heart hpurges ec hec hfinished
    obtain ⟨es, hrun⟩ := h
    have hafter : Reachable (HubStep O wire toIso)
        (hubReactor P.toPriorityQueue interval lifetime tic lastPing clock w) t :=
      ⟨_, hrun.append (.single (.turn s t now turn hnow hturn))⟩
    obtain ⟨base', -, hreach'⟩ := HubStep.exists_mirror hafter
    have timed' := WaitingTimed.reachable hreach'
    rcases purge_turn hturn hpurges with hworld | ⟨clock', htracker, hlog⟩
    · rw [hworld]
      exact hec
    · have hstill : t.world.controller.hub.Finished ec.id := by
        rw [Hub.Finished, hlog]
        exact Hub.finished_purgeStalled _ heart hfinished
      have hunpurged : .purging ec.id ∉ t.world.controller.hub.log := fun hpurging =>
        timed'.purged_waiting ec.id hpurging hstill
      rw [hlog] at hunpurged
      rw [htracker]
      exact (Hub.mem_purgeStalled (s.world.controller.atClock clock').hub heart hec).resolve_right hunpurged

/-- An outside whose clock stands still, and from which the registration of the session arrives. -/
def sessionOutside : Outside Unit where
  clock _ := 0
  elapse w := w
  receiveQuery w := (.register, w)
  receiveMonitor w := (.register, w)
  receivePong w := (⟨"h", ""⟩, w)
  clock_elapse _ := le_rfl

/-- The registration which has arrived waits, and one timer is going to purge it. -/
theorem waiting_coherent_session :
    ∃ s : Running HubSocket (HubWorld Unit) (SteadyQueue.binaryHeap
        (DeadlineTimer.deadline (κ := Callback))).toPriorityQueue,
      Reachable (HubStep sessionOutside .session Time.toIsoString) (hubReactor _ 2000 0 0 0 0 ()) s ∧
      ∃ ec ∈ s.world.controller.hub.tracker.incomingRegistrations, ec.heartbeat = "h" ∧
        s.world.controller.monitor.alive "h" = false ∧ ∃ timer, activePurges s "h" = {timer} := by
  have hstep : HubStep sessionOutside .session Time.toIsoString
      (hubReactor (SteadyQueue.binaryHeap (DeadlineTimer.deadline (κ := Callback))).toPriorityQueue
        2000 0 0 0 0 ()) (.activity .query 2) _ := .activity _ .query 2 _ rfl
  have hreach := (⟨_, .single hstep⟩ : Reachable (HubStep sessionOutside .session Time.toIsoString) _ _)
  let ec := Hub.connectorOf 0 { heartbeat := "h", queue := "q" } .register (some 1)
  have hcoherent := (waiting_coherent hreach).1 ec (List.mem_singleton_self _) (by decide)
  exact ⟨_, hreach, ec, List.mem_singleton_self _, rfl, hcoherent.1,
    hcoherent.2.imp fun timer htimer => htimer.1⟩

end Gpf
