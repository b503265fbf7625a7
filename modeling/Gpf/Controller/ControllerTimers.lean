import Gpf.Controller.RegistrationDeadline
import Gpf.Reactor.FiringOrder

/-!
# The timers of the controller on its reactor

Whatever the handlers of hub and heartmonitor schedule is due later than they were called. So the timers of
the controller fire in the order of their deadlines, only those of finished registrations come to nothing,
and a shutdown is carried out by the first call that goes through the timers once it is due.
-/

namespace Gpf

open Transition

namespace Hub

/-- Whatever a handler schedules is due later than it was called. -/
def SchedulesLater (f : Hub → Hub) : Prop :=
  ∀ hub, 0 < hub.registrationTimeout →
    ∀ timer ∈ (f hub).loop.queue, timer ∈ hub.loop.queue ∨ hub.clock < timer.deadline

/-- A positive number of milliseconds is a positive time. -/
theorem milliseconds_pos {ms : ℤ} (h : 0 < ms) : 0 < milliseconds ms := Int.mul_pos (by decide) h

/-- A handler which schedules one timer. -/
theorem schedulesLater_add {hub result : Hub} {waiting : Time} {callback : Callback}
    (hloop : result.loop = hub.loop.add hub.clock waiting callback) (hwaiting : 0 < waiting) :
    ∀ timer ∈ result.loop.queue, timer ∈ hub.loop.queue ∨ hub.clock < timer.deadline := by
  intro timer htimer
  rw [hloop, Loop.mem_add] at htimer
  apply htimer.imp_right
  rintro rfl
  exact lt_add_of_pos_right hub.clock hwaiting

/-- One handler after the other. -/
theorem SchedulesLater.comp {f g : Hub → Hub} (hg : SchedulesLater g) (hf : SchedulesLater f)
    (hhandles : Handles f) : SchedulesLater fun hub => g (f hub) := by
  intro hub hpos timer htimer
  have hfirst := hhandles hub {}
  have hsecond := hg (f hub) (hfirst.registrationTimeout ▸ hpos) timer htimer
  rw [hfirst.clock] at hsecond
  rcases hsecond with hmid | hlate
  · exact hf hub hpos timer hmid
  · exact .inr hlate

/-- Handlers for a list of hearts. -/
theorem SchedulesLater.foldl {f : Hub → String → Hub} (hf : ∀ heart, SchedulesLater fun hub => f hub heart)
    (hhandles : ∀ heart, Handles fun hub => f hub heart) (hearts : List String) :
    SchedulesLater fun hub => hearts.foldl f hub := by
  induction hearts with
  | nil => exact fun hub _ timer htimer => .inl htimer
  | cons heart hearts ih => exact ih.comp (hf heart) (hhandles heart)

/-- A new heart schedules nothing. -/
theorem schedulesLater_handleNewHeart (heart : String) : SchedulesLater fun hub => hub.handleNewHeart heart := by
  intro hub _ timer htimer
  left
  cases hfind : hub.tracker.incomingRegistrations.findHeart heart with
  | none =>
    simp only [handleNewHeart, hfind] at htimer
    exact htimer
  | some ec =>
    simp only [handleNewHeart, hfind, queue_finishRegistration] at htimer
    exact htimer

/-- A failed heart may schedule that the tasks of its engine are given up. -/
theorem schedulesLater_handleHeartFailure (heart : String) :
    SchedulesLater fun hub => hub.handleHeartFailure heart := by
  intro hub hpos
  cases hheart : hub.tracker.engines.findHeart heart with
  | none =>
    simp only [handleHeartFailure, hheart]
    exact fun timer htimer => .inl htimer
  | some ec =>
    simp only [handleHeartFailure, hheart, _unregisterEngine]
    cases hfind : hub.tracker.engines.find? ec.id with
    | none => exact fun timer htimer => .inl htimer
    | some ec' => exact schedulesLater_add rfl (milliseconds_pos hpos)

/-- A query may schedule the purge of a registration or the shutdown. -/
theorem schedulesLater_dispatchQuery (wire : Wire) (alive : String → Bool) (incoming : Incoming) :
    SchedulesLater fun hub => hub.dispatchQuery wire alive incoming := by
  intro hub hpos
  by_cases hregistration : incoming.type = "registration_request"
  · simp only [dispatchQuery, hregistration]
    cases hparse : wire.registration incoming.header with
    | none =>
      simp only [registerEngine, hparse]
      exact fun timer htimer => .inl htimer
    | some msg =>
      rw [registerEngine_eq hparse]
      split
      · exact fun timer htimer => .inl htimer
      · split
        · rw [queue_finishRegistration]
          exact fun timer htimer => .inl htimer
        · exact schedulesLater_add rfl (milliseconds_pos hpos)
  · by_cases hshutdown : incoming.type = "shutdown_request"
    · simp only [dispatchQuery, hshutdown]
      exact schedulesLater_add rfl (milliseconds_pos (by decide))
    · rw [loop_dispatchQuery wire alive hub hregistration hshutdown]
      exact fun timer htimer => .inl htimer

end Hub

namespace Controller

/-- What a handler of the controller leaves behind: the interval, the registration timeout, and in its loop
only timers which are due later than the handler was called. -/
structure Prompt (c d : Controller) : Prop where
  interval : d.monitor.interval = c.monitor.interval
  registrationTimeout : d.hub.registrationTimeout = c.hub.registrationTimeout
  later : ∀ timer ∈ d.hub.loop.queue, c.hub.clock < timer.deadline

/-- The conditions under which the handlers are prompt. -/
structure Ready (c : Controller) : Prop where
  interval : 0 < c.monitor.interval
  registrationTimeout : 0 < c.hub.registrationTimeout
  idle : c.hub.loop.Idle

namespace Ready

variable {wire : Wire} {toIso : Time → String} {c d : Controller}

/-- Between handlers nothing is in the loop. -/
theorem queue (h : c.Ready) : c.hub.loop.queue = [] := by rw [h.idle]

/-- Reading the clock makes no difference. -/
theorem atClock (h : c.Ready) (now : Time) : (c.atClock now).Ready :=
  ⟨h.interval, h.registrationTimeout, h.idle⟩

/-- A prompt handler leaves the controller ready for the next. -/
theorem detached (h : c.Ready) (hprompt : c.Prompt d) : d.detached.Ready where
  interval := hprompt.interval ▸ h.interval
  registrationTimeout := hprompt.registrationTimeout ▸ h.registrationTimeout
  idle := rfl

/-- Every handler of a socket is prompt. -/
theorem next (h : c.Ready) {e : ControllerEvent} (htick : ∀ now, e ≠ .tick now)
    (htimeout : ∀ ptr, e ≠ .timeout ptr) (hnext : c.next wire toIso e = some d) : c.Prompt d := by
  cases e with
  | tick now => exact absurd rfl (htick now)
  | timeout ptr => exact absurd rfl (htimeout ptr)
  | query incoming =>
    cases hnext
    have hhandled := Hub.handles_dispatchQuery wire c.monitor.alive incoming c.hub {}
    have hlater := Hub.schedulesLater_dispatchQuery wire c.monitor.alive incoming c.hub h.registrationTimeout
    refine ⟨rfl, hhandled.registrationTimeout, fun timer htimer => ?_⟩
    apply (hlater timer htimer).resolve_left
    rw [h.queue]
    exact List.not_mem_nil
  | monitor incoming =>
    obtain ⟨ttracker, -, rfl⟩ := Option.map_eq_some_iff.mp hnext
    refine ⟨rfl, rfl, fun timer htimer => ?_⟩
    rw [h.queue] at htimer
    exact absurd htimer List.not_mem_nil
  | pong pong =>
    cases hnext
    refine ⟨?_, rfl, fun timer htimer => ?_⟩
    · simp only [handlePong, HeartMonitor.handlePong_eq]
    · change timer ∈ c.hub.loop.queue at htimer
      rw [h.queue] at htimer
      exact absurd htimer List.not_mem_nil

/-- So is a beat, which schedules the next one. -/
theorem beat (h : c.Ready) (toIso : Time → String) : c.Prompt (c.beat toIso) where
  interval := by simp only [Controller.beat, HeartMonitor.beat_eq]; rfl
  registrationTimeout := (handles_beat toIso c c.hub {}).registrationTimeout
  later timer htimer := by
    have hnew := Hub.SchedulesLater.foldl Hub.schedulesLater_handleNewHeart Hub.handles_handleNewHeart
      (c.monitor.newHearts.sort (· ≤ ·))
    have hfailed := Hub.SchedulesLater.foldl Hub.schedulesLater_handleHeartFailure
      Hub.handles_handleHeartFailure (c.monitor.heartFailures.sort (· ≤ ·))
    have hscheduled : Hub.SchedulesLater fun hub => hub.scheduleBeat (milliseconds c.monitor.interval) :=
      fun hub _ => Hub.schedulesLater_add rfl (Hub.milliseconds_pos h.interval)
    have hhearts := hfailed.comp (hnew.comp hscheduled (Hub.handles_scheduleBeat _))
      ((Hub.Handles.foldl Hub.handles_handleNewHeart _).comp (Hub.handles_scheduleBeat _))
    rw [hub_beat] at htimer
    apply (hhearts c.hub h.registrationTimeout timer htimer).resolve_left
    rw [h.queue]
    exact List.not_mem_nil

/-- So is the callback of every timer. -/
theorem runCallback (h : c.Ready) {callback : Callback}
    (hrun : c.runCallback toIso callback = some d) : c.Prompt d := by
  obtain ⟨hub, hhub, hd⟩ := Option.map_eq_some_iff.mp hrun
  by_cases hbeat : callback = .beat
  · subst hbeat
    rw [if_pos rfl] at hd
    cases hhub
    rw [← hd]
    exact h.beat toIso
  · rw [if_neg hbeat] at hd
    rw [← hd]
    obtain ⟨hloop, hregistration⟩ := Hub.loop_runCallback hhub
    refine ⟨rfl, hregistration, fun timer htimer => ?_⟩
    rw [hloop, h.queue] at htimer
    exact absurd htimer List.not_mem_nil

end Ready

/-- The factory leaves a controller which is ready, if the interval is positive. -/
theorem ready_create {interval : ℤ} (hinterval : 0 < interval) (clock lifetime tic lastPing : Time) :
    (create interval clock lifetime tic lastPing).detached.Ready where
  interval := hinterval
  registrationTimeout := lt_max_of_lt_left (by decide)
  idle := rfl

end Controller

namespace Outside

variable {ω : Type}

/-- The clock does not go back while a message is read. -/
structure Onward (O : Outside ω) : Prop where
  receiveQuery : ∀ w, O.clock w ≤ O.clock (O.receiveQuery w).2
  receiveMonitor : ∀ w, O.clock w ≤ O.clock (O.receiveMonitor w).2
  receivePong : ∀ w, O.clock w ≤ O.clock (O.receivePong w).2

/-- During a poll the outside goes on: its clock does not go back, nor stay behind the time which `fire_due`
reads afterwards. -/
def Advances (O : Outside ω) (round : Round ω) : Prop :=
  O.Forward round ∧ ∀ timeout w, O.clock w ≤ O.clock ((round.poll timeout).arrivals w)

/-- A round of the outside as one of the reactor. -/
def round (round : Round ω) : Round (HubWorld ω) :=
  round.map fun arrivals s => { s with world := arrivals s.world }

variable {O : Outside ω} {wire : Wire} {toIso : Time → String} {s : HubWorld ω}
  {effect : HubWorld ω × List (Action Callback)}

/-- The effect of a prompt handler. -/
theorem returns_later (hs : s.controller.Ready) {w : ω} (hclock : O.clock s.world ≤ O.clock w)
    {d : Controller} (hprompt : (s.controller.atClock (O.clock w)).Prompt d) :
    (returns w d).1.controller.Ready ∧ O.clock s.world ≤ O.clock (returns w d).1.world ∧
      ∀ timer ∈ scheduled (returns w d).2, O.clock s.world < timer.deadline := by
  refine ⟨(hs.atClock _).detached hprompt, hclock, ?_⟩
  intro timer htimer
  rw [returns, Loop.scheduled_actions] at htimer
  exact hclock.trans_lt (hprompt.later timer htimer)

/-- The callbacks of sockets schedule what is due later than they were called. -/
theorem onActivity_later (hinput : O.Onward) (hs : s.controller.Ready) {cb : HubSocket} {socket : ℕ}
    (heffect : (O.handlers wire toIso).onActivity cb socket s = some effect) :
    effect.1.controller.Ready ∧ O.clock s.world ≤ O.clock effect.1.world ∧
      ∀ timer ∈ scheduled effect.2, O.clock s.world < timer.deadline := by
  have hhears {e : ControllerEvent} {w : ω} (htick : ∀ now, e ≠ .tick now) (htimeout : ∀ ptr, e ≠ .timeout ptr)
      (hclock : O.clock s.world ≤ O.clock w) (h : O.hears wire toIso s e w = some effect) :
      effect.1.controller.Ready ∧ O.clock s.world ≤ O.clock effect.1.world ∧
        ∀ timer ∈ scheduled effect.2, O.clock s.world < timer.deadline := by
    obtain ⟨d, hd, rfl⟩ := Option.map_eq_some_iff.mp h
    exact returns_later hs hclock ((hs.atClock _).next htick htimeout hd)
  cases cb with
  | shutdown =>
    cases heffect
    exact ⟨hs, O.clock_elapse s.world, fun _ h => absurd h List.not_mem_nil⟩
  | pong =>
    change O.hears wire toIso s (.pong _) (O.receivePong s.world).2 = some effect at heffect
    exact hhears (by simp) (by simp) (hinput.receivePong s.world) heffect
  | query =>
    change O.hears wire toIso s (.query _) (O.receiveQuery s.world).2 = some effect at heffect
    exact hhears (by simp) (by simp) (hinput.receiveQuery s.world) heffect
  | monitor =>
    change O.hears wire toIso s (.monitor _) (O.receiveMonitor s.world).2 = some effect at heffect
    exact hhears (by simp) (by simp) (hinput.receiveMonitor s.world) heffect
  | resubmit =>
    cases heffect
    exact ⟨hs, le_rfl, fun _ h => absurd h List.not_mem_nil⟩

/-- So do those of timers. -/
theorem onTimeout_later (hs : s.controller.Ready) {callback : Callback}
    (heffect : (O.handlers wire toIso).onTimeout callback s = some effect) :
    effect.1.controller.Ready ∧ O.clock s.world ≤ O.clock effect.1.world ∧
      ∀ timer ∈ scheduled effect.2, O.clock s.world < timer.deadline := by
  obtain ⟨d, hd, rfl⟩ := Option.map_eq_some_iff.mp heffect
  exact returns_later hs (O.clock_elapse s.world) ((hs.atClock _).runCallback hd)

/-- The handlers of the controller are punctual. -/
theorem handlers_punctual (hinput : O.Onward) (wire : Wire) (toIso : Time → String) :
    (O.handlers wire toIso).Punctual (fun s => O.clock s.world) fun s => s.controller.Ready where
  onActivity cb socket s effect hs heffect := by
    obtain ⟨hready, hclock, hlater⟩ := onActivity_later hinput hs heffect
    exact ⟨hready, hclock, fun timer htimer => (hlater timer htimer).le⟩
  onTimeout callback s effect hs heffect := by
    obtain ⟨hready, hclock, hlater⟩ := onTimeout_later hs heffect
    exact ⟨hready, hclock, fun timer htimer => (hlater timer htimer).le⟩

/-- The rounds of the outside move forward as those of the reactor. -/
theorem forward_round {round : Round ω} (h : O.Advances round) :
    (Outside.round round).Forward (fun s => O.clock s.world) fun s => s.controller.Ready :=
  fun timeout s hs => ⟨hs, h.2 timeout s.world, h.1 timeout s.world⟩

end Outside

/-- The timer is that of a registration which has been accepted and finished, so nothing is left to purge. -/
def Hub.Settled (hub : Hub) (timer : DeadlineTimer Callback) : Prop :=
  ∃ eid queue heart, .accepted eid queue heart ∈ hub.log ∧ hub.Finished eid ∧ timer.Purges heart

section Reactor

variable {ω : Type} {O : Outside ω} {wire : Wire} {toIso : Time → String} {interval : ℤ}
  {lifetime tic lastPing clock : Time} {w : ω} {P : SteadyTimerQueue Callback}
  {s t : Running HubSocket (HubWorld ω) P.toPriorityQueue}

/-- Every run of the reactor extends the log of its hub, so what is settled stays so. -/
theorem HubStep.settled_run {es : List HubEvent}
    (h : Reachable (HubStep O wire toIso)
      (hubReactor P.toPriorityQueue interval lifetime tic lastPing clock w) s)
    (hrun : Run (HubStep O wire toIso) s es t) {timer : DeadlineTimer Callback}
    (hsettled : s.world.controller.hub.Settled timer) : t.world.controller.hub.Settled timer := by
  obtain ⟨base, hreflects, hu⟩ := HubStep.exists_mirror h
  obtain ⟨ds, v, hds, hlast⟩ := HubStep.run_mirror hrun ⟨base, hreflects, rfl⟩ hu
  have hlog := System.log_run hu hds
  rw [hlast.log] at hlog
  obtain ⟨eid, queue, heart, haccepted, hfinished, hpurges⟩ := hsettled
  exact ⟨eid, queue, heart, hlog.subset haccepted, hlog.subset hfinished, hpurges⟩

/-- A deactivated timer in the queue of the reactor is settled. -/
theorem HubStep.settled_of_inactive
    (h : Reachable (HubStep O wire toIso)
      (hubReactor P.toPriorityQueue interval lifetime tic lastPing clock w) s)
    {timer : DeadlineTimer Callback} (htimer : timer ∈ P.elems s.reactor.timerQueue)
    (hinactive : s.reactor.active timer.ptr = false) : s.world.controller.hub.Settled timer := by
  obtain ⟨base, hreflects, hu⟩ := HubStep.exists_mirror h
  have hmirrors : Mirrors s (s.world.controller.atop base).view := ⟨base, hreflects, rfl⟩
  have hqueued := (hmirrors.mem_queue timer).mpr htimer
  have hflag : (s.world.controller.atop base).view.hub.loop.active timer.ptr = false := by
    change decide (timer.ptr ∉ (s.world.controller.atop base).hub.loop.inactive) = false
    rw [(Controller.loop_atop hreflects.idle base).2, hreflects.inactive]
    exact hinactive
  obtain ⟨ec, hec, hptr, hfinished⟩ := (TimerFates.reachable hu).inactive_finished timer.ptr hflag
  have haccepted := ((RegistryInvariant.reachable hu).incoming_accepted ec hec).1
  rw [hmirrors.log] at haccepted
  rw [Hub.Finished, hmirrors.log] at hfinished
  exact ⟨ec.id, ec.queue, ec.heartbeat, haccepted, hfinished,
    (TimerFates.reachable hu).callback_purges timer hqueued ec hec hptr⟩

/-- What the turns of a call skip is settled. -/
theorem HubStep.settled_turns {now : Time} {turns : List (Turn Callback)}
    (h : Reachable (HubStep O wire toIso)
      (hubReactor P.toPriorityQueue interval lifetime tic lastPing clock w) s)
    (hnow : now ≤ O.clock s.world.world)
    (hrun : Run (Running.TakesTurn (O.handlers wire toIso) now) s turns t) :
    ∀ timer ∈ (Pass.ofTurns turns).skipped, t.world.controller.hub.Settled timer := by
  induction hrun with
  | nil s => exact fun _ h => absurd h List.not_mem_nil
  | @cons s mid t turn turns hturn hrest ih =>
    have hstep : HubStep O wire toIso s (.turn now) mid := .turn s mid now turn hnow hturn
    have hlater := hnow.trans hturn.clock_le
    obtain ⟨es, hes⟩ := HubStep.run_turns hrest hlater
    intro timer htimer
    obtain ⟨turn', hturn', rfl⟩ := List.mem_map.mp htimer
    obtain ⟨hmem, hskips⟩ := List.mem_filter.mp hturn'
    rcases List.mem_cons.mp hmem with rfl | hlate
    · cases hturn with
      | fires top taken effect htop hdue hactive heffect htaken => cases hskips
      | skips top htop hdue hinactive =>
        apply HubStep.settled_run h (.cons hstep hes)
        exact HubStep.settled_of_inactive h (P.mem_of_top? htop) hinactive
    · apply ih (h.extend (.single hstep)) hlater
      exact List.mem_map.mpr ⟨turn', List.mem_filter.mpr ⟨hlate, hskips⟩, rfl⟩

/-- A call is a run of the reactor's handlers, and what it skips is settled at its end. -/
theorem HubStep.settled_pass {timeout : ℤ} {round : Round ω} {pass : Pass Callback}
    (h : Reachable (HubStep O wire toIso)
      (hubReactor P.toPriorityQueue interval lifetime tic lastPing clock w) s)
    (hforward : O.Forward round)
    (hpass : Running.Passes (O.handlers wire toIso) timeout s (Outside.round round, pass) t) :
    (∃ es, Run (HubStep O wire toIso) s es t) ∧
      ∀ timer ∈ pass.skipped, t.world.controller.hub.Settled timer := by
  refine ⟨HubStep.run_iterates hforward hpass.iterates, ?_⟩
  cases hpass with
  | served round world actions hrunning hready hactivities => exact fun _ h => absurd h List.not_mem_nil
  | swept t round' turns hrunning hnothing hturns hdone =>
    have hpoll : HubStep O wire toIso s .poll
        (s.polledInto (s.polled timeout (Outside.round round))) := .poll s _
    exact HubStep.settled_turns (h.extend (.single hpoll)) (hforward _ _) hturns

/-- What the calls of a run skip is settled at its end. -/
theorem HubStep.settled_passes {timeout : ℤ} {entries : List (Round ω × Pass Callback)}
    (h : Reachable (HubStep O wire toIso)
      (hubReactor P.toPriorityQueue interval lifetime tic lastPing clock w) s)
    (hforward : ∀ entry ∈ entries, O.Forward entry.1)
    (hrun : Run (Running.Passes (O.handlers wire toIso) timeout) s
      (entries.map fun entry => (Outside.round entry.1, entry.2)) t) :
    (∃ es, Run (HubStep O wire toIso) s es t) ∧
      ∀ timer ∈ entries.flatMap fun entry => entry.2.skipped, t.world.controller.hub.Settled timer := by
  induction entries generalizing s with
  | nil =>
    cases hrun
    exact ⟨⟨[], .nil _⟩, fun _ h => absurd h List.not_mem_nil⟩
  | cons entry entries ih =>
    rw [List.forall_mem_cons] at hforward
    cases hrun with
    | cons hpass hrest =>
      obtain ⟨⟨es, hes⟩, hskipped⟩ := HubStep.settled_pass h hforward.1 hpass
      obtain ⟨⟨fs, hfs⟩, hlater⟩ := ih (h.extend hes) hforward.2 hrest
      refine ⟨⟨es ++ fs, hes.append hfs⟩, ?_⟩
      intro timer htimer
      rw [List.flatMap_cons, List.mem_append] at htimer
      rcases htimer with hfirst | hrest
      · exact HubStep.settled_run (h.extend hes) hfs (hskipped timer hfirst)
      · exact hlater timer hrest

/-- At the start the first beat is queued, and nothing else. -/
theorem elems_hubReactor (P : SteadyTimerQueue Callback) (interval : ℤ) (lifetime tic lastPing clock : Time)
    (w : ω) :
    P.elems (hubReactor P.toPriorityQueue interval lifetime tic lastPing clock w).reactor.timerQueue =
      {⟨0, clock + milliseconds interval, .beat⟩} := by
  have hlistening : P.elems (listening P.toPriorityQueue).timerQueue = 0 := P.elems_empty
  rw [hubReactor, Reactor.elems_performAll, Loop.scheduled_actions, hlistening, zero_add]
  rfl

/-- No timer of the controller is lost on its reactor. Over every run of `reactor::run` from its start, with
a positive interval, whatever the polls report: its timers fire in the order of their deadlines; the first
beat and everything that has been scheduled since has fired, or is queued, or was the purge timer of a
registration which has been finished. -/
theorem controller_timers_settled {timeout : ℤ} {rounds : List (Round ω)} (hinterval : 0 < interval)
    (hinput : O.Onward) (hadvances : ∀ round ∈ rounds, O.Advances round)
    (hrun : Run (O.Iterates wire toIso timeout)
      (hubReactor P.toPriorityQueue interval lifetime tic lastPing clock w) rounds t) :
    ∃ passes : List (Pass Callback), passes.length = rounds.length ∧
      Run (Running.Passes (O.handlers wire toIso) timeout)
        (hubReactor P.toPriorityQueue interval lifetime tic lastPing clock w)
        ((rounds.map Outside.round).zip passes) t ∧
      (passes.flatMap Pass.fired).Pairwise (fun first later => first.deadline ≤ later.deadline) ∧
      P.elems t.reactor.timerQueue + (passes.flatMap Pass.fired + passes.flatMap Pass.skipped) =
        ⟨0, clock + milliseconds interval, .beat⟩ ::ₘ
          (passes.flatMap Pass.added : Multiset (DeadlineTimer Callback)) ∧
      ∀ timer ∈ passes.flatMap Pass.skipped, t.world.controller.hub.Settled timer := by
  have hrounds : Run (Running.Iterates (O.handlers wire toIso) timeout)
      (hubReactor P.toPriorityQueue interval lifetime tic lastPing clock w) (rounds.map Outside.round) t :=
    Run.map_labels hrun
  have hforward : ∀ round ∈ rounds.map Outside.round,
      round.Forward (fun s : HubWorld ω => O.clock s.world) fun s => s.controller.Ready := by
    intro round hround
    obtain ⟨round, hmem, rfl⟩ := List.mem_map.mp hround
    exact Outside.forward_round (hadvances round hmem)
  obtain ⟨passes, hlength, hpasses, hordered, hmoved⟩ :=
    Running.exists_passes_in_order (Outside.handlers_punctual hinput wire toIso)
      (Controller.ready_create hinterval clock lifetime tic lastPing) hforward hrounds
  rw [List.length_map] at hlength
  have hqueue := elems_hubReactor P interval lifetime tic lastPing clock w
  rw [hqueue, Multiset.singleton_add] at hmoved
  have hzip : (rounds.map Outside.round).zip passes =
      (rounds.zip passes).map fun entry => (Outside.round entry.1, entry.2) := List.zip_map_left
  have hsettled := hpasses
  rw [hzip] at hsettled
  have hskipped := (HubStep.settled_passes ⟨[], .nil _⟩
    (fun entry hentry => (hadvances entry.1 (List.of_mem_zip hentry).1).1) hsettled).2
  rw [Running.flatMap_zip_snd hlength] at hskipped
  exact ⟨passes, hlength, hpasses, hordered, hmoved, hskipped⟩

/-- A poll which returns at the given time, and reports the item at the given position if there is one. -/
def sessionRound (ready : Option ℕ) (now : Time) : Round Time where
  calledAt := 0
  poll _ :=
    { ret := if ready.isSome then 1 else 0
      revents := fun i => if ready = some i then zmqPollin else 0
      returnedAt := now
      now := now
      arrivals := fun clock => max clock now }

/-- The registration of the session is purged after five seconds, between two beats. -/
theorem controller_timers_settled_session :
    ∃ t, Run (clockOutside.Iterates .session Time.toIsoString (-1)) sessionReactor
        [sessionRound (some 2) 0, sessionRound none 5000000] t ∧
      ∃ passes : List (Pass Callback), passes.length = 2 ∧
        (passes.flatMap Pass.fired).Pairwise (fun first later => first.deadline ≤ later.deadline) ∧
        ∀ timer ∈ passes.flatMap Pass.skipped, t.world.controller.hub.Settled timer := by
  have hreturns : ((sessionReactor.call (clockOutside.handlers .session Time.toIsoString) (-1)
      (Outside.round (sessionRound (some 2) 0)) 0).any fun s => !s.reactor.stopRequested &&
        (s.call (clockOutside.handlers .session Time.toIsoString) (-1)
          (Outside.round (sessionRound none 5000000)) 4).isSome) = true := by
    decide +kernel
  obtain ⟨mid, hmid, hlater⟩ := (Option.any_eq_true _ _).mp hreturns
  obtain ⟨hrunning, hsome⟩ := Bool.and_eq_true_iff.mp hlater
  obtain ⟨t, ht⟩ := Option.isSome_iff_exists.mp hsome
  have hrun : Run (clockOutside.Iterates .session Time.toIsoString (-1)) sessionReactor
      [sessionRound (some 2) 0, sessionRound none 5000000] t :=
    .cons ⟨by decide +kernel, 0, hmid⟩ (.single ⟨Bool.not_eq_true' _ ▸ hrunning, 4, ht⟩)
  have hadvances (ready : Option ℕ) (now : Time) : clockOutside.Advances (sessionRound ready now) :=
    ⟨fun _ w => le_max_right w now, fun _ w => le_max_left w now⟩
  obtain ⟨passes, hlength, -, hordered, -, hskipped⟩ := controller_timers_settled (by decide)
    ⟨fun _ => le_rfl, fun _ => le_rfl, fun _ => le_rfl⟩ (by simp [hadvances]) hrun
  exact ⟨t, hrun, passes, hlength, hordered, hskipped⟩

/-- The controller is ready in every state that its reactor reaches. -/
theorem HubStep.ready (hinterval : 0 < interval) (hinput : O.Onward)
    (h : Reachable (HubStep O wire toIso)
      (hubReactor P.toPriorityQueue interval lifetime tic lastPing clock w) s) :
    s.world.controller.Ready := by
  apply h.preserves (fun s : Running HubSocket (HubWorld ω) P.toPriorityQueue => s.world.controller.Ready)
    (Controller.ready_create hinterval clock lifetime tic lastPing)
  intro s e t hs hstep
  cases hstep with
  | poll w => exact hs
  | activity cb socket effect heffect => exact (Outside.onActivity_later hinput hs heffect).1
  | turn t now turn hnow hturn =>
    cases hturn with
    | fires top taken effect htop hdue hactive heffect htaken =>
      exact (Outside.onTimeout_later hs heffect).1
    | skips top htop hdue hinactive => exact hs

/-- The timer of a shutdown stays in the queue as long as the process goes on. -/
theorem HubStep.shutdown_kept {es : List HubEvent}
    (h : Reachable (HubStep O wire toIso)
      (hubReactor P.toPriorityQueue interval lifetime tic lastPing clock w) s)
    (hrun : Run (HubStep O wire toIso) s es t) {timer : DeadlineTimer Callback}
    (htimer : timer ∈ P.elems s.reactor.timerQueue) (hcallback : timer.callback = .shutdown) :
    timer ∈ P.elems t.reactor.timerQueue := by
  obtain ⟨base, hreflects, hu⟩ := HubStep.exists_mirror h
  have hmirrors : Mirrors s (s.world.controller.atop base).view := ⟨base, hreflects, rfl⟩
  obtain ⟨ds, v, hds, hlast⟩ := HubStep.run_mirror hrun hmirrors hu
  rw [← hlast.mem_queue]
  exact System.shutdown_kept hu hds ((hmirrors.mem_queue timer).mpr htimer) hcallback

/-- A turn takes out a timer that is due, and schedules none. -/
theorem HubStep.countP_turn {now : Time} {turn : Turn Callback} (hs : s.world.controller.Ready)
    (hnow : now ≤ O.clock s.world.world)
    (hturn : Running.TakesTurn (O.handlers wire toIso) now s turn t) :
    (P.elems t.reactor.timerQueue).countP (fun timer => timer.deadline ≤ now) + 1 =
      (P.elems s.reactor.timerQueue).countP (fun timer => timer.deadline ≤ now) := by
  have hadded : (turn.added : Multiset (DeadlineTimer Callback)).countP
      (fun timer => timer.deadline ≤ now) = 0 := by
    apply Multiset.countP_eq_zero.mpr
    intro timer htimer
    cases hturn with
    | fires top taken effect htop hdue hactive heffect htaken =>
      exact not_le.mpr (hnow.trans_lt ((Outside.onTimeout_later hs heffect).2.2 timer htimer))
    | skips top htop hdue hinactive => exact absurd htimer List.not_mem_nil
  have htaken : turn.taken.deadline ≤ now := hturn.taken_le.1.trans hturn.top_le
  have hone : ({turn.taken} : Multiset (DeadlineTimer Callback)).countP
      (fun timer => timer.deadline ≤ now) = 1 := by
    rw [Multiset.countP_eq_card_filter, Multiset.filter_singleton, if_pos htaken, Multiset.card_singleton]
  have helems := congrArg (Multiset.countP fun timer => timer.deadline ≤ now) hturn.elems
  rw [Multiset.countP_add, Multiset.countP_add, hadded, hone] at helems
  exact helems

/-- The callback of any other timer returns. -/
theorem Outside.onTimeout_returns (O : Outside ω) (wire : Wire) (toIso : Time → String) {callback : Callback}
    (hother : callback ≠ .shutdown) (s : HubWorld ω) :
    ∃ effect, (O.handlers wire toIso).onTimeout callback s = some effect := by
  cases callback with
  | purgeStalledRegistration heart => exact ⟨_, rfl⟩
  | handleStrandedMsgs eid uuid => exact ⟨_, rfl⟩
  | shutdown => exact absurd rfl hother
  | beat => exact ⟨_, rfl⟩

/-- Once the timer of a shutdown is due, `fire_due` comes to one after finitely many turns: every turn
before lowers the number of timers which are due. -/
theorem HubStep.exists_shutdown {now : Time} (hinterval : 0 < interval) (hinput : O.Onward) (n : ℕ)
    (h : Reachable (HubStep O wire toIso)
      (hubReactor P.toPriorityQueue interval lifetime tic lastPing clock w) s)
    (hnow : now ≤ O.clock s.world.world) {timer : DeadlineTimer Callback}
    (htimer : timer ∈ P.elems s.reactor.timerQueue) (hcallback : timer.callback = .shutdown)
    (hdue : timer.deadline ≤ now)
    (hcount : (P.elems s.reactor.timerQueue).countP (fun timer => timer.deadline ≤ now) = n) :
    ∃ turns u top, Run (Running.TakesTurn (O.handlers wire toIso) now) s turns u ∧
      P.top? u.reactor.timerQueue = some top ∧ top.isDue now = true ∧ u.reactor.active top.ptr = true ∧
        top.callback = .shutdown := by
  induction n generalizing s with
  | zero => exact absurd hdue (Multiset.countP_eq_zero.mp hcount timer htimer)
  | succ n ih =>
    obtain ⟨top, htop, hle⟩ := P.exists_top? htimer
    have htopdue : top.isDue now = true := decide_eq_true (hle.trans hdue)
    have hready := HubStep.ready hinterval hinput h
    have hnext {turn : Turn Callback} {t : Running HubSocket (HubWorld ω) P.toPriorityQueue}
        (hturn : Running.TakesTurn (O.handlers wire toIso) now s turn t) :
        ∃ turns u top, Run (Running.TakesTurn (O.handlers wire toIso) now) s turns u ∧
          P.top? u.reactor.timerQueue = some top ∧ top.isDue now = true ∧
            u.reactor.active top.ptr = true ∧ top.callback = .shutdown := by
      have hstep : HubStep O wire toIso s (.turn now) t := .turn s t now turn hnow hturn
      have hkept := HubStep.shutdown_kept h (.single hstep) htimer hcallback
      have hlower := HubStep.countP_turn hready hnow hturn
      obtain ⟨turns, u, last, hrun, hlast⟩ := ih (h.extend (.single hstep)) (hnow.trans hturn.clock_le)
        hkept (by omega)
      exact ⟨turn :: turns, u, last, .cons hturn hrun, hlast⟩
    cases hactive : s.reactor.active top.ptr with
    | false => exact hnext (.skips s top htop htopdue hactive)
    | true =>
      by_cases hshutdown : top.callback = .shutdown
      · exact ⟨[], s, top, .nil s, htop, htopdue, hactive, hshutdown⟩
      · obtain ⟨effect, heffect⟩ := O.onTimeout_returns wire toIso hshutdown s.world
        have hmem := (Reactor.mem_performAll s.reactor effect.2 top).mpr (.inl (P.mem_of_top? htop))
        obtain ⟨taken, htaken, -⟩ := P.exists_top? hmem
        exact hnext (.fires s top taken effect htop htopdue hactive heffect htaken)

/-- A shutdown is carried out. After a shutdown request has been handled on the reactor, whatever the
handlers have done since, a call of `operator()` whose poll reports nothing and which reads a time that lies
a second or more after the request does not return: after finitely many turns of `fire_due` the process
exits. -/
theorem shutdown_carried_out {before accepted late : Running HubSocket (HubWorld ω) P.toPriorityQueue}
    {socket : ℕ} {es : List HubEvent} {timeout : ℤ} {round : Round ω} (hinterval : 0 < interval)
    (hinput : O.Onward)
    (h : Reachable (HubStep O wire toIso)
      (hubReactor P.toPriorityQueue interval lifetime tic lastPing clock w) before)
    (hstep : HubStep O wire toIso before (.activity .query socket) accepted)
    (htype : (O.receiveQuery before.world.world).1.type = "shutdown_request")
    (hrun : Run (HubStep O wire toIso) accepted es late) (hforward : O.Forward round)
    (hnothing : (late.polled timeout (Outside.round round)).ret = 0)
    (hover : O.clock accepted.world.world + milliseconds 1000 ≤
      (late.polled timeout (Outside.round round)).now) :
    (∃ turns u top, Run (Running.TakesTurn (O.handlers wire toIso)
          (late.polled timeout (Outside.round round)).now)
        (late.polledInto (late.polled timeout (Outside.round round))) turns u ∧
      P.top? u.reactor.timerQueue = some top ∧
        top.isDue (late.polled timeout (Outside.round round)).now = true ∧
        u.reactor.active top.ptr = true ∧ top.callback = .shutdown) ∧
      ¬∃ after, O.Iterates wire toIso timeout late round after := by
  obtain ⟨u, v, hu, hclock, -, hquery, hmirrors⟩ := HubStep.query_mirror h hstep
  have hhub : v.hub = u.hub.shutdownRequest := by
    cases hquery
    simp only [Hub.dispatchQuery, htype]
  let timer : DeadlineTimer Callback := ⟨u.hub.loop.nextPtr, u.hub.clock + milliseconds 1000, .shutdown⟩
  have hqueued : timer ∈ P.elems accepted.reactor.timerQueue := by
    rw [← hmirrors.mem_queue, hhub]
    exact Loop.mem_add.mpr (.inr rfl)
  have hdue : timer.deadline ≤ (late.polled timeout (Outside.round round)).now := by
    change u.hub.clock + milliseconds 1000 ≤ _
    rw [hclock]
    exact hover
  have haccepted := h.extend (.single hstep)
  have hlate := HubStep.shutdown_kept haccepted hrun hqueued rfl
  have hpoll : HubStep O wire toIso late .poll
      (late.polledInto (late.polled timeout (Outside.round round))) := .poll late _
  refine ⟨HubStep.exists_shutdown hinterval hinput _
    ((haccepted.extend hrun).extend (.single hpoll)) (hforward _ _) hlate rfl hdue rfl, ?_⟩
  rintro ⟨after, hiterates⟩
  obtain ⟨fs, hfs⟩ := HubStep.run_iterates hforward hiterates
  have hafter := HubStep.shutdown_kept (haccepted.extend hrun) hfs hlate rfl
  obtain ⟨-, fuel, hcall⟩ := hiterates
  rcases Running.call_cases _ _ _ fuel hcall with ⟨-, hfire⟩ | ⟨hready, -⟩
  · exact absurd hdue (not_le.mpr (Running.fireDue_not_due _ _ fuel hfire timer hafter))
  · exact absurd hnothing hready.ne'

end Reactor

/-- An outside from which a shutdown request arrives. -/
def shutdownOutside : Outside Time :=
  { clockOutside with receiveQuery := fun w => ({ type := "shutdown_request" }, w) }

/-- The process exits after the beat that was due before. -/
theorem shutdown_carried_out_session :
    ∃ accepted, HubStep shutdownOutside .session Time.toIsoString sessionReactor (.activity .query 2) accepted ∧
      ¬∃ after, shutdownOutside.Iterates .session Time.toIsoString (-1) accepted quietRound after := by
  have hstep : HubStep shutdownOutside .session Time.toIsoString sessionReactor (.activity .query 2) _ :=
    .activity _ .query 2 _ rfl
  exact ⟨_, hstep, (shutdown_carried_out (by decide) ⟨fun _ => le_rfl, fun _ => le_rfl, fun _ => le_rfl⟩
    ⟨[], .nil _⟩ hstep rfl (.nil _) (fun _ _ => le_rfl) rfl (by decide)).2⟩

end Gpf
