import Gpf.Controller.LoopFrame
import Gpf.Controller.WaitingTimers
import Gpf.Reactor.FireDue

/-!
# The hub and its heartmonitor as callbacks of the reactor

On the reactor the timers are in its queue, and the loop of the hub only collects what one handler does
to it. Between handlers the queue of the reactor then holds what the hub on its own would have in its
loop, and every handler, together with the pop that follows it, is a run of the hub on its own.
-/

namespace Gpf

open Transition

/-- The sockets of the controller's reactor: its internal one, that of the heartmonitor, and those of the
hub. -/
inductive HubSocket
  | shutdown
  | pong
  | query
  | monitor
  | resubmit

/-- What the handlers see of the outside: the clock, the time that passes until it is read again, and the
next message at each socket. -/
structure Outside (ω : Type) where
  clock : ω → Time
  elapse : ω → ω
  receiveQuery : ω → Incoming × ω
  receiveMonitor : ω → Incoming × ω
  receivePong : ω → Pong × ω
  clock_elapse : ∀ w, clock w ≤ clock (elapse w)

/-- The controller, whose loop is empty between handlers, and the outside. -/
structure HubWorld (ω : Type) where
  controller : Controller
  world : ω

/-- A loop to which nothing has been done. -/
def Loop.Idle {κ : Type} (loop : Loop κ) : Prop := loop = { nextPtr := loop.nextPtr }

/-- What a handler has done to the reactor, by what it has done to an empty loop. -/
def Loop.actions {κ : Type} (loop : Loop κ) : List (Action κ) :=
  loop.queue.map .add ++ (loop.inactive.sort (· ≤ ·)).map fun ptr => .setInactive ptr true

namespace Controller

/-- The controller when a handler reads the clock. -/
def atClock (c : Controller) (now : Time) : Controller := { c with hub := { c.hub with clock := now } }

/-- The controller with an empty loop. -/
def detached (c : Controller) : Controller :=
  { c with hub := { c.hub with loop := { nextPtr := c.hub.loop.nextPtr } } }

end Controller

namespace Outside

variable {ω : Type} (O : Outside ω)

/-- The effect of a handler which leaves the controller like this. -/
def returns (w : ω) (c : Controller) : HubWorld ω × List (Action Callback) :=
  (⟨c.detached, w⟩, c.hub.loop.actions)

/-- What the controller does when something has reached it from outside. -/
def hears (wire : Wire) (toIso : Time → String) (s : HubWorld ω) (e : ControllerEvent) (w : ω) :
    Option (HubWorld ω × List (Action Callback)) :=
  ((s.controller.atClock (O.clock w)).next wire toIso e).map (returns w)

/-- The callbacks of the reactor. At the socket for resubmissions nothing happens, and the internal
socket stops the loop. -/
def handlers (wire : Wire) (toIso : Time → String) : Handlers HubSocket Callback (HubWorld ω) where
  onActivity
    | .shutdown, _, s => some ({ s with world := O.elapse s.world }, [.requestStop])
    | .pong, _, s => O.hears wire toIso s (.pong (O.receivePong s.world).1) (O.receivePong s.world).2
    | .query, _, s => O.hears wire toIso s (.query (O.receiveQuery s.world).1) (O.receiveQuery s.world).2
    | .monitor, _, s =>
      O.hears wire toIso s (.monitor (O.receiveMonitor s.world).1) (O.receiveMonitor s.world).2
    | .resubmit, _, s => some (s, [])
  onTimeout callback s :=
    let w := O.elapse s.world
    ((s.controller.atClock (O.clock w)).runCallback toIso callback).map (returns w)

end Outside

/-- What the reactor does next. -/
inductive HubEvent
  | poll
  | activity (cb : HubSocket) (socket : ℕ)
  | turn (now : Time)

variable {ω : Type}

/-- One handler of the reactor at a time: the outside goes on during a poll, the callback of a ready
socket runs, or `fire_due` takes a turn, at a captured time which the clock has reached. -/
inductive HubStep (O : Outside ω) (wire : Wire) (toIso : Time → String) {P : TimerQueue Callback} :
    Running HubSocket (HubWorld ω) P → HubEvent → Running HubSocket (HubWorld ω) P → Prop
  | poll (s : Running HubSocket (HubWorld ω) P) (w : ω) :
      HubStep O wire toIso s .poll { s with world := { s.world with world := w }, fired := [] }
  | activity (s : Running HubSocket (HubWorld ω) P) (cb : HubSocket) (socket : ℕ)
      (effect : HubWorld ω × List (Action Callback))
      (heffect : (O.handlers wire toIso).onActivity cb socket s.world = some effect) :
      HubStep O wire toIso s (.activity cb socket) (s.after effect)
  | turn (s t : Running HubSocket (HubWorld ω) P) (now : Time) (turn : Turn Callback)
      (hnow : now ≤ O.clock s.world.world)
      (hturn : Running.TakesTurn (O.handlers wire toIso) now s turn t) :
      HubStep O wire toIso s (.turn now) t

/-- The sockets which the heartmonitor and the hub add to a new reactor. -/
def listening (P : TimerQueue Callback) : Reactor HubSocket P :=
  [(1, .pong), (2, .query), (3, .monitor), (4, .resubmit)].foldl
    (fun r socket => (r.addSocket socket.1 zmqPollin socket.2 true).1) (.init .shutdown)

/-- The reactor after the factory has made the heartmonitor, which schedules its first beat, and the
hub. -/
def hubReactor (P : TimerQueue Callback) (interval : ℤ) (lifetime tic lastPing clock : Time) (w : ω) :
    Running HubSocket (HubWorld ω) P :=
  let c := Controller.create interval clock lifetime tic lastPing
  { reactor := (listening P).performAll c.hub.loop.actions
    world := ⟨c.detached, w⟩ }

namespace Loop

variable {κ : Type}

/-- In an idle loop nothing has been done. -/
theorem Idle.actions {loop : Loop κ} (h : loop.Idle) : loop.actions = [] := by
  rw [h, Loop.actions, Finset.sort_empty]
  rfl

/-- What is scheduled is what has come into the loop. -/
theorem scheduled_actions (loop : Loop κ) : scheduled loop.actions = loop.queue := by
  simp only [scheduled, actions, List.filterMap_append, List.filterMap_map]
  have hadds : loop.queue.filterMap (Action.timer? ∘ Action.add) = loop.queue := List.filterMap_some
  have hflags : (loop.inactive.sort (· ≤ ·)).filterMap
      (Action.timer? ∘ fun ptr => (Action.setInactive ptr true : Action κ)) = [] :=
    List.filterMap_eq_nil_iff.mpr fun _ _ => rfl
  rw [hadds, hflags, List.append_nil]

/-- What is deactivated is what has been deactivated in the loop. -/
theorem flag_actions (loop : Loop κ) (inactive : Finset ℕ) :
    loop.actions.foldl Action.flag inactive = inactive ∪ loop.inactive := by
  have hadds (timers : List (DeadlineTimer κ)) :
      (timers.map Action.add).foldl Action.flag inactive = inactive := by
    induction timers with
    | nil => rfl
    | cons timer timers ih => exact ih
  have hflags (ptrs : List ℕ) (inactive : Finset ℕ) :
      (ptrs.map fun ptr => (Action.setInactive ptr true : Action κ)).foldl Action.flag inactive =
        inactive ∪ ptrs.toFinset := by
    induction ptrs generalizing inactive with
    | nil => exact (Finset.union_empty _).symm
    | cons ptr ptrs ih =>
      rw [List.map_cons, List.foldl_cons, ih, List.toFinset_cons, Finset.union_insert]
      exact Finset.insert_union _ _ _
  rw [actions, List.foldl_append, hadds, hflags, Finset.sort_toFinset]

end Loop

namespace Controller

/-- The controller with the timers of another loop underneath its own. -/
def atop (c : Controller) (base : Loop Callback) : Controller := { c with hub := c.hub.atop base }

/-- The controller after a timer has been taken out of its loop. -/
def pop (c : Controller) (ptr : ℕ) : Controller :=
  { c with hub := { c.hub with loop := c.hub.loop.pop ptr } }

/-- Controllers differ in their hubs or in their heartmonitors. -/
theorem ext_hub {c d : Controller} (hhub : c.hub = d.hub) (hmonitor : c.monitor = d.monitor) : c = d := by
  cases c
  cases d
  cases hhub
  cases hmonitor
  rfl

/-- No timers underneath. -/
theorem atop_empty (c : Controller) : c.atop {} = c := by
  refine ext_hub ?_ rfl
  simp only [atop, Hub.atop, Loop.atop, List.nil_append, Finset.empty_union]

/-- Moving the timers of the loop underneath makes no difference. -/
theorem detached_atop (d : Controller) (base : Loop Callback) :
    d.detached.atop (d.hub.loop.atop base) = d.atop base := by
  refine ext_hub ?_ rfl
  simp only [atop, detached, Hub.atop, Loop.atop, List.append_nil, Finset.union_empty]

/-- Nor does it if one of them has been taken out. -/
theorem detached_atop_pop (d : Controller) (base : Loop Callback) (ptr : ℕ) :
    d.detached.atop ((d.hub.loop.atop base).pop ptr) = (d.atop base).pop ptr := by
  refine ext_hub ?_ rfl
  simp only [atop, pop, detached, Hub.atop, Loop.atop, Loop.pop, List.append_nil, Finset.union_empty]

/-- Under an idle loop the queue is that of the timers underneath, and so are the flags. -/
theorem loop_atop {c : Controller} (hc : c.hub.loop.Idle) (base : Loop Callback) :
    (c.atop base).hub.loop.queue = base.queue ∧ (c.atop base).hub.loop.inactive = base.inactive := by
  rw [atop, Hub.atop, hc]
  exact ⟨List.append_nil _, Finset.union_empty _⟩

/-- Under an idle loop a timer is taken out from underneath. -/
theorem pop_atop {c : Controller} (hc : c.hub.loop.Idle) (base : Loop Callback) (ptr : ℕ) :
    (c.atop base).pop ptr = c.atop (base.pop ptr) := by
  refine ext_hub ?_ rfl
  simp only [atop, pop, Hub.atop]
  rw [hc]
  simp only [Loop.atop, Loop.pop, List.append_nil]

/-- Activity at a socket is the same with other timers underneath, and keeps the registration timeout. -/
theorem next_atop {wire : Wire} {toIso : Time → String} {c d : Controller} {e : ControllerEvent}
    (base : Loop Callback) (htick : ∀ now, e ≠ .tick now) (htimeout : ∀ ptr, e ≠ .timeout ptr)
    (h : c.next wire toIso e = some d) :
    (c.atop base).next wire toIso e = some (d.atop base) ∧
      d.hub.registrationTimeout = c.hub.registrationTimeout := by
  cases e with
  | tick now => exact absurd rfl (htick now)
  | query incoming =>
    cases h
    have hhandled := Hub.handles_dispatchQuery wire c.monitor.alive incoming c.hub base
    exact ⟨congrArg some (ext_hub hhandled.atop rfl), hhandled.registrationTimeout⟩
  | monitor incoming =>
    obtain ⟨ttracker, hreturned, rfl⟩ := Option.map_eq_some_iff.mp h
    exact ⟨Option.map_eq_some_iff.mpr ⟨ttracker, hreturned, rfl⟩, rfl⟩
  | pong pong =>
    cases h
    exact ⟨rfl, rfl⟩
  | timeout ptr => exact absurd rfl (htimeout ptr)

/-- A beat is the same with other timers underneath. -/
theorem beat_atop (toIso : Time → String) (c : Controller) (base : Loop Callback) :
    (c.atop base).beat toIso = (c.beat toIso).atop base :=
  ext_hub (handles_beat toIso c c.hub base).atop (monitor_beat_atop toIso c c.hub base)

/-- The hub on its own only takes out a timer which is inactive or bound to the beat. -/
theorem timeout_pop (wire : Wire) (c : Controller) {timer : DeadlineTimer Callback}
    (hdistinct : (c.hub.loop.queue.map DeadlineTimer.ptr).Nodup) (htimer : timer ∈ c.hub.loop.queue)
    (hbeat : c.hub.loop.active timer.ptr = true → timer.callback = .beat) :
    System.Step wire c.view (.timeout timer.ptr) (c.pop timer.ptr).view := by
  have htimeout : c.hub.timeout timer.ptr = some (c.pop timer.ptr).hub := by
    simp only [Hub.timeout, Loop.find?_timer hdistinct htimer]
    by_cases hactive : (c.hub.loop.pop timer.ptr).active timer.ptr = true
    · rw [if_pos hactive, hbeat hactive]
      rfl
    · rw [if_neg hactive]
      rfl
  exact Option.map_eq_some_iff.mpr ⟨_, htimeout, rfl⟩

/-- Of any other timer that is active it runs the callback. -/
theorem timeout_runs (wire : Wire) {toIso : Time → String} {c d : Controller} (hc : c.hub.loop.Idle)
    (base : Loop Callback) {timer : DeadlineTimer Callback}
    (hdistinct : (base.queue.map DeadlineTimer.ptr).Nodup) (htimer : timer ∈ base.queue)
    (hactive : base.active timer.ptr = true) (hother : timer.callback ≠ .beat)
    (h : c.runCallback toIso timer.callback = some d) :
    (d.hub.loop.Idle ∧ d.hub.registrationTimeout = c.hub.registrationTimeout) ∧
      System.Step wire (c.atop base).view (.timeout timer.ptr) ((d.atop base).pop timer.ptr).view := by
  obtain ⟨hub, hrun, hd⟩ := Option.map_eq_some_iff.mp h
  rw [if_neg hother] at hd
  subst hd
  obtain ⟨hloop, hregistration⟩ := Hub.loop_runCallback hrun
  have hidle : hub.loop.Idle := hloop ▸ hc
  refine ⟨⟨hidle, hregistration⟩, ?_⟩
  have hqueue := loop_atop hc base
  have hfind := Loop.find?_timer hdistinct htimer
  rw [← hqueue.1] at hfind
  have hon : ((c.atop base).pop timer.ptr).hub.loop.active timer.ptr = true := by
    rw [Loop.active] at hactive ⊢
    change decide (timer.ptr ∉ (c.atop base).hub.loop.inactive) = true
    rw [hqueue.2]
    exact hactive
  have hcallback : ((c.atop base).pop timer.ptr).hub.runCallback timer.callback =
      some (((({ c with hub := hub } : Controller).atop base).pop timer.ptr).hub) := by
    rw [pop_atop hc, pop_atop hidle, atop, Hub.runCallback_atop, hrun]
    rfl
  have htimeout : (c.atop base).hub.timeout timer.ptr =
      some (((({ c with hub := hub } : Controller).atop base).pop timer.ptr).hub) := by
    rw [Hub.timeout, hfind]
    exact (if_pos hon).trans hcallback
  exact Option.map_eq_some_iff.mpr ⟨_, htimeout, rfl⟩

end Controller

/-- The loop holds the timers which are in the queue of the reactor, and the flags of the reactor. -/
structure Reflects {P : TimerQueue Callback} (s : Running HubSocket (HubWorld ω) P)
    (base : Loop Callback) : Prop where
  queue : (base.queue : Multiset (DeadlineTimer Callback)) = P.elems s.reactor.timerQueue
  inactive : base.inactive = s.reactor.inactive
  idle : s.world.controller.hub.loop.Idle
  registrationTimeout : 0 ≤ s.world.controller.hub.registrationTimeout

namespace Reflects

variable {P : TimerQueue Callback} {s : Running HubSocket (HubWorld ω) P} {base : Loop Callback}

/-- A handler hands its timers and flags to the reactor. -/
theorem returns (h : Reflects s base) (w : ω) {d : Controller}
    (htimeout : d.hub.registrationTimeout = s.world.controller.hub.registrationTimeout)
    (fired : List (DeadlineTimer Callback)) :
    Reflects { s.after (Outside.returns w d) with fired := fired } (d.hub.loop.atop base) where
  queue := by
    have helems := Reactor.elems_performAll s.reactor d.hub.loop.actions
    rw [Loop.scheduled_actions, ← h.queue, Multiset.coe_add] at helems
    exact helems.symm
  inactive := by
    have hflags := Reactor.performAll_inactive s.reactor d.hub.loop.actions
    rw [Loop.flag_actions, ← h.inactive] at hflags
    exact hflags.symm
  idle := rfl
  registrationTimeout := htimeout ▸ h.registrationTimeout

/-- The pop of the reactor takes the timer out of the loop. -/
theorem pop (h : Reflects s base) {taken : DeadlineTimer Callback}
    (hdistinct : (base.queue.map DeadlineTimer.ptr).Nodup)
    (htaken : P.top? s.reactor.timerQueue = some taken) : Reflects s.pop (base.pop taken.ptr) where
  queue := by
    have hmem : taken ∈ base.queue := by
      rw [← Multiset.mem_coe, h.queue]
      exact P.mem_of_top? htaken
    have hpop := P.elems_pop _ _ htaken
    rw [← h.queue, ← Loop.cons_pop hdistinct hmem] at hpop
    exact ((Multiset.cons_inj_right taken).mp hpop).symm
  inactive := h.inactive
  idle := h.idle
  registrationTimeout := h.registrationTimeout

end Reflects

section Simulation

variable {O : Outside ω} {wire : Wire} {toIso : Time → String} {interval : ℤ}
  {P : SteadyTimerQueue Callback} {s t : Running HubSocket (HubWorld ω) P.toPriorityQueue}
  {base : Loop Callback}

/-- The hub on its own, with the timers of the reactor in its loop, and the hearts which are alive. -/
def Mirrors {P : TimerQueue Callback} (s : Running HubSocket (HubWorld ω) P) (u : System) : Prop :=
  ∃ base, Reflects s base ∧ u = (s.world.controller.atop base).view

/-- The timers of whatever the hub reaches on its own have identities of their own. -/
theorem Reachable.distinct {c : Controller}
    (h : Reachable (System.Step wire) (System.initial interval) c.view) :
    (c.hub.loop.queue.map DeadlineTimer.ptr).Nodup := (WaitingTimed.reachable h).ptr_nodup

/-- What a handler at a socket does, the hub does on its own once it has read the clock. -/
theorem Reflects.activity (h : Reflects s base) {w : ω} {e : ControllerEvent}
    (htick : ∀ now, e ≠ .tick now) (htimeout : ∀ ptr, e ≠ .timeout ptr)
    {effect : HubWorld ω × List (Action Callback)}
    (heffect : O.hears wire toIso s.world e w = some effect) :
    ∃ ds v, Run (System.Step wire) (s.world.controller.atop base).view ds v ∧
      Mirrors (s.after effect) v := by
  obtain ⟨d, hd, rfl⟩ := Option.map_eq_some_iff.mp heffect
  obtain ⟨hnext, hregistration⟩ := Controller.next_atop base htick htimeout hd
  have hcontroller : Controller.Step wire toIso ((s.world.controller.atClock (O.clock w)).atop base) e
      (d.atop base) := hnext
  obtain ⟨es, hrun⟩ := Controller.run_step hcontroller
  have hclock : System.Step wire (s.world.controller.atop base).view (.tick (O.clock w))
      ((s.world.controller.atClock (O.clock w)).atop base).view := rfl
  refine ⟨_, _, .cons hclock hrun, d.hub.loop.atop base, h.returns w hregistration s.fired, ?_⟩
  exact congrArg Controller.view (Controller.detached_atop d base).symm

/-- A turn of `fire_due` that finds an inactive timer. -/
theorem Reflects.skip (h : Reflects s base)
    (hreach : Reachable (System.Step wire) (System.initial interval)
      (s.world.controller.atop base).view)
    {top : DeadlineTimer Callback} (htop : P.top? s.reactor.timerQueue = some top)
    (hinactive : s.reactor.active top.ptr = false) :
    ∃ ds v, Run (System.Step wire) (s.world.controller.atop base).view ds v ∧ Mirrors s.pop v := by
  have hloop := Controller.loop_atop h.idle base
  have hdistinct := Reachable.distinct hreach
  have hmem : top ∈ (s.world.controller.atop base).hub.loop.queue := by
    rw [hloop.1, ← Multiset.mem_coe, h.queue]
    exact P.mem_of_top? htop
  have hoff : (s.world.controller.atop base).hub.loop.active top.ptr = false := by
    rw [Loop.active, hloop.2, h.inactive]
    exact hinactive
  have hstep := Controller.timeout_pop wire _ hdistinct hmem
    fun hactive => absurd (hoff.symm.trans hactive) Bool.false_ne_true
  rw [hloop.1] at hdistinct
  refine ⟨_, _, .single hstep, base.pop top.ptr, h.pop hdistinct htop, ?_⟩
  exact congrArg Controller.view (Controller.pop_atop h.idle base top.ptr)

/-- A turn that runs a callback of the hub. -/
theorem Reflects.fire_hub (h : Reflects s base)
    (hreach : Reachable (System.Step wire) (System.initial interval)
      (s.world.controller.atop base).view)
    {top taken : DeadlineTimer Callback} (htop : P.top? s.reactor.timerQueue = some top)
    (hactive : s.reactor.active top.ptr = true) (hother : top.callback ≠ .beat) (w : ω) (now : Time)
    {d : Controller} (hd : (s.world.controller.atClock now).runCallback toIso top.callback = some d)
    (fired : List (DeadlineTimer Callback))
    (htaken : P.top? (s.reactor.performAll d.hub.loop.actions).timerQueue = some taken) :
    ∃ ds v, Run (System.Step wire) (s.world.controller.atop base).view ds v ∧
      Mirrors { s.after (Outside.returns w d) with fired := fired }.pop v := by
  have hdistinct := Reachable.distinct hreach
  rw [(Controller.loop_atop h.idle base).1] at hdistinct
  have hmem : top ∈ base.queue := by
    rw [← Multiset.mem_coe, h.queue]
    exact P.mem_of_top? htop
  have hon : base.active top.ptr = true := by
    rw [Loop.active, h.inactive]
    exact hactive
  obtain ⟨⟨hidle, hregistration⟩, hstep⟩ := Controller.timeout_runs wire
    (c := s.world.controller.atClock now) h.idle base hdistinct hmem hon hother hd
  have hclock : System.Step wire (s.world.controller.atop base).view (.tick now)
      ((s.world.controller.atClock now).atop base).view := rfl
  have hsame : taken = top := by
    rw [hidle.actions] at htaken
    exact Option.some.inj (htaken.symm.trans htop)
  subst hsame
  have hqueue : (d.hub.loop.atop base).queue = base.queue := by
    rw [hidle]
    exact List.append_nil _
  have hpop := (h.returns w hregistration fired).pop (hqueue ▸ hdistinct) htaken
  refine ⟨_, _, .cons hclock (.single hstep), _, hpop, ?_⟩
  exact congrArg Controller.view (Controller.detached_atop_pop d base taken.ptr).symm

/-- What the pop after a beat takes out is bound to the beat as well: the beat itself, or another one that
has come before it in the meantime. -/
theorem Reflects.taken_beat (h : Reflects s base) {top taken : DeadlineTimer Callback}
    (htop : P.top? s.reactor.timerQueue = some top) (hbeat : top.callback = .beat) {now clock : Time}
    (hdue : top.deadline ≤ now) (hnow : now ≤ clock)
    (htaken : P.top? (s.reactor.performAll
      ((s.world.controller.atClock clock).beat toIso).hub.loop.actions).timerQueue = some taken) :
    taken.callback = .beat := by
  have hhandled := Controller.handles_beat toIso (s.world.controller.atClock clock)
    (s.world.controller.atClock clock).hub {}
  have hqueue : (s.world.controller.atClock clock).hub.loop.queue = [] := by
    change s.world.controller.hub.loop.queue = []
    rw [h.idle]
  have hadded : ∀ timer ∈ ((s.world.controller.atClock clock).beat toIso).hub.loop.queue,
      timer.callback = .beat ∨ clock ≤ timer.deadline := by
    intro timer htimer
    rcases hhandled.added h.registrationTimeout timer htimer with hold | hlate
    · rw [hqueue] at hold
      exact absurd hold List.not_mem_nil
    · exact hlate
  by_cases hlate : ∀ timer ∈ ((s.world.controller.atClock clock).beat toIso).hub.loop.queue,
      top.deadline ≤ timer.deadline
  · rw [← Loop.scheduled_actions] at hlate
    have hsame := Reactor.top?_performAll htop _ hlate
    rw [← Option.some.inj (hsame.symm.trans htaken)]
    exact hbeat
  · simp only [not_forall, not_le] at hlate
    obtain ⟨early, hearly, hlt⟩ := hlate
    have hleast := P.top?_le _ _ htaken
    simp only [Reactor.elems_performAll, Loop.scheduled_actions, Multiset.mem_add,
      Multiset.mem_coe] at hleast
    have htaken_lt : taken.deadline < top.deadline := (hleast early (.inr hearly)).trans_lt hlt
    have hmem := P.mem_of_top? htaken
    rw [Reactor.elems_performAll, Loop.scheduled_actions, Multiset.mem_add, Multiset.mem_coe] at hmem
    rcases hmem with hold | hnew
    · exact absurd (P.top?_le _ _ htop taken hold) (not_le.mpr htaken_lt)
    · rcases hadded taken hnew with hcallback | hclock
      · exact hcallback
      · exact absurd (hdue.trans (hnow.trans hclock)) (not_le.mpr htaken_lt)

/-- A turn that runs a beat. -/
theorem Reflects.fire_beat (h : Reflects s base)
    (hreach : Reachable (System.Step wire) (System.initial interval)
      (s.world.controller.atop base).view)
    {taken : DeadlineTimer Callback} (w : ω) (clock : Time) (fired : List (DeadlineTimer Callback))
    (htaken : P.top? (s.reactor.performAll
      ((s.world.controller.atClock clock).beat toIso).hub.loop.actions).timerQueue = some taken)
    (hbeat : taken.callback = .beat) :
    ∃ ds v, Run (System.Step wire) (s.world.controller.atop base).view ds v ∧
      Mirrors { s.after (Outside.returns w ((s.world.controller.atClock clock).beat toIso)) with
        fired := fired }.pop v := by
  obtain ⟨es, hrun⟩ := Controller.run_beat wire toIso ((s.world.controller.atClock clock).atop base)
  rw [Controller.beat_atop] at hrun
  have hregistration :=
    (Controller.handles_beat toIso (s.world.controller.atClock clock)
      (s.world.controller.atClock clock).hub {}).registrationTimeout
  have hreturns := h.returns w hregistration fired
  generalize hd : (s.world.controller.atClock clock).beat toIso = d at hrun hregistration hreturns htaken ⊢
  have hclock : System.Step wire (s.world.controller.atop base).view (.tick clock)
      ((s.world.controller.atClock clock).atop base).view := rfl
  have hbefore := Run.cons hclock hrun
  have hdistinct : ((d.atop base).hub.loop.queue.map DeadlineTimer.ptr).Nodup :=
    Reachable.distinct (hreach.elim fun first hfirst => ⟨_, hfirst.append hbefore⟩)
  have hmem : taken ∈ (d.atop base).hub.loop.queue := by
    rw [← Multiset.mem_coe]
    exact hreturns.queue.symm ▸ P.mem_of_top? htaken
  have hstep := Controller.timeout_pop wire (d.atop base) hdistinct hmem fun _ => hbeat
  refine ⟨_, _, hbefore.append (.single hstep), _, hreturns.pop hdistinct htaken, ?_⟩
  exact congrArg Controller.view (Controller.detached_atop_pop d base taken.ptr).symm

/-- Every step of the reactor is a run of the hub on its own. -/
theorem HubStep.simulate {e : HubEvent} {u : System} (hmirrors : Mirrors s u)
    (hreach : Reachable (System.Step wire) (System.initial interval) u)
    (hstep : HubStep O wire toIso s e t) :
    ∃ ds v, Run (System.Step wire) u ds v ∧ Mirrors t v := by
  obtain ⟨base, h, rfl⟩ := hmirrors
  cases hstep with
  | poll w => exact ⟨[], _, .nil _, base, ⟨h.queue, h.inactive, h.idle, h.registrationTimeout⟩, rfl⟩
  | activity cb socket effect heffect =>
    cases cb with
    | shutdown =>
      cases heffect
      exact ⟨[], _, .nil _, base, ⟨h.queue, h.inactive, h.idle, h.registrationTimeout⟩, rfl⟩
    | pong =>
      change O.hears wire toIso s.world (.pong _) (O.receivePong s.world.world).2 = some effect at heffect
      exact h.activity (by simp) (by simp) heffect
    | query =>
      change O.hears wire toIso s.world (.query _) (O.receiveQuery s.world.world).2 = some effect at heffect
      exact h.activity (by simp) (by simp) heffect
    | monitor =>
      change O.hears wire toIso s.world (.monitor _) (O.receiveMonitor s.world.world).2 = some effect at heffect
      exact h.activity (by simp) (by simp) heffect
    | resubmit =>
      cases heffect
      exact ⟨[], _, .nil _, base, ⟨h.queue, h.inactive, h.idle, h.registrationTimeout⟩, rfl⟩
  | turn t now turn hnow hturn =>
    cases hturn with
    | skips top htop hdue hinactive => exact h.skip hreach htop hinactive
    | fires top taken effect htop hdue hactive heffect htaken =>
      obtain ⟨d, hd, rfl⟩ := Option.map_eq_some_iff.mp heffect
      by_cases hbeat : top.callback = .beat
      · rw [hbeat] at hd
        cases hd
        have htime := hnow.trans (O.clock_elapse s.world.world)
        have htaken' := h.taken_beat htop hbeat (of_decide_eq_true hdue) htime htaken
        exact h.fire_beat hreach _ _ _ htaken htaken'
      · exact h.fire_hub hreach htop hactive hbeat _ _ hd _ htaken

/-- The reactor that the factory leaves mirrors a hub whose first beat is scheduled. -/
theorem mirrors_hubReactor (interval : ℤ) (lifetime tic lastPing clock : Time) (w : ω) :
    Mirrors (hubReactor P.toPriorityQueue interval lifetime tic lastPing clock w)
      (Controller.create interval clock lifetime tic lastPing).view := by
  have hnew : Reflects (P := P.toPriorityQueue) ⟨listening P.toPriorityQueue,
      ⟨(Controller.create interval clock lifetime tic lastPing).detached, w⟩, []⟩ {} :=
    ⟨P.elems_empty.symm, rfl, rfl, (by decide : (0 : ℤ) ≤ 5000).trans (le_max_left _ _)⟩
  have hreturns := hnew.returns w (d := Controller.create interval clock lifetime tic lastPing) rfl []
  have hatop := Controller.detached_atop (Controller.create interval clock lifetime tic lastPing) {}
  rw [Controller.atop_empty] at hatop
  exact ⟨_, hreturns, congrArg Controller.view hatop.symm⟩

/-- Whatever the reactor reaches mirrors what the hub reaches on its own. -/
theorem HubStep.exists_mirror {lifetime tic lastPing clock : Time} {w : ω}
    (h : Reachable (HubStep O wire toIso)
      (hubReactor P.toPriorityQueue interval lifetime tic lastPing clock w) s) :
    ∃ base, Reflects s base ∧
      Reachable (System.Step wire) (System.initial interval) (s.world.controller.atop base).view := by
  have hnew : Reachable (Controller.Step wire toIso)
      (Controller.create interval clock lifetime tic lastPing) _ := ⟨[], .nil _⟩
  have hstart := Controller.reachable_view hnew
  obtain ⟨u, ⟨base, hreflects, rfl⟩, hreach⟩ := Reachable.simulate_rel
    (mirrors_hubReactor interval lifetime tic lastPing clock w) hstart
    (fun _ _ _ _ hmirrors hreach hstep => HubStep.simulate hmirrors hreach hstep) h
  exact ⟨base, hreflects, hreach⟩

end Simulation

namespace Outside

variable (O : Outside ω)

/-- An iteration of `reactor::run`, during whose poll the outside goes on. -/
def Iterates (wire : Wire) (toIso : Time → String) (timeout : ℤ) {P : TimerQueue Callback}
    (s : Running HubSocket (HubWorld ω) P) (round : Round ω) (t : Running HubSocket (HubWorld ω) P) :
    Prop :=
  Running.Iterates (O.handlers wire toIso) timeout s
    (round.map fun arrivals s => { s with world := arrivals s.world }) t

/-- After a poll the clock does not go back behind the time which `fire_due` reads. -/
def Forward (round : Round ω) : Prop :=
  ∀ timeout w, (round.poll timeout).now ≤ O.clock ((round.poll timeout).arrivals w)

end Outside

section Iterations

variable {O : Outside ω} {wire : Wire} {toIso : Time → String} {P : TimerQueue Callback}
  {s t : Running HubSocket (HubWorld ω) P}

/-- In the course of a turn the clock does not go back. -/
theorem Running.TakesTurn.clock_le {now : Time} {turn : Turn Callback}
    (h : Running.TakesTurn (O.handlers wire toIso) now s turn t) :
    O.clock s.world.world ≤ O.clock t.world.world := by
  cases h with
  | fires top taken effect htop hdue hactive heffect htaken =>
    obtain ⟨d, -, rfl⟩ := Option.map_eq_some_iff.mp heffect
    exact O.clock_elapse s.world.world
  | skips => exact le_rfl

/-- The turns of a call of `fire_due` are steps. -/
theorem HubStep.run_turns {now : Time} {turns : List (Turn Callback)}
    (hrun : Run (Running.TakesTurn (O.handlers wire toIso) now) s turns t)
    (hnow : now ≤ O.clock s.world.world) : ∃ es, Run (HubStep O wire toIso) s es t := by
  induction hrun with
  | nil s => exact ⟨[], .nil s⟩
  | cons hturn _ ih =>
    obtain ⟨es, hes⟩ := ih (hnow.trans hturn.clock_le)
    exact ⟨_, .cons (.turn _ _ now _ hnow hturn) hes⟩

/-- So are the callbacks of the ready sockets. -/
theorem HubStep.run_callbacks (calls : List (HubSocket × ℕ))
    (h : Running.runCallbacks (O.handlers wire toIso) calls s = some t) :
    ∃ es, Run (HubStep O wire toIso) s es t := by
  induction calls generalizing s with
  | nil =>
    cases h
    exact ⟨[], .nil _⟩
  | cons call calls ih =>
    obtain ⟨effect, heffect, hrest⟩ := Option.bind_eq_some_iff.mp h
    obtain ⟨es, hes⟩ := ih hrest
    exact ⟨_, .cons (.activity _ call.1 call.2 effect heffect) hes⟩

/-- An iteration of `reactor::run` is a run of such steps, so what holds after each of them holds between
the iterations and between the handlers that they run. -/
theorem HubStep.run_iterates {timeout : ℤ} {round : Round ω} (hforward : O.Forward round)
    (h : O.Iterates wire toIso timeout s round t) : ∃ es, Run (HubStep O wire toIso) s es t := by
  obtain ⟨-, fuel, hcall⟩ := h
  have hpoll (w : ω) : HubStep O wire toIso s .poll
      { s with world := { s.world with world := w }, fired := [] } := .poll s w
  simp only [Running.call] at hcall
  split at hcall
  · obtain ⟨turns, hturns, -⟩ := Running.exists_turns _ _ _ hcall
    obtain ⟨es, hes⟩ := HubStep.run_turns hturns (hforward _ _)
    exact ⟨_, .cons (hpoll _) hes⟩
  · split at hcall
    · cases hcall
    · obtain ⟨es, hes⟩ := HubStep.run_callbacks _ hcall
      exact ⟨_, .cons (hpoll _) hes⟩

end Iterations

end Gpf
