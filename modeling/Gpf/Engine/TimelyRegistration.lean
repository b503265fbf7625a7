import Mathlib.Tactic.Linarith
import Mathlib.Tactic.Ring
import Gpf.Controller.ControllerTimers
import Gpf.Engine.Accounting

/-!
# A heart which answers in time gets its engine registered

The hub gives a registration two intervals of the heartmonitor, and five seconds at least. Each beat schedules
the next only when it runs, so if beats are late there are fewer of them in this time. A registration is not
purged before so many pings have been published that their intervals and delays use it up, and if its heart has
answered one of these pings before, the next beat finishes the registration.
-/

namespace Gpf

open Transition

namespace HeartMonitor

variable {σ : Type*}

/-- Whoever has answered since the last beat is alive after the next. -/
theorem hearts_beat (toIso : Time → String) (add : Time → σ → σ) (toc : Time) (s : HeartMonitor σ × σ)
    {heart : String} (h : heart ∈ s.1.responses) : heart ∈ (beat toIso add toc s).1.hearts := by
  have hmissed : heart ∉ s.1.heartFailures := by
    simp only [heartFailures, missedBeats, goodHearts, Finset.mem_inter, Finset.mem_sdiff, not_and]
    exact fun _ halive hnot => hnot halive h
  have hin : heart ∈ s.1.hearts ∪ s.1.newHearts := by
    by_cases halive : heart ∈ s.1.hearts
    · exact Finset.mem_union_left _ halive
    · apply Finset.mem_union_right
      simp only [newHearts, goodHearts, Finset.mem_sdiff, Finset.mem_inter, not_and]
      exact ⟨h, fun hold => absurd hold halive⟩
  rw [beat_eq]
  exact Finset.mem_sdiff.mpr ⟨hin, hmissed⟩

/-- A pong takes nobody's answer away. -/
theorem responses_handlePong (toIso : Time → String) (m : HeartMonitor σ) (pong : Pong) :
    m.responses ⊆ (m.handlePong toIso pong).responses := by
  unfold handlePong
  split
  · exact Finset.subset_insert _ _
  · split
    · exact Finset.subset_insert _ _
    · exact Finset.Subset.refl _

end HeartMonitor

/-- No handler takes a timer out of the loop. -/
theorem Hub.Handles.subset_queue {f : Hub → Hub} (h : Hub.Handles f) (hub : Hub) :
    hub.loop.queue ⊆ (f hub).loop.queue := by
  have hatop := (h { hub with loop := { nextPtr := hub.loop.nextPtr } } hub.loop).atop
  have hsame : ({ hub with loop := { nextPtr := hub.loop.nextPtr } } : Hub).atop hub.loop = hub := by
    simp only [Hub.atop, Loop.atop, List.append_nil, Finset.union_empty]
  rw [hsame] at hatop
  rw [hatop]
  exact List.subset_append_left _ _

namespace Controller

/-- A beat queues its successor. -/
theorem queue_beat (toIso : Time → String) (c : Controller) : ∃ next ∈ (c.beat toIso).hub.loop.queue,
    next.callback = .beat ∧ next.deadline = c.hub.clock + milliseconds c.monitor.interval := by
  refine ⟨⟨c.hub.loop.nextPtr, c.hub.clock + milliseconds c.monitor.interval, .beat⟩, ?_, rfl, rfl⟩
  rw [hub_beat]
  apply (Hub.Handles.foldl Hub.handles_handleHeartFailure _).subset_queue
  apply (Hub.Handles.foldl Hub.handles_handleNewHeart _).subset_queue
  exact Loop.mem_add.mpr (.inr rfl)

/-- A beat of the controller publishes a ping. -/
theorem pings_beat (toIso : Time → String) (c : Controller) : (c.beat toIso).monitor.pings =
    c.monitor.pings ++ [toIso (c.beat toIso).monitor.lifetime] :=
  HeartMonitor.pings_beat toIso (fun waiting (hub : Hub) => hub.scheduleBeat waiting) c.hub.clock
    (c.monitor, c.hub)

/-- The callback of a timer is a beat, after which whoever has answered is alive, or it leaves the heartmonitor
alone. -/
theorem runCallback_beats {toIso : Time → String} {c d : Controller} {callback : Callback}
    (h : c.runCallback toIso callback = some d) :
    (callback ≠ .beat ∧ d.monitor = c.monitor) ∨
      (callback = .beat ∧ (∃ text, d.monitor.pings = c.monitor.pings ++ [text]) ∧
        c.monitor.responses ⊆ d.monitor.hearts ∧ ∃ next ∈ d.hub.loop.queue,
          next.callback = .beat ∧ next.deadline = c.hub.clock + milliseconds c.monitor.interval) := by
  obtain ⟨hub, hhub, hd⟩ := Option.map_eq_some_iff.mp h
  by_cases hbeat : callback = .beat
  · rw [if_pos hbeat] at hd
    rw [hbeat] at hhub
    cases hhub
    rw [← hd]
    refine .inr ⟨hbeat, ⟨_, c.pings_beat toIso⟩, ?_, c.queue_beat toIso⟩
    intro heart hanswered
    exact HeartMonitor.hearts_beat toIso (fun waiting (hub : Hub) => hub.scheduleBeat waiting) c.hub.clock
      (c.monitor, c.hub) hanswered
  · rw [if_neg hbeat] at hd
    exact .inl ⟨hbeat, hd ▸ rfl⟩

end Controller

variable {ω : Type}

/-- What a step of the reactor does to pings, answers and timers: either no ping is published, and no answer
and no active timer of a beat is lost, or the timer on top was that of a beat, which has published a ping,
counts all who have answered among the living, and has queued its successor. -/
inductive Pulse (O : Outside ω) {P : TimerQueue Callback} (s t : Running HubSocket (HubWorld ω) P) : Prop
  | quiet (hpings : t.world.controller.monitor.pings = s.world.controller.monitor.pings)
      (hresponses : s.world.controller.monitor.responses ⊆ t.world.controller.monitor.responses)
      (hqueue : ∀ timer ∈ P.elems s.reactor.timerQueue, timer ∈ P.elems t.reactor.timerQueue ∨
        P.top? s.reactor.timerQueue = some timer ∧
          (s.reactor.active timer.ptr = true → timer.callback ≠ .beat))
  | beat (top next : DeadlineTimer Callback) (text : String)
      (htop : P.top? s.reactor.timerQueue = some top) (hbeat : top.callback = .beat)
      (hdue : top.deadline ≤ O.clock t.world.world)
      (hpings : t.world.controller.monitor.pings = s.world.controller.monitor.pings ++ [text])
      (halive : s.world.controller.monitor.responses ⊆ t.world.controller.monitor.hearts)
      (hnext : next ∈ P.elems t.reactor.timerQueue) (hagain : next.callback = .beat)
      (hdeadline : next.deadline = O.clock t.world.world + milliseconds s.world.controller.monitor.interval)
      (hqueue : ∀ timer ∈ P.elems s.reactor.timerQueue, timer ∈ P.elems t.reactor.timerQueue ∨ timer = top)

/-- A step of the reactor in the course of which the clock does not go back. -/
def ForwardStep (O : Outside ω) (wire : Wire) (toIso : Time → String) {P : TimerQueue Callback}
    (s : Running HubSocket (HubWorld ω) P) (e : HubEvent) (t : Running HubSocket (HubWorld ω) P) : Prop :=
  HubStep O wire toIso s e t ∧ O.clock s.world.world ≤ O.clock t.world.world

/-- If the step also publishes a ping, it does so no later than `lateness` after the beat was due. -/
def TimelyStep (O : Outside ω) (wire : Wire) (toIso : Time → String) (lateness : Time) {P : TimerQueue Callback}
    (s : Running HubSocket (HubWorld ω) P) (e : HubEvent) (t : Running HubSocket (HubWorld ω) P) : Prop :=
  ForwardStep O wire toIso s e t ∧
    (t.world.controller.monitor.pings ≠ s.world.controller.monitor.pings →
      ∀ top ∈ P.top? s.reactor.timerQueue, O.clock t.world.world ≤ top.deadline + lateness)

/-- A beat is queued which is due by the given time. -/
def BeatBy {P : TimerQueue Callback} (s : Running HubSocket (HubWorld ω) P) (bound : Time) : Prop :=
  ∃ timer ∈ P.elems s.reactor.timerQueue, timer.callback = .beat ∧ timer.deadline ≤ bound

/-- The time by which the beat after `k` others is due, if there was a beat to come at the time `accepted`. -/
def beatDue (accepted : Time) (interval : ℤ) (lateness : Time) (k : ℕ) : Time :=
  accepted + (k + 1) * milliseconds interval + k * lateness

/-- Since the time `accepted`, when `first` pings had been published, `k` more have been. The next beat is due
as this tells, and the timer is queued, or was due no later than that beat. -/
structure Graced {P : TimerQueue Callback} (accepted : Time) (interval : ℤ) (lateness : Time)
    (first : ℕ) (timer : DeadlineTimer Callback) (k : ℕ) (s : Running HubSocket (HubWorld ω) P) : Prop where
  pings : s.world.controller.monitor.pings.length = first + k
  beat : BeatBy s (beatDue accepted interval lateness k)
  timer : timer ∈ P.elems s.reactor.timerQueue ∨ timer.deadline ≤ beatDue accepted interval lateness k

section Steps

variable {O : Outside ω} {wire : Wire} {toIso : Time → String} {P : SteadyTimerQueue Callback}
  {s t : Running HubSocket (HubWorld ω) P.toPriorityQueue} {e : HubEvent}

/-- A handler of a socket. -/
theorem pulse_hears {ce : ControllerEvent} {w : ω} (htick : ∀ now, ce ≠ .tick now)
    (htimeout : ∀ ptr, ce ≠ .timeout ptr) {effect : HubWorld ω × List (Action Callback)}
    (h : O.hears wire toIso s.world ce w = some effect) : Pulse O s (s.after effect) := by
  obtain ⟨d, hd, rfl⟩ := Option.map_eq_some_iff.mp h
  have hqueue (timer : DeadlineTimer Callback) (htimer : timer ∈ P.elems s.reactor.timerQueue) :
      timer ∈ P.elems (s.after (Outside.returns w d)).reactor.timerQueue :=
    (Reactor.mem_performAll _ _ _).mpr (.inl htimer)
  cases ce with
  | tick now => exact absurd rfl (htick now)
  | timeout ptr => exact absurd rfl (htimeout ptr)
  | query incoming =>
    cases hd
    exact .quiet rfl (Finset.Subset.refl _) fun timer htimer => .inl (hqueue timer htimer)
  | monitor incoming =>
    obtain ⟨ttracker, -, rfl⟩ := Option.map_eq_some_iff.mp hd
    exact .quiet rfl (Finset.Subset.refl _) fun timer htimer => .inl (hqueue timer htimer)
  | pong pong =>
    cases hd
    refine .quiet ?_ (HeartMonitor.responses_handlePong toIso _ pong)
      fun timer htimer => .inl (hqueue timer htimer)
    change (s.world.controller.monitor.handlePong toIso pong).pings = _
    rw [HeartMonitor.handlePong_eq]

/-- A turn of `fire_due` leaves every timer in the queue but the one on top. -/
theorem mem_turn (hs : s.world.controller.Ready) {now : Time} (hnow : now ≤ O.clock s.world.world)
    {turn : Turn Callback} (hturn : Running.TakesTurn (O.handlers wire toIso) now s turn t)
    {timer : DeadlineTimer Callback} (htimer : timer ∈ P.elems s.reactor.timerQueue ∨ timer ∈ turn.added) :
    timer ∈ P.elems t.reactor.timerQueue ∨ timer = turn.top := by
  have hlate : ∀ timer ∈ turn.added, turn.top.deadline ≤ timer.deadline := by
    intro timer htimer
    cases hturn with
    | fires top taken effect htop hdue hactive heffect htaken =>
      have hlater := (Outside.onTimeout_later hs heffect).2.2 timer htimer
      exact (of_decide_eq_true hdue).trans (hnow.trans hlater.le)
    | skips => exact absurd htimer List.not_mem_nil
  have hmem : timer ∈ P.elems t.reactor.timerQueue + {turn.taken} := by
    rw [hturn.elems]
    exact Multiset.mem_add.mpr htimer
  rw [(hturn.taken_eq hlate).1] at hmem
  exact (Multiset.mem_add.mp hmem).imp_right Multiset.mem_singleton.mp

/-- A turn of `fire_due`. -/
theorem pulse_turn (hs : s.world.controller.Ready) {now : Time} (hnow : now ≤ O.clock s.world.world)
    {turn : Turn Callback} (hturn : Running.TakesTurn (O.handlers wire toIso) now s turn t) : Pulse O s t := by
  have hqueue {timer : DeadlineTimer Callback}
      (hin : timer ∈ P.elems s.reactor.timerQueue ∨ timer ∈ turn.added) := mem_turn hs hnow hturn hin
  cases hturn with
  | skips top htop hdue hinactive =>
    refine .quiet rfl (Finset.Subset.refl _) fun timer htimer => (hqueue (.inl htimer)).imp_right ?_
    rintro rfl
    exact ⟨htop, fun hactive => absurd (hinactive.symm.trans hactive) Bool.false_ne_true⟩
  | fires top taken effect htop hdue hactive heffect htaken =>
    have hlater := (Outside.onTimeout_later hs heffect).2.2
    obtain ⟨d, hd, rfl⟩ := Option.map_eq_some_iff.mp heffect
    rcases Controller.runCallback_beats hd with
      ⟨hother, hmonitor⟩ | ⟨hbeat, ⟨text, hpings⟩, halive, next, hnext, hagain, hdeadline⟩
    · refine .quiet (congrArg HeartMonitor.pings hmonitor) (congrArg HeartMonitor.responses hmonitor).ge ?_
      intro timer htimer
      apply (hqueue (.inl htimer)).imp_right
      rintro rfl
      exact ⟨htop, fun _ => hother⟩
    · have htopdue : top.deadline ≤ O.clock s.world.world := (of_decide_eq_true hdue).trans hnow
      rw [← Loop.scheduled_actions] at hnext
      refine .beat top next text htop hbeat (htopdue.trans (O.clock_elapse _)) hpings halive ?_ hagain hdeadline
        fun timer htimer => hqueue (.inl htimer)
      apply (hqueue (.inr hnext)).resolve_right
      intro heq
      exact absurd (htopdue.trans_lt (hlater _ hnext)) (heq ▸ lt_irrefl _)

/-- The callback of a socket leaves the controller alone, or the controller hears what has arrived. -/
theorem Outside.onActivity_cases {s : HubWorld ω} {cb : HubSocket} {socket : ℕ}
    {effect : HubWorld ω × List (Action Callback)}
    (h : (O.handlers wire toIso).onActivity cb socket s = some effect) :
    effect.1.controller = s.controller ∨ ∃ ce w, (∀ now, ce ≠ .tick now) ∧ (∀ ptr, ce ≠ .timeout ptr) ∧
      O.hears wire toIso s ce w = some effect := by
  cases cb with
  | shutdown =>
    cases h
    exact .inl rfl
  | pong => exact .inr ⟨.pong (O.receivePong s.world).1, _, by simp, by simp, h⟩
  | query => exact .inr ⟨.query (O.receiveQuery s.world).1, _, by simp, by simp, h⟩
  | monitor => exact .inr ⟨.monitor (O.receiveMonitor s.world).1, _, by simp, by simp, h⟩
  | resubmit =>
    cases h
    exact .inl rfl

/-- Every step of the reactor is of this kind. -/
theorem HubStep.pulse (hs : s.world.controller.Ready) (hstep : HubStep O wire toIso s e t) : Pulse O s t := by
  cases hstep with
  | poll w => exact .quiet rfl (Finset.Subset.refl _) fun timer htimer => .inl htimer
  | activity cb socket effect heffect =>
    rcases Outside.onActivity_cases heffect with hsame | ⟨ce, w, htick, htimeout, hhears⟩
    · refine .quiet (congrArg (fun c => c.monitor.pings) hsame)
        (congrArg (fun c => c.monitor.responses) hsame).ge fun timer htimer => .inl ?_
      exact (Reactor.mem_performAll _ _ _).mpr (.inl htimer)
    · exact pulse_hears htick htimeout hhears
  | turn t now turn hnow hturn => exact pulse_turn hs hnow hturn

/-- In a step without a ping the next beat stays, and a timer is taken out only if it is due before that. -/
theorem BeatBy.quiet {bound : Time} (h : BeatBy s bound)
    (hactive : ∀ timer ∈ P.elems s.reactor.timerQueue, timer.callback = .beat →
      s.reactor.active timer.ptr = true)
    (hqueue : ∀ timer ∈ P.elems s.reactor.timerQueue, timer ∈ P.elems t.reactor.timerQueue ∨
      P.top? s.reactor.timerQueue = some timer ∧ (s.reactor.active timer.ptr = true → timer.callback ≠ .beat)) :
    BeatBy t bound ∧ ∀ timer ∈ P.elems s.reactor.timerQueue,
      timer ∈ P.elems t.reactor.timerQueue ∨ timer.deadline ≤ bound := by
  obtain ⟨next, hnext, hbeat, hbound⟩ := h
  constructor
  · refine ⟨next, (hqueue next hnext).resolve_right ?_, hbeat, hbound⟩
    exact fun htaken => htaken.2 (hactive next hnext hbeat) hbeat
  · intro timer htimer
    apply (hqueue timer htimer).imp_right
    exact fun htaken => (P.top?_le _ _ htaken.1 next hnext).trans hbound

/-- The beat that fires is due by then, too. -/
theorem BeatBy.top_le {bound : Time} (h : BeatBy s bound) {top : DeadlineTimer Callback}
    (htop : P.top? s.reactor.timerQueue = some top) : top.deadline ≤ bound := by
  obtain ⟨next, hnext, -, hbound⟩ := h
  exact (P.top?_le _ _ htop next hnext).trans hbound

variable {accepted lateness : Time} {interval : ℤ} {first k : ℕ} {timer : DeadlineTimer Callback}

/-- A step without a ping. -/
theorem Graced.quiet (h : Graced accepted interval lateness first timer k s)
    (hactive : ∀ timer ∈ P.elems s.reactor.timerQueue, timer.callback = .beat →
      s.reactor.active timer.ptr = true)
    (hpings : t.world.controller.monitor.pings = s.world.controller.monitor.pings)
    (hqueue : ∀ timer ∈ P.elems s.reactor.timerQueue, timer ∈ P.elems t.reactor.timerQueue ∨
      P.top? s.reactor.timerQueue = some timer ∧ (s.reactor.active timer.ptr = true → timer.callback ≠ .beat)) :
    Graced accepted interval lateness first timer k t := by
  obtain ⟨hbeat, hkept⟩ := h.beat.quiet hactive hqueue
  exact ⟨hpings ▸ h.pings, hbeat, h.timer.elim (hkept timer) .inr⟩

/-- A timely beat. -/
theorem Graced.beats (h : Graced accepted interval lateness first timer k s)
    (hinterval : s.world.controller.monitor.interval = interval) (hpositive : 0 < interval)
    {top next : DeadlineTimer Callback} {text : String} (htop : P.top? s.reactor.timerQueue = some top)
    (hdue : top.deadline ≤ O.clock t.world.world) (hlate : O.clock t.world.world ≤ top.deadline + lateness)
    (hpings : t.world.controller.monitor.pings = s.world.controller.monitor.pings ++ [text])
    (hnext : next ∈ P.elems t.reactor.timerQueue) (hagain : next.callback = .beat)
    (hdeadline : next.deadline = O.clock t.world.world + milliseconds s.world.controller.monitor.interval)
    (hqueue : ∀ timer ∈ P.elems s.reactor.timerQueue, timer ∈ P.elems t.reactor.timerQueue ∨ timer = top) :
    Graced accepted interval lateness first timer (k + 1) t := by
  have hwaits := Hub.milliseconds_pos hpositive
  have hbound := h.beat.top_le htop
  have hsucc : beatDue accepted interval lateness (k + 1) =
      beatDue accepted interval lateness k + milliseconds interval + lateness := by
    simp only [beatDue, Nat.cast_add, Nat.cast_one]
    ring
  refine ⟨?_, ⟨next, hnext, hagain, ?_⟩, ?_⟩
  · rw [hpings, List.length_append, h.pings, List.length_singleton, Nat.add_assoc]
  · rw [hdeadline, hinterval, hsucc]
    linarith
  · rw [hsucc]
    rcases h.timer with hqueued | hover
    · apply (hqueue timer hqueued).imp_right
      rintro rfl
      linarith
    · right
      linarith

end Steps

section Reactor

variable {O : Outside ω} {wire : Wire} {toIso : Time → String} {interval : ℤ}
  {lifetime tic lastPing clock : Time} {w : ω} {P : SteadyTimerQueue Callback}
  {s t : Running HubSocket (HubWorld ω) P.toPriorityQueue} {e : HubEvent}

/-- The timer of a beat is never deactivated. -/
theorem HubStep.active_of_beat
    (h : Reachable (HubStep O wire toIso)
      (hubReactor P.toPriorityQueue interval lifetime tic lastPing clock w) s) :
    ∀ timer ∈ P.elems s.reactor.timerQueue, timer.callback = .beat → s.reactor.active timer.ptr = true := by
  intro timer htimer hbeat
  cases hactive : s.reactor.active timer.ptr with
  | true => rfl
  | false =>
    obtain ⟨-, -, heart, -, -, hpurges⟩ := HubStep.settled_of_inactive h htimer hactive
    rw [DeadlineTimer.Purges, hbeat] at hpurges
    cases hpurges

/-- The interval of the heartmonitor is that which the factory has given it. -/
theorem HubStep.interval_eq (hinterval : 0 < interval) (hinput : O.Onward)
    (h : Reachable (HubStep O wire toIso)
      (hubReactor P.toPriorityQueue interval lifetime tic lastPing clock w) s) :
    s.world.controller.monitor.interval = interval := by
  apply h.induct (fun s : Running HubSocket (HubWorld ω) P.toPriorityQueue =>
    s.world.controller.monitor.interval = interval) rfl
  intro s e t hreach hs hstep
  have hready := HubStep.ready hinterval hinput hreach
  cases hstep with
  | poll w => exact hs
  | activity cb socket effect heffect =>
    rcases Outside.onActivity_cases heffect with hsame | ⟨ce, w, htick, htimeout, hhears⟩
    · exact (congrArg (fun c => c.monitor.interval) hsame).trans hs
    · obtain ⟨d, hd, rfl⟩ := Option.map_eq_some_iff.mp hhears
      exact ((hready.atClock _).next htick htimeout hd).interval.trans hs
  | turn t now turn hnow hturn =>
    cases hturn with
    | skips => exact hs
    | fires top taken effect htop hdue hactive heffect htaken =>
      obtain ⟨d, hd, rfl⟩ := Option.map_eq_some_iff.mp heffect
      exact ((hready.atClock _).runCallback hd).interval.trans hs

/-- As long as the clock does not go back, there is always a beat to come within an interval. -/
theorem ForwardStep.beatBy (hinterval : 0 < interval) (hinput : O.Onward) (hclock : clock ≤ O.clock w)
    (h : Reachable (ForwardStep O wire toIso)
      (hubReactor P.toPriorityQueue interval lifetime tic lastPing clock w) s) :
    BeatBy s (O.clock s.world.world + milliseconds interval) := by
  apply h.induct (fun s : Running HubSocket (HubWorld ω) P.toPriorityQueue =>
    BeatBy s (O.clock s.world.world + milliseconds interval))
  · refine ⟨⟨0, clock + milliseconds interval, .beat⟩, ?_, rfl, ?_⟩
    · rw [elems_hubReactor]
      exact Multiset.mem_singleton_self _
    · exact Int.add_le_add_right hclock _
  · intro s e t hreach hs hstep
    have hhub : Reachable (HubStep O wire toIso)
        (hubReactor P.toPriorityQueue interval lifetime tic lastPing clock w) s := by
      obtain ⟨es, hes⟩ := hreach
      exact ⟨es, hes.imp fun _ _ _ hstep => hstep.1⟩
    cases HubStep.pulse (HubStep.ready hinterval hinput hhub) hstep.1 with
    | quiet hpings hresponses hqueue =>
      obtain ⟨next, hnext, hbeat, hbound⟩ := (hs.quiet (HubStep.active_of_beat hhub) hqueue).1
      exact ⟨next, hnext, hbeat, hbound.trans (Int.add_le_add_right hstep.2 _)⟩
    | beat top next text htop hbeat hdue hpings halive hnext hagain hdeadline hqueue =>
      rw [HubStep.interval_eq hinterval hinput hhub] at hdeadline
      exact ⟨next, hnext, hagain, hdeadline.le⟩

/-- Timely steps keep count. -/
theorem TimelyStep.graced {accepted lateness : Time} {first : ℕ} {timer : DeadlineTimer Callback}
    (hinterval : 0 < interval) (hinput : O.Onward)
    (h : Reachable (HubStep O wire toIso)
      (hubReactor P.toPriorityQueue interval lifetime tic lastPing clock w) s)
    (hs : ∃ k, Graced accepted interval lateness first timer k s)
    (hstep : TimelyStep O wire toIso lateness s e t) :
    ∃ k, Graced accepted interval lateness first timer k t := by
  obtain ⟨k, hk⟩ := hs
  cases HubStep.pulse (HubStep.ready hinterval hinput h) hstep.1.1 with
  | quiet hpings hresponses hqueue => exact ⟨k, hk.quiet (HubStep.active_of_beat h) hpings hqueue⟩
  | beat top next text htop hbeat hdue hpings halive hnext hagain hdeadline hqueue =>
    refine ⟨k + 1, hk.beats (HubStep.interval_eq hinterval hinput h) hinterval htop hdue (hstep.2 ?_ top htop)
      hpings hnext hagain hdeadline hqueue⟩
    rw [hpings]
    simp

/-- The registration has been accepted, is held or purged, and the timer has been made to purge it. -/
structure Awaited (wire : Wire) (interval : ℤ) (ec : EngineConnector) (timer : DeadlineTimer Callback)
    (s : Running HubSocket (HubWorld ω) P.toPriorityQueue) : Prop where
  mirror : ∃ u, Mirrors s u ∧ Reachable (System.Step wire) (System.initial interval) u ∧
    Tracked ec.id timer u ∧ u.Keeps ec
  purges : timer.Purges ec.heartbeat

namespace Awaited

variable {ec : EngineConnector} {timer : DeadlineTimer Callback} {es : List HubEvent}

/-- Every run of the reactor keeps it so. -/
theorem run (h : Awaited wire interval ec timer s) (hrun : Run (HubStep O wire toIso) s es t) :
    Awaited wire interval ec timer t := by
  obtain ⟨u, hmirrors, hu, htracked, hkeeps⟩ := h.mirror
  obtain ⟨ds, v, hds, hlast⟩ := HubStep.run_mirror hrun hmirrors hu
  exact ⟨⟨v, hlast, hu.extend hds, htracked.run hu hds, System.keeps_run hu hds hkeeps⟩, h.purges⟩

/-- While its timer is queued it has not been purged. -/
theorem not_purged (h : Awaited wire interval ec timer s) (htimer : timer ∈ P.elems s.reactor.timerQueue) :
    .purging ec.id ∉ s.world.controller.hub.log := by
  obtain ⟨u, hmirrors, hu, htracked, -⟩ := h.mirror
  rw [← hmirrors.log]
  exact htracked.not_purged hu ((hmirrors.mem_queue timer).mpr htimer) h.purges

/-- If its heart is alive and its timer is queued, it has been finished. -/
theorem finished (h : Awaited wire interval ec timer s) (htimer : timer ∈ P.elems s.reactor.timerQueue)
    (halive : ec.heartbeat ∈ s.world.controller.monitor.hearts) : s.world.controller.hub.Finished ec.id := by
  have hpurged := h.not_purged htimer
  obtain ⟨u, ⟨base, hreflects, rfl⟩, hu, -, hkeeps⟩ := h.mirror
  have hec := hkeeps.resolve_right hpurged
  by_contra hwaits
  exact (WaitingTimed.reachable hu).heart_dead ec hec hwaits halive

/-- If its heart has answered and there is time for one more beat, that beat finishes it. -/
theorem answered_step {origin lateness : Time} {first k : ℕ} (hinterval : 0 < interval) (hinput : O.Onward)
    (hreach : Reachable (HubStep O wire toIso)
      (hubReactor P.toPriorityQueue interval lifetime tic lastPing clock w) s)
    (h : Awaited wire interval ec timer s) (hgraced : Graced origin interval lateness first timer k s)
    (htime : beatDue origin interval lateness k < timer.deadline)
    (hanswered : ec.heartbeat ∈ s.world.controller.monitor.responses) (hstep : HubStep O wire toIso s e t) :
    t.world.controller.hub.Finished ec.id ∨ ec.heartbeat ∈ t.world.controller.monitor.responses ∧
      Graced origin interval lateness first timer k t := by
  cases HubStep.pulse (HubStep.ready hinterval hinput hreach) hstep with
  | quiet hpings hresponses hqueue =>
    exact .inr ⟨hresponses hanswered, hgraced.quiet (HubStep.active_of_beat hreach) hpings hqueue⟩
  | beat top next text htop hbeat hdue hpings halive hnext hagain hdeadline hqueue =>
    have hqueued := hgraced.timer.resolve_right (not_le.mpr htime)
    have hne : timer ≠ top := by
      rintro rfl
      cases hbeat.symm.trans h.purges
    exact .inl ((h.run (.single hstep)).finished ((hqueue timer hqueued).resolve_right hne) (halive hanswered))

end Awaited

/-- What has been finished on the reactor stays so and has been acknowledged. -/
theorem HubStep.finished_run {u : System} {ec : EngineConnector} {es : List HubEvent} (hmirrors : Mirrors s u)
    (hu : Reachable (System.Step wire) (System.initial interval) u) (hkeeps : u.Keeps ec)
    (hrun : Run (HubStep O wire toIso) s es t) (hfinished : s.world.controller.hub.Finished ec.id) :
    t.world.controller.hub.Finished ec.id ∧ Hub.registrationAck ec ∈ t.world.controller.hub.sent ∧
      .purging ec.id ∉ t.world.controller.hub.log := by
  obtain ⟨ds, v, hds, hlast⟩ := HubStep.run_mirror hrun hmirrors hu
  rw [Hub.Finished, ← hmirrors.log] at hfinished
  have hv := hu.extend hds
  have hdone := System.finished_run hu hds hfinished
  have hpurged : .purging ec.id ∉ v.hub.log := fun hin => (WaitingTimed.reachable hv).purged_waiting _ hin hdone
  have hec := (System.keeps_run hu hds hkeeps).resolve_right hpurged
  have hack := System.acksSent_reachable hv ec hec hdone
  obtain ⟨base, -, rfl⟩ := hlast
  exact ⟨hdone, hack, hpurged⟩

end Reactor

section Grace

variable {O : Outside ω} {wire : Wire} {toIso : Time → String} {interval : ℤ}
  {lifetime tic lastPing clock lateness : Time} {w : ω} {P : SteadyTimerQueue Callback}
  {before accepted heard late : Running HubSocket (HubWorld ω) P.toPriorityQueue} {socket : ℕ}
  {ec : EngineConnector} {first es fs : List HubEvent}

/-- Forward steps are steps. -/
theorem ForwardStep.reachable
    (h : Reachable (ForwardStep O wire toIso)
      (hubReactor P.toPriorityQueue interval lifetime tic lastPing clock w) before) :
    Reachable (HubStep O wire toIso)
      (hubReactor P.toPriorityQueue interval lifetime tic lastPing clock w) before := by
  obtain ⟨es, hes⟩ := h
  exact ⟨es, hes.imp fun _ _ _ hstep => hstep.1⟩

/-- Timely steps are steps. -/
theorem TimelyStep.run (hrun : Run (TimelyStep O wire toIso lateness) accepted es late) :
    Run (HubStep O wire toIso) accepted es late := hrun.imp fun _ _ _ hstep => hstep.1.1

/-- A registration which has just been accepted has been finished, or waits for the beats to come. -/
theorem ForwardStep.finished_or_graced (lateness : Time) (hinterval : 0 < interval)
    (hhigh : interval < 1073741824) (hinput : O.Onward) (hclock : clock ≤ O.clock w)
    (h : Reachable (ForwardStep O wire toIso)
      (hubReactor P.toPriorityQueue interval lifetime tic lastPing clock w) before)
    (hstep : ForwardStep O wire toIso before (.activity .query socket) accepted)
    (hnew : ec ∉ before.world.controller.hub.tracker.incomingRegistrations)
    (hec : ec ∈ accepted.world.controller.hub.tracker.incomingRegistrations) :
    ∃ u, Mirrors accepted u ∧ Reachable (System.Step wire) (System.initial interval) u ∧ u.Keeps ec ∧
      (accepted.world.controller.hub.Finished ec.id ∨ ∃ timer, Awaited wire interval ec timer accepted ∧
        timer.deadline = O.clock accepted.world.world + milliseconds (max 5000 (2 * interval)) ∧
          Graced (O.clock accepted.world.world) interval lateness
            accepted.world.controller.monitor.pings.length timer 0 accepted) := by
  have hlow : -1073741824 ≤ interval := by omega
  obtain ⟨u, hmirrors, hu, hdecided⟩ :=
    HubStep.finished_or_tracked hlow hhigh (ForwardStep.reachable h) hstep.1 hec hnew
  have hkeeps : u.Keeps ec := by
    obtain ⟨base, -, rfl⟩ := hmirrors
    exact .inl hec
  refine ⟨u, hmirrors, hu, hkeeps, ?_⟩
  rw [Hub.Finished, ← hmirrors.log]
  apply hdecided.imp_right
  intro hexists
  obtain ⟨timer, htimer, hpurges, hdeadline, htracked⟩ := hexists
  refine ⟨timer, ⟨⟨u, hmirrors, hu, htracked, hkeeps⟩, hpurges⟩, hdeadline, rfl, ?_, .inl htimer⟩
  have hbeat := ForwardStep.beatBy hinterval hinput hclock (h.extend (.single hstep))
  simpa [beatDue] using hbeat

/-- Timely runs keep count. -/
theorem TimelyStep.graced_run {timer : DeadlineTimer Callback} {origin : Time} {pings : ℕ}
    (hinterval : 0 < interval) (hinput : O.Onward)
    (h : Reachable (HubStep O wire toIso)
      (hubReactor P.toPriorityQueue interval lifetime tic lastPing clock w) accepted)
    (hgraced : Graced origin interval lateness pings timer 0 accepted)
    (hrun : Run (TimelyStep O wire toIso lateness) accepted es late) :
    ∃ k, Graced origin interval lateness pings timer k late := by
  have hboth := hrun.preserves (fun s : Running HubSocket (HubWorld ω) P.toPriorityQueue =>
    Reachable (HubStep O wire toIso)
      (hubReactor P.toPriorityQueue interval lifetime tic lastPing clock w) s ∧
      ∃ k, Graced origin interval lateness pings timer k s)
    (fun s e t hs hstep => ⟨hs.1.extend (.single hstep.1.1),
      TimelyStep.graced hinterval hinput hs.1 hs.2 hstep⟩)
    ⟨h, 0, hgraced⟩
  exact hboth.2

/-- A registration is not purged before so many pings have been published since it was accepted that their
intervals, with the delays of their beats, use up the time that it was given. -/
theorem pings_before_purge (hinterval : 0 < interval) (hhigh : interval < 1073741824) (hinput : O.Onward)
    (hclock : clock ≤ O.clock w)
    (h : Reachable (ForwardStep O wire toIso)
      (hubReactor P.toPriorityQueue interval lifetime tic lastPing clock w) before)
    (hstep : ForwardStep O wire toIso before (.activity .query socket) accepted)
    (hnew : ec ∉ before.world.controller.hub.tracker.incomingRegistrations)
    (hec : ec ∈ accepted.world.controller.hub.tracker.incomingRegistrations)
    (hrun : Run (TimelyStep O wire toIso lateness) accepted es late)
    (hpurged : .purging ec.id ∈ late.world.controller.hub.log) :
    ∃ k : ℕ, late.world.controller.monitor.pings.length = accepted.world.controller.monitor.pings.length + k ∧
      milliseconds (max 5000 (2 * interval)) ≤ (k + 1) * milliseconds interval + k * lateness := by
  obtain ⟨u, hmirrors, hu, hkeeps, hfinished | ⟨timer, hawaited, hdeadline, hgraced⟩⟩ :=
    ForwardStep.finished_or_graced lateness hinterval hhigh hinput hclock h hstep hnew hec
  · exact absurd hpurged (HubStep.finished_run hmirrors hu hkeeps (TimelyStep.run hrun) hfinished).2.2
  · have hreach := (ForwardStep.reachable h).extend (.single hstep.1)
    obtain ⟨k, hk⟩ := TimelyStep.graced_run hinterval hinput hreach hgraced hrun
    refine ⟨k, hk.pings, ?_⟩
    rcases hk.timer with hqueued | hover
    · exact absurd hpurged ((hawaited.run (TimelyStep.run hrun)).not_purged hqueued)
    · rw [hdeadline, beatDue, Int.add_assoc] at hover
      exact Int.le_of_add_le_add_left hover

end Grace

/-- Nothing is heard of the heart of the session. The first beat is three seconds late, and then the
registration is purged after a single ping. -/
theorem pings_before_purge_session :
    ∃ accepted late : Running HubSocket (HubWorld Time)
        (SteadyQueue.binaryHeap (DeadlineTimer.deadline (κ := Callback))).toPriorityQueue,
      HubStep clockOutside .session Time.toIsoString sessionReactor (.activity .query 2) accepted ∧
        Run (TimelyStep clockOutside .session Time.toIsoString 3000000) accepted
          [.poll, .turn 5000000, .turn 5000000] late ∧
        ∃ k : ℕ, late.world.controller.monitor.pings.length =
            accepted.world.controller.monitor.pings.length + k ∧
          milliseconds (max 5000 (2 * 2000)) ≤ (k + 1) * milliseconds 2000 + k * 3000000 := by
  let beat : DeadlineTimer Callback := ⟨0, 2000000, .beat⟩
  let purge : DeadlineTimer Callback := ⟨1, 5000000, .purgeStalledRegistration "h"⟩
  let ec := Hub.connectorOf 0 { heartbeat := "h", queue := "q" } .register (some 1)
  have hexists : ∃ accepted late,
      HubStep clockOutside .session Time.toIsoString sessionReactor (.activity .query 2) accepted ∧
      ec ∈ accepted.world.controller.hub.tracker.incomingRegistrations ∧
      Run (TimelyStep clockOutside .session Time.toIsoString 3000000) accepted
        [.poll, .turn 5000000, .turn 5000000] late ∧ .purging 0 ∈ late.world.controller.hub.log := by
    refine ⟨_, _, .activity _ .query 2 _ rfl, List.mem_singleton_self _, .cons ⟨⟨.poll _ 5000000, ?_⟩, ?_⟩
      (.cons ⟨⟨.turn _ _ 5000000 _ ?_ (.fires _ beat beat _ ?_ rfl ?_ rfl ?_), ?_⟩, ?_⟩
        (.single ⟨⟨.turn _ _ 5000000 _ ?_ (.fires _ purge purge _ ?_ rfl ?_ rfl ?_), ?_⟩, ?_⟩)), ?_⟩
    all_goals decide +kernel
  obtain ⟨accepted, late, hstep, hec, hrun, hpurged⟩ := hexists
  have hforward : ForwardStep clockOutside .session Time.toIsoString sessionReactor
      (.activity .query 2) accepted := by
    refine ⟨hstep, ?_⟩
    cases hstep with
    | activity cb socket effect heffect =>
      cases heffect
      exact le_rfl
  exact ⟨accepted, late, hstep, hrun, pings_before_purge (by decide) (by decide)
    ⟨fun _ => le_rfl, fun _ => le_rfl, fun _ => le_rfl⟩ le_rfl ⟨[], .nil _⟩ hforward
    (KeyedTable.notMem_empty ec) hec hrun hpurged⟩

section Grace

variable {O : Outside ω} {wire : Wire} {toIso : Time → String} {interval : ℤ}
  {lifetime tic lastPing clock lateness : Time} {w : ω} {P : SteadyTimerQueue Callback}
  {before accepted heard late : Running HubSocket (HubWorld ω) P.toPriorityQueue} {socket : ℕ}
  {ec : EngineConnector} {first es fs : List HubEvent}

/-- A registration whose heart has answered a ping while there was time for one more beat is finished by that
beat, whatever happens until then and since: it is acknowledged and never purged. -/
theorem answered_registration_finished {k : ℕ} (hinterval : 0 < interval) (hhigh : interval < 1073741824)
    (hinput : O.Onward) (hclock : clock ≤ O.clock w)
    (h : Reachable (ForwardStep O wire toIso)
      (hubReactor P.toPriorityQueue interval lifetime tic lastPing clock w) before)
    (hstep : ForwardStep O wire toIso before (.activity .query socket) accepted)
    (hnew : ec ∉ before.world.controller.hub.tracker.incomingRegistrations)
    (hec : ec ∈ accepted.world.controller.hub.tracker.incomingRegistrations)
    (hheard : Run (TimelyStep O wire toIso lateness) accepted es heard)
    (hpings : heard.world.controller.monitor.pings.length =
      accepted.world.controller.monitor.pings.length + k)
    (htime : (k + 1) * milliseconds interval + k * lateness < milliseconds (max 5000 (2 * interval)))
    (hanswered : ec.heartbeat ∈ heard.world.controller.monitor.responses)
    (hrest : Run (HubStep O wire toIso) heard fs late)
    (hbeat : heard.world.controller.monitor.pings.length < late.world.controller.monitor.pings.length) :
    late.world.controller.hub.Finished ec.id ∧ Hub.registrationAck ec ∈ late.world.controller.hub.sent ∧
      .purging ec.id ∉ late.world.controller.hub.log := by
  obtain ⟨u, hmirrors, hu, hkeeps, hfinished | ⟨timer, hawaited, hdeadline, hgraced⟩⟩ :=
    ForwardStep.finished_or_graced lateness hinterval hhigh hinput hclock h hstep hnew hec
  · exact HubStep.finished_run hmirrors hu hkeeps ((TimelyStep.run hheard).append hrest) hfinished
  · have hreach := (ForwardStep.reachable h).extend (.single hstep.1)
    obtain ⟨n, hn⟩ := TimelyStep.graced_run hinterval hinput hreach hgraced hheard
    have hsame : n = k := Nat.add_left_cancel (hn.pings.symm.trans hpings)
    subst hsame
    have hover : beatDue (O.clock accepted.world.world) interval lateness n < timer.deadline := by
      rw [hdeadline, beatDue, Int.add_assoc]
      exact Int.add_lt_add_left htime _
    have hlast := Reachable.along (fun s : Running HubSocket (HubWorld ω) P.toPriorityQueue =>
        Awaited wire interval ec timer s ∧ (s.world.controller.hub.Finished ec.id ∨
          ec.heartbeat ∈ s.world.controller.monitor.responses ∧
            Graced (O.clock accepted.world.world) interval lateness
              accepted.world.controller.monitor.pings.length timer n s))
      (fun s e t hs inv hstep => ⟨inv.1.run (.single hstep), ?_⟩)
      (hreach.extend (TimelyStep.run hheard)) hrest
      ⟨hawaited.run (TimelyStep.run hheard), .inr ⟨hanswered, hn⟩⟩
    · obtain ⟨⟨⟨v, hv, hvreach, -, hvkeeps⟩, -⟩, hdone | ⟨-, hgraced⟩⟩ := hlast
      · have hend : Run (HubStep O wire toIso) late [] late := .nil late
        exact HubStep.finished_run hv hvreach hvkeeps hend hdone
      · rw [hgraced.pings, hpings] at hbeat
        exact absurd hbeat (lt_irrefl _)
    · rcases inv.2 with hdone | ⟨hin, hk⟩
      · obtain ⟨v, hv, hvreach, -, hvkeeps⟩ := inv.1.mirror
        exact .inl (HubStep.finished_run hv hvreach hvkeeps (.single hstep) hdone).1
      · exact inv.1.answered_step hinterval hinput hs hk hover hin hstep

end Grace

/-- An outside from whose hearts comes an answer to the time at which the heartmonitor was made. -/
def answeringOutside : Outside Time :=
  { clockOutside with receivePong := fun w => (⟨"h", "19700101T000000"⟩, w) }

/-- The heart of the session answers before the first beat, which finishes its registration. -/
theorem answered_registration_finished_session :
    ∃ late : Running HubSocket (HubWorld Time)
        (SteadyQueue.binaryHeap (DeadlineTimer.deadline (κ := Callback))).toPriorityQueue,
      late.world.controller.hub.Finished 0 ∧ .purging 0 ∉ late.world.controller.hub.log := by
  let handlers := answeringOutside.handlers .session Time.toIsoString
  have hreturns : ((handlers.onActivity .query 2 sessionReactor.world).bind fun effect =>
      (handlers.onActivity .pong 1 (sessionReactor.after effect).world).bind fun answer =>
        ((sessionReactor.after effect).after answer).call handlers (-1)
          (Outside.round (sessionRound none 2000000)) 4).any (fun late =>
            decide (0 < late.world.controller.monitor.pings.length)) = true := by
    decide +kernel
  obtain ⟨late, hlate, hbeat⟩ := (Option.any_eq_true _ _).mp hreturns
  obtain ⟨effect, heffect, hrest⟩ := Option.bind_eq_some_iff.mp hlate
  obtain ⟨answer, hanswer, hcall⟩ := Option.bind_eq_some_iff.mp hrest
  have hstep : HubStep answeringOutside .session Time.toIsoString sessionReactor (.activity .query 2) _ :=
    .activity _ .query 2 effect heffect
  have hpong : HubStep answeringOutside .session Time.toIsoString _ (.activity .pong 1) _ :=
    .activity _ .pong 1 answer hanswer
  cases heffect
  cases hanswer
  obtain ⟨fs, hfs⟩ := HubStep.run_iterates (O := answeringOutside) (fun _ w => le_max_right w 2000000)
    ⟨by decide +kernel, 4, hcall⟩
  have htimely : Run (TimelyStep answeringOutside .session Time.toIsoString 0) _ [.activity .pong 1] _ :=
    .single ⟨⟨hpong, le_rfl⟩, fun hpings => absurd rfl hpings⟩
  let ec := Hub.connectorOf 0 { heartbeat := "h", queue := "q" } .register (some 1)
  have hdone := answered_registration_finished (k := 0) (by decide) (by decide)
    ⟨fun _ => le_rfl, fun _ => le_rfl, fun _ => le_rfl⟩ le_rfl ⟨[], .nil _⟩ ⟨hstep, le_rfl⟩
    (KeyedTable.notMem_empty ec) (List.mem_singleton_self _) htimely rfl (by decide) (by decide +kernel) hfs
    (of_decide_eq_true hbeat)
  exact ⟨late, hdone.1, hdone.2.2⟩

end Gpf
