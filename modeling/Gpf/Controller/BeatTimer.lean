import Gpf.Controller.HeartbeatRounds
import Gpf.Reactor.FireDue
import Gpf.Util.IsoTime

/-!
# The timer of the beat

The reactor that drives a heartmonitor, together with whatever else runs on it. A beat schedules its
successor while its own timer is still on top of the queue, and so may the callbacks which it calls.
The successor is due later, and nothing else which is scheduled comes before the timer that is firing,
so the pop that follows takes out the latter.
-/

namespace Gpf

open Transition

/-- What a timer is bound to: `heartmonitor::beat`, or a callback of another party. -/
inductive BeatOr (ρ : Type)
  | beat
  | other (callback : ρ)

namespace BeatOr

variable {ρ : Type}

/-- Whether a timer is bound to `heartmonitor::beat`. -/
def isBeat : BeatOr ρ → Bool
  | beat => true
  | other _ => false

end BeatOr

/-- The timers which are bound to `heartmonitor::beat`. -/
def beatTimers {ρ : Type} (timers : Multiset (DeadlineTimer (BeatOr ρ))) :
    Multiset (DeadlineTimer (BeatOr ρ)) := timers.filter fun timer => timer.callback.isBeat = true

/-- The timer which `heartmonitor` hands to `reactor::add` by value. The queue alone holds it, so the
identity 0 stands for all timers like it. -/
def beatTimer {ρ : Type} (deadline : Time) : DeadlineTimer (BeatOr ρ) := ⟨0, deadline, .beat⟩

/-- An action of another party: its timers are not bound to the beat, and it holds none of the beat. -/
def Action.other {ρ : Type} : Action ρ → Action (BeatOr ρ)
  | .add timer => .add ⟨timer.ptr + 1, timer.deadline, .other timer.callback⟩
  | .setInactive ptr b => .setInactive (ptr + 1) b
  | .requestStop => .requestStop

/-- Everything else that runs on the reactor of a heartmonitor: the clock, the time that passes until it
is read again, the next pong on the socket, the callbacks of other sockets and timers, and the handlers
which are registered for new and for failed hearts. All of these may ask whether a heart is alive. -/
structure Surroundings (γ ρ ω : Type) where
  clock : ω → Time
  elapse : ω → ω
  receivePong : ω → Pong × ω
  onActivity : γ → ℕ → (String → Bool) → ω → Option (ω × List (Action ρ))
  onTimeout : ρ → (String → Bool) → ω → Option (ω × List (Action ρ))
  newHeart : List (String → (String → Bool) → ω → ω × List (Action ρ))
  failedHeart : List (String → (String → Bool) → ω → ω × List (Action ρ))

/-- The world in which the handlers for hearts act: what they do to the reactor is collected. -/
abbrev HeartWorld (ρ ω : Type) := ω × List (Action (BeatOr ρ))

/-- A heartmonitor in its world. -/
structure MonitorState (ρ ω : Type) where
  monitor : HeartMonitor (HeartWorld ρ ω)
  world : ω

namespace Surroundings

variable {γ ρ ω : Type}

/-- A handler for hearts, as the heartmonitor calls it. -/
def heartHandler (f : String → (String → Bool) → ω → ω × List (Action ρ)) :
    HeartCallback (HeartWorld ρ ω) := fun heart alive w =>
  ((f heart alive w.1).1, w.2 ++ (f heart alive w.1).2.map .other)

variable (S : Surroundings γ ρ ω)

/-- The heartmonitor constructor, and the handlers registered afterwards. -/
def monitor (interval : ℤ) (lifetime tic lastPing : Time) : HeartMonitor (HeartWorld ρ ω) :=
  .create interval lifetime tic lastPing (S.newHeart.map heartHandler) (S.failedHeart.map heartHandler)

/-- `heartmonitor::beat` as a callback of the reactor. The clock is read for the deadline of the next
timer, and then for the time of the beat. -/
def beat (toIso : Time → String) (s : MonitorState ρ ω) : MonitorState ρ ω × List (Action (BeatOr ρ)) :=
  let w := S.elapse s.world
  let w' := S.elapse w
  let add (waiting : Time) (v : HeartWorld ρ ω) : HeartWorld ρ ω :=
    (v.1, v.2 ++ [.add (beatTimer (S.clock w + waiting))])
  let r := HeartMonitor.beat toIso add (S.clock w') (s.monitor, (w', []))
  (⟨r.1, r.2.1⟩, r.2.2)

/-- The callbacks of the reactor. On the socket of the heartmonitor this is `handle_pong`. -/
def handlers (toIso : Time → String) : Handlers (Option γ) (BeatOr ρ) (MonitorState ρ ω) where
  onActivity
    | none, _, s =>
      let (pong, w) := S.receivePong s.world
      some (⟨s.monitor.handlePong toIso pong, w⟩, [])
    | some cb, socket, s =>
      (S.onActivity cb socket s.monitor.alive s.world).map fun effect =>
        ({ s with world := effect.1 }, effect.2.map .other)
  onTimeout
    | .beat, s => some (S.beat toIso s)
    | .other callback, s =>
      (S.onTimeout callback s.monitor.alive s.world).map fun effect =>
        ({ s with world := effect.1 }, effect.2.map .other)

/-- The assumptions on time: the clock does not go back, and whoever adds a timer while a timer of the
reactor is firing, adds one which is not due earlier than the callback was called. -/
structure Punctual : Prop where
  elapse : ∀ w, S.clock w ≤ S.clock (S.elapse w)
  onTimeout : ∀ callback alive w effect, S.onTimeout callback alive w = some effect →
    S.clock w ≤ S.clock effect.1 ∧ ∀ timer ∈ scheduled effect.2, S.clock w ≤ timer.deadline
  newHeart : ∀ f ∈ S.newHeart, ∀ heart alive w, S.clock w ≤ S.clock (f heart alive w).1 ∧
    ∀ timer ∈ scheduled (f heart alive w).2, S.clock w ≤ timer.deadline
  failedHeart : ∀ f ∈ S.failedHeart, ∀ heart alive w, S.clock w ≤ S.clock (f heart alive w).1 ∧
    ∀ timer ∈ scheduled (f heart alive w).2, S.clock w ≤ timer.deadline

/-- The world goes on, and what happens to the reactor meanwhile is what others do, none of whose timers
is due earlier than that started. -/
def Continues (w w' : HeartWorld ρ ω) : Prop :=
  S.clock w.1 ≤ S.clock w'.1 ∧ ∃ actions : List (Action ρ), w'.2 = w.2 ++ actions.map .other ∧
    ∀ timer ∈ scheduled actions, S.clock w.1 ≤ timer.deadline

end Surroundings

/-- What is scheduled in two parts. -/
theorem scheduled_append {κ : Type} (first second : List (Action κ)) :
    scheduled (first ++ second) = scheduled first ++ scheduled second := List.filterMap_append

/-- The timers of others, as the queue holds them. -/
theorem scheduled_other {ρ : Type} (actions : List (Action ρ)) :
    scheduled (actions.map Action.other) =
      (scheduled actions).map fun timer => ⟨timer.ptr + 1, timer.deadline, .other timer.callback⟩ := by
  induction actions with
  | nil => rfl
  | cons action actions ih =>
    cases action with
    | add timer => exact congrArg (List.cons _) ih
    | setInactive ptr b => exact ih
    | requestStop => exact ih

/-- The timers of the beat in two parts of a queue. -/
theorem beatTimers_add {ρ : Type} (first second : Multiset (DeadlineTimer (BeatOr ρ))) :
    beatTimers (first + second) = beatTimers first + beatTimers second := Multiset.filter_add _ _ _

/-- A timer of the beat counts. -/
theorem beatTimers_cons_beat {ρ : Type} {timer : DeadlineTimer (BeatOr ρ)}
    (hbeat : timer.callback.isBeat = true) (timers : Multiset (DeadlineTimer (BeatOr ρ))) :
    beatTimers (timer ::ₘ timers) = timer ::ₘ beatTimers timers := by
  unfold beatTimers
  exact Multiset.filter_cons_of_pos timers hbeat

/-- Any other timer does not count. -/
theorem beatTimers_cons_other {ρ : Type} {timer : DeadlineTimer (BeatOr ρ)}
    (hother : timer.callback.isBeat = false) (timers : Multiset (DeadlineTimer (BeatOr ρ))) :
    beatTimers (timer ::ₘ timers) = beatTimers timers := by
  unfold beatTimers
  apply Multiset.filter_cons_of_neg
  rw [hother]
  exact Bool.false_ne_true

/-- Others schedule no timer of the beat. -/
theorem beatTimers_other {ρ : Type} (actions : List (Action ρ)) :
    beatTimers (scheduled (actions.map Action.other) : Multiset (DeadlineTimer (BeatOr ρ))) = 0 := by
  rw [scheduled_other]
  apply Multiset.filter_eq_nil.mpr
  intro timer htimer
  obtain ⟨_, -, rfl⟩ := List.mem_map.mp (Multiset.mem_coe.mp htimer)
  exact Bool.false_ne_true

/-- Others leave the flag of the beat's timer alone. -/
theorem flag_other {ρ : Type} (actions : List (Action ρ)) {inactive : Finset ℕ} (h : 0 ∉ inactive) :
    0 ∉ (actions.map Action.other).foldl Action.flag inactive := by
  induction actions generalizing inactive with
  | nil => exact h
  | cons action actions ih =>
    apply ih
    cases action with
    | add timer => exact h
    | setInactive ptr b => cases b <;> simp [Action.other, Action.flag, h]
    | requestStop => exact h

namespace Surroundings

variable {γ ρ ω : Type} {S : Surroundings γ ρ ω}

/-- Nothing happens. -/
theorem Continues.refl (w : HeartWorld ρ ω) : S.Continues w w :=
  ⟨le_rfl, [], (List.append_nil _).symm, fun _ h => absurd h List.not_mem_nil⟩

/-- Things happen one after the other. -/
theorem Continues.trans {u v w : HeartWorld ρ ω} (h : S.Continues u v) (h' : S.Continues v w) :
    S.Continues u w := by
  obtain ⟨hclock, actions, hactions, hlate⟩ := h
  obtain ⟨hclock', actions', hactions', hlate'⟩ := h'
  refine ⟨hclock.trans hclock', actions ++ actions', ?_, ?_⟩
  · rw [hactions', hactions, List.append_assoc, List.map_append]
  · intro timer htimer
    rw [scheduled_append] at htimer
    rcases List.mem_append.mp htimer with hfirst | hsecond
    · exact hlate timer hfirst
    · exact hclock.trans (hlate' timer hsecond)

/-- Calling handlers for a heart. -/
theorem continues_notify {fs : List (String → (String → Bool) → ω → ω × List (Action ρ))}
    (hfs : ∀ f ∈ fs, ∀ heart alive w, S.clock w ≤ S.clock (f heart alive w).1 ∧
      ∀ timer ∈ scheduled (f heart alive w).2, S.clock w ≤ timer.deadline)
    (alive : String → Bool) (heart : String) (w : HeartWorld ρ ω) :
    S.Continues w (HeartMonitor.notify (fs.map heartHandler) alive w heart) := by
  unfold HeartMonitor.notify
  apply List.foldlRecOn _ _ (.refl w)
  intro v hv handler hhandler
  obtain ⟨f, hf, rfl⟩ := List.mem_map.mp hhandler
  obtain ⟨hclock, hlate⟩ := hfs f hf heart alive v.1
  exact hv.trans ⟨hclock, (f heart alive v.1).2, rfl, hlate⟩

/-- Going through a list of hearts, if the world goes on at each. -/
theorem continues_foldl
    (handle : Finset String × HeartWorld ρ ω → String → Finset String × HeartWorld ρ ω)
    (hhandle : ∀ p heart, S.Continues p.2 (handle p heart).2) (hearts : List String)
    (p : Finset String × HeartWorld ρ ω) : S.Continues p.2 (hearts.foldl handle p).2 := by
  induction hearts generalizing p with
  | nil => exact .refl p.2
  | cons heart hearts ih => exact (hhandle p heart).trans (ih (handle p heart))

/-- A beat schedules its successor, and what its handlers do comes on top of that. -/
theorem beat_continues (hpunctual : S.Punctual) (toIso : Time → String) {s : MonitorState ρ ω}
    (hnew : s.monitor.newHeartCallbacks = S.newHeart.map heartHandler)
    (hfailed : s.monitor.failedHeartCallbacks = S.failedHeart.map heartHandler) :
    S.Continues (S.elapse (S.elapse s.world),
        [.add (beatTimer (S.clock (S.elapse s.world) + milliseconds s.monitor.interval))])
      ((S.beat toIso s).1.world, (S.beat toIso s).2) := by
  simp only [beat, HeartMonitor.beat_eq, hnew, hfailed]
  have happear := continues_foldl (HeartMonitor.appear (S.newHeart.map heartHandler))
    (fun p heart => continues_notify hpunctual.newHeart _ heart p.2)
    (s.monitor.newHearts.sort (· ≤ ·)) (s.monitor.hearts, S.elapse (S.elapse s.world),
      [.add (beatTimer (S.clock (S.elapse s.world) + milliseconds s.monitor.interval))])
  exact happear.trans (continues_foldl (HeartMonitor.fail (S.failedHeart.map heartHandler))
    (fun p heart => continues_notify hpunctual.failedHeart _ heart p.2) _ _)

/-- A beat leaves the interval and the handlers of the heartmonitor as they are. -/
theorem beat_monitor (toIso : Time → String) (s : MonitorState ρ ω) :
    (S.beat toIso s).1.monitor.interval = s.monitor.interval ∧
      (S.beat toIso s).1.monitor.newHeartCallbacks = s.monitor.newHeartCallbacks ∧
      (S.beat toIso s).1.monitor.failedHeartCallbacks = s.monitor.failedHeartCallbacks := by
  simp only [beat, HeartMonitor.beat_eq]
  exact ⟨rfl, rfl, rfl⟩

/-- A beat publishes one ping, the lifetime which it leaves. -/
theorem beat_pings (toIso : Time → String) (s : MonitorState ρ ω) :
    (S.beat toIso s).1.monitor.pings =
      s.monitor.pings ++ [toIso (S.beat toIso s).1.monitor.lifetime] := by
  simp only [beat, HeartMonitor.pings_beat]

variable {toIso : Time → String} {P : TimerQueue (BeatOr ρ)} {now : Time}
  {s t : Running (Option γ) (MonitorState ρ ω) P}

/-- A turn which runs the beat publishes one ping, and no other turn publishes any. -/
theorem pings_turn {turn : Turn (BeatOr ρ)} (h : Running.TakesTurn (S.handlers toIso) now s turn t) :
    t.world.monitor.pings = s.world.monitor.pings ++
      if turn.active = true ∧ turn.top.callback.isBeat = true then [toIso t.world.monitor.lifetime]
      else [] := by
  cases h with
  | fires top taken effect htop hdue hactive heffect htaken =>
    cases hcallback : top.callback with
    | beat =>
      rw [hcallback] at heffect
      cases heffect
      exact S.beat_pings toIso s.world
    | other callback =>
      rw [hcallback] at heffect
      obtain ⟨⟨w, actions⟩, -, rfl⟩ := Option.map_eq_some_iff.mp heffect
      exact (List.append_nil _).symm
  | skips => exact (List.append_nil _).symm

/-- The turns of `fire_due` publish as many pings as beats they run. -/
theorem pings_turns {turns : List (Turn (BeatOr ρ))}
    (hrun : Run (Running.TakesTurn (S.handlers toIso) now) s turns t) :
    t.world.monitor.pings.length = s.world.monitor.pings.length +
      (Turn.invoked turns).countP fun timer => timer.callback.isBeat := by
  induction hrun with
  | nil s => rfl
  | @cons s mid t turn turns hstep _ ih =>
    have hturn := congrArg List.length (pings_turn hstep)
    rw [List.length_append] at hturn
    rw [ih, hturn, Nat.add_assoc, Nat.add_left_cancel_iff]
    cases hactive : turn.active <;> cases hbeat : turn.top.callback.isBeat <;>
      simp [Turn.invoked, hactive, hbeat, Nat.add_comm]

/-- The callbacks of ready sockets publish nothing. -/
theorem pings_runCallbacks (calls : List (Option γ × ℕ))
    (h : Running.runCallbacks (S.handlers toIso) calls s = some t) :
    t.world.monitor.pings = s.world.monitor.pings ∧ t.fired = s.fired := by
  induction calls generalizing s with
  | nil =>
    cases h
    exact ⟨rfl, rfl⟩
  | cons call calls ih =>
    obtain ⟨cb, socket⟩ := call
    obtain ⟨effect, heffect, hrest⟩ := Option.bind_eq_some_iff.mp h
    obtain ⟨hpings, hfired⟩ := ih hrest
    refine ⟨hpings.trans ?_, hfired⟩
    cases cb with
    | none =>
      cases heffect
      simp only [Running.after, HeartMonitor.handlePong_eq]
    | some cb =>
      obtain ⟨⟨w, actions⟩, -, rfl⟩ := Option.map_eq_some_iff.mp heffect
      rfl

end Surroundings

/-- The heartmonitor is as it was constructed, and the queue holds exactly one timer of its beat, which
is active. -/
structure OneBeat {γ ρ ω : Type} {P : TimerQueue (BeatOr ρ)} (S : Surroundings γ ρ ω) (interval : ℤ)
    (s : Running (Option γ) (MonitorState ρ ω) P) : Prop where
  timer : ∃ deadline, beatTimers (P.elems s.reactor.timerQueue) = {beatTimer deadline}
  flag : 0 ∉ s.reactor.inactive
  interval_eq : s.world.monitor.interval = interval
  newHeart : s.world.monitor.newHeartCallbacks = S.newHeart.map Surroundings.heartHandler
  failedHeart : s.world.monitor.failedHeartCallbacks = S.failedHeart.map Surroundings.heartHandler

namespace OneBeat

variable {γ ρ ω : Type} {S : Surroundings γ ρ ω} {interval : ℤ} {toIso : Time → String}

/-- What others do to the reactor changes nothing about the timer of the beat. -/
theorem others {P : TimerQueue (BeatOr ρ)} {s t : Running (Option γ) (MonitorState ρ ω) P}
    (inv : OneBeat S interval s) (actions : List (Action ρ))
    (hreactor : t.reactor = s.reactor.performAll (actions.map .other))
    (hinterval : t.world.monitor.interval = s.world.monitor.interval)
    (hnew : t.world.monitor.newHeartCallbacks = s.world.monitor.newHeartCallbacks)
    (hfailed : t.world.monitor.failedHeartCallbacks = s.world.monitor.failedHeartCallbacks) :
    OneBeat S interval t where
  timer := by
    obtain ⟨deadline, htimer⟩ := inv.timer
    refine ⟨deadline, ?_⟩
    rw [hreactor, Reactor.elems_performAll, beatTimers_add, beatTimers_other, htimer, add_zero]
  flag := by
    rw [hreactor, Reactor.performAll_inactive]
    exact flag_other actions inv.flag
  interval_eq := hinterval.trans inv.interval_eq
  newHeart := hnew.trans inv.newHeart
  failedHeart := hfailed.trans inv.failedHeart

/-- Only the queue, the flags and the heartmonitor matter. -/
theorem of_eq {P : TimerQueue (BeatOr ρ)} {s t : Running (Option γ) (MonitorState ρ ω) P}
    (inv : OneBeat S interval s) (hqueue : t.reactor.timerQueue = s.reactor.timerQueue)
    (hinactive : t.reactor.inactive = s.reactor.inactive)
    (hmonitor : t.world.monitor = s.world.monitor) : OneBeat S interval t where
  timer := by
    rw [hqueue]
    exact inv.timer
  flag := by
    rw [hinactive]
    exact inv.flag
  interval_eq := by
    rw [hmonitor]
    exact inv.interval_eq
  newHeart := by
    rw [hmonitor]
    exact inv.newHeart
  failedHeart := by
    rw [hmonitor]
    exact inv.failedHeart

/-- The timer of the beat is active. -/
theorem active {P : TimerQueue (BeatOr ρ)} {s : Running (Option γ) (MonitorState ρ ω) P}
    (inv : OneBeat S interval s) {timer : DeadlineTimer (BeatOr ρ)}
    (htimer : timer ∈ P.elems s.reactor.timerQueue) (hbeat : timer.callback.isBeat = true) :
    beatTimers (P.elems s.reactor.timerQueue) = {timer} ∧ s.reactor.active timer.ptr = true := by
  obtain ⟨deadline, hone⟩ := inv.timer
  have hmem : timer ∈ beatTimers (P.elems s.reactor.timerQueue) := Multiset.mem_filter.mpr ⟨htimer, hbeat⟩
  rw [hone, Multiset.mem_singleton] at hmem
  subst hmem
  exact ⟨hone, decide_eq_true inv.flag⟩

/-- Popping a timer which is not that of the beat. -/
theorem pop {P : TimerQueue (BeatOr ρ)} {s : Running (Option γ) (MonitorState ρ ω) P}
    (inv : OneBeat S interval s) {top : DeadlineTimer (BeatOr ρ)}
    (htop : P.top? s.reactor.timerQueue = some top) (hother : top.callback.isBeat = false) :
    OneBeat S interval s.pop where
  timer := by
    obtain ⟨deadline, hone⟩ := inv.timer
    refine ⟨deadline, ?_⟩
    rw [← hone, ← P.elems_pop _ _ htop, beatTimers_cons_other hother]
    rfl
  flag := inv.flag
  interval_eq := inv.interval_eq
  newHeart := inv.newHeart
  failedHeart := inv.failedHeart

/-- The beat puts the timer of its successor into the queue. -/
theorem after_beat {P : TimerQueue (BeatOr ρ)} {s : Running (Option γ) (MonitorState ρ ω) P}
    (inv : OneBeat S interval s) (hpunctual : S.Punctual) (toIso : Time → String) :
    ∃ actions : List (Action ρ),
      (S.beat toIso s.world).2 =
        .add (beatTimer (S.clock (S.elapse s.world.world) + milliseconds interval)) :: actions.map .other ∧
      S.clock s.world.world ≤ S.clock (S.beat toIso s.world).1.world ∧
      ∀ timer ∈ scheduled actions, S.clock s.world.world ≤ timer.deadline := by
  obtain ⟨hclock, actions, hactions, hlate⟩ :=
    Surroundings.beat_continues hpunctual toIso inv.newHeart inv.failedHeart
  have helapse := (hpunctual.elapse s.world.world).trans (hpunctual.elapse (S.elapse s.world.world))
  rw [inv.interval_eq] at hactions
  exact ⟨actions, hactions, helapse.trans hclock, fun timer htimer => helapse.trans (hlate timer htimer)⟩

variable {P : SteadyTimerQueue (BeatOr ρ)} {now : Time}
  {s t : Running (Option γ) (MonitorState ρ ω) P.toPriorityQueue}

/-- A turn of `fire_due` that runs a callback of another party. -/
theorem turn_other (inv : OneBeat S interval s) (hpunctual : S.Punctual)
    (hnow : now ≤ S.clock s.world.world) {top : DeadlineTimer (BeatOr ρ)} {callback : ρ}
    (htop : P.top? s.reactor.timerQueue = some top) (hdue : top.deadline ≤ now)
    (hcallback : top.callback = .other callback) {effect : MonitorState ρ ω × List (Action (BeatOr ρ))}
    (heffect : (S.handlers toIso).onTimeout top.callback s.world = some effect)
    {fired : List (DeadlineTimer (BeatOr ρ))} :
    OneBeat S interval { s.after effect with fired := fired }.pop ∧ now ≤ S.clock effect.1.world := by
  rw [hcallback] at heffect
  obtain ⟨⟨w, actions⟩, hrun, rfl⟩ := Option.map_eq_some_iff.mp heffect
  obtain ⟨hclock, hlate⟩ := hpunctual.onTimeout _ _ _ _ hrun
  have hafter : OneBeat S interval { s.after ({ s.world with world := w }, actions.map .other) with
      fired := fired } := inv.others actions rfl rfl rfl rfl
  refine ⟨hafter.pop (Reactor.top?_performAll htop _ ?_) (by rw [hcallback]; rfl), hnow.trans hclock⟩
  intro timer htimer
  rw [scheduled_other] at htimer
  obtain ⟨timer', htimer', rfl⟩ := List.mem_map.mp htimer
  exact hdue.trans (hnow.trans (hlate timer' htimer'))

/-- A turn of `fire_due` that runs the beat takes out the timer that it runs for, and leaves its
successor. -/
theorem turn_beat (inv : OneBeat S interval s) (hpunctual : S.Punctual) (hpos : 0 < interval)
    (hnow : now ≤ S.clock s.world.world) {top : DeadlineTimer (BeatOr ρ)}
    (htop : P.top? s.reactor.timerQueue = some top) (hdue : top.deadline ≤ now)
    (hcallback : top.callback = .beat) (fired : List (DeadlineTimer (BeatOr ρ))) :
    let t := { s.after (S.beat toIso s.world) with fired := fired }.pop
    P.top? (s.reactor.performAll (S.beat toIso s.world).2).timerQueue = some top ∧
      beatTimers (P.elems t.reactor.timerQueue) =
        {beatTimer (S.clock (S.elapse s.world.world) + milliseconds interval)} ∧
      OneBeat S interval t ∧ now ≤ S.clock t.world.world := by
  intro t
  obtain ⟨actions, hactions, hclock, hlate⟩ := inv.after_beat hpunctual toIso
  obtain ⟨hinterval, hnew, hfailed⟩ := S.beat_monitor toIso s.world
  have hscheduled : scheduled (S.beat toIso s.world).2 =
      beatTimer (S.clock (S.elapse s.world.world) + milliseconds interval) ::
        scheduled (actions.map Action.other) := by
    rw [hactions]
    rfl
  have htop' : P.top? (s.reactor.performAll (S.beat toIso s.world).2).timerQueue = some top := by
    apply Reactor.top?_performAll htop
    intro timer htimer
    rw [hscheduled] at htimer
    rcases List.mem_cons.mp htimer with rfl | hothers
    · have hwaits : 0 ≤ milliseconds interval := Int.mul_nonneg (by decide) hpos.le
      have helapse := hpunctual.elapse s.world.world
      exact hdue.trans (hnow.trans (helapse.trans (le_add_of_nonneg_right hwaits)))
    · rw [scheduled_other] at hothers
      obtain ⟨timer', htimer', rfl⟩ := List.mem_map.mp hothers
      exact hdue.trans (hnow.trans (hlate timer' htimer'))
  have hbeat : top.callback.isBeat = true := by
    rw [hcallback]
    rfl
  have hleft : beatTimers (P.elems t.reactor.timerQueue) =
      {beatTimer (S.clock (S.elapse s.world.world) + milliseconds interval)} := by
    have hpop := congrArg beatTimers (P.elems_pop _ _ htop')
    rw [Reactor.elems_performAll, hscheduled, beatTimers_cons_beat hbeat, beatTimers_add,
      (inv.active (P.mem_of_top? htop) hbeat).1, ← Multiset.cons_coe, beatTimers_cons_beat rfl,
      beatTimers_other, Multiset.singleton_add] at hpop
    exact (Multiset.cons_inj_right top).mp hpop
  refine ⟨htop', hleft, ⟨⟨_, hleft⟩, ?_, hinterval.trans inv.interval_eq, hnew.trans inv.newHeart,
    hfailed.trans inv.failedHeart⟩, hnow.trans hclock⟩
  change 0 ∉ (s.reactor.performAll (S.beat toIso s.world).2).inactive
  rw [Reactor.performAll_inactive, hactions]
  exact flag_other actions inv.flag

/-- A turn of `fire_due` keeps it, and the clock does not go back in the course of it. If it runs the
beat, it takes out the timer it runs for and leaves its successor. -/
theorem turn (inv : OneBeat S interval s) (hpunctual : S.Punctual) (hpos : 0 < interval)
    (hnow : now ≤ S.clock s.world.world) {turn : Turn (BeatOr ρ)}
    (h : Running.TakesTurn (S.handlers toIso) now s turn t) :
    (OneBeat S interval t ∧ now ≤ S.clock t.world.world) ∧
      (turn.top.callback.isBeat = true → turn.active = true ∧ turn.taken = turn.top ∧
        beatTimers (P.elems s.reactor.timerQueue) = {turn.top} ∧
        beatTimers (P.elems t.reactor.timerQueue) =
          {beatTimer (S.clock (S.elapse s.world.world) + milliseconds interval)}) := by
  cases h with
  | fires top taken effect htop hdue hactive heffect htaken =>
    have htime : top.deadline ≤ now := of_decide_eq_true hdue
    cases hcallback : top.callback with
    | other callback =>
      refine ⟨inv.turn_other hpunctual hnow htop htime hcallback heffect, ?_⟩
      intro hbeat
      cases hbeat
    | beat =>
      rw [hcallback] at heffect
      cases heffect
      have hbeat : top.callback.isBeat = true := by
        rw [hcallback]
        rfl
      obtain ⟨htop', hleft, hinv, hclock⟩ :=
        inv.turn_beat hpunctual hpos hnow htop htime hcallback (s.fired ++ [top])
      refine ⟨⟨hinv, hclock⟩, fun _ => ⟨rfl, ?_, (inv.active (P.mem_of_top? htop) hbeat).1, hleft⟩⟩
      exact Option.some.inj (htaken.symm.trans htop')
  | skips top htop hdue hinactive =>
    have hother : top.callback.isBeat = false := by
      apply Bool.eq_false_iff.mpr
      intro hbeat
      have hactive := (inv.active (P.mem_of_top? htop) hbeat).2
      rw [hinactive] at hactive
      cases hactive
    refine ⟨⟨inv.pop htop hother, hnow⟩, ?_⟩
    intro hbeat
    rw [hother] at hbeat
    cases hbeat

/-- Some turns of `fire_due` keep it. -/
theorem turns (inv : OneBeat S interval s) (hpunctual : S.Punctual) (hpos : 0 < interval)
    (hnow : now ≤ S.clock s.world.world) {turns : List (Turn (BeatOr ρ))}
    (hrun : Run (Running.TakesTurn (S.handlers toIso) now) s turns t) :
    OneBeat S interval t ∧ now ≤ S.clock t.world.world := by
  apply hrun.preserves (fun u => OneBeat S interval u ∧ now ≤ S.clock u.world.world) ?_ ⟨inv, hnow⟩
  intro u e v hu h
  exact (hu.1.turn hpunctual hpos hu.2 h).1

/-- The callbacks of ready sockets keep it. -/
theorem runCallbacks (calls : List (Option γ × ℕ)) (inv : OneBeat S interval s)
    (h : Running.runCallbacks (S.handlers toIso) calls s = some t) : OneBeat S interval t := by
  induction calls generalizing s with
  | nil =>
    cases h
    exact inv
  | cons call calls ih =>
    obtain ⟨cb, socket⟩ := call
    obtain ⟨effect, heffect, hrest⟩ := Option.bind_eq_some_iff.mp h
    apply ih _ hrest
    cases cb with
    | none =>
      cases heffect
      refine inv.others [] rfl ?_ ?_ ?_ <;> simp only [Running.after, HeartMonitor.handlePong_eq]
    | some cb =>
      obtain ⟨⟨w, actions⟩, -, rfl⟩ := Option.map_eq_some_iff.mp heffect
      exact inv.others actions rfl rfl rfl rfl

end OneBeat

/-- A round of the reactor, in which the world around the heartmonitor goes on. -/
def Round.around {ω : Type} (ρ : Type) (round : Round ω) : Round (MonitorState ρ ω) :=
  round.map fun arrivals s => { s with world := arrivals s.world }

namespace Surroundings

variable {γ ρ ω : Type} (S : Surroundings γ ρ ω)

/-- An iteration of `reactor::run`. -/
def Iterates (toIso : Time → String) (timeout : ℤ) {P : TimerQueue (BeatOr ρ)}
    (s : Running (Option γ) (MonitorState ρ ω) P) (round : Round ω)
    (t : Running (Option γ) (MonitorState ρ ω) P) : Prop :=
  Running.Iterates (S.handlers toIso) timeout s (round.around ρ) t

/-- After a poll the clock does not go back behind the time which `fire_due` reads. -/
def Forward (round : Round ω) : Prop :=
  ∀ timeout w, (round.poll timeout).now ≤ S.clock ((round.poll timeout).arrivals w)

/-- An iteration publishes as many pings as beats it fires. -/
theorem pings_iterates {toIso : Time → String} {timeout : ℤ} {P : TimerQueue (BeatOr ρ)}
    {s t : Running (Option γ) (MonitorState ρ ω) P} {round : Round ω}
    (h : S.Iterates toIso timeout s round t) :
    t.world.monitor.pings.length = s.world.monitor.pings.length +
      t.fired.countP fun timer => timer.callback.isBeat := by
  obtain ⟨-, fuel, hcall⟩ := h
  simp only [Running.call] at hcall
  split at hcall
  · obtain ⟨turns, hrun, -⟩ := Running.exists_turns _ _ _ hcall
    rw [Running.fired_turns hrun]
    exact pings_turns (s := s.polledInto (s.polled timeout (round.around ρ))) hrun
  · split at hcall
    · cases hcall
    · obtain ⟨hpings, hfired⟩ := pings_runCallbacks _ hcall
      rw [hpings, hfired]
      rfl

/-- The reactor as the heartmonitor constructor leaves it, after others have set themselves up as well:
the socket for pongs, and the timer of the first beat. -/
def construct {P : TimerQueue (BeatOr ρ)} (r : Reactor (Option γ) P) (router : ℕ) (interval : ℤ)
    (lifetime tic lastPing : Time) (constructed w : ω) (setup : List (Action ρ)) :
    Running (Option γ) (MonitorState ρ ω) P where
  reactor := (((r.addSocket router zmqPollin none true).1).perform
    (.add (beatTimer (S.clock constructed + milliseconds interval)))).performAll (setup.map .other)
  world := ⟨S.monitor interval lifetime tic lastPing, w⟩

end Surroundings

namespace OneBeat

variable {γ ρ ω : Type} {S : Surroundings γ ρ ω} {interval : ℤ} {toIso : Time → String}

/-- The constructor schedules the first beat. -/
theorem construct {P : TimerQueue (BeatOr ρ)} {r : Reactor (Option γ) P}
    (hnone : ∀ timer ∈ P.elems r.timerQueue, timer.callback.isBeat = false) (hflag : 0 ∉ r.inactive)
    (router : ℕ) (interval : ℤ) (lifetime tic lastPing : Time) (constructed w : ω)
    (setup : List (Action ρ)) :
    OneBeat S interval (S.construct r router interval lifetime tic lastPing constructed w setup) := by
  have hempty : beatTimers (P.elems r.timerQueue) = 0 := by
    apply Multiset.filter_eq_nil.mpr
    intro timer htimer
    rw [hnone timer htimer]
    exact Bool.false_ne_true
  have hfirst : OneBeat S interval
      (S.construct r router interval lifetime tic lastPing constructed w []) := by
    refine ⟨⟨S.clock constructed + milliseconds interval, ?_⟩, ?_, rfl, rfl, rfl⟩
    · simp only [Surroundings.construct, List.map_nil, Reactor.performAll, List.foldl_nil,
        Reactor.perform, P.elems_push, Reactor.addSocket_timerQueue]
      rw [beatTimers_cons_beat rfl, hempty]
      rfl
    · simp only [Surroundings.construct, List.map_nil, Reactor.performAll, List.foldl_nil,
        Reactor.perform, Reactor.addSocket_inactive]
      exact hflag
  exact hfirst.others setup rfl rfl rfl rfl

variable {P : SteadyTimerQueue (BeatOr ρ)}
  {s t : Running (Option γ) (MonitorState ρ ω) P.toPriorityQueue}

/-- Every iteration keeps it. -/
theorem iterates (inv : OneBeat S interval s) (hpunctual : S.Punctual) (hpos : 0 < interval)
    {timeout : ℤ} {round : Round ω} (hforward : S.Forward round)
    (h : S.Iterates toIso timeout s round t) : OneBeat S interval t := by
  obtain ⟨-, fuel, hcall⟩ := h
  have hpolled : OneBeat S interval (s.polledInto (s.polled timeout (round.around ρ))) :=
    inv.of_eq rfl rfl rfl
  simp only [Running.call] at hcall
  split at hcall
  · obtain ⟨turns, hrun, -⟩ := Running.exists_turns _ _ _ hcall
    exact (hpolled.turns hpunctual hpos (hforward _ _) hrun).1
  · split at hcall
    · cases hcall
    · exact hpolled.runCallbacks _ hcall

end OneBeat

/-- Between any two iterations of the reactor that drives a heartmonitor the queue holds exactly one
timer of its beat, which is active; and in whatever iteration comes next, every turn of `fire_due` which
runs the beat takes out that timer, leaves exactly its successor and publishes exactly one ping, while
no other turn publishes any. The iteration publishes as many pings as it fires timers of the beat. -/
theorem exactly_one_beat_timer {γ ρ ω : Type} {P : SteadyTimerQueue (BeatOr ρ)}
    {S : Surroundings γ ρ ω} (hpunctual : S.Punctual) {interval : ℤ} (hpos : 0 < interval)
    {r : Reactor (Option γ) P.toPriorityQueue}
    (hnone : ∀ timer ∈ P.elems r.timerQueue, timer.callback.isBeat = false) (hflag : 0 ∉ r.inactive)
    (toIso : Time → String) (timeout : ℤ) (router : ℕ) (lifetime tic lastPing : Time)
    (constructed w : ω) (setup : List (Action ρ)) {rounds : List (Round ω)}
    (hforward : ∀ round ∈ rounds, S.Forward round)
    {s : Running (Option γ) (MonitorState ρ ω) P.toPriorityQueue}
    (hrun : Run (S.Iterates toIso timeout)
      (S.construct r router interval lifetime tic lastPing constructed w setup).start rounds s) :
    (∃ timer, beatTimers (P.elems s.reactor.timerQueue) = {timer} ∧
        s.reactor.active timer.ptr = true) ∧
      (∀ round, S.Forward round → ∀ turns before turn after,
        let poll := s.polled timeout (round.around ρ)
        Run (Running.TakesTurn (S.handlers toIso) poll.now) (s.polledInto poll) turns before →
        Running.TakesTurn (S.handlers toIso) poll.now before turn after →
        (turn.top.callback.isBeat = true →
          (turn.active = true ∧ turn.taken = turn.top ∧
            beatTimers (P.elems before.reactor.timerQueue) = {turn.top} ∧
            beatTimers (P.elems after.reactor.timerQueue) =
              {beatTimer (S.clock (S.elapse before.world.world) + milliseconds interval)}) ∧
          after.world.monitor.pings =
            before.world.monitor.pings ++ [toIso after.world.monitor.lifetime]) ∧
        (turn.top.callback.isBeat = false →
          after.world.monitor.pings = before.world.monitor.pings)) ∧
      ∀ round after, S.Iterates toIso timeout s round after →
        after.world.monitor.pings.length = s.world.monitor.pings.length +
          after.fired.countP fun timer => timer.callback.isBeat := by
  have hstart : OneBeat S interval
      (S.construct r router interval lifetime tic lastPing constructed w setup).start :=
    (OneBeat.construct hnone hflag router interval lifetime tic lastPing constructed w setup).of_eq
      rfl rfl rfl
  have hinv : OneBeat S interval s :=
    hrun.preserves_of_forall (OneBeat S interval)
      (fun _ _ _ hround inv h => inv.iterates hpunctual hpos hround h) hforward hstart
  refine ⟨?_, ?_, fun round after h => S.pings_iterates h⟩
  · obtain ⟨deadline, htimer⟩ := hinv.timer
    exact ⟨beatTimer deadline, htimer, decide_eq_true hinv.flag⟩
  · intro round hround turns before turn after poll hturns hturn
    have hpolled : OneBeat S interval (s.polledInto poll) := hinv.of_eq rfl rfl rfl
    have hbefore := hpolled.turns hpunctual hpos (hround _ _) hturns
    have hpings := Surroundings.pings_turn hturn
    constructor
    · intro hbeat
      have hsuccessor := (hbefore.1.turn hpunctual hpos hbefore.2 hturn).2 hbeat
      rw [if_pos ⟨hsuccessor.1, hbeat⟩] at hpings
      exact ⟨hsuccessor, hpings⟩
    · intro hother
      rw [hother, if_neg (fun h => Bool.false_ne_true h.2), List.append_nil] at hpings
      exact hpings

/-- Surroundings which do nothing, with a clock that stands still from time 2000000 on. -/
def idleSurroundings : Surroundings Unit Unit Time where
  clock w := w
  elapse w := max w 2000000
  receivePong w := (⟨"h", ""⟩, w)
  onActivity _ _ _ w := some (w, [])
  onTimeout _ _ w := some (w, [])
  newHeart := []
  failedHeart := []

/-- They are punctual. -/
theorem idleSurroundings_punctual : idleSurroundings.Punctual where
  elapse w := le_max_left w 2000000
  onTimeout callback alive w effect h := by
    cases h
    exact ⟨le_rfl, fun _ h => absurd h List.not_mem_nil⟩
  newHeart f hf := absurd hf List.not_mem_nil
  failedHeart f hf := absurd hf List.not_mem_nil

/-- A round in which the poll reports nothing until time 2000000. -/
def firstBeatRound : Round Time where
  calledAt := 0
  poll _ := ⟨0, fun _ => 0, 2000000, 2000000, fun w => max w 2000000⟩

/-- With no hearts and no handlers a beat does no more than to schedule its successor. -/
theorem idleSurroundings_beat (w : Time) :
    (idleSurroundings.beat Time.toIsoString ⟨idleSurroundings.monitor 2000 0 0 0, w⟩).2 =
      [.add (beatTimer (max w 2000000 + 2000000))] := by
  simp [Surroundings.beat, HeartMonitor.beat_eq, Surroundings.monitor, HeartMonitor.create,
    HeartMonitor.newHearts, HeartMonitor.heartFailures, idleSurroundings, milliseconds]

/-- The ping of that beat is the time it takes place at. -/
theorem idleSurroundings_pings (w : Time) :
    (idleSurroundings.beat Time.toIsoString ⟨idleSurroundings.monitor 2000 0 0 0, w⟩).1.monitor.pings =
      [Time.toIsoString (max w 2000000)] := by
  simp [Surroundings.beat, HeartMonitor.beat_eq, HeartMonitor.advance, Surroundings.monitor,
    HeartMonitor.create, idleSurroundings]

/-- The queue of these surroundings, a heap. -/
abbrev idleQueue : SteadyTimerQueue (BeatOr Unit) := .binaryHeap DeadlineTimer.deadline

/-- Their reactor, with a heartmonitor that beats every 2000 milliseconds. -/
def idleReactor : Running (Option Unit) (MonitorState Unit Time) idleQueue.toPriorityQueue :=
  (idleSurroundings.construct {} 1 2000 0 0 0 0 0 []).start

/-- The timer and the ping of a heartmonitor which has beaten once. -/
theorem exactly_one_beat_timer_idle :
    ∃ s, Run (idleSurroundings.Iterates Time.toIsoString (-1)) idleReactor [firstBeatRound] s ∧
      s.fired = [beatTimer 2000000] ∧ s.world.monitor.pings = ["19700101T000002"] ∧
      ∃ timer, beatTimers (idleQueue.elems s.reactor.timerQueue) = {timer} ∧
        s.reactor.active timer.ptr = true := by
  have heffect : (idleSurroundings.handlers Time.toIsoString).onTimeout .beat
      (idleReactor.polledInto ((firstBeatRound.around Unit).poll 2000000)).world =
        some ((idleSurroundings.beat Time.toIsoString ⟨idleSurroundings.monitor 2000 0 0 0, 2000000⟩).1,
          [.add (beatTimer 4000000)]) :=
    congrArg (fun actions => some ((idleSurroundings.beat Time.toIsoString _).1, actions))
      (idleSurroundings_beat 2000000)
  have hturn : Running.TakesTurn (idleSurroundings.handlers Time.toIsoString) 2000000 _ _ _ :=
    .fires _ (beatTimer 2000000) (beatTimer 2000000) _ rfl rfl rfl heffect rfl
  have hcall := Running.fireDue_of_turns (.single hturn) (by intro top htop; cases htop; rfl)
  have hrun : Run (idleSurroundings.Iterates Time.toIsoString (-1)) idleReactor [firstBeatRound] _ :=
    .single ⟨rfl, 2, hcall⟩
  have hforward : ∀ round ∈ [firstBeatRound], idleSurroundings.Forward round := by
    intro round hround timeout w
    rw [List.mem_singleton.mp hround]
    exact le_max_right w 2000000
  have hnone : ∀ timer ∈ idleQueue.elems idleQueue.empty, timer.callback.isBeat = false :=
    fun timer htimer => absurd htimer (Multiset.notMem_zero timer)
  have hping : Time.toIsoString (max 2000000 2000000) = "19700101T000002" := by decide +kernel
  exact ⟨_, hrun, rfl, (idleSurroundings_pings 2000000).trans (congrArg (fun text => [text]) hping),
    (exactly_one_beat_timer idleSurroundings_punctual (by decide) hnone
      (Finset.notMem_empty 0) Time.toIsoString (-1) 1 0 0 0 0 0 [] hforward hrun).1⟩

end Gpf
