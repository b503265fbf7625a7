import Gpf.Controller.HubRun
import Gpf.Controller.HeartbeatRounds

/-!
# The hub and its heartmonitor on one reactor

The controller runs the hub together with the heartmonitor itself: pongs arrive, the timer of the
beat fires, and a beat calls the handlers which the hub has registered. Every run of the controller
is a run of the hub with `m_hearts` alone, in which a beat becomes the events of its hearts.
-/

namespace Gpf

open Transition

/-- The hub, and the heartmonitor whose callbacks are the handlers of the hub. -/
structure Controller where
  hub : Hub
  monitor : HeartMonitor Hub
  newHeart : monitor.newHeartCallbacks = [fun heart _ hub => hub.handleNewHeart heart]
  failedHeart : monitor.failedHeartCallbacks = [fun heart _ hub => hub.handleHeartFailure heart]

/-- What the reactor can hand to the controller. -/
inductive ControllerEvent
  | tick (now : Time)
  | query (incoming : Incoming)
  | monitor (incoming : Incoming)
  | pong (pong : Pong)
  | timeout (ptr : ℕ)

namespace HeartMonitor

variable {σ : Type*}

/-- A beat keeps the callbacks. -/
theorem beat_callbacks (toIso : Time → String) (add : Time → σ → σ) (toc : Time)
    (s : HeartMonitor σ × σ) :
    (beat toIso add toc s).1.newHeartCallbacks = s.1.newHeartCallbacks ∧
      (beat toIso add toc s).1.failedHeartCallbacks = s.1.failedHeartCallbacks := by
  rw [beat_eq]
  exact ⟨rfl, rfl⟩

end HeartMonitor

namespace Controller

/-- The factory makes the heartmonitor, which schedules its first beat, and then the hub, which
registers its handlers. -/
def create (interval : ℤ) (clock lifetime tic lastPing : Time) : Controller where
  hub := { Hub.create interval with clock := clock }.scheduleBeat (milliseconds interval)
  monitor := .create interval lifetime tic lastPing [fun heart _ hub => hub.handleNewHeart heart]
    [fun heart _ hub => hub.handleHeartFailure heart]
  newHeart := rfl
  failedHeart := rfl

/-- `heartmonitor::beat` with the hub as its world. -/
def beat (toIso : Time → String) (c : Controller) : Controller where
  hub := (HeartMonitor.beat toIso (fun waiting hub => hub.scheduleBeat waiting) c.hub.clock
    (c.monitor, c.hub)).2
  monitor := (HeartMonitor.beat toIso (fun waiting hub => hub.scheduleBeat waiting) c.hub.clock
    (c.monitor, c.hub)).1
  newHeart := (HeartMonitor.beat_callbacks _ _ _ _).1.trans c.newHeart
  failedHeart := (HeartMonitor.beat_callbacks _ _ _ _).2.trans c.failedHeart

/-- A beat schedules the next, and calls the handlers of the hub for its new and its failed hearts. -/
theorem hub_beat (toIso : Time → String) (c : Controller) :
    (c.beat toIso).hub = (c.monitor.heartFailures.sort (· ≤ ·)).foldl
      (fun hub heart => hub.handleHeartFailure heart)
      ((c.monitor.newHearts.sort (· ≤ ·)).foldl (fun hub heart => hub.handleNewHeart heart)
        (c.hub.scheduleBeat (milliseconds c.monitor.interval))) := by
  have hbeat := congrArg Prod.snd (HeartMonitor.beat_eq toIso
    (fun waiting (hub : Hub) => hub.scheduleBeat waiting) c.hub.clock (c.monitor, c.hub))
  rw [c.newHeart, c.failedHeart] at hbeat
  apply hbeat.trans
  rw [HeartMonitor.foldl_fail_snd (fun heart (hub : Hub) => hub.handleHeartFailure heart),
    HeartMonitor.foldl_appear_snd (fun heart (hub : Hub) => hub.handleNewHeart heart)]

/-- `heartmonitor::handle_pong`. -/
def handlePong (toIso : Time → String) (c : Controller) (pong : Pong) : Controller :=
  { c with
    monitor := c.monitor.handlePong toIso pong
    newHeart := by
      rw [HeartMonitor.handlePong_eq]
      exact c.newHeart
    failedHeart := by
      rw [HeartMonitor.handlePong_eq]
      exact c.failedHeart }

/-- Run the callback that a timer is bound to. -/
def runCallback (toIso : Time → String) (c : Controller) (callback : Callback) : Option Controller :=
  (c.hub.runCallback callback).map fun hub =>
    if callback = .beat then beat toIso { c with hub := hub } else { c with hub := hub }

/-- A queued timer is taken out of the queue, and fires if it is still active. -/
def timeout (toIso : Time → String) (c : Controller) (ptr : ℕ) : Option Controller :=
  match c.hub.loop.queue.find? fun timer => decide (timer.ptr = ptr) with
  | none => none
  | some timer =>
    let c := { c with hub := { c.hub with loop := c.hub.loop.pop ptr } }
    if c.hub.loop.active ptr then c.runCallback toIso timer.callback else some c

/-- The state after an event, if it can occur and its handler returns. -/
def next (wire : Wire) (toIso : Time → String) (c : Controller) : ControllerEvent → Option Controller
  | .tick now => some { c with hub := { c.hub with clock := now } }
  | .query incoming => some { c with hub := c.hub.dispatchQuery wire c.monitor.alive incoming }
  | .monitor incoming =>
    (c.hub.ttracker.dispatchMonitorTraffic wire incoming).returned?.map fun ttracker =>
      { c with hub := { c.hub with ttracker := ttracker } }
  | .pong pong => some (c.handlePong toIso pong)
  | .timeout ptr => c.timeout toIso ptr

/-- One event of a run. -/
def Step (wire : Wire) (toIso : Time → String) (c : Controller) (e : ControllerEvent)
    (d : Controller) : Prop := c.next wire toIso e = some d

/-- What is computed of the last state holds at the end of a run. -/
theorem exists_run (wire : Wire) (toIso : Time → String) (c : Controller) (es : List ControllerEvent)
    (P : Controller → Prop) [DecidablePred P]
    (h : (es.foldlM (next wire toIso) c).any (fun d => decide (P d)) = true) :
    ∃ d, Run (Step wire toIso) c es d ∧ P d :=
  Transition.exists_run (fun _ _ _ hnext => hnext) c es P h

/-- What the hub sees of the heartmonitor is which hearts are alive. -/
def view (c : Controller) : System := { hub := c.hub, hearts := c.monitor.hearts }

end Controller

namespace HeartMonitor

/-- Handling new hearts which are not alive is a run in which they appear one by one. -/
theorem run_handleNewHeart (wire : Wire) (hearts : List String) (m : HeartMonitor Hub) (hub : Hub)
    (hm : m.newHeartCallbacks = [fun heart _ hub => hub.handleNewHeart heart]) (hnodup : hearts.Nodup)
    (hhearts : ∀ heart ∈ hearts, heart ∉ m.hearts) :
    Run (System.Step wire) { hub := hub, hearts := m.hearts } (hearts.map .heartAppears)
      { hub := (hearts.foldl handleNewHeart (m, hub)).2
        hearts := (hearts.foldl handleNewHeart (m, hub)).1.hearts } := by
  induction hearts generalizing m hub with
  | nil => exact .nil _
  | cons heart hearts ih =>
    rw [List.nodup_cons] at hnodup
    have habsent : heart ∉ m.hearts := hhearts heart List.mem_cons_self
    have hworld : notify m.newHeartCallbacks m.alive hub heart = hub.handleNewHeart heart := by
      rw [hm]
      rfl
    have hstep : System.Step wire { hub := hub, hearts := m.hearts } (.heartAppears heart)
        { hub := hub.handleNewHeart heart, hearts := insert heart m.hearts } := if_neg habsent
    apply Run.cons hstep
    rw [← hworld]
    apply ih { m with hearts := insert heart m.hearts, log := m.log ++ [.newHeart heart] } _ hm hnodup.2
    intro heart' hmem hin
    rcases Finset.mem_insert.mp hin with heq | hold
    · exact hnodup.1 (heq ▸ hmem)
    · exact hhearts heart' (List.mem_cons_of_mem heart hmem) hold

/-- Handling failures of hearts which are alive is a run in which they fail one by one. -/
theorem run_handleHeartFailure (wire : Wire) (hearts : List String) (m : HeartMonitor Hub) (hub : Hub)
    (hm : m.failedHeartCallbacks = [fun heart _ hub => hub.handleHeartFailure heart])
    (hnodup : hearts.Nodup) (hhearts : ∀ heart ∈ hearts, heart ∈ m.hearts) :
    Run (System.Step wire) { hub := hub, hearts := m.hearts } (hearts.map .heartFails)
      { hub := (hearts.foldl handleHeartFailure (m, hub)).2
        hearts := (hearts.foldl handleHeartFailure (m, hub)).1.hearts } := by
  induction hearts generalizing m hub with
  | nil => exact .nil _
  | cons heart hearts ih =>
    rw [List.nodup_cons] at hnodup
    have hpresent : heart ∈ m.hearts := hhearts heart List.mem_cons_self
    have hworld : notify m.failedHeartCallbacks m.alive hub heart = hub.handleHeartFailure heart := by
      rw [hm]
      rfl
    have hstep : System.Step wire { hub := hub, hearts := m.hearts } (.heartFails heart)
        { hub := hub.handleHeartFailure heart, hearts := m.hearts.erase heart } := if_pos hpresent
    apply Run.cons hstep
    rw [← hworld]
    apply ih { m with hearts := m.hearts.erase heart, log := m.log ++ [.failed heart] } _ hm hnodup.2
    intro heart' hmem
    have hne : heart' ≠ heart := fun heq => hnodup.1 (heq ▸ hmem)
    exact Finset.mem_erase.mpr ⟨hne, hhearts heart' (List.mem_cons_of_mem heart hmem)⟩

end HeartMonitor

namespace Controller

variable {wire : Wire} {toIso : Time → String}

/-- A beat is a run of the hub: its next timer is scheduled, the new hearts appear, and those that
fail do. -/
theorem run_beat (wire : Wire) (toIso : Time → String) (c : Controller) :
    ∃ es, Run (System.Step wire) c.view es (c.beat toIso).view := by
  have hnew := HeartMonitor.run_handleNewHeart wire (c.monitor.newHearts.sort (· ≤ ·))
    (c.monitor.advance c.hub.clock) (c.hub.scheduleBeat (milliseconds c.monitor.interval)) c.newHeart
    (Finset.sort_nodup _ _)
    fun heart hmem => HeartMonitor.notMem_of_newHearts ((Finset.mem_sort _).mp hmem)
  generalize happeared : (c.monitor.newHearts.sort (· ≤ ·)).foldl HeartMonitor.handleNewHeart
    (c.monitor.advance c.hub.clock, c.hub.scheduleBeat (milliseconds c.monitor.interval)) =
      appeared at hnew
  have hkeeps : appeared.1.failedHeartCallbacks = c.monitor.failedHeartCallbacks ∧
      ∀ heart ∈ c.monitor.hearts, heart ∈ appeared.1.hearts := by
    rw [← happeared, HeartMonitor.foldl_handleNewHeart]
    exact ⟨rfl, fun heart hheart => Finset.mem_union_left _ hheart⟩
  have hfailed := HeartMonitor.run_handleHeartFailure wire (c.monitor.heartFailures.sort (· ≤ ·))
    appeared.1 appeared.2 (hkeeps.1.trans c.failedHeart) (Finset.sort_nodup _ _)
    fun heart hmem =>
      hkeeps.2 heart (HeartMonitor.mem_of_heartFailures ((Finset.mem_sort _).mp hmem))
  have hscheduled : System.Step wire c.view
      (.beatScheduled (milliseconds c.monitor.interval))
      { hub := c.hub.scheduleBeat (milliseconds c.monitor.interval), hearts := c.monitor.hearts } := rfl
  have hview : (c.beat toIso).view =
      { hub := ((c.monitor.heartFailures.sort (· ≤ ·)).foldl HeartMonitor.handleHeartFailure appeared).2
        hearts := ((c.monitor.heartFailures.sort (· ≤ ·)).foldl HeartMonitor.handleHeartFailure
          appeared).1.hearts } := by
    rw [← happeared]
    rfl
  rw [hview]
  exact ⟨_, .cons hscheduled (hnew.append hfailed)⟩

/-- A timer of the controller fires as one of the hub; if it is that of the beat, the run of the beat
follows. -/
theorem run_timeout (wire : Wire) {c d : Controller} {ptr : ℕ} (h : c.timeout toIso ptr = some d) :
    ∃ es, Run (System.Step wire) c.view es d.view := by
  unfold timeout at h
  cases hfind : c.hub.loop.queue.find? fun timer => decide (timer.ptr = ptr) with
  | none =>
    rw [hfind] at h
    cases h
  | some timer =>
    simp only [hfind] at h
    have hstep : ∀ hub, c.hub.timeout ptr = some hub →
        System.Step wire c.view (.timeout ptr) { hub := hub, hearts := c.monitor.hearts } := by
      intro hub htimeout
      exact Option.map_eq_some_iff.mpr ⟨hub, htimeout, rfl⟩
    by_cases hactive : (c.hub.loop.pop ptr).active ptr = true
    · rw [if_pos hactive] at h
      obtain ⟨hub, hrun, hd⟩ := Option.map_eq_some_iff.mp h
      have htimeout : c.hub.timeout ptr = some hub := by
        simp only [Hub.timeout, hfind, hactive, if_true]
        exact hrun
      by_cases hbeat : timer.callback = .beat
      · rw [if_pos hbeat] at hd
        obtain ⟨es, hes⟩ := run_beat wire toIso { c with hub := hub }
        rw [hd] at hes
        exact ⟨.timeout ptr :: es, .cons (hstep hub htimeout) hes⟩
      · rw [if_neg hbeat] at hd
        rw [← hd]
        exact ⟨[.timeout ptr], .single (hstep hub htimeout)⟩
    · rw [if_neg hactive, Option.some.injEq] at h
      rw [← h]
      have htimeout : c.hub.timeout ptr = some { c.hub with loop := c.hub.loop.pop ptr } := by
        simp only [Hub.timeout, hfind, hactive]
        rfl
      exact ⟨[.timeout ptr], .single (hstep _ htimeout)⟩

/-- Every event of the controller is a run of the hub. -/
theorem run_step {c d : Controller} {e : ControllerEvent} (h : Step wire toIso c e d) :
    ∃ es, Run (System.Step wire) c.view es d.view := by
  cases e with
  | tick now =>
    cases h
    exact ⟨[.tick now], .single rfl⟩
  | query incoming =>
    cases h
    exact ⟨[.query incoming], .single rfl⟩
  | monitor incoming =>
    obtain ⟨ttracker, hreturned, rfl⟩ := Option.map_eq_some_iff.mp h
    have hstep : System.Step wire c.view (.monitor incoming)
        { hub := { c.hub with ttracker := ttracker }, hearts := c.monitor.hearts } :=
      Option.map_eq_some_iff.mpr ⟨ttracker, hreturned, rfl⟩
    exact ⟨[.monitor incoming], .single hstep⟩
  | pong pong =>
    cases h
    have hview : (c.handlePong toIso pong).view = c.view := by
      simp only [view, handlePong, HeartMonitor.handlePong_eq]
    rw [hview]
    exact ⟨[], .nil _⟩
  | timeout ptr => exact run_timeout wire h

/-- What the controller reaches, viewed, the hub reaches: all that holds of every reachable state of
the hub holds of the controller. -/
theorem reachable_view {interval : ℤ} {clock lifetime tic lastPing : Time} {c : Controller}
    (h : Reachable (Step wire toIso) (create interval clock lifetime tic lastPing) c) :
    Reachable (System.Step wire) (System.initial interval) c.view := by
  apply Reachable.simulate (fun _ _ _ hstep => run_step hstep) _ h
  exact ⟨[.tick clock, .beatScheduled (milliseconds interval)], .cons rfl (.single rfl)⟩

end Controller

end Gpf
