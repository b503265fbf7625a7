import Gpf.Controller.Notifications

/-!
# Hearts in processes of their own

A heart reads the pings which the heartmonitor publishes and sends each of them back under its own name.
Both kinds of messages take their time, may overtake one another and may be lost, and a heart may start
and stop at any time. Several hearts may have the same name. The clock moves on from beat to beat.
-/

namespace Gpf

open Transition

/-- `heart::operator()` up to the loop of its reactor: a heart without a name takes a random one. -/
def Heart.run (heart : Heart) (uuid : String) : Heart :=
  if heart.id = "" then { heart with id := uuid } else heart

/-- The hub with its heartmonitor, the hearts, the pings which each heart can still read, and the pongs
which the heartmonitor can still read. -/
structure HeartNetwork (ι : Type*) where
  controller : Controller
  hearts : ι → Heart
  beating : ι → Bool := fun _ => false
  pings : ι → List String := fun _ => []
  pongs : List Pong := []

/-- What can happen next. -/
inductive HeartEvent (ι : Type*)
  | start (i : ι) (uuid : String)
  | shutdown (i : ι)
  | bumm (i : ι) (pong : Pong)
  | pong (pong : Pong)
  | losePing (i : ι) (ping : String)
  | losePong (pong : Pong)
  | hub (e : ControllerEvent)

/-- The event is a pong, which comes over the network alone. -/
def ControllerEvent.isPong : ControllerEvent → Bool
  | .pong _ => true
  | _ => false

namespace HeartNetwork

variable {ι : Type*} [DecidableEq ι]

omit [DecidableEq ι] in
/-- The controller before any heart starts. -/
def initial (interval : ℤ) (clock lifetime tic lastPing : Time) (hearts : ι → Heart) :
    HeartNetwork ι :=
  { controller := .create interval clock lifetime tic lastPing, hearts := hearts }

/-- A heart connects its sockets and takes a name if it has none. -/
def started (net : HeartNetwork ι) (i : ι) (uuid : String) : HeartNetwork ι :=
  { net with
    hearts := Function.update net.hearts i ((net.hearts i).run uuid)
    beating := Function.update net.beating i true
    pings := Function.update net.pings i [] }

/-- `heart::shutdown` ends the loop of the heart. -/
def stopped (net : HeartNetwork ι) (i : ι) : HeartNetwork ι :=
  { net with beating := Function.update net.beating i false }

/-- `heart::bumm`: a heart has read the ping which the pong repeats. -/
def answered (net : HeartNetwork ι) (i : ι) (pong : Pong) : HeartNetwork ι :=
  { net with
    hearts := Function.update net.hearts i ((net.hearts i).bumm pong.received).1
    pings := Function.update net.pings i ((net.pings i).erase pong.received)
    pongs := net.pongs ++ [pong] }

omit [DecidableEq ι] in
/-- `heartmonitor::handle_pong` has read the pong. -/
def heard (toIso : Time → String) (net : HeartNetwork ι) (pong : Pong) : HeartNetwork ι :=
  { net with
    controller := net.controller.handlePong toIso pong
    pongs := net.pongs.erase pong }

omit [DecidableEq ι] in
/-- What the controller has published since is on its way to the hearts that are connected. -/
def published (net : HeartNetwork ι) (d : Controller) : HeartNetwork ι :=
  { net with
    controller := d
    pings := fun i =>
      if net.beating i then
        net.pings i ++ d.monitor.pings.drop net.controller.monitor.pings.length
      else net.pings i }

/-- The state after an event, if it can occur and its handler returns. -/
def next (wire : Wire) (toIso : Time → String) (net : HeartNetwork ι) :
    HeartEvent ι → Option (HeartNetwork ι)
  | .start i uuid => if net.beating i then none else some (net.started i uuid)
  | .shutdown i => some (net.stopped i)
  | .bumm i pong =>
    if net.beating i = true ∧ pong.received ∈ net.pings i ∧
        pong = ((net.hearts i).bumm pong.received).2 then some (net.answered i pong)
    else none
  | .pong pong => if pong ∈ net.pongs then some (net.heard toIso pong) else none
  | .losePing i ping =>
    some { net with pings := Function.update net.pings i ((net.pings i).erase ping) }
  | .losePong pong => some { net with pongs := net.pongs.erase pong }
  | .hub e =>
    if e.isPong then none
    else (net.controller.next wire toIso e).bind fun d =>
      if d.monitor.pings = net.controller.monitor.pings ∨
          net.controller.monitor.tic < net.controller.hub.clock then some (net.published d)
      else none

/-- One event of a run. -/
def Step (wire : Wire) (toIso : Time → String) (net : HeartNetwork ι) (e : HeartEvent ι)
    (net' : HeartNetwork ι) : Prop := net.next wire toIso e = some net'

/-- What is computed of the last state holds at the end of a run. -/
theorem exists_run (wire : Wire) (toIso : Time → String) (net : HeartNetwork ι)
    (es : List (HeartEvent ι)) (P : HeartNetwork ι → Prop) [DecidablePred P]
    (h : (es.foldlM (next wire toIso) net).any (fun t => decide (P t)) = true) :
    ∃ t, Run (Step wire toIso) net es t ∧ P t :=
  Transition.exists_run (fun _ _ _ hnext => hnext) net es P h

end HeartNetwork

namespace HeartMonitor

variable {σ : Type*}

/-- What a beat does to the heartmonitor, apart from its callbacks. -/
structure Beats (toIso : Time → String) (toc : Time) (m m' : HeartMonitor σ) : Prop where
  lifetime : m'.lifetime = m.lifetime + (toc - m.tic)
  tic : m'.tic = toc
  lastPing : m'.lastPing = m.lifetime
  pings : m'.pings = m.pings ++ [toIso m'.lifetime]
  responses : m'.responses = ∅
  mem_hearts : ∀ heart, heart ∈ m'.hearts ↔
    heart ∈ m.responses ∨ heart ∈ m.hearts ∧ heart ∉ m.onProbation
  mem_onProbation : ∀ heart, heart ∈ m'.onProbation ↔
    heart ∈ m.hearts ∧ heart ∉ m.responses ∧ heart ∉ m.onProbation

/-- Every beat does this. -/
theorem beats_beat (toIso : Time → String) (add : Time → σ → σ) (toc : Time)
    (s : HeartMonitor σ × σ) : Beats toIso toc s.1 (beat toIso add toc s).1 := by
  rw [beat_eq]
  refine ⟨rfl, rfl, rfl, rfl, rfl, ?_, ?_⟩
  · intro heart
    simp only [newHearts, heartFailures, missedBeats, goodHearts, Finset.mem_sdiff, Finset.mem_union,
      Finset.mem_inter]
    tauto
  · intro heart
    simp only [newHearts, heartFailures, missedBeats, goodHearts, Finset.mem_sdiff, Finset.mem_union,
      Finset.mem_inter]
    tauto

end HeartMonitor

namespace Controller

variable {wire : Wire} {toIso : Time → String} {c d : Controller}

/-- A beat of the controller is one of its heartmonitor. -/
theorem beats_beat (toIso : Time → String) (c : Controller) :
    c.monitor.Beats toIso c.hub.clock (c.beat toIso).monitor :=
  HeartMonitor.beats_beat toIso (fun waiting (hub : Hub) => hub.scheduleBeat waiting) c.hub.clock
    (c.monitor, c.hub)

/-- An event other than a pong leaves the heartmonitor alone, or is its beat. -/
theorem monitor_cases {e : ControllerEvent} (hpong : e.isPong = false) (h : Step wire toIso c e d) :
    d.monitor = c.monitor ∨ c.monitor.Beats toIso c.hub.clock d.monitor := by
  cases e with
  | tick now =>
    cases h
    exact .inl rfl
  | query incoming =>
    cases h
    exact .inl rfl
  | monitor incoming =>
    obtain ⟨ttracker, -, rfl⟩ := Option.map_eq_some_iff.mp h
    exact .inl rfl
  | pong pong => cases hpong
  | timeout ptr =>
    change c.timeout toIso ptr = some d at h
    unfold timeout at h
    split at h
    · cases h
    · rename_i timer _
      by_cases hactive : (c.hub.loop.pop ptr).active ptr = true
      · rw [if_pos hactive] at h
        obtain ⟨hub, hrun, rfl⟩ := Option.map_eq_some_iff.mp h
        by_cases hbeat : timer.callback = .beat
        · rw [if_pos hbeat]
          rw [hbeat] at hrun
          cases hrun
          exact .inr (beats_beat toIso { c with hub := { c.hub with loop := c.hub.loop.pop ptr } })
        · rw [if_neg hbeat]
          exact .inl rfl
      · rw [if_neg hactive, Option.some.injEq] at h
        rw [← h]
        exact .inl rfl

end Controller

namespace HeartNetwork

variable {ι : Type*} [DecidableEq ι]

/-- Everything that one event can do: a heart starts, stops or answers; a pong is heard, a message is lost;
the controller does something which leaves the heartmonitor alone, or the heartmonitor beats. -/
inductive HeartStep (wire : Wire) (toIso : Time → String) (net : HeartNetwork ι) :
    HeartEvent ι → HeartNetwork ι → Prop
  | start (i : ι) (uuid : String) (hstopped : net.beating i = false) :
      HeartStep wire toIso net (.start i uuid) (net.started i uuid)
  | shutdown (i : ι) : HeartStep wire toIso net (.shutdown i) (net.stopped i)
  | bumm (i : ι) (pong : Pong) (hbeating : net.beating i = true) (hping : pong.received ∈ net.pings i)
      (hpong : pong = ((net.hearts i).bumm pong.received).2) :
      HeartStep wire toIso net (.bumm i pong) (net.answered i pong)
  | pong (pong : Pong) (hmem : pong ∈ net.pongs) :
      HeartStep wire toIso net (.pong pong) (net.heard toIso pong)
  | losePing (i : ι) (ping : String) :
      HeartStep wire toIso net (.losePing i ping)
        { net with pings := Function.update net.pings i ((net.pings i).erase ping) }
  | losePong (pong : Pong) :
      HeartStep wire toIso net (.losePong pong) { net with pongs := net.pongs.erase pong }
  | served (e : ControllerEvent) (d : Controller) (hstep : Controller.Step wire toIso net.controller e d)
      (hmonitor : d.monitor = net.controller.monitor) :
      HeartStep wire toIso net (.hub e) { net with controller := d }
  | beat (e : ControllerEvent) (d : Controller) (hstep : Controller.Step wire toIso net.controller e d)
      (hbeats : net.controller.monitor.Beats toIso net.controller.hub.clock d.monitor)
      (hclock : net.controller.monitor.tic < net.controller.hub.clock) :
      HeartStep wire toIso net (.hub e) (net.published d)

variable {wire : Wire} {toIso : Time → String} {net net' : HeartNetwork ι}

/-- Every event does one of these things. -/
theorem step_cases {e : HeartEvent ι} (h : Step wire toIso net e net') :
    HeartStep wire toIso net e net' := by
  cases e with
  | start i uuid =>
    simp only [Step, next] at h
    split at h
    · cases h
    · rename_i hbeating
      cases h
      exact .start i uuid (Bool.eq_false_iff.mpr hbeating)
  | shutdown i =>
    cases h
    exact .shutdown i
  | bumm i pong =>
    simp only [Step, next] at h
    split at h
    · rename_i hguard
      cases h
      exact .bumm i pong hguard.1 hguard.2.1 hguard.2.2
    · cases h
  | pong pong =>
    simp only [Step, next] at h
    split at h
    · rename_i hmem
      cases h
      exact .pong pong hmem
    · cases h
  | losePing i ping =>
    cases h
    exact .losePing i ping
  | losePong pong =>
    cases h
    exact .losePong pong
  | hub e =>
    simp only [Step, next] at h
    split at h
    · cases h
    · rename_i hpong
      obtain ⟨d, hstep, hguard⟩ := Option.bind_eq_some_iff.mp h
      split at hguard
      · rename_i hclock
        cases hguard
        rcases Controller.monitor_cases (Bool.eq_false_iff.mpr hpong) hstep with hmonitor | hbeats
        · have hsame : net.published d = { net with controller := d } := by
            simp [published, hmonitor]
          rw [hsame]
          exact .served e d hstep hmonitor
        · refine .beat e d hstep hbeats (hclock.resolve_left ?_)
          rw [hbeats.pings]
          simp
      · cases hguard

/-- The controller of the network does what the controller does on its own. -/
theorem run_controller {e : HeartEvent ι} (h : Step wire toIso net e net') :
    ∃ es, Run (Controller.Step wire toIso) net.controller es net'.controller := by
  cases step_cases h with
  | pong pong _ => exact ⟨[.pong pong], .single rfl⟩
  | served e d hstep _ => exact ⟨[e], .single hstep⟩
  | beat e d hstep _ _ => exact ⟨[e], .single hstep⟩
  | _ => exact ⟨[], .nil _⟩

/-- All that holds of the controller on its own holds of it in the network. -/
theorem reachable_controller {interval : ℤ} {clock lifetime tic lastPing : Time} {hearts : ι → Heart}
    (h : Reachable (Step wire toIso) (initial interval clock lifetime tic lastPing hearts) net) :
    Reachable (Controller.Step wire toIso) (.create interval clock lifetime tic lastPing)
      net.controller := by
  apply Reachable.simulate (fun _ _ _ hstep => run_controller hstep) _ h
  exact ⟨[], .nil _⟩

end HeartNetwork

end Gpf
