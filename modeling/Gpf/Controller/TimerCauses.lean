import Gpf.Controller.LoopFrame
import Gpf.Controller.WaitingTimers

/-!
# Why a timer is queued, and what becomes of it

Four handlers schedule a timer, and each schedules one. It stays in the queue until its turn comes. Only
the timer of a registration is ever deactivated, when that registration is finished; and only the timer of
a shutdown request ends the process.
-/

namespace Gpf

open Transition

/-- The handlers which schedule a timer, with the identity, the deadline and the callback they give it. -/
inductive System.Schedules (wire : Wire) (s : System) : Event → DeadlineTimer Callback → Prop
  | purge (incoming : Incoming) (msg : Registration) (htype : incoming.type = "registration_request")
      (hparse : wire.registration incoming.header = some msg)
      (hfree : NamesFree s.hub.tracker msg.queue msg.heartbeat) (hdead : msg.heartbeat ∉ s.hearts) :
      Schedules wire s (.query incoming)
        { ptr := s.hub.loop.nextPtr
          deadline := s.hub.clock + milliseconds s.hub.registrationTimeout
          callback := .purgeStalledRegistration msg.heartbeat }
  | stranded (ec : EngineConnector) (hmem : ec ∈ s.hub.tracker.engines) :
      Schedules wire s (.heartFails ec.heartbeat)
        { ptr := s.hub.loop.nextPtr
          deadline := s.hub.clock + milliseconds s.hub.registrationTimeout
          callback := .handleStrandedMsgs ec.id ec.queue }
  | shutdown (incoming : Incoming) (htype : incoming.type = "shutdown_request") :
      Schedules wire s (.query incoming)
        { ptr := s.hub.loop.nextPtr
          deadline := s.hub.clock + milliseconds 1000
          callback := .shutdown }
  | beat (waiting : Time) :
      Schedules wire s (.beatScheduled waiting)
        { ptr := s.hub.loop.nextPtr
          deadline := s.hub.clock + waiting
          callback := .beat }

namespace Hub

/-- Queries other than a registration or a shutdown leave the loop alone. -/
theorem loop_dispatchQuery (wire : Wire) (alive : String → Bool) (hub : Hub) {incoming : Incoming}
    (hregistration : incoming.type ≠ "registration_request") (hshutdown : incoming.type ≠ "shutdown_request") :
    (hub.dispatchQuery wire alive incoming).loop = hub.loop := by
  have hanswers {hub' : Hub} (h : hub.Answers hub') : hub'.loop = hub.loop := by
    obtain ⟨messages, rfl, _⟩ := h
    rfl
  unfold dispatchQuery
  split
  · exact hanswers (hub.queueStatus_answers wire incoming)
  · exact hanswers (hub.getResults_answers wire incoming)
  · unfold purgeResults
    split
    · rfl
    · split
      · rfl
      · split <;> rfl
  · exact hanswers (hub.checkLoad_answers wire incoming)
  · contradiction
  · contradiction
  · unfold unregisterEngine
    split <;> rfl
  · rfl

/-- Finishing a registration queues nothing. -/
theorem queue_finishRegistration (hub : Hub) (heart : String) :
    (hub.finishRegistration heart).loop.queue = hub.loop.queue := by
  unfold finishRegistration
  split
  · rfl
  · rename_i ec _
    cases hcallback : ec.deletionCallback with
    | none => simp only [finishFound, hcallback]
    | some ptr => simp only [finishFound, hcallback, Loop.setInactive]

end Hub

namespace System

variable {wire : Wire} {s t : System} {e : Event}

/-- What an event does to the queue: its own timer, if it is the turn of one, leaves the queue, and what its
handler schedules joins it. -/
def QueueLaw (wire : Wire) (s : System) (e : Event) (t : System) : Prop :=
  ∀ timer, timer ∈ t.hub.loop.queue ↔
    timer ∈ s.hub.loop.queue ∧ e ≠ .timeout timer.ptr ∨ s.Schedules wire e timer

/-- A handler which queues nothing. -/
theorem QueueLaw.of_same (hturn : ∀ ptr, e ≠ .timeout ptr) (hqueue : t.hub.loop.queue = s.hub.loop.queue)
    (hnone : ∀ timer, ¬s.Schedules wire e timer) : QueueLaw wire s e t := by
  intro timer
  rw [hqueue, or_iff_left (hnone timer), and_iff_left (hturn timer.ptr)]

/-- A handler which queues one timer. -/
theorem QueueLaw.of_added {new : DeadlineTimer Callback} (hturn : ∀ ptr, e ≠ .timeout ptr)
    (hqueue : t.hub.loop.queue = s.hub.loop.queue ++ [new])
    (honly : ∀ timer, s.Schedules wire e timer ↔ timer = new) : QueueLaw wire s e t := by
  intro timer
  rw [hqueue, List.mem_append, List.mem_singleton, honly, and_iff_left (hturn timer.ptr)]

/-- A registration request queues the timer of the registration that it leaves waiting, if it does. -/
theorem queueLaw_registerEngine {incoming : Incoming} (htype : incoming.type = "registration_request")
    (ht : t.hub = s.hub.registerEngine wire (fun h => decide (h ∈ s.hearts)) incoming) :
    QueueLaw wire s (.query incoming) t := by
  have hquery : ∀ ptr, Event.query incoming ≠ .timeout ptr := fun _ h => by cases h
  cases hparse : wire.registration incoming.header with
  | none =>
    apply QueueLaw.of_same hquery
    · simp only [ht, Hub.registerEngine, hparse]
    · intro timer hschedules
      cases hschedules with
      | purge incoming msg htype hparse' hfree hdead => simp [hparse] at hparse'
      | shutdown incoming htype' => simp [htype] at htype'
  | some msg =>
    rw [Hub.registerEngine_eq hparse] at ht
    cases htaken : Hub.namesTaken s.hub.tracker msg.queue msg.heartbeat with
    | true =>
      rw [htaken, if_pos rfl] at ht
      apply QueueLaw.of_same hquery
      · rw [ht, Hub.nextId]
      · intro timer hschedules
        cases hschedules with
        | purge incoming msg' htype hparse' hfree hdead =>
          cases hparse.symm.trans hparse'
          rw [Hub.namesTaken_eq_false.mpr hfree] at htaken
          cases htaken
        | shutdown incoming htype' => simp [htype] at htype'
    | false =>
      rw [htaken, if_neg Bool.false_ne_true] at ht
      by_cases halive : msg.heartbeat ∈ s.hearts
      · rw [if_pos (decide_eq_true halive)] at ht
        apply QueueLaw.of_same hquery
        · rw [ht, Hub.queue_finishRegistration]
          rfl
        · intro timer hschedules
          cases hschedules with
          | purge incoming msg' htype hparse' hfree hdead =>
            cases hparse.symm.trans hparse'
            exact hdead halive
          | shutdown incoming htype' => simp [htype] at htype'
      · rw [if_neg (by simpa using halive)] at ht
        apply QueueLaw.of_added hquery
        · rw [ht, Loop.add]
        · intro timer
          constructor
          · intro hschedules
            cases hschedules with
            | purge incoming msg' htype hparse' hfree hdead =>
              cases hparse.symm.trans hparse'
              rfl
            | shutdown incoming htype' => simp [htype] at htype'
          · rintro rfl
            exact .purge incoming msg htype hparse (Hub.namesTaken_eq_false.mp htaken) halive

/-- A heart that fails queues the timer for the tasks of its engine, if it has one. -/
theorem queueLaw_heartFails {heart : String} (registry : RegistryInvariant s.hub) (timed : WaitingTimed s)
    (ht : t.hub = s.hub.handleHeartFailure heart) : QueueLaw wire s (.heartFails heart) t := by
  have hfails : ∀ ptr, Event.heartFails heart ≠ .timeout ptr := fun _ h => by cases h
  rw [Hub.handleHeartFailure] at ht
  cases hheart : s.hub.tracker.engines.findHeart heart with
  | none =>
    rw [hheart] at ht
    apply QueueLaw.of_same hfails
    · rw [ht]
    · intro timer hschedules
      cases hschedules with
      | stranded ec hmem => exact EngineConnectorSet.findHeart_eq_none.mp hheart ec hmem rfl
  | some ec =>
    obtain ⟨hmem, rfl⟩ := EngineConnectorSet.findHeart_some hheart
    simp only [hheart, Hub._unregisterEngine, KeyedTable.find?_eq_some.mpr ⟨hmem, rfl⟩] at ht
    apply QueueLaw.of_added hfails
    · rw [ht, Loop.add]
    · intro timer
      constructor
      · intro hschedules
        generalize hsame : ec.heartbeat = heart at hschedules
        cases hschedules with
        | stranded ec' hmem' =>
          have heq : ec = ec' := registry.heart_unique ec (timed.engine_incoming ec hmem) ec'
            (timed.engine_incoming ec' hmem') hsame
          rw [heq]
      · rintro rfl
        exact .stranded ec hmem

/-- Every event keeps the law of the queue. -/
theorem step_queueLaw (registry : RegistryInvariant s.hub) (timed : WaitingTimed s)
    (h : Step wire s e t) : QueueLaw wire s e t := by
  cases e with
  | tick now =>
    cases h
    exact .of_same (fun _ h => by cases h) rfl fun _ h => by cases h
  | query incoming =>
    cases h
    by_cases hregistration : incoming.type = "registration_request"
    · apply queueLaw_registerEngine hregistration
      simp only [Hub.dispatchQuery, hregistration]
    · by_cases hshutdown : incoming.type = "shutdown_request"
      · apply QueueLaw.of_added fun _ h => by cases h
        · simp only [Hub.dispatchQuery, hshutdown, Hub.shutdownRequest, Loop.add]
          rfl
        · intro timer
          constructor
          · intro hschedules
            cases hschedules with
            | purge incoming msg htype hparse hfree hdead => exact absurd htype hregistration
            | shutdown incoming htype => rfl
          · rintro rfl
            exact .shutdown incoming hshutdown
      · apply QueueLaw.of_same fun _ h => by cases h
        · rw [Hub.loop_dispatchQuery wire _ s.hub hregistration hshutdown]
        · intro timer hschedules
          cases hschedules with
          | purge incoming msg htype hparse hfree hdead => exact hregistration htype
          | shutdown incoming htype => exact hshutdown htype
  | monitor incoming =>
    obtain ⟨ttracker, _, rfl⟩ := Option.map_eq_some_iff.mp h
    exact .of_same (fun _ h => by cases h) rfl fun _ h => by cases h
  | heartAppears heart =>
    obtain ⟨_, h⟩ := (Option.ite_none_left_eq_some).mp h
    cases h
    apply QueueLaw.of_same fun _ h => by cases h
    · unfold Hub.handleNewHeart
      split
      · rfl
      · exact Hub.queue_finishRegistration s.hub heart
    · intro timer hschedules
      cases hschedules
  | heartFails heart =>
    obtain ⟨_, h⟩ := (Option.ite_none_right_eq_some).mp h
    cases h
    exact queueLaw_heartFails registry timed rfl
  | beatScheduled waiting =>
    cases h
    apply QueueLaw.of_added fun _ h => by cases h
    · simp only [Hub.scheduleBeat, Loop.add]
      rfl
    · intro timer
      constructor
      · intro hschedules
        cases hschedules
        rfl
      · rintro rfl
        exact .beat waiting
  | timeout ptr =>
    obtain ⟨hub, htimeout, rfl⟩ := Option.map_eq_some_iff.mp h
    have hqueue : hub.loop.queue = (s.hub.loop.pop ptr).queue := by
      obtain ⟨timer, _, _, ⟨_, hrun⟩ | ⟨_, rfl⟩⟩ := Hub.timeout_cases htimeout
      · rw [(Hub.loop_runCallback hrun).1]
      · rfl
    intro timer
    rw [hqueue, Loop.mem_pop]
    constructor
    · intro hmem
      exact .inl ⟨hmem.1, fun heq => hmem.2 (Event.timeout.inj heq).symm⟩
    · rintro (⟨hmem, hne⟩ | hschedules)
      · exact ⟨hmem, fun heq => hne (heq ▸ rfl)⟩
      · cases hschedules

end System

namespace System.Schedules

variable {wire : Wire} {s : System} {e : Event} {timer : DeadlineTimer Callback}

/-- A new timer is a fresh object. -/
theorem ptr_eq (h : s.Schedules wire e timer) : timer.ptr = s.hub.loop.nextPtr := by
  cases h <;> rfl

end System.Schedules

/-- What becomes of queued timers: the deactivated ones are those of finished registrations, and the timer
which a registration knows is the one that would purge it. -/
structure TimerFates (hub : Hub) : Prop where
  inactive_finished : ∀ ptr, hub.loop.active ptr = false →
    ∃ ec ∈ hub.tracker.incomingRegistrations, ec.deletionCallback = some ptr ∧ hub.Finished ec.id
  finished_inactive : ∀ ec ∈ hub.tracker.incomingRegistrations, hub.Finished ec.id →
    ∀ ptr, ec.deletionCallback = some ptr → hub.loop.active ptr = false
  callback_purges : ∀ timer ∈ hub.loop.queue, ∀ ec ∈ hub.tracker.incomingRegistrations,
    ec.deletionCallback = some timer.ptr → timer.Purges ec.heartbeat

namespace TimerFates

variable {wire : Wire} {s t : System} {e : Event}

/-- A new hub has no timers. -/
theorem create (interval : ℤ) : TimerFates (Hub.create interval) where
  inactive_finished ptr h := absurd (decide_eq_true (Finset.notMem_empty ptr)) (Bool.eq_false_iff.mp h)
  finished_inactive _ h := absurd h (KeyedTable.notMem_empty _)
  callback_purges _ h := absurd h List.not_mem_nil

/-- Steps which leave the registrations alone queue at most fresh timers. -/
theorem untouched (inv : TimerFates s.hub) (identity : TimerIdentity s.hub)
    (hqueue : System.QueueLaw wire s e t) (h : Untouched s t) : TimerFates t.hub where
  inactive_finished ptr hinactive := by
    rw [Loop.active, h.inactive] at hinactive
    simp only [h.incoming, h.finished]
    exact inv.inactive_finished ptr hinactive
  finished_inactive ec hec hfinished := by
    rw [h.incoming] at hec
    rw [h.finished] at hfinished
    simp only [Loop.active, h.inactive]
    exact inv.finished_inactive ec hec hfinished
  callback_purges timer htimer ec hec hcallback := by
    rw [h.incoming] at hec
    rcases (hqueue timer).mp htimer with ⟨hold, _⟩ | hschedules
    · exact inv.callback_purges timer hold ec hec hcallback
    · have hlt := identity.callback_lt ec hec timer.ptr hcallback
      rw [hschedules.ptr_eq] at hlt
      exact absurd hlt (lt_irrefl _)

/-- A registration that begins to wait knows the timer which has just been queued. -/
theorem accepted (inv : TimerFates s.hub) (registry : RegistryInvariant s.hub)
    (identity : TimerIdentity s.hub) {ec : EngineConnector} {now waiting : Time}
    (haccept : Accepts s.hub t.hub ec) (hcallback : ec.deletionCallback = some s.hub.loop.nextPtr)
    (hloop : t.hub.loop = s.hub.loop.add now waiting (.purgeStalledRegistration ec.heartbeat)) :
    TimerFates t.hub := by
  have hincoming {c : EngineConnector} : c ∈ t.hub.tracker.incomingRegistrations ↔
      c ∈ s.hub.tracker.incomingRegistrations ∨ c = ec := registry.mem_incoming_accepts haccept
  have hfinished {eid : ℤ} : t.hub.Finished eid ↔ s.hub.Finished eid :=
    WaitingTimed.finished_accepts haccept eid
  have hactive : ∀ ptr, t.hub.loop.active ptr = s.hub.loop.active ptr := by
    intro ptr
    rw [hloop]
    rfl
  refine ⟨?_, ?_, ?_⟩
  · intro ptr hinactive
    rw [hactive] at hinactive
    obtain ⟨c, hc, hptr, hdone⟩ := inv.inactive_finished ptr hinactive
    exact ⟨c, hincoming.mpr (.inl hc), hptr, hfinished.mpr hdone⟩
  · intro c hc hdone ptr hptr
    rw [hfinished] at hdone
    rw [hactive]
    rcases hincoming.mp hc with hold | rfl
    · exact inv.finished_inactive c hold hdone ptr hptr
    · exact absurd hdone (WaitingTimed.not_finished_accepts registry haccept)
  · intro timer htimer c hc hptr
    rw [hloop, Loop.mem_add] at htimer
    rcases htimer with hold | rfl
    · have hlt := identity.queued_lt timer hold
      rcases hincoming.mp hc with holdRegistration | rfl
      · exact inv.callback_purges timer hold c holdRegistration hptr
      · rw [Option.some.inj (hptr.symm.trans hcallback)] at hlt
        exact absurd hlt (lt_irrefl _)
    · rcases hincoming.mp hc with holdRegistration | rfl
      · exact absurd (identity.callback_lt c holdRegistration _ hptr) (lt_irrefl _)
      · rfl

/-- A registration that is finished at once has no timer. -/
theorem started (inv : TimerFates s.hub) (registry : RegistryInvariant s.hub) {mid : Hub}
    {ec : EngineConnector} (haccept : Accepts s.hub mid ec) (hfinish : Finishes mid t.hub ec)
    (hcallback : ec.deletionCallback = none) (hloop : t.hub.loop = s.hub.loop) : TimerFates t.hub := by
  have hincoming {c : EngineConnector} : c ∈ t.hub.tracker.incomingRegistrations ↔
      c ∈ s.hub.tracker.incomingRegistrations ∨ c = ec := by
    rw [hfinish.tracker]
    exact registry.mem_incoming_accepts haccept
  have hfinished {eid : ℤ} : t.hub.Finished eid ↔ s.hub.Finished eid ∨ eid = ec.id := by
    rw [WaitingTimed.finished_finishes hfinish, WaitingTimed.finished_accepts haccept]
  have hold {c : EngineConnector} {ptr : ℕ} (hc : c ∈ t.hub.tracker.incomingRegistrations)
      (hptr : c.deletionCallback = some ptr) : c ∈ s.hub.tracker.incomingRegistrations := by
    apply (hincoming.mp hc).resolve_right
    rintro rfl
    rw [hcallback] at hptr
    cases hptr
  refine ⟨?_, ?_, ?_⟩
  · intro ptr hinactive
    rw [hloop] at hinactive
    obtain ⟨c, hc, hptr, hdone⟩ := inv.inactive_finished ptr hinactive
    exact ⟨c, hincoming.mpr (.inl hc), hptr, hfinished.mpr (.inl hdone)⟩
  · intro c hc hdone ptr hptr
    rw [hloop]
    have hmem := hold hc hptr
    rcases hfinished.mp hdone with hbefore | heq
    · exact inv.finished_inactive c hmem hbefore ptr hptr
    · have hlt := registry.incoming_lt c hmem
      rw [heq, haccept.id_eq] at hlt
      exact absurd hlt (lt_irrefl _)
  · intro timer htimer c hc hptr
    rw [hloop] at htimer
    exact inv.callback_purges timer htimer c (hold hc hptr) hptr

/-- Whatever finishes a registration deactivates its timer and no other. -/
theorem finished (inv : TimerFates s.hub) {ec : EngineConnector} (hfinish : Finishes s.hub t.hub ec)
    (hqueue : t.hub.loop.queue = s.hub.loop.queue)
    (hinactive : ∀ ptr, t.hub.loop.active ptr = true ↔
      s.hub.loop.active ptr = true ∧ ec.deletionCallback ≠ some ptr) : TimerFates t.hub := by
  have hincoming : t.hub.tracker.incomingRegistrations = s.hub.tracker.incomingRegistrations := by
    rw [hfinish.tracker]
  have hfinished {eid : ℤ} : t.hub.Finished eid ↔ s.hub.Finished eid ∨ eid = ec.id :=
    WaitingTimed.finished_finishes hfinish eid
  have hoff {ptr : ℕ} : t.hub.loop.active ptr = false ↔
      s.hub.loop.active ptr = false ∨ ec.deletionCallback = some ptr := by
    rw [← Bool.not_eq_true, hinactive, not_and_or, Bool.not_eq_true, not_not]
  refine ⟨?_, ?_, ?_⟩
  · intro ptr hptr
    rw [hincoming]
    rcases hoff.mp hptr with hbefore | hown
    · obtain ⟨c, hc, hcallback, hdone⟩ := inv.inactive_finished ptr hbefore
      exact ⟨c, hc, hcallback, hfinished.mpr (.inl hdone)⟩
    · exact ⟨ec, hfinish.mem, hown, hfinished.mpr (.inr rfl)⟩
  · intro c hc hdone ptr hptr
    rw [hincoming] at hc
    rcases hfinished.mp hdone with hbefore | heq
    · exact hoff.mpr (.inl (inv.finished_inactive c hc hbefore ptr hptr))
    · rw [KeyedTable.eq_of_key_eq hc hfinish.mem heq] at hptr
      exact hoff.mpr (.inr hptr)
  · rw [hincoming, hqueue]
    exact inv.callback_purges

/-- What is purged has not been finished. -/
theorem purged (inv : TimerFates s.hub) (registry : RegistryInvariant s.hub) (timed : WaitingTimed s)
    {timer : DeadlineTimer Callback} {ec : EngineConnector} (htimer : timer ∈ s.hub.loop.queue)
    (hactive : s.hub.loop.active timer.ptr = true) (hpurges : timer.Purges ec.heartbeat)
    (hmem : ec ∈ s.hub.tracker.incomingRegistrations)
    (htracker : t.hub.tracker = { s.hub.tracker with
      incomingRegistrations := s.hub.tracker.incomingRegistrations.erase ec.id })
    (hlog : t.hub.log = s.hub.log ++ [.purging ec.id])
    (hloop : t.hub.loop = s.hub.loop.pop timer.ptr) : TimerFates t.hub := by
  have hincoming {c : EngineConnector} : c ∈ t.hub.tracker.incomingRegistrations ↔
      c ∈ s.hub.tracker.incomingRegistrations ∧ c.id ≠ ec.id := by
    rw [htracker, KeyedTable.mem_erase]
  have hfinished {eid : ℤ} : t.hub.Finished eid ↔ s.hub.Finished eid := by
    rw [Hub.Finished, Hub.Finished, hlog, List.mem_append]
    simp
  have hoff : ∀ ptr, t.hub.loop.active ptr = s.hub.loop.active ptr := by
    intro ptr
    rw [hloop]
    rfl
  have hwaiting : ¬s.hub.Finished ec.id := by
    obtain ⟨c, hc, -, hheart, hwaiting⟩ := timed.has_registration timer htimer hactive _ hpurges
    rw [registry.heart_unique c hc ec hmem hheart] at hwaiting
    exact hwaiting
  refine ⟨?_, ?_, ?_⟩
  · intro ptr hptr
    rw [hoff] at hptr
    obtain ⟨c, hc, hcallback, hdone⟩ := inv.inactive_finished ptr hptr
    exact ⟨c, hincoming.mpr ⟨hc, fun heq => hwaiting (heq ▸ hdone)⟩, hcallback, hfinished.mpr hdone⟩
  · intro c hc hdone ptr hptr
    rw [hoff]
    exact inv.finished_inactive c (hincoming.mp hc).1 (hfinished.mp hdone) ptr hptr
  · intro other hother c hc hptr
    rw [hloop, Loop.mem_pop] at hother
    exact inv.callback_purges other hother.1 c (hincoming.mp hc).1 hptr

/-- Every event keeps the fates. -/
theorem step (inv : TimerFates s.hub) (registry : RegistryInvariant s.hub) (timed : WaitingTimed s)
    (identity : TimerIdentity s.hub) (h : System.Step wire s e t) : TimerFates t.hub := by
  cases System.step_waiting registry timed.ptr_nodup h with
  | untouched hsame => exact inv.untouched identity (System.step_queueLaw registry timed h) hsame
  | accepted ec now waiting haccept _ _ hcallback hloop =>
    exact inv.accepted registry identity haccept hcallback hloop
  | started mid ec haccept hfinish hcallback _ hloop =>
    exact inv.started registry haccept hfinish hcallback hloop
  | finished ec hfinish _ hqueue hinactive => exact inv.finished hfinish hqueue hinactive
  | purged timer ec htimer hactive hpurges hmem htracker hlog _ hloop =>
    exact inv.purged registry timed htimer hactive hpurges hmem htracker hlog hloop

/-- The fates are settled so in every state that a run reaches. -/
theorem reachable {interval : ℤ} (h : Reachable (System.Step wire) (System.initial interval) s) :
    TimerFates s.hub := by
  apply h.induct (fun s : System => TimerFates s.hub) (create interval)
  intro s e t hs inv hstep
  exact inv.step (.reachable hs) (.reachable hs) (.reachable hs) hstep

end TimerFates

namespace System

variable {wire : Wire} {interval : ℤ} {s t : System} {e : Event}

/-- What has been sent stays sent. -/
theorem sent_grows (registry : RegistryInvariant s.hub) (h : Step wire s e t) :
    s.hub.sent <+: t.hub.sent := by
  have hfinishes {hub hub' : Hub} {ec : EngineConnector} (hfinish : Finishes hub hub' ec) :
      hub.sent <+: hub'.sent := by
    rw [hfinish.sent]
    exact List.prefix_append _ _
  cases step_registry registry.incoming_lt h with
  | calm hcalm _ =>
    obtain ⟨messages, hsent, _⟩ := hcalm.sent
    rw [hsent]
    exact List.prefix_append _ _
  | refused _ _ hsent _ => rw [hsent]
  | accepted ec haccept _ => rw [haccept.sent]
  | started mid ec haccept hfinish _ =>
    rw [← haccept.sent]
    exact hfinishes hfinish
  | finished ec hfinish _ => exact hfinishes hfinish
  | purged ec _ _ _ hsent _ => rw [hsent]

/-- What has been logged stays logged. -/
theorem log_grows (registry : RegistryInvariant s.hub) (h : Step wire s e t) :
    s.hub.log <+: t.hub.log := by
  cases step_registry registry.incoming_lt h with
  | calm hcalm _ =>
    obtain ⟨lines, hlog, _⟩ := hcalm.log
    rw [hlog]
    exact List.prefix_append _ _
  | refused _ hlog _ _ => rw [hlog]
  | accepted ec haccept _ =>
    rw [haccept.log]
    exact List.prefix_append _ _
  | started mid ec haccept hfinish _ =>
    rw [hfinish.log, haccept.log, List.append_assoc]
    exact List.prefix_append _ _
  | finished ec hfinish _ =>
    rw [hfinish.log]
    exact List.prefix_append _ _
  | purged ec _ _ hlog _ _ =>
    rw [hlog]
    exact List.prefix_append _ _

/-- So it is along every run. -/
theorem log_run (hs : Reachable (Step wire) (initial interval) s) {es : List Event}
    (hrun : Run (Step wire) s es t) : s.hub.log <+: t.hub.log := by
  apply Reachable.along (fun t : System => s.hub.log <+: t.hub.log) _ hs hrun List.prefix_rfl
  exact fun t e u ht hlog hstep => hlog.trans (log_grows (.reachable ht) hstep)

/-- What has been finished stays so. -/
theorem finished_run {es : List Event} {eid : ℤ} (hs : Reachable (Step wire) (initial interval) s)
    (hrun : Run (Step wire) s es t) (hfinished : s.hub.Finished eid) : t.hub.Finished eid :=
  (log_run hs hrun).subset hfinished

/-- No handler changes the time that a registration is given. -/
theorem registrationTimeout_step (h : Step wire s e t) :
    t.hub.registrationTimeout = s.hub.registrationTimeout := by
  cases e with
  | tick now =>
    cases h
    rfl
  | query incoming =>
    cases h
    exact (Hub.handles_dispatchQuery wire _ incoming s.hub {}).registrationTimeout
  | monitor incoming =>
    obtain ⟨ttracker, _, rfl⟩ := Option.map_eq_some_iff.mp h
    rfl
  | heartAppears heart =>
    obtain ⟨_, h⟩ := (Option.ite_none_left_eq_some).mp h
    cases h
    exact (Hub.handles_handleNewHeart heart s.hub {}).registrationTimeout
  | heartFails heart =>
    obtain ⟨_, h⟩ := (Option.ite_none_right_eq_some).mp h
    cases h
    exact (Hub.handles_handleHeartFailure heart s.hub {}).registrationTimeout
  | beatScheduled waiting =>
    cases h
    rfl
  | timeout ptr =>
    obtain ⟨hub, htimeout, rfl⟩ := Option.map_eq_some_iff.mp h
    obtain ⟨timer, _, _, ⟨_, hrun⟩ | ⟨_, rfl⟩⟩ := Hub.timeout_cases htimeout
    · exact (Hub.loop_runCallback hrun).2
    · rfl

/-- A registration is given twice the interval of the heartmonitor, and five seconds at least. -/
theorem registrationTimeout_reachable (hlow : -1073741824 ≤ interval) (hhigh : interval < 1073741824)
    (h : Reachable (Step wire) (initial interval) s) :
    s.hub.registrationTimeout = max 5000 (2 * interval) := by
  apply h.preserves (fun s : System => s.hub.registrationTimeout = max 5000 (2 * interval))
  · exact Hub.create_registrationTimeout hlow hhigh
  · intro s e t hs hstep
    exact (registrationTimeout_step hstep).trans hs

/-- At the turn of a queued timer the process goes on unless the timer is that of a shutdown. -/
theorem timeout_eq_none (h : Reachable (Step wire) (initial interval) s) {timer : DeadlineTimer Callback}
    (htimer : timer ∈ s.hub.loop.queue) :
    s.hub.timeout timer.ptr = none ↔ timer.callback = .shutdown := by
  have htimed := WaitingTimed.reachable h
  have hfates := TimerFates.reachable h
  have hturn : s.hub.timeout timer.ptr = if s.hub.loop.active timer.ptr then
      { s.hub with loop := s.hub.loop.pop timer.ptr }.runCallback timer.callback else
      some { s.hub with loop := s.hub.loop.pop timer.ptr } := by
    simp only [Hub.timeout, Loop.find?_timer htimed.ptr_nodup htimer]
    rfl
  rw [hturn]
  cases hactive : s.hub.loop.active timer.ptr with
  | true =>
    rw [if_pos rfl]
    cases hcallback : timer.callback <;> simp [Hub.runCallback]
  | false =>
    rw [if_neg Bool.false_ne_true]
    obtain ⟨ec, hec, hptr, -⟩ := hfates.inactive_finished timer.ptr hactive
    have hpurges : timer.callback = .purgeStalledRegistration ec.heartbeat :=
      hfates.callback_purges timer htimer ec hec hptr
    simp [hpurges]

/-- The timer of a shutdown request is never taken while the process goes on. -/
theorem shutdown_kept {s u : System} {es : List Event} (hs : Reachable (Step wire) (initial interval) s)
    (hrun : Run (Step wire) s es u) {timer : DeadlineTimer Callback} (htimer : timer ∈ s.hub.loop.queue)
    (hcallback : timer.callback = .shutdown) : timer ∈ u.hub.loop.queue := by
  apply Reachable.along (fun s : System => timer ∈ s.hub.loop.queue) _ hs hrun htimer
  intro s e t hreach htimer hstep
  apply (step_queueLaw (.reachable hreach) (.reachable hreach) hstep timer).mpr
  refine .inl ⟨htimer, ?_⟩
  rintro rfl
  obtain ⟨hub, htimeout, -⟩ := Option.map_eq_some_iff.mp hstep
  rw [(timeout_eq_none hreach htimer).mpr hcallback] at htimeout
  cases htimeout

/-- The queue holds what has been scheduled and whose turn has not come since. -/
theorem queued_iff {es : List Event} (hrun : Run (Step wire) (initial interval) es s)
    (timer : DeadlineTimer Callback) : timer ∈ s.hub.loop.queue ↔
      ∃ before e after u v, es = before ++ e :: after ∧ Run (Step wire) (initial interval) before u ∧
        Step wire u e v ∧ Run (Step wire) v after s ∧ u.Schedules wire e timer ∧
        ∀ d ∈ after, d ≠ .timeout timer.ptr := by
  apply hrun.inertia (Reachable (Step wire) (initial interval)) (fun s => timer ∈ s.hub.loop.queue)
  · intro s e t hs hstep
    obtain ⟨before, hbefore⟩ := hs
    exact ⟨before ++ [e], hbefore.append (.single hstep)⟩
  · intro s e t hs hstep
    rw [step_queueLaw (.reachable hs) (.reachable hs) hstep timer]
  · exact ⟨[], .nil _⟩
  · exact List.not_mem_nil

/-- What a run has sent begins with what had been sent before it. -/
theorem sent_prefix {u : System} {es : List Event} (hs : Reachable (Step wire) (initial interval) s)
    (hrun : Run (Step wire) s es u) : s.hub.sent <+: u.hub.sent := by
  apply Reachable.along (fun u : System => s.hub.sent <+: u.hub.sent) _ hs hrun List.prefix_rfl
  exact fun t e u ht hsent hstep => hsent.trans (sent_grows (.reachable ht) hstep)

end System

/-- In every run from the start, the queue of timers holds exactly what the handlers of the run have
scheduled and whose turn has not come since; and a registration is always given the same time. -/
theorem timer_queued_iff {wire : Wire} {interval : ℤ} (hlow : -1073741824 ≤ interval)
    (hhigh : interval < 1073741824) {es : List Event} {s : System}
    (hrun : Run (System.Step wire) (System.initial interval) es s) (timer : DeadlineTimer Callback) :
    timer ∈ s.hub.loop.queue ↔ ∃ before e after u v, es = before ++ e :: after ∧
      Run (System.Step wire) (System.initial interval) before u ∧ System.Step wire u e v ∧
      Run (System.Step wire) v after s ∧ u.hub.registrationTimeout = max 5000 (2 * interval) ∧
      u.Schedules wire e timer ∧ .timeout timer.ptr ∉ after := by
  rw [System.queued_iff hrun timer]
  constructor
  · rintro ⟨before, e, after, u, v, hsplit, hbefore, hstep, hafter, hschedules, hsince⟩
    have htimeout := System.registrationTimeout_reachable hlow hhigh ⟨before, hbefore⟩
    exact ⟨before, e, after, u, v, hsplit, hbefore, hstep, hafter, htimeout, hschedules,
      fun hin => hsince _ hin rfl⟩
  · rintro ⟨before, e, after, u, v, hsplit, hbefore, hstep, hafter, -, hschedules, hsince⟩
    refine ⟨before, e, after, u, v, hsplit, hbefore, hstep, hafter, hschedules, ?_⟩
    intro d hd heq
    exact hsince (heq ▸ hd)

/-- The registration of the session waits two beats or five seconds, whichever is more, for its heart. -/
theorem timer_queued_session :
    ∃ s before e after u v, [.query .register, .tick 3] = before ++ e :: after ∧
      Run (System.Step .session) (System.initial 2000) before u ∧ System.Step .session u e v ∧
      Run (System.Step .session) v after s ∧ u.hub.registrationTimeout = max 5000 (2 * 2000) ∧
      u.Schedules .session e ⟨0, 5000000, .purgeStalledRegistration "h"⟩ ∧ .timeout 0 ∉ after := by
  obtain ⟨s, hrun, hqueued⟩ := System.exists_run .session (.initial 2000) [.query .register, .tick 3]
    (fun s => ⟨0, 5000000, .purgeStalledRegistration "h"⟩ ∈ s.hub.loop.queue) (by decide +kernel)
  exact ⟨s, (timer_queued_iff (by decide) (by decide) hrun
    ⟨0, 5000000, .purgeStalledRegistration "h"⟩).mp hqueued⟩

/-- A queued timer comes to nothing at its turn exactly if it is the one of a registration that has been
finished, whose purge it was to be. -/
theorem timer_inactive_iff {wire : Wire} {interval : ℤ} {s : System}
    (hreach : Reachable (System.Step wire) (System.initial interval) s) {timer : DeadlineTimer Callback}
    (htimer : timer ∈ s.hub.loop.queue) :
    s.hub.loop.active timer.ptr = false ↔ ∃ ec ∈ s.hub.tracker.incomingRegistrations,
      s.hub.Finished ec.id ∧ ec.deletionCallback = some timer.ptr ∧ timer.Purges ec.heartbeat := by
  have hfates := TimerFates.reachable hreach
  constructor
  · intro hinactive
    obtain ⟨ec, hec, hptr, hdone⟩ := hfates.inactive_finished timer.ptr hinactive
    exact ⟨ec, hec, hdone, hptr, hfates.callback_purges timer htimer ec hec hptr⟩
  · intro hexists
    obtain ⟨ec, hec, hdone, hptr, -⟩ := hexists
    exact hfates.finished_inactive ec hec hdone timer.ptr hptr

/-- The heart of the session appears in time, so the purge of its registration comes to nothing. -/
theorem timer_inactive_session :
    ∃ s : System, ∃ ec ∈ s.hub.tracker.incomingRegistrations, s.hub.Finished ec.id ∧
      ec.deletionCallback = some 0 ∧ ec.heartbeat = "h" := by
  obtain ⟨s, hrun, hqueued, hinactive⟩ := System.exists_run .session (.initial 2000)
    [.query .register, .heartAppears "h"]
    (fun s => ⟨0, 5000000, .purgeStalledRegistration "h"⟩ ∈ s.hub.loop.queue ∧ s.hub.loop.active 0 = false)
    (by decide +kernel)
  obtain ⟨ec, hec, hdone, hptr, hpurges⟩ := (timer_inactive_iff ⟨_, hrun⟩ hqueued).mp hinactive
  exact ⟨s, ec, hec, hdone, hptr, (Callback.purgeStalledRegistration.inj hpurges).symm⟩

/-- In every run from the start, the process exits at the turn of a timer exactly if a shutdown has been
requested and the timer is the one of that request; it is due a second after the request, nothing takes it
back, and by then the request has been answered and announced. -/
theorem exits_iff_shutdown_requested {wire : Wire} {interval : ℤ} {es : List Event} {s : System}
    (hrun : Run (System.Step wire) (System.initial interval) es s) (timer : DeadlineTimer Callback) :
    timer ∈ s.hub.loop.queue ∧ s.hub.timeout timer.ptr = none ↔
      ∃ before incoming after u v, es = before ++ .query incoming :: after ∧
        Run (System.Step wire) (System.initial interval) before u ∧
        System.Step wire u (.query incoming) v ∧ Run (System.Step wire) v after s ∧
        incoming.type = "shutdown_request" ∧
        timer = ⟨u.hub.loop.nextPtr, u.hub.clock + milliseconds 1000, .shutdown⟩ ∧
        u.hub.sent ++ [⟨.query, none, [.text "shutdown_reply", .text "ok"]⟩,
          ⟨.notifier, none, [.text "shutdown_notification"]⟩] <+: s.hub.sent := by
  have hreach : Reachable (System.Step wire) (System.initial interval) s := ⟨es, hrun⟩
  have hhub {u v : System} {incoming : Incoming} (htype : incoming.type = "shutdown_request")
      (hstep : System.Step wire u (.query incoming) v) : v.hub = u.hub.shutdownRequest := by
    cases hstep
    simp only [Hub.dispatchQuery, htype]
  have hnext {before : List Event} {u v : System} {e : Event} (hstep : System.Step wire u e v)
      (hbefore : Run (System.Step wire) (System.initial interval) before u) :
      Reachable (System.Step wire) (System.initial interval) v :=
    ⟨before ++ [e], hbefore.append (.single hstep)⟩
  constructor
  · intro hexit
    obtain ⟨htimer, hnone⟩ := hexit
    have hcallback := (System.timeout_eq_none hreach htimer).mp hnone
    obtain ⟨before, e, after, u, v, hsplit, hbefore, hstep, hafter, hschedules, -⟩ :=
      (System.queued_iff hrun timer).mp htimer
    cases hschedules with
    | purge incoming msg htype hparse hfree hdead => cases hcallback
    | stranded ec hmem => cases hcallback
    | beat waiting => cases hcallback
    | shutdown incoming htype =>
      have hsent := System.sent_prefix (hnext hstep hbefore) hafter
      rw [hhub htype hstep] at hsent
      exact ⟨before, incoming, after, u, v, hsplit, hbefore, hstep, hafter, htype, rfl, hsent⟩
  · rintro ⟨before, incoming, after, u, v, -, hbefore, hstep, hafter, htype, rfl, -⟩
    have hadded : ⟨u.hub.loop.nextPtr, u.hub.clock + milliseconds 1000, .shutdown⟩ ∈ v.hub.loop.queue := by
      rw [hhub htype hstep]
      exact Loop.mem_add.mpr (.inr rfl)
    have hqueued := System.shutdown_kept (hnext hstep hbefore) hafter hadded rfl
    exact ⟨hqueued, (System.timeout_eq_none hreach hqueued).mpr rfl⟩

/-- A shutdown is requested; a second later by the clock the process exits. -/
theorem exits_shutdown_session :
    ∃ s before incoming after u v,
      [.query { type := "shutdown_request" }, .tick 1000000] = before ++ .query incoming :: after ∧
        Run (System.Step .session) (System.initial 2000) before u ∧
        System.Step .session u (.query incoming) v ∧ Run (System.Step .session) v after s ∧
        incoming.type = "shutdown_request" ∧
        ⟨0, 1000000, .shutdown⟩ =
          (⟨u.hub.loop.nextPtr, u.hub.clock + milliseconds 1000, .shutdown⟩ : DeadlineTimer Callback) ∧
        u.hub.sent ++ [⟨.query, none, [.text "shutdown_reply", .text "ok"]⟩,
          ⟨.notifier, none, [.text "shutdown_notification"]⟩] <+: s.hub.sent := by
  obtain ⟨s, hrun, hqueued, hexit⟩ := System.exists_run .session (.initial 2000)
    [.query { type := "shutdown_request" }, .tick 1000000]
    (fun s => ⟨0, 1000000, .shutdown⟩ ∈ s.hub.loop.queue ∧ (s.hub.timeout 0).isNone = true)
    (by decide +kernel)
  exact ⟨s, (exits_iff_shutdown_requested hrun ⟨0, 1000000, .shutdown⟩).mp
    ⟨hqueued, Option.isNone_iff_eq_none.mp hexit⟩⟩

end Gpf
