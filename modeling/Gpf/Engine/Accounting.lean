import Gpf.Controller.TimerCauses
import Gpf.Engine.Agreement

/-!
# No request and no acknowledgement is lost

Whatever the order of events, the request of an engine which has said hello is on its way to the hub, or
was refused for its names, or has become a registration. That waits, or was purged, or has been finished,
and then its acknowledgement is on its way to the engine or has made it registered. With names of their own,
and when no other peer registers, engines are never refused.
-/

namespace Gpf

open Transition

namespace System

variable {wire : Wire} {interval : ℤ} {s t : System} {e : Event} {es : List Event} {ec : EngineConnector}

/-- The registration is held, or it has been purged. -/
def Keeps (s : System) (ec : EngineConnector) : Prop :=
  ec ∈ s.hub.tracker.incomingRegistrations ∨ .purging ec.id ∈ s.hub.log

/-- Registrations are taken out by a purge alone. -/
theorem keeps_step (registry : RegistryInvariant s.hub) (h : Step wire s e t) (hkeeps : s.Keeps ec) :
    t.Keeps ec := by
  rcases hkeeps with hec | hpurged
  · cases step_registry registry.incoming_lt h with
    | calm hcalm _ => exact .inl (hcalm.incoming ▸ hec)
    | refused htracker _ _ _ =>
      left
      rw [htracker]
      exact hec
    | accepted new haccept _ => exact .inl ((registry.mem_incoming_accepts haccept).mpr (.inl hec))
    | started mid new haccept hfinish _ =>
      left
      rw [hfinish.tracker]
      exact (registry.mem_incoming_accepts haccept).mpr (.inl hec)
    | finished done hfinish _ =>
      left
      rw [hfinish.tracker]
      exact hec
    | purged gone _ htracker hlog _ _ =>
      by_cases hid : ec.id = gone.id
      · right
        rw [hlog, hid]
        exact List.mem_append_right _ (List.mem_singleton_self _)
      · left
        rw [htracker]
        exact KeyedTable.mem_erase.mpr ⟨hec, hid⟩
  · exact .inr ((log_grows registry h).subset hpurged)

/-- So they are along every run. -/
theorem keeps_run (hs : Reachable (Step wire) (initial interval) s) (hrun : Run (Step wire) s es t)
    (hkeeps : s.Keeps ec) : t.Keeps ec :=
  Reachable.along (fun s : System => s.Keeps ec)
    (fun _ _ _ hreach hkeeps h => keeps_step (.reachable hreach) h hkeeps) hs hrun hkeeps

/-- Every registration that is held and has been finished has been acknowledged. -/
def AcksSent (s : System) : Prop :=
  ∀ ec ∈ s.hub.tracker.incomingRegistrations, s.hub.Finished ec.id → Hub.registrationAck ec ∈ s.hub.sent

/-- Every event keeps it so. -/
theorem acksSent_step (registry : RegistryInvariant s.hub) (inv : s.AcksSent) (h : Step wire s e t) :
    t.AcksSent := by
  have hgrows := (sent_grows registry h).subset
  have hfinishes {mid : Hub} {done c : EngineConnector} (hfinish : Finishes mid t.hub done)
      (hc : c ∈ mid.tracker.incomingRegistrations) (hid : c.id = done.id) :
      Hub.registrationAck c ∈ t.hub.sent := by
    rw [KeyedTable.eq_of_key_eq hc hfinish.mem hid, hfinish.sent]
    exact List.mem_append_right _ (List.mem_cons_of_mem _ (List.mem_singleton_self _))
  intro c hc hdone
  cases step_registry registry.incoming_lt h with
  | calm hcalm _ =>
    rw [hcalm.incoming] at hc
    obtain ⟨lines, hlog, hlines⟩ := hcalm.log
    rw [Hub.Finished, hlog, List.mem_append] at hdone
    rcases hdone with hbefore | hline
    · exact hgrows (inv c hc hbefore)
    · obtain ⟨eid, heq⟩ := hlines _ hline
      cases heq
  | refused htracker hlog _ _ =>
    rw [htracker] at hc
    rw [Hub.Finished, hlog] at hdone
    exact hgrows (inv c hc hdone)
  | accepted new haccept _ =>
    rw [WaitingTimed.finished_accepts haccept] at hdone
    rcases (registry.mem_incoming_accepts haccept).mp hc with hold | rfl
    · exact hgrows (inv c hold hdone)
    · exact absurd hdone (WaitingTimed.not_finished_accepts registry haccept)
  | started mid new haccept hfinish _ =>
    rw [hfinish.tracker] at hc
    rw [WaitingTimed.finished_finishes hfinish, WaitingTimed.finished_accepts haccept] at hdone
    rcases hdone with hbefore | hid
    · rcases (registry.mem_incoming_accepts haccept).mp hc with hold | rfl
      · exact hgrows (inv c hold hbefore)
      · exact absurd hbefore (WaitingTimed.not_finished_accepts registry haccept)
    · exact hfinishes hfinish hc hid
  | finished done hfinish _ =>
    rw [hfinish.tracker] at hc
    rcases (WaitingTimed.finished_finishes hfinish c.id).mp hdone with hbefore | hid
    · exact hgrows (inv c hc hbefore)
    · exact hfinishes hfinish hc hid
  | purged gone _ htracker hlog _ _ =>
    rw [htracker] at hc
    rw [Hub.Finished, hlog, List.mem_append] at hdone
    exact hgrows (inv c (KeyedTable.mem_erase.mp hc).1 (hdone.resolve_right (by simp)))

/-- It is so in every state that a run reaches. -/
theorem acksSent_reachable (h : Reachable (Step wire) (initial interval) s) : s.AcksSent := by
  apply h.induct AcksSent fun _ hec => absurd hec (KeyedTable.notMem_empty _)
  exact fun s e t hs inv hstep => acksSent_step (.reachable hs) inv hstep

end System

/-- A registration request whose names are free becomes a registration. -/
theorem Hub.exists_admitted {wire : Wire} (alive : String → Bool) {hub : Hub} (registry : RegistryInvariant hub)
    {incoming : Incoming} {msg : Registration} (htype : incoming.type = "registration_request")
    (hparse : wire.registration incoming.header = some msg)
    (hfree : NamesFree hub.tracker msg.queue msg.heartbeat) :
    ∃ ec ∈ (hub.dispatchQuery wire alive incoming).tracker.incomingRegistrations,
      ec.id = hub.tracker.nextId ∧ ec.incomingMsg = incoming ∧ ec.queue = msg.queue ∧
        ec.heartbeat = msg.heartbeat ∧ ec.services = msg.services := by
  have hinserted (callback : Option ℕ) : connectorOf hub.tracker.nextId msg incoming callback ∈
      (hub.nextId.2.insertIncoming
        (connectorOf hub.tracker.nextId msg incoming callback)).tracker.incomingRegistrations :=
    KeyedTable.mem_insert.mpr (.inr ⟨rfl, fun c hc => (registry.incoming_lt c hc).ne⟩)
  simp only [dispatchQuery, htype]
  rw [registerEngine_eq hparse, namesTaken_eq_false.mpr hfree, if_neg Bool.false_ne_true]
  by_cases halive : alive msg.heartbeat = true
  · rw [if_pos halive]
    refine ⟨connectorOf hub.tracker.nextId msg incoming none, ?_, rfl, rfl, rfl, rfl, rfl⟩
    rw [incoming_finishRegistration]
    exact hinserted none
  · rw [if_neg halive]
    exact ⟨_, hinserted (some hub.loop.nextPtr), rfl, rfl, rfl, rfl, rfl⟩

/-- A name in use is that of an incoming registration, for engines are listed among these. -/
theorem Hub.exists_holder {hub : Hub} (hlisted : hub.Listed) {queue heart : String}
    (htaken : ¬NamesFree hub.tracker queue heart) :
    ∃ ec ∈ hub.tracker.incomingRegistrations, ec.queue = queue ∨ ec.heartbeat = heart := by
  by_contra hnone
  simp only [not_exists, not_and, not_or] at hnone
  apply htaken
  exact ⟨fun ec hec => (hnone ec (hlisted ec hec)).1, fun ec hec => (hnone ec (hlisted ec hec)).2,
    fun ec hec => (hnone ec hec).1, fun ec hec => (hnone ec hec).2⟩

/-- The event is not a registration request of another peer. -/
def NetworkEvent.Peaceful {ι : Type*} (e : NetworkEvent ι) : Prop :=
  ∀ incoming, e = .hub (.query incoming) → incoming.type ≠ "registration_request"

namespace Network

variable {ι : Type*} {T : Transport ι} {toIso : Time → String} {interval : ℤ}
  {clock lifetime tic lastPing : Time} {net after : Network ι} {es : List (NetworkEvent ι)}

/-- What the hub sees of hearts and registrations. -/
def view (net : Network ι) : System := net.controller.view

/-- The registration has been made from the request with which the engine has said hello. -/
structure MadeFrom (T : Transport ι) (i : ι) (msg : Registration) (ec : EngineConnector) : Prop where
  incomingMsg : ec.incomingMsg = T.helloRequest i msg
  queue : ec.queue = msg.queue
  heartbeat : ec.heartbeat = msg.heartbeat
  services : ec.services = msg.services

/-- A handler of the hub keeps what it holds. -/
theorem served_keeps (hnet : Reachable (Controller.Step T.wire toIso)
      (.create interval clock lifetime tic lastPing) net.controller)
    {e : ControllerEvent} {c : Controller} (hstep : Controller.Step T.wire toIso net.controller e c)
    {ec : EngineConnector} (hkeeps : net.view.Keeps ec) : (net.served c).view.Keeps ec := by
  obtain ⟨ds, hds⟩ := Controller.run_step hstep
  exact System.keeps_run (Controller.reachable_view hnet) hds hkeeps

/-- What the hub sends goes on its way. -/
theorem served_replies (hlisted : net.controller.hub.Listed) {e : ControllerEvent} {c : Controller}
    (hstep : Controller.Step T.wire toIso net.controller e c)
    (hreplies : ∀ m ∈ net.controller.hub.sent, m ∈ net.replies ∨
      ∃ i, m.envelope = some (T.envelope i) ∧ (m.Confirms → (net.engines i).registered = true)) :
    ∀ m ∈ (net.served c).controller.hub.sent, m ∈ (net.served c).replies ∨
      ∃ i, m.envelope = some (T.envelope i) ∧ (m.Confirms → ((net.served c).engines i).registered = true) := by
  obtain ⟨messages, hsent, -⟩ := Controller.acksListed hlisted hstep
  intro m hm
  have hmem : m ∈ net.controller.hub.sent ∨ m ∈ messages := by
    rw [← List.mem_append, ← hsent]
    exact hm
  rw [served, hsent, List.drop_left, List.mem_append]
  rcases hmem with hold | hnew
  · exact (hreplies m hold).imp_left .inl
  · exact .inl (.inr hnew)

section Accounting

variable [DecidableEq ι]

/-- The hub has served the request of the engine while one of its names was in use. -/
def Refused (T : Transport ι) (toIso : Time → String) (origin : Network ι) (i : ι) (msg : Registration)
    (es : List (NetworkEvent ι)) (net : Network ι) : Prop :=
  ∃ first rest before after, es = first ++ .request (T.helloRequest i msg) :: rest ∧
    Run (Step T toIso) origin first before ∧
    Step T toIso before (.request (T.helloRequest i msg)) after ∧ Run (Step T toIso) after rest net ∧
    ¬NamesFree before.controller.hub.tracker msg.queue msg.heartbeat

/-- What was refused stays so. -/
theorem Refused.step {origin : Network ι} {i : ι} {msg : Registration} {e : NetworkEvent ι}
    (h : Refused T toIso origin i msg es net) (hstep : Step T toIso net e after) :
    Refused T toIso origin i msg (es ++ [e]) after := by
  obtain ⟨first, rest, before, served, rfl, hrun, hrefused, hrest, htaken⟩ := h
  exact ⟨first, rest ++ [e], before, served, by rw [List.append_assoc, List.cons_append], hrun, hrefused,
    hrest.append (.single hstep), htaken⟩

/-- The hub has served the request of the engine, and the registration has joined then: it was not held
before, nor has any under its id been purged. -/
def Admitted (T : Transport ι) (toIso : Time → String) (origin : Network ι) (i : ι) (msg : Registration)
    (ec : EngineConnector) (es : List (NetworkEvent ι)) (net : Network ι) : Prop :=
  ∃ first rest before after, es = first ++ .request (T.helloRequest i msg) :: rest ∧
    Run (Step T toIso) origin first before ∧
    Step T toIso before (.request (T.helloRequest i msg)) after ∧ Run (Step T toIso) after rest net ∧
    ec ∉ before.controller.hub.tracker.incomingRegistrations ∧
    .purging ec.id ∉ before.controller.hub.log ∧
    ec ∈ after.controller.hub.tracker.incomingRegistrations

/-- What has joined has done so in every longer run. -/
theorem Admitted.step {origin : Network ι} {i : ι} {msg : Registration} {ec : EngineConnector}
    {e : NetworkEvent ι} (h : Admitted T toIso origin i msg ec es net) (hstep : Step T toIso net e after) :
    Admitted T toIso origin i msg ec (es ++ [e]) after := by
  obtain ⟨first, rest, before, served, rfl, hrun, hadmits, hrest, hjoins⟩ := h
  exact ⟨first, rest ++ [e], before, served, by rw [List.append_assoc, List.cons_append], hrun, hadmits,
    hrest.append (.single hstep), hjoins⟩

/-- Every request is on its way, was refused, or has become a registration that is kept. -/
structure Accounted (T : Transport ι) (toIso : Time → String) (origin : Network ι)
    (es : List (NetworkEvent ι)) (net : Network ι) : Prop where
  run : Run (Step T toIso) origin es net
  honest : Honest T toIso origin.controller net
  requests : ∀ i msg, (net.engines i).hello = some msg → T.helloRequest i msg ∈ net.requests ∨
    Refused T toIso origin i msg es net ∨
      ∃ ec, MadeFrom T i msg ec ∧ Admitted T toIso origin i msg ec es net ∧ net.view.Keeps ec
  replies : ∀ m ∈ net.controller.hub.sent, m ∈ net.replies ∨
    ∃ i, m.envelope = some (T.envelope i) ∧ (m.Confirms → (net.engines i).registered = true)

/-- Exchanging an engine for one that has sent the same changes nothing of what all have sent. -/
theorem hello_setEngine_eq {j : ι} {engine : Engine} (h : engine.hello = (net.engines j).hello) (i : ι) :
    ((net.setEngine j engine).engines i).hello = (net.engines i).hello := by
  by_cases hij : i = j
  · subst hij
    simp only [setEngine, Function.update_self, h]
  · simp only [setEngine, Function.update_of_ne hij]

/-- An engine that is registered stays so whatever reply it reads. -/
theorem registered_dispatchRegistration {engine engine' : Engine} {frames : List Frame}
    (h : engine.dispatchRegistration frames = some engine') (hregistered : engine.registered = true) :
    engine'.registered = true := by
  unfold Engine.dispatchRegistration at h
  split at h
  · split at h
    · cases h
      rfl
    · cases h
  · cases h
    exact hregistered

/-- A reply under the tag of a registration, if the engine survives it, makes it registered. -/
theorem registered_of_confirms {engine engine' : Engine} {m : Sent}
    (h : engine.dispatchRegistration m.frames = some engine') (hconfirms : m.Confirms) :
    engine'.registered = true := by
  rw [Sent.Confirms] at hconfirms
  rw [Engine.dispatchRegistration, if_pos hconfirms] at h
  split at h
  · cases h
    rfl
  · cases h

namespace Accounted

variable {e : NetworkEvent ι}

/-- Before any engine runs there is nothing to account for. -/
theorem initial (T : Transport ι) (toIso : Time → String) (interval : ℤ)
    (clock lifetime tic lastPing : Time) :
    Accounted T toIso (.initial interval clock lifetime tic lastPing) []
      (.initial interval clock lifetime tic lastPing) where
  run := .nil _
  honest := .initial T toIso interval clock lifetime tic lastPing
  requests _ _ h := by cases h
  replies _ h := absurd h List.not_mem_nil

/-- A step at the engines, after which every request is still on its way, loses none. -/
theorem of_engines
    (inv : Accounted T toIso (.initial interval clock lifetime tic lastPing) es net)
    (h : Step T toIso net e after) (hcontroller : after.controller = net.controller)
    (hhello : ∀ i msg, (after.engines i).hello = some msg → (net.engines i).hello = some msg ∨
      T.helloRequest i msg ∈ after.requests)
    (hrequests : ∀ incoming ∈ net.requests, incoming ∈ after.requests)
    (hreplies : ∀ m ∈ net.controller.hub.sent, m ∈ after.replies ∨
      ∃ i, m.envelope = some (T.envelope i) ∧ (m.Confirms → (after.engines i).registered = true)) :
    Accounted T toIso (.initial interval clock lifetime tic lastPing) (es ++ [e]) after where
  run := inv.run.append (.single h)
  honest := inv.honest.step (Controller.listed inv.honest.reachable) h
  requests i msg hmsg := by
    rcases hhello i msg hmsg with hold | hnew
    · rcases inv.requests i msg hold with hmem | hrefused | ⟨ec, hmade, hadmitted, hkeeps⟩
      · exact .inl (hrequests _ hmem)
      · exact .inr (.inl (hrefused.step h))
      · refine .inr (.inr ⟨ec, hmade, hadmitted.step h, ?_⟩)
        rw [view, hcontroller]
        exact hkeeps
    · exact .inl hnew
  replies := by
    rw [hcontroller]
    exact hreplies

/-- A handler of the hub loses none, if it serves those which it takes out. -/
theorem of_served
    (inv : Accounted T toIso (.initial interval clock lifetime tic lastPing) es net)
    {requests : List Incoming} {ce : ControllerEvent} {c : Controller}
    (hstep : Controller.Step T.wire toIso net.controller ce c)
    (h : Step T toIso net e ({ net with requests := requests }.served c))
    (hserved : ∀ i msg, T.helloRequest i msg ∈ net.requests → T.helloRequest i msg ∈ requests ∨
      Refused T toIso (.initial interval clock lifetime tic lastPing) i msg (es ++ [e])
        ({ net with requests := requests }.served c) ∨
        ∃ ec ∈ c.hub.tracker.incomingRegistrations, MadeFrom T i msg ec ∧
          Admitted T toIso (.initial interval clock lifetime tic lastPing) i msg ec (es ++ [e])
            ({ net with requests := requests }.served c)) :
    Accounted T toIso (.initial interval clock lifetime tic lastPing) (es ++ [e])
      ({ net with requests := requests }.served c) where
  run := inv.run.append (.single h)
  honest := inv.honest.step (Controller.listed inv.honest.reachable) h
  requests i msg hmsg := by
    rcases inv.requests i msg hmsg with hmem | hrefused | ⟨ec, hmade, hadmitted, hkeeps⟩
    · apply (hserved i msg hmem).imp_right fun h => h.imp_right _
      intro hexists
      obtain ⟨ec, hec, hmade, hadmitted⟩ := hexists
      exact ⟨ec, hmade, hadmitted, .inl hec⟩
    · exact .inr (.inl (hrefused.step h))
    · exact .inr (.inr ⟨ec, hmade, hadmitted.step h,
        served_keeps inv.honest.reachable hstep hkeeps⟩)
  replies := served_replies (Controller.listed inv.honest.reachable) hstep inv.replies

/-- Every event accounts for all. -/
theorem step (inv : Accounted T toIso (.initial interval clock lifetime tic lastPing) es net)
    (h : Step T toIso net e after) :
    Accounted T toIso (.initial interval clock lifetime tic lastPing) (es ++ [e]) after := by
  have hkept := h
  cases h with
  | provideService j s =>
    have hhello : ((net.engines j).provideService s).hello = (net.engines j).hello := rfl
    have hregistered : ((net.engines j).provideService s).registered = (net.engines j).registered := rfl
    apply inv.of_engines hkept rfl _ (fun _ hmem => hmem)
    · intro m hm
      simp only [registered_setEngine hregistered]
      exact inv.replies m hm
    · intro i msg hmsg
      rw [hello_setEngine_eq hhello] at hmsg
      exact .inl hmsg
  | run j name hfirst =>
    have hregistered : ((net.engines j).run name).registered = (net.engines j).registered := rfl
    apply inv.of_engines hkept rfl _ (fun _ hmem => List.mem_append_left _ hmem)
    · intro m hm
      have hsame (i : ι) := registered_setEngine hregistered i
      simp only [hsame]
      exact inv.replies m hm
    · intro i msg hmsg
      by_cases hij : i = j
      · subst hij
        simp only [setEngine, Function.update_self, Engine.run, Option.some.injEq] at hmsg
        rw [← hmsg]
        exact .inr (List.mem_append_right _ (List.mem_singleton_self _))
      · simp only [setEngine, Function.update_of_ne hij] at hmsg
        exact .inl hmsg
  | shutdown j hrunning =>
    exact inv.of_engines hkept rfl (fun _ _ hmsg => .inl hmsg) (fun _ hmem => List.mem_append_left _ hmem)
      inv.replies
  | request incoming c hmem hstep =>
    apply inv.of_served hstep hkept
    intro i msg hrequest
    by_cases hsame : T.helloRequest i msg = incoming
    · subst hsame
      right
      by_cases hfree : NamesFree net.controller.hub.tracker msg.queue msg.heartbeat
      · right
        have registry := RegistryInvariant.reachable (Controller.reachable_view inv.honest.reachable)
        have htype : (T.helloRequest i msg).type = "registration_request" := rfl
        obtain ⟨ec, hec, hid, hmsg, hqueue, hheart, hservices⟩ :=
          Hub.exists_admitted net.controller.monitor.alive registry htype (T.registration_marshal msg) hfree
        have hnew : ec ∉ net.controller.hub.tracker.incomingRegistrations := by
          intro hold
          exact (registry.incoming_lt ec hold).ne hid
        have hunpurged : .purging ec.id ∉ net.controller.hub.log := by
          intro hpurging
          exact (registry.purging_lt ec.id hpurging).ne hid
        cases hstep
        exact ⟨ec, hec, ⟨hmsg, hqueue, hheart, hservices⟩,
          es, [], net, _, rfl, inv.run, hkept, .nil _, hnew, hunpurged, hec⟩
      · exact .inl ⟨es, [], net, _, rfl, inv.run, hkept, .nil _, hfree⟩
    · exact .inl ((List.mem_erase_of_ne hsame).mpr hrequest)
  | hub ce c hother hstep =>
    exact inv.of_served hstep hkept fun _ _ hmem => .inl hmem
  | reply j m engine hmem hsocket henvelope hengine =>
    apply inv.of_engines hkept rfl _ (fun _ hmem => hmem)
    · intro m' hm'
      by_cases hsame : m' = m
      · subst hsame
        right
        refine ⟨j, henvelope, fun hconfirms => ?_⟩
        simp only [setEngine, Function.update_self]
        exact registered_of_confirms hengine hconfirms
      · rcases inv.replies m' hm' with hold | ⟨i, henvelope', hregistered⟩
        · exact .inl ((List.mem_erase_of_ne hsame).mpr hold)
        · right
          refine ⟨i, henvelope', fun hconfirms => ?_⟩
          by_cases hij : i = j
          · subst hij
            simp only [setEngine, Function.update_self]
            exact registered_dispatchRegistration hengine (hregistered hconfirms)
          · simp only [setEngine, Function.update_of_ne hij]
            exact hregistered hconfirms
    · intro i msg hmsg
      rw [hello_setEngine_eq (hello_dispatchRegistration hengine)] at hmsg
      exact .inl hmsg

/-- All is accounted for in every run. -/
theorem of_run (hrun : Run (Step T toIso) (.initial interval clock lifetime tic lastPing) es net) :
    Accounted T toIso (.initial interval clock lifetime tic lastPing) es net :=
  hrun.history (fun es net => Accounted T toIso (.initial interval clock lifetime tic lastPing) es net)
    (fun _ _ _ _ inv h => inv.step h) (.initial T toIso interval clock lifetime tic lastPing)

end Accounted

/-- What an engine has said stays said. -/
theorem hello_kept {e : NetworkEvent ι} (h : Step T toIso net e after) {i : ι} {msg : Registration}
    (hhello : (net.engines i).hello = some msg) : (after.engines i).hello = some msg := by
  cases h with
  | provideService j s =>
    have hsame : ((net.engines j).provideService s).hello = (net.engines j).hello := rfl
    exact hello_setEngine hsame i hhello
  | run j name hfirst =>
    have hne : i ≠ j := by
      rintro rfl
      rw [hfirst] at hhello
      cases hhello
    simp only [setEngine, Function.update_of_ne hne]
    exact hhello
  | shutdown j hrunning => exact hhello
  | request incoming c hmem hstep => exact hhello
  | hub ce c hother hstep => exact hhello
  | reply j m engine hmem hsocket henvelope hengine =>
    exact hello_setEngine (hello_dispatchRegistration hengine) i hhello

/-- Every registration request comes from an engine, each engine has one, and it is on its way once at most
and no longer when it has become a registration. -/
structure Single (T : Transport ι) (net : Network ι) : Prop where
  sender : ∀ incoming ∈ net.requests, incoming.type = "registration_request" →
    ∃ i msg, (net.engines i).hello = some msg ∧ incoming = T.helloRequest i msg
  once : ∀ i msg, net.requests.count (T.helloRequest i msg) ≤ 1
  origin : ∀ ec ∈ net.controller.hub.tracker.incomingRegistrations,
    ∃ i msg, (net.engines i).hello = some msg ∧ ec.incomingMsg = T.helloRequest i msg ∧
      T.helloRequest i msg ∉ net.requests

namespace Single

variable {e : NetworkEvent ι}

omit [DecidableEq ι] in
/-- Before any engine runs there are no requests. -/
theorem initial (T : Transport ι) (interval : ℤ) (clock lifetime tic lastPing : Time) :
    Single T (.initial interval clock lifetime tic lastPing) where
  sender _ h := absurd h List.not_mem_nil
  once _ _ := Nat.zero_le 1
  origin _ h := absurd h (KeyedTable.notMem_empty _)

omit [DecidableEq ι] in
/-- An engine which has said nothing has no request on its way. -/
theorem notMem_of_hello (inv : Single T net) {i : ι} (hfirst : (net.engines i).hello = none)
    (msg : Registration) : T.helloRequest i msg ∉ net.requests := by
  intro hmem
  obtain ⟨j, msg', hhello, heq⟩ := inv.sender _ hmem rfl
  have hij : i = j := T.envelope_injective (congrArg Incoming.envelope heq)
  rw [hij, hhello] at hfirst
  cases hfirst

omit [DecidableEq ι] in
/-- A step at the engines keeps it if the requests on their way stay the same but for others. -/
theorem of_engines (inv : Single T net) (hcontroller : after.controller = net.controller)
    (hkept : ∀ i msg, (net.engines i).hello = some msg → (after.engines i).hello = some msg)
    {others : List Incoming} (hrequests : after.requests = net.requests ++ others)
    (hothers : ∀ incoming ∈ others, incoming.type ≠ "registration_request") : Single T after where
  sender incoming hmem htype := by
    rw [hrequests, List.mem_append] at hmem
    obtain ⟨i, msg, hhello, heq⟩ := inv.sender incoming
      (hmem.resolve_right fun hin => hothers incoming hin htype) htype
    exact ⟨i, msg, hkept i msg hhello, heq⟩
  once i msg := by
    have hnone : others.count (T.helloRequest i msg) = 0 :=
      List.count_eq_zero.mpr fun hin => hothers _ hin rfl
    rw [hrequests, List.count_append, hnone]
    exact inv.once i msg
  origin ec hec := by
    rw [hcontroller] at hec
    obtain ⟨i, msg, hhello, hmsg, hgone⟩ := inv.origin ec hec
    refine ⟨i, msg, hkept i msg hhello, hmsg, ?_⟩
    rw [hrequests, List.mem_append, not_or]
    exact ⟨hgone, fun hin => hothers _ hin rfl⟩

/-- Every event keeps it, unless another peer registers. -/
theorem step (inv : Single T net) (hlisted : net.controller.hub.Listed) (hpeace : e.Peaceful)
    (hstep : Step T toIso net e after) : Single T after := by
  have hkept (i : ι) (msg : Registration) (hmsg : (net.engines i).hello = some msg) :
      (after.engines i).hello = some msg := hello_kept hstep hmsg
  cases hstep with
  | provideService j s =>
    exact inv.of_engines rfl hkept (List.append_nil _).symm fun _ hin => absurd hin List.not_mem_nil
  | run j name hfirst =>
    have hother {i : ι} {msg : Registration} (hne : i ≠ j) :
        T.helloRequest i msg ≠ T.helloRequest j ((net.engines j).registration name) :=
      fun heq => hne (T.envelope_injective (congrArg Incoming.envelope heq))
    refine ⟨?_, ?_, ?_⟩
    · intro incoming hmem htype
      rcases List.mem_append.mp hmem with hold | hnew
      · obtain ⟨i, msg, hhello, heq⟩ := inv.sender incoming hold htype
        exact ⟨i, msg, hkept i msg hhello, heq⟩
      · refine ⟨j, _, ?_, List.mem_singleton.mp hnew⟩
        simp only [setEngine, Function.update_self, Engine.run]
    · intro i msg
      rw [List.count_append]
      by_cases hij : i = j
      · subst hij
        rw [List.count_eq_zero.mpr (inv.notMem_of_hello hfirst msg), Nat.zero_add]
        exact List.count_le_length
      · rw [List.count_singleton, if_neg (by simpa using (hother hij).symm)]
        exact inv.once i msg
    · intro ec hec
      obtain ⟨i, msg, hhello, hmsg, hgone⟩ := inv.origin ec hec
      have hne : i ≠ j := by
        rintro rfl
        rw [hfirst] at hhello
        cases hhello
      refine ⟨i, msg, hkept i msg hhello, hmsg, ?_⟩
      rw [List.mem_append, not_or]
      exact ⟨hgone, fun hin => hother hne (List.mem_singleton.mp hin)⟩
  | shutdown j hrunning =>
    refine inv.of_engines rfl hkept rfl ?_
    intro incoming hin
    rw [List.mem_singleton.mp hin]
    simp [Transport.logoffRequest]
  | request incoming c hmem hserved =>
    refine ⟨?_, ?_, ?_⟩
    · intro incoming' hmem' htype
      exact inv.sender incoming' (List.mem_of_mem_erase hmem') htype
    · intro i msg
      exact (List.erase_sublist.count_le _).trans (inv.once i msg)
    · intro ec hec
      rcases Controller.carries_of_step hlisted hserved hec with hold | ⟨heq, htype, -⟩
      · obtain ⟨i, msg, hhello, hmsg, hgone⟩ := inv.origin ec hold
        exact ⟨i, msg, hhello, hmsg, fun hin => hgone (List.mem_of_mem_erase hin)⟩
      · cases heq
        obtain ⟨i, msg, hhello, hmsg⟩ := inv.sender _ hmem htype
        refine ⟨i, msg, hhello, hmsg, ?_⟩
        rw [hmsg]
        change T.helloRequest i msg ∉ net.requests.erase (T.helloRequest i msg)
        rw [← List.count_eq_zero, List.count_erase_self]
        exact Nat.sub_eq_zero_of_le (inv.once i msg)
  | hub ce c hother hserved =>
    refine ⟨inv.sender, inv.once, ?_⟩
    intro ec hec
    rcases Controller.carries_of_step hlisted hserved hec with hold | ⟨heq, htype, -⟩
    · exact inv.origin ec hold
    · exact absurd htype (hpeace _ (congrArg NetworkEvent.hub heq))
  | reply j m engine hmem hsocket henvelope hengine =>
    exact inv.of_engines rfl hkept (List.append_nil _).symm fun _ hin => absurd hin List.not_mem_nil

/-- It holds at the end of every run in which no other peer registers. -/
theorem of_run (hrun : Run (Step T toIso) (.initial interval clock lifetime tic lastPing) es net)
    (hpeace : ∀ e ∈ es, e.Peaceful) : Single T net := by
  have hall := hrun.preserves_of_forall
    (fun net => Single T net ∧ Honest T toIso (.create interval clock lifetime tic lastPing) net)
    (fun s e t he inv hstep => ⟨inv.1.step (Controller.listed inv.2.reachable) he hstep,
      inv.2.step (Controller.listed inv.2.reachable) hstep⟩)
    hpeace ⟨initial T interval clock lifetime tic lastPing, .initial T toIso interval clock lifetime tic lastPing⟩
  exact hall.1

end Single

end Accounting

end Network

/-- The acknowledgement of a registration which is held and has been finished is on its way to its engine, or
has made it registered. -/
theorem Network.Accounted.acknowledged {ι : Type*} [DecidableEq ι] {T : Transport ι} {toIso : Time → String}
    {interval : ℤ} {clock lifetime tic lastPing : Time} {es : List (NetworkEvent ι)} {net : Network ι}
    (inv : Accounted T toIso (.initial interval clock lifetime tic lastPing) es net) {i : ι}
    {msg : Registration} {ec : EngineConnector} (hmade : MadeFrom T i msg ec)
    (hec : ec ∈ net.controller.hub.tracker.incomingRegistrations)
    (hfinished : net.controller.hub.Finished ec.id) :
    Hub.registrationAck ec ∈ net.replies ∨ (net.engines i).registered = true := by
  have hacks := System.acksSent_reachable (Controller.reachable_view inv.honest.reachable)
  apply (inv.replies _ (hacks ec hec hfinished)).imp_right
  intro hread
  obtain ⟨j, henvelope, hregistered⟩ := hread
  have hto : some ec.incomingMsg.envelope = some (T.envelope j) := henvelope
  rw [hmade.incomingMsg, Option.some.injEq] at hto
  rw [show i = j from T.envelope_injective hto]
  exact hregistered rfl

/-- In every run of engines against a hub, the request of each engine that has said hello is on its way to
the hub, or the hub has refused it while one of its names was in use, or it has become a registration with
its names and services, which has joined at that event of the run. This registration waits, or has been
purged, or has been finished, and then an acknowledgement is on its way to the engine, or has arrived and
made it registered. -/
theorem hello_accounted {ι : Type*} [DecidableEq ι] {T : Transport ι} {toIso : Time → String}
    {interval : ℤ} {clock lifetime tic lastPing : Time} {es : List (NetworkEvent ι)} {net : Network ι}
    (hrun : Run (Network.Step T toIso) (.initial interval clock lifetime tic lastPing) es net) {i : ι}
    {msg : Registration} (hhello : (net.engines i).hello = some msg) :
    T.helloRequest i msg ∈ net.requests ∨
      Network.Refused T toIso (.initial interval clock lifetime tic lastPing) i msg es net ∨
      ∃ ec, Network.MadeFrom T i msg ec ∧
        Network.Admitted T toIso (.initial interval clock lifetime tic lastPing) i msg ec es net ∧
        (ec ∈ net.controller.hub.tracker.incomingRegistrations ∧ ¬net.controller.hub.Finished ec.id ∨
          .purging ec.id ∈ net.controller.hub.log ∨
          net.controller.hub.Finished ec.id ∧
            (Hub.registrationAck ec ∈ net.replies ∨ (net.engines i).registered = true)) := by
  have inv := Network.Accounted.of_run hrun
  apply (inv.requests i msg hhello).imp_right fun h => h.imp_right _
  intro hexists
  obtain ⟨ec, hmade, hadmitted, hec | hpurged⟩ := hexists
  · refine ⟨ec, hmade, hadmitted, ?_⟩
    by_cases hfinished : net.controller.hub.Finished ec.id
    · exact .inr (.inr ⟨hfinished, inv.acknowledged hmade hec hfinished⟩)
    · exact .inl ⟨hec, hfinished⟩
  · exact ⟨ec, hmade, hadmitted, .inr (.inl hpurged)⟩

/-- An engine which runs alone says hello, and the hub serves its request. -/
theorem Network.exists_served {ι : Type*} [DecidableEq ι] (T : Transport ι) (toIso : Time → String) (i : ι)
    (name : String) : ∃ c, Run (Step T toIso) (initial 2000 0 0 0 0)
      [.run i name, .request (T.helloRequest i (({} : Engine).registration name))]
      (({ (initial 2000 0 0 0 0).setEngine i (({} : Engine).run name) with requests := [] }).served c) := by
  generalize hmsg : ({} : Engine).registration name = msg
  obtain ⟨c, hquery, -⟩ :=
    Controller.exists_waiting T.wire toIso 2000 (T.helloRequest i msg) rfl (T.registration_marshal msg)
  have hhello : Step T toIso (initial 2000 0 0 0 0) (.run i name)
      { (initial 2000 0 0 0 0).setEngine i (({} : Engine).run name) with
        requests := [T.helloRequest i msg] } := by
    rw [← hmsg]
    exact .run _ i name rfl
  have hrequest : Step T toIso { (initial 2000 0 0 0 0).setEngine i (({} : Engine).run name) with
      requests := [T.helloRequest i msg] } (.request (T.helloRequest i msg)) _ :=
    .request _ _ c (List.mem_singleton_self _) hquery
  rw [List.erase_cons_head] at hrequest
  exact ⟨c, .cons hhello (.single hrequest)⟩

/-- The account of an engine which is served. -/
theorem hello_accounted_pair :
    ∃ (net : Network Bool) (msg : Registration), (net.engines true).hello = some msg ∧
      (Transport.pair.helloRequest true msg ∈ net.requests ∨
        Network.Refused .pair Time.toIsoString (.initial 2000 0 0 0 0) true msg
          [.run true "e", .request (Transport.pair.helloRequest true msg)] net ∨
        ∃ ec, Network.MadeFrom .pair true msg ec ∧
          Network.Admitted .pair Time.toIsoString (.initial 2000 0 0 0 0) true msg ec
            [.run true "e", .request (Transport.pair.helloRequest true msg)] net ∧
          (ec ∈ net.controller.hub.tracker.incomingRegistrations ∧ ¬net.controller.hub.Finished ec.id ∨
            .purging ec.id ∈ net.controller.hub.log ∨
            net.controller.hub.Finished ec.id ∧
              (Hub.registrationAck ec ∈ net.replies ∨ (net.engines true).registered = true))) := by
  obtain ⟨c, hrun⟩ := Network.exists_served .pair Time.toIsoString true "e"
  exact ⟨_, _, rfl, hello_accounted hrun rfl⟩

/-- In every run in which no other peer registers, the hub refuses no engine whose names no other engine has
taken. -/
theorem hello_not_refused {ι : Type*} [DecidableEq ι] {T : Transport ι} {toIso : Time → String}
    {interval : ℤ} {clock lifetime tic lastPing : Time} {es : List (NetworkEvent ι)} {net : Network ι}
    (hrun : Run (Network.Step T toIso) (.initial interval clock lifetime tic lastPing) es net)
    (hpeace : ∀ e ∈ es, e.Peaceful) {i : ι} {msg : Registration}
    (hhello : (net.engines i).hello = some msg)
    (hdistinct : ∀ j other, (net.engines j).hello = some other →
      other.queue = msg.queue ∨ other.heartbeat = msg.heartbeat → j = i) :
    ¬Network.Refused T toIso (.initial interval clock lifetime tic lastPing) i msg es net := by
  rintro ⟨first, rest, before, after, rfl, hbefore, hstep, hrest, htaken⟩
  have hsingle := Network.Single.of_run hbefore fun e he => hpeace e (List.mem_append_left _ he)
  have honest := (Network.Accounted.of_run hbefore).honest
  obtain ⟨ec, hec, hname⟩ := Hub.exists_holder (Controller.listed honest.reachable) htaken
  obtain ⟨j, other, hother, hmsg, hgone⟩ := hsingle.origin ec hec
  obtain ⟨-, carried, hparse, hqueue, hheart, -⟩ := honest.carries ec hec
  have hcarried : other = carried := by
    rw [hmsg, Transport.helloRequest, T.registration_marshal, Option.some.injEq] at hparse
    exact hparse
  have hsaid : (net.engines j).hello = some other :=
    hrest.preserves (fun net => (net.engines j).hello = some other)
      (fun _ _ _ h hstep => Network.hello_kept hstep h) (Network.hello_kept hstep hother)
  rw [hqueue, hheart, ← hcarried] at hname
  have hji := hdistinct j other hsaid hname
  subst hji
  cases hhello.symm.trans hsaid
  cases hstep with
  | request incoming c hmem hserved => exact hgone hmem

/-- The engine which is served has not been refused. -/
theorem hello_not_refused_pair :
    ∃ (net : Network Bool) (msg : Registration), (net.engines true).hello = some msg ∧
      ¬Network.Refused .pair Time.toIsoString (.initial 2000 0 0 0 0) true msg
        [.run true "e", .request (Transport.pair.helloRequest true msg)] net := by
  obtain ⟨c, hrun⟩ := Network.exists_served .pair Time.toIsoString true "e"
  have hother (j : Bool) (other : Registration) (hj : (((Network.initial 2000 0 0 0 0).setEngine true
      (({} : Engine).run "e")).engines j).hello = some other) : j = true := by
    cases j with
    | false => simp [Network.setEngine, Network.initial] at hj
    | true => rfl
  have hpeace : ∀ e ∈ [.run true "e", .request (Transport.pair.helloRequest true
      (({} : Engine).registration "e"))], NetworkEvent.Peaceful e := by
    simp [NetworkEvent.Peaceful]
  exact ⟨_, _, rfl, hello_not_refused hrun hpeace rfl fun j other hj _ => hother j other hj⟩

end Gpf
