import Mathlib.Logic.Equiv.List
import Gpf.Engine.Registration
import Gpf.Controller.RegistrationReplies
import Gpf.Controller.WaitingTimers
import Gpf.Util.IsoTime

/-!
# An engine that is registered was acknowledged and listed

A connector whose request came from an engine carries the registration which that engine has sent, since
each engine sends one. The acknowledgement of such a connector goes to its own engine, and when the
handler that sends it ends, the connector is listed. Nothing else makes an engine take itself for
registered.
-/

namespace Gpf

open Transition

/-- The hub lists every engine among the incoming registrations, in whatever state the controller is. -/
theorem Controller.listed {wire : Wire} {toIso : Time → String} {interval : ℤ}
    {clock lifetime tic lastPing : Time} {c : Controller}
    (h : Reachable (Step wire toIso) (create interval clock lifetime tic lastPing) c) :
    c.hub.Listed :=
  (WaitingTimed.reachable (reachable_view h)).engine_incoming

namespace Network

variable {ι : Type*}

/-- The hub before any engine runs. -/
def initial (interval : ℤ) (clock lifetime tic lastPing : Time) : Network ι :=
  { controller := .create interval clock lifetime tic lastPing }

/-- The hub has acknowledged the request which the engine has sent, and lists it under the names and the
services of that request. -/
def Acknowledges (T : Transport ι) (i : ι) (before after : Network ι) : Prop :=
  ∃ msg ec messages, (after.engines i).hello = some msg ∧
    after.controller.hub.sent = before.controller.hub.sent ++ messages ∧
    Hub.registrationAck ec ∈ messages ∧ ec.incomingMsg = T.helloRequest i msg ∧
    ec ∈ after.controller.hub.tracker.engines ∧
    ec.queue = msg.queue ∧ ec.heartbeat = msg.heartbeat ∧ ec.services = msg.services

/-- The request comes from no engine, or is the one with which its engine has said hello. -/
def Sincere (T : Transport ι) (engines : ι → Engine) (incoming : Incoming) : Prop :=
  ∀ i, incoming.envelope = T.envelope i →
    ∃ msg, (engines i).hello = some msg ∧ incoming = T.helloRequest i msg

/-- What holds of the messages on their way to the hub and of the registrations made from them. -/
structure Honest (T : Transport ι) (toIso : Time → String) (origin : Controller)
    (net : Network ι) : Prop where
  reachable : Reachable (Controller.Step T.wire toIso) origin net.controller
  requests : ∀ incoming ∈ net.requests, incoming.type = "registration_request" →
    Sincere T net.engines incoming
  carries : ∀ ec ∈ net.controller.hub.tracker.incomingRegistrations, ec.Carries T.wire
  incoming : ∀ ec ∈ net.controller.hub.tracker.incomingRegistrations,
    Sincere T net.engines ec.incomingMsg

/-- The engine is registered, or a message which makes it so is on its way. -/
def Confirmed (T : Transport ι) (i : ι) (net : Network ι) : Prop :=
  (net.engines i).registered = true ∨
    ∃ m ∈ net.replies, m.envelope = some (T.envelope i) ∧ m.Confirms

variable {T : Transport ι} {toIso : Time → String} {origin : Controller} {net : Network ι}

/-- A request stays sincere while no engine forgets that it has said hello. -/
theorem Sincere.mono {engines engines' : ι → Engine} {incoming : Incoming}
    (h : Sincere T engines incoming)
    (hkept : ∀ i msg, (engines i).hello = some msg → (engines' i).hello = some msg) :
    Sincere T engines' incoming := by
  intro i henvelope
  obtain ⟨msg, hhello, heq⟩ := h i henvelope
  exact ⟨msg, hkept i msg hhello, heq⟩

/-- Exchanging an engine for one that has sent the same keeps what all have sent. -/
theorem hello_setEngine [DecidableEq ι] {i : ι} {engine : Engine} (h : engine.hello = (net.engines i).hello) (j : ι)
    {msg : Registration} (hj : (net.engines j).hello = some msg) :
    ((net.setEngine i engine).engines j).hello = some msg := by
  by_cases hji : j = i
  · subst hji
    simp only [setEngine, Function.update_self, h, hj]
  · simp only [setEngine, Function.update_of_ne hji, hj]

/-- A reply leaves alone what the engine has sent. -/
theorem hello_dispatchRegistration {engine engine' : Engine} {frames : List Frame}
    (h : engine.dispatchRegistration frames = some engine') : engine'.hello = engine.hello := by
  unfold Engine.dispatchRegistration at h
  split at h
  · split at h
    · cases h
      rfl
    · cases h
  · cases h
    rfl

/-- A reply makes an engine registered only under the tag of a registration. -/
theorem confirms_of_registered {engine engine' : Engine} {m : Sent}
    (h : engine.dispatchRegistration m.frames = some engine') (hbefore : engine.registered = false)
    (hafter : engine'.registered = true) : m.Confirms := by
  unfold Engine.dispatchRegistration at h
  split at h
  · assumption
  · cases h
    rw [hbefore] at hafter
    cases hafter

namespace Honest

/-- Before any engine runs nothing is on its way. -/
theorem initial (T : Transport ι) (toIso : Time → String) (interval : ℤ)
    (clock lifetime tic lastPing : Time) :
    Honest T toIso (.create interval clock lifetime tic lastPing)
      (Network.initial interval clock lifetime tic lastPing) where
  reachable := ⟨[], .nil _⟩
  requests _ h := absurd h List.not_mem_nil
  carries _ h := absurd h (KeyedTable.notMem_empty _)
  incoming _ h := absurd h (KeyedTable.notMem_empty _)

/-- Engines which keep what they have sent, and fewer requests, change nothing. -/
theorem mono (inv : Honest T toIso origin net) {after : Network ι}
    (hcontroller : after.controller = net.controller)
    (hkept : ∀ i msg, (net.engines i).hello = some msg → (after.engines i).hello = some msg)
    (hrequests : ∀ incoming ∈ after.requests, incoming.type = "registration_request" →
      incoming ∈ net.requests ∨ Sincere T after.engines incoming) :
    Honest T toIso origin after where
  reachable := by
    rw [hcontroller]
    exact inv.reachable
  requests incoming hmem htype := by
    rcases hrequests incoming hmem htype with hold | hnew
    · exact (inv.requests incoming hold htype).mono hkept
    · exact hnew
  carries := by
    rw [hcontroller]
    exact inv.carries
  incoming ec hec := by
    rw [hcontroller] at hec
    exact (inv.incoming ec hec).mono hkept

/-- A handler of the hub makes registrations only from the request that it serves. -/
theorem served (inv : Honest T toIso origin net) (hlisted : net.controller.hub.Listed)
    {e : ControllerEvent} {c : Controller} (hstep : Controller.Step T.wire toIso net.controller e c)
    (hquery : ∀ incoming, e = .query incoming → incoming.type = "registration_request" →
      Sincere T net.engines incoming) : Honest T toIso origin (net.served c) where
  reachable := by
    obtain ⟨es, hes⟩ := inv.reachable
    exact ⟨es ++ [e], hes.append (.single hstep)⟩
  requests := inv.requests
  carries ec hec := by
    rcases Controller.carries_of_step hlisted hstep hec with hold | ⟨-, hnew⟩
    · exact inv.carries ec hold
    · exact hnew
  incoming ec hec := by
    rcases Controller.carries_of_step hlisted hstep hec with hold | ⟨he, hnew⟩
    · exact inv.incoming ec hold
    · exact hquery _ he hnew.1

/-- Every event keeps it. -/
theorem step [DecidableEq ι] (inv : Honest T toIso origin net) (hlisted : net.controller.hub.Listed)
    {e : NetworkEvent ι} {after : Network ι} (h : Network.Step T toIso net e after) :
    Honest T toIso origin after := by
  cases h with
  | provideService i s =>
    have hkept : ((net.engines i).provideService s).hello = (net.engines i).hello := rfl
    refine inv.mono rfl ?_ ?_
    · intro j msg hj
      exact hello_setEngine hkept j hj
    · intro incoming hmem _
      exact .inl hmem
  | run i name hfirst =>
    have hkept (j : ι) (msg : Registration) (hj : (net.engines j).hello = some msg) :
        ((net.setEngine i ((net.engines i).run name)).engines j).hello = some msg := by
      have hne : j ≠ i := by
        intro heq
        rw [heq, hfirst] at hj
        cases hj
      simp only [setEngine, Function.update_of_ne hne, hj]
    refine inv.mono rfl hkept ?_
    intro incoming hmem _
    rcases List.mem_append.mp hmem with hold | hnew
    · exact .inl hold
    · right
      rw [List.mem_singleton.mp hnew]
      intro j henvelope
      have hji : i = j := T.envelope_injective henvelope
      subst hji
      refine ⟨(net.engines i).registration name, ?_, rfl⟩
      simp only [setEngine, Function.update_self, Engine.run]
  | shutdown i hrunning =>
    refine inv.mono rfl ?_ ?_
    · intro j msg hj
      exact hj
    · intro incoming hmem htype
      rcases List.mem_append.mp hmem with hold | hnew
      · exact .inl hold
      · rw [List.mem_singleton.mp hnew] at htype
        simp [Transport.logoffRequest] at htype
  | request incoming c hmem hstep =>
    have hserved := inv.served hlisted hstep fun incoming' heq htype => by
      cases heq
      exact inv.requests incoming hmem htype
    exact hserved.mono rfl (fun _ _ h => h) fun incoming' hmem' _ => .inl (List.mem_of_mem_erase hmem')
  | hub e c hother hstep =>
    apply inv.served hlisted hstep
    intro incoming heq _ i henvelope
    exact absurd henvelope (hother incoming heq i)
  | reply i m engine hmem hsocket henvelope hengine =>
    refine inv.mono rfl ?_ ?_
    · intro j msg hj
      exact hello_setEngine (hello_dispatchRegistration hengine) j hj
    · intro incoming hmem _
      exact .inl hmem

end Honest

/-- If a handler of the hub puts a message on the way which makes an engine registered, it has
acknowledged the request of that engine, which it lists. -/
theorem acknowledges_of_served (hlisted : net.controller.hub.Listed) {e : ControllerEvent}
    {c : Controller} (hstep : Controller.Step T.wire toIso net.controller e c) {i : ι}
    (hbefore : ¬Confirmed T i net) {after : Network ι} (hcontroller : after.controller = c)
    (hengines : after.engines = net.engines)
    (hreplies : after.replies = (net.served c).replies) (inv : Honest T toIso origin after)
    (hafterListed : c.hub.Listed) (hafter : Confirmed T i after) : Acknowledges T i net after := by
  obtain ⟨messages, hsent, hacks⟩ := Controller.acksListed hlisted hstep
  rcases hafter with hregistered | ⟨m, hm, henvelope, hconfirms⟩
  · rw [hengines] at hregistered
    exact absurd (.inl hregistered) hbefore
  · rw [hreplies, Network.served, hsent, List.drop_left, List.mem_append] at hm
    rcases hm with hold | hnew
    · exact absurd (.inr ⟨m, hold, henvelope, hconfirms⟩) hbefore
    · obtain ⟨ec, hec, rfl⟩ := hacks m hnew hconfirms
      rw [← hcontroller] at hec hafterListed hsent
      have hincoming := hafterListed ec hec
      obtain ⟨msg, hhello, hrequest⟩ := inv.incoming ec hincoming i (Option.some.inj henvelope)
      obtain ⟨-, msg', hparse, hqueue, hheart, hservices⟩ := inv.carries ec hincoming
      have hmsg : msg' = msg := by
        rw [hrequest, Transport.helloRequest, T.registration_marshal, Option.some.injEq] at hparse
        exact hparse.symm
      subst hmsg
      exact ⟨msg', ec, messages, hhello, hsent, hnew, hrequest, hec, hqueue, hheart, hservices⟩

/-- Exchanging an engine for one that is registered as much makes no engine registered. -/
theorem registered_setEngine [DecidableEq ι] {j : ι} {engine : Engine}
    (h : engine.registered = (net.engines j).registered) (i : ι) :
    ((net.setEngine j engine).engines i).registered = (net.engines i).registered := by
  by_cases hij : i = j
  · subst hij
    simp only [setEngine, Function.update_self, h]
  · simp only [setEngine, Function.update_of_ne hij]

/-- A reply confirms nothing that was not confirmed while it was on its way. -/
theorem confirmed_of_reply [DecidableEq ι] {i j : ι} {m : Sent} {engine : Engine}
    (hmem : m ∈ net.replies) (henvelope : m.envelope = some (T.envelope j))
    (hengine : (net.engines j).dispatchRegistration m.frames = some engine)
    (hafter : Confirmed T i { net.setEngine j engine with replies := net.replies.erase m }) :
    Confirmed T i net := by
  by_contra hbefore
  have hunregistered : (net.engines i).registered = false :=
    Bool.eq_false_iff.mpr fun hregistered => hbefore (.inl hregistered)
  rcases hafter with hregistered | ⟨m', hm', h⟩
  · by_cases hij : i = j
    · subst hij
      simp only [setEngine, Function.update_self] at hregistered
      exact hbefore (.inr ⟨m, hmem, henvelope, confirms_of_registered hengine hunregistered hregistered⟩)
    · simp only [setEngine, Function.update_of_ne hij] at hregistered
      exact hbefore (.inl hregistered)
  · exact hbefore (.inr ⟨m', List.mem_of_mem_erase hm', h⟩)

/-- The step which first makes an engine registered, or puts a message on the way which does, is the
one in which the hub acknowledges its request. -/
theorem acknowledges_of_step [DecidableEq ι] (inv : Honest T toIso origin net)
    (hlists : ∀ c, Reachable (Controller.Step T.wire toIso) origin c → c.hub.Listed)
    {e : NetworkEvent ι} {after : Network ι} (h : Network.Step T toIso net e after) {i : ι}
    (hbefore : ¬Confirmed T i net) (hafter : Confirmed T i after) :
    Acknowledges T i net after ∧ (after.engines i).registered = false := by
  have hlisted := hlists _ inv.reachable
  have hinv := inv.step hlisted h
  have hunregistered : (net.engines i).registered = false :=
    Bool.eq_false_iff.mpr fun hregistered => hbefore (.inl hregistered)
  cases h with
  | provideService j s =>
    have hsame : ((net.engines j).provideService s).registered = (net.engines j).registered := rfl
    exact absurd (hafter.imp_left (registered_setEngine hsame i).symm.trans) hbefore
  | run j name hfirst =>
    have hsame : ((net.engines j).run name).registered = (net.engines j).registered := rfl
    exact absurd (hafter.imp_left (registered_setEngine hsame i).symm.trans) hbefore
  | shutdown j hrunning => exact absurd hafter hbefore
  | request incoming c hmem hstep =>
    exact ⟨acknowledges_of_served hlisted hstep hbefore rfl rfl rfl hinv (hlists _ hinv.reachable) hafter,
      hunregistered⟩
  | hub e c hother hstep =>
    exact ⟨acknowledges_of_served hlisted hstep hbefore rfl rfl rfl hinv (hlists _ hinv.reachable) hafter,
      hunregistered⟩
  | reply j m engine hmem hsocket henvelope hengine =>
    exact absurd (confirmed_of_reply hmem henvelope hengine hafter) hbefore

end Network

/-- An engine which is registered became so after a step in which the hub acknowledged the request that
this engine had sent, and which left the engine listed under the queue name, the heart name and the
services of the request. -/
theorem registration_agreement {ι : Type*} [DecidableEq ι] {T : Transport ι} {toIso : Time → String}
    {interval : ℤ} {clock lifetime tic lastPing : Time} {es : List (NetworkEvent ι)} {net : Network ι}
    (hrun : Run (Network.Step T toIso) (.initial interval clock lifetime tic lastPing) es net) {i : ι}
    (hregistered : (net.engines i).registered = true) :
    ∃ first e rest before after, es = first ++ e :: rest ∧
      Run (Network.Step T toIso) (.initial interval clock lifetime tic lastPing) first before ∧
      Network.Step T toIso before e after ∧ Run (Network.Step T toIso) after rest net ∧
      Network.Acknowledges T i before after ∧ (after.engines i).registered = false := by
  have hlists (c : Controller) (hc : Reachable (Controller.Step T.wire toIso)
      (.create interval clock lifetime tic lastPing) c) : c.hub.Listed := Controller.listed hc
  have hconfirmed : ¬Network.Confirmed T i (.initial interval clock lifetime tic lastPing) := by
    rintro (h | ⟨m, hm, -⟩)
    · cases h
    · exact List.not_mem_nil hm
  have hmark (s : Network ι) (e : NetworkEvent ι) (t : Network ι)
      (inv : Network.Honest T toIso (.create interval clock lifetime tic lastPing) s)
      (h : Network.Step T toIso s e t) (hbefore : ¬Network.Confirmed T i s)
      (hafter : Network.Confirmed T i t) :
      Network.Acknowledges T i s t ∧ (t.engines i).registered = false :=
    Network.acknowledges_of_step inv hlists h hbefore hafter
  obtain ⟨first, e, rest, before, after, hes, hfirst, hstep, hrest, -, hcond⟩ :=
    hrun.occurred _ _ (fun _ _ _ inv h => inv.step (hlists _ inv.reachable) h) hmark
      (.initial T toIso interval clock lifetime tic lastPing) hconfirmed (.inl hregistered)
  exact ⟨first, e, rest, before, after, hes, hfirst, hstep, hrest, hcond⟩

namespace Controller

/-- A beat in which one heart is new and none fails handles the new heart. -/
theorem beat_hub {toIso : Time → String} {c : Controller} {heart : String}
    (hnew : c.monitor.newHearts = {heart}) (hfailures : c.monitor.heartFailures = ∅) :
    (c.beat toIso).hub =
      (c.hub.scheduleBeat (milliseconds c.monitor.interval)).handleNewHeart heart := by
  rw [hub_beat, hnew, hfailures, Finset.sort_singleton, Finset.sort_empty]
  rfl

/-- A registration request which is the first event of a controller makes a registration that waits. -/
theorem exists_waiting (wire : Wire) (toIso : Time → String) (interval : ℤ) (incoming : Incoming)
    {msg : Registration} (htype : incoming.type = "registration_request")
    (hparse : wire.registration incoming.header = some msg) :
    ∃ c, Step wire toIso (create interval 0 0 0 0) (.query incoming) c ∧
      c.monitor = (create interval 0 0 0 0).monitor ∧
      c.hub.tracker.incomingRegistrations.findHeart msg.heartbeat =
        some (Hub.connectorOf 0 msg incoming (some 1)) ∧
      c.hub.loop.queue.head? = some ⟨0, milliseconds interval, .beat⟩ ∧
      c.hub.loop.inactive = ∅ ∧ c.hub.sent = [] := by
  refine ⟨_, rfl, rfl, ?_⟩
  have hnone (ec : EngineConnector) : ec ∉ (create interval 0 0 0 0).hub.tracker.incomingRegistrations :=
    KeyedTable.notMem_empty ec
  have hfree : Hub.namesTaken (create interval 0 0 0 0).hub.tracker msg.queue msg.heartbeat = false := by
    apply Hub.namesTaken_eq_false.mpr
    constructor <;> exact fun ec hec => absurd hec (hnone ec)
  have hdead : (create interval 0 0 0 0).monitor.alive msg.heartbeat = false := rfl
  simp only [Hub.dispatchQuery, htype]
  rw [Hub.registerEngine_eq hparse, hfree, hdead]
  refine ⟨?_, ?_, rfl, rfl⟩
  · exact Hub.findHeart_insertIncoming (fun ec hec => absurd hec (hnone ec))
      fun ec hec => absurd hec (hnone ec)
  · simp [create, Hub.scheduleBeat, Loop.add, Hub.create]

/-- The first beat finishes the registration whose heart has answered the first ping. -/
theorem sent_beat (toIso : Time → String) {interval : ℤ} {c : Controller} {heart : String}
    {ec : EngineConnector}
    (hmonitor : c.monitor = (create interval 0 0 0 0).monitor.handlePong toIso ⟨heart, toIso 0⟩)
    (hfind : c.hub.tracker.incomingRegistrations.findHeart heart = some ec) (hsent : c.hub.sent = []) :
    (c.beat toIso).hub.sent = [Hub.registrationNotification ec, Hub.registrationAck ec] := by
  have hnew : c.monitor.newHearts = {heart} := by
    simp [HeartMonitor.handlePong_eq, hmonitor, create, HeartMonitor.create,
      HeartMonitor.newHearts, HeartMonitor.accepts, HeartMonitor.goodHearts]
  have hfailures : c.monitor.heartFailures = ∅ := by
    simp [HeartMonitor.handlePong_eq, hmonitor, create, HeartMonitor.create,
      HeartMonitor.heartFailures]
  rw [beat_hub hnew hfailures]
  simp [Hub.scheduleBeat, Hub.handleNewHeart, Hub.finishRegistration, hfind, Hub.finishFound, hsent]

/-- After the pong, the timer of the first beat fires. -/
theorem exists_finished (wire : Wire) (toIso : Time → String) {interval : ℤ} {c : Controller}
    {heart : String} {ec : EngineConnector} (hmonitor : c.monitor = (create interval 0 0 0 0).monitor)
    (hfind : c.hub.tracker.incomingRegistrations.findHeart heart = some ec)
    (hqueue : c.hub.loop.queue.head? = some ⟨0, milliseconds interval, .beat⟩)
    (hinactive : c.hub.loop.inactive = ∅) (hsent : c.hub.sent = []) :
    ∃ d, Step wire toIso (c.handlePong toIso ⟨heart, toIso 0⟩) (.timeout 0) d ∧
      d.hub.sent = [Hub.registrationNotification ec, Hub.registrationAck ec] := by
  refine ⟨beat toIso { c.handlePong toIso ⟨heart, toIso 0⟩ with
    hub := { c.hub with loop := c.hub.loop.pop 0 } }, ?_, ?_⟩
  · cases hq : c.hub.loop.queue with
    | nil => simp [hq] at hqueue
    | cons timer queue =>
      rw [hq] at hqueue
      cases hqueue
      simp [Step, next, timeout, handlePong, hq, Hub.runCallback, Loop.active, Loop.pop, hinactive,
        runCallback]
  · apply sent_beat toIso
    · rw [← hmonitor]
      rfl
    · exact hfind
    · exact hsent

end Controller

/-- An engine which runs alone, and whose heart answers the first ping, gets registered. -/
theorem Network.registered_along {ι : Type*} [DecidableEq ι] (T : Transport ι) (toIso : Time → String)
    (i : ι) (name : String) : ∃ m net, Run (Step T toIso) (initial 2000 0 0 0 0)
      [.run i name, .request (T.helloRequest i (({} : Engine).registration name)),
        .hub (.pong ⟨name ++ "-heart", toIso 0⟩), .hub (.timeout 0), .reply i m] net ∧
      (net.engines i).registered = true ∧ (net.engines i).hello = some (({} : Engine).registration name) := by
  generalize hmsg : ({} : Engine).registration name = msg
  have hheart : name ++ "-heart" = msg.heartbeat := by
    rw [← hmsg]
    rfl
  obtain ⟨c, hquery, hmonitor, hfind, hqueue, hinactive, hsent⟩ :=
    Controller.exists_waiting T.wire toIso 2000 (T.helloRequest i msg) rfl (T.registration_marshal msg)
  obtain ⟨d, hbeat, hacks⟩ :=
    Controller.exists_finished T.wire toIso hmonitor hfind hqueue hinactive hsent
  have hhello : Step T toIso (initial 2000 0 0 0 0) (.run i name)
      { (initial 2000 0 0 0 0).setEngine i (({} : Engine).run name) with
        requests := [T.helloRequest i msg] } := by
    rw [← hmsg]
    exact .run _ i name rfl
  let ack := Hub.registrationAck (Hub.connectorOf 0 msg (T.helloRequest i msg) (some 1))
  rw [hheart]
  refine ⟨ack, _, .cons hhello (.cons (.request _ _ c (List.mem_singleton_self _) hquery)
    (.cons (.hub _ (.pong _) _ (by simp) rfl) (.cons (.hub _ (.timeout 0) d (by simp) hbeat)
      (.cons (.reply _ i ack _ ?_ rfl rfl rfl) (.nil _))))), ?_, ?_⟩
  · simp [ack, served, hacks, hsent, Controller.handlePong]
  · simp [setEngine]
  · simp [setEngine, served, Engine.run, ← hmsg]

/-- So an engine can get registered. -/
theorem Network.exists_registered {ι : Type*} [DecidableEq ι] (T : Transport ι)
    (toIso : Time → String) (i : ι) (name : String) :
    ∃ es net, Run (Step T toIso) (initial 2000 0 0 0 0) es net ∧
      (net.engines i).registered = true := by
  obtain ⟨_, net, hrun, hregistered, -⟩ := registered_along T toIso i name
  exact ⟨_, net, hrun, hregistered⟩

/-- Characters, numbered by their code points. -/
instance encodableChar : Encodable Char := .ofLeftInverse Char.toNat Char.ofNat Char.ofNat_toNat

/-- Strings, numbered like the lists of their characters. -/
instance encodableString : Encodable String :=
  .ofLeftInverse String.toList String.ofList fun _ => String.ofList_toList

/-- Registrations, numbered like the tuples of their fields. -/
instance encodableRegistration : Encodable Registration :=
  .ofLeftInverse (fun msg => (msg.heartbeat, msg.queue, msg.reg, msg.services, msg.eid))
    (fun fields => ⟨fields.1, fields.2.1, fields.2.2.1, fields.2.2.2.1, fields.2.2.2.2⟩) fun _ => rfl

/-- The registration of an engine with the name `e` and no services. -/
def Registration.ofE : Registration := { heartbeat := "e-heart", queue := "e-queue" }

/-- The bytes of this registration, and for any other something else, its number in strokes. -/
def Registration.bytes (msg : Registration) : String :=
  if msg = .ofE then "\n\x07e-heart\x12\x07e-queue"
  else String.ofList (List.replicate (Encodable.encode msg) 'x')

/-- The bytes or the strokes, read back. -/
def Registration.ofBytes (s : String) : Option Registration :=
  if s = "\n\x07e-heart\x12\x07e-queue" then some .ofE else Encodable.decode s.length

/-- Reading undoes writing. -/
theorem Registration.ofBytes_bytes (msg : Registration) : ofBytes msg.bytes = some msg := by
  unfold bytes ofBytes
  by_cases hmsg : msg = .ofE
  · rw [if_pos hmsg, if_pos rfl, hmsg]
  · have hstrokes : String.ofList (List.replicate (Encodable.encode msg) 'x') ≠
        "\n\x07e-heart\x12\x07e-queue" := by
      intro heq
      have hmem : 'e' ∈ List.replicate (Encodable.encode msg) 'x' := by
        have hchars := congrArg String.toList heq
        rw [String.toList_ofList] at hchars
        rw [hchars]
        decide
      exact absurd (List.eq_of_mem_replicate hmem) (by decide)
    rw [if_neg hmsg, if_neg hstrokes]
    simp

/-- Two engines, on whose wire the registration of `e` has its bytes. -/
def Transport.pair : Transport Bool where
  wire := { Wire.session with registration := Registration.ofBytes }
  marshal := Registration.bytes
  envelope i := [if i then "a" else "b"]
  registration_marshal := Registration.ofBytes_bytes
  envelope_injective i j h := by
    cases i <;> cases j <;> simp_all

/-- The agreement for an engine which gets registered on this wire. -/
theorem registration_agreement_pair :
    ∃ (es : List (NetworkEvent Bool)) (net : Network Bool), (net.engines true).registered = true ∧
      ∃ first e rest before after, es = first ++ e :: rest ∧
        Run (Network.Step .pair Time.toIsoString) (.initial 2000 0 0 0 0) first before ∧
        Network.Step .pair Time.toIsoString before e after ∧
        Run (Network.Step .pair Time.toIsoString) after rest net ∧
        Network.Acknowledges .pair true before after ∧ (after.engines true).registered = false := by
  obtain ⟨es, net, hrun, hregistered⟩ := Network.exists_registered .pair Time.toIsoString true "e"
  exact ⟨es, net, hregistered, registration_agreement hrun hregistered⟩

end Gpf
