import Gpf.Controller.EngineLookup
import Gpf.Engine.Accounting

/-!
# Engines stay members until they log off

`engine::shutdown` asks the hub to take the engine out under its queue name, and the hub does not ask who
it is that wants this. But the request socket of an engine sends a second request only after the reply to
the first has been read, and the hub replies to a registration only when it lists the engine. So an engine
which was refused, as another has its name, cannot log off its namesake.
-/

namespace Gpf

open Transition

namespace Hub

/-- Whatever the handler sends to a peer confirms a registration, or goes to the peer who has asked. -/
def AnswersPeer (asker : Option (List String)) (hub hub' : Hub) : Prop :=
  ∃ messages, hub'.sent = hub.sent ++ messages ∧
    ∀ m ∈ messages, ∀ envelope, m.envelope = some envelope → m.Confirms ∨ asker = some envelope

namespace AnswersPeer

variable {asker : Option (List String)} {hub mid hub' : Hub}

/-- A handler which sends nothing. -/
theorem of_sent_eq (hsent : hub'.sent = hub.sent) : AnswersPeer asker hub hub' := by
  refine ⟨[], ?_, fun _ h => absurd h List.not_mem_nil⟩
  rw [hsent, List.append_nil]

/-- A reply to the peer who has asked. -/
theorem reply {incoming : Incoming} {frames : List Frame} (hsent : hub'.sent = hub.sent) :
    AnswersPeer (some incoming.envelope) hub (hub'.reply incoming frames) := by
  refine ⟨[_], by rw [Hub.reply, hsent], ?_⟩
  intro m hm envelope henvelope
  rw [List.mem_singleton.mp hm] at henvelope
  exact .inr henvelope

/-- One handler after the other. -/
theorem trans (h : AnswersPeer asker hub mid) (h' : AnswersPeer asker mid hub') :
    AnswersPeer asker hub hub' := by
  obtain ⟨messages, hsent, hpeer⟩ := h
  obtain ⟨messages', hsent', hpeer'⟩ := h'
  refine ⟨messages ++ messages', by rw [hsent', hsent, List.append_assoc], ?_⟩
  intro m hm
  exact (List.mem_append.mp hm).elim (hpeer m) (hpeer' m)

/-- Handlers for a list of hearts. -/
theorem foldl {f : Hub → String → Hub} (hf : ∀ hub heart, AnswersPeer asker hub (f hub heart))
    (hearts : List String) (hub : Hub) : AnswersPeer asker hub (hearts.foldl f hub) := by
  induction hearts generalizing hub with
  | nil => exact .of_sent_eq rfl
  | cons heart hearts ih => exact (hf hub heart).trans (ih (f hub heart))

/-- The end of a registration sends its confirmation, and a notification to all. -/
theorem of_finishes {ec : EngineConnector} (h : Finishes hub hub' ec) : AnswersPeer asker hub hub' := by
  refine ⟨_, h.sent, ?_⟩
  intro m hm envelope henvelope
  rcases List.mem_cons.mp hm with rfl | hack
  · cases henvelope
  · rw [List.mem_singleton.mp hack]
    exact .inl rfl

end AnswersPeer

/-- A new heart. -/
theorem answersPeer_handleNewHeart (asker : Option (List String)) (hub : Hub) (heart : String) :
    AnswersPeer asker hub (hub.handleNewHeart heart) := by
  rcases hub.handleNewHeart_cases heart with ⟨-, hsame⟩ | ⟨ec, -, hfinish⟩
  · exact .of_sent_eq (by rw [hsame])
  · exact .of_finishes hfinish

/-- A failed heart is notified to all. -/
theorem answersPeer_handleHeartFailure (asker : Option (List String)) (hub : Hub) (heart : String) :
    AnswersPeer asker hub (hub.handleHeartFailure heart) := by
  unfold handleHeartFailure
  split
  · exact .of_sent_eq rfl
  · unfold _unregisterEngine
    split
    · exact .of_sent_eq rfl
    · refine ⟨[unregistrationNotification _], rfl, ?_⟩
      intro m hm envelope henvelope
      rw [List.mem_singleton.mp hm] at henvelope
      cases henvelope

/-- A registration request is confirmed, or not answered at all. -/
theorem answersPeer_registerEngine (asker : Option (List String)) (wire : Wire) (alive : String → Bool)
    (hub : Hub) (incoming : Incoming) : AnswersPeer asker hub (hub.registerEngine wire alive incoming) := by
  cases hparse : wire.registration incoming.header with
  | none =>
    simp only [registerEngine, hparse]
    exact .of_sent_eq rfl
  | some msg =>
    rw [registerEngine_eq hparse]
    split
    · exact .of_sent_eq rfl
    · split
      · unfold finishRegistration
        split
        · exact .of_sent_eq rfl
        · rename_i ec hfind
          have hfinish := finishFound_finishes (EngineConnectorSet.findHeart_some hfind).1
          have hanswers : AnswersPeer asker _ _ := .of_finishes hfinish
          exact hanswers
      · exact .of_sent_eq rfl

/-- A query is answered to the peer who has asked, and the two requests of engines not at all but for the
confirmation. -/
theorem answersPeer_dispatchQuery (wire : Wire) (alive : String → Bool) (hub : Hub) (incoming : Incoming) :
    AnswersPeer (if incoming.type = "registration_request" ∨ incoming.type = "unregistration_request" then none
      else some incoming.envelope) hub (hub.dispatchQuery wire alive incoming) := by
  by_cases hregistration : incoming.type = "registration_request"
  · simp only [dispatchQuery, hregistration]
    exact answersPeer_registerEngine _ wire alive hub incoming
  · by_cases hunregistration : incoming.type = "unregistration_request"
    · apply AnswersPeer.of_sent_eq
      simp only [dispatchQuery, hunregistration]
      unfold unregisterEngine
      split <;> rfl
    · rw [if_neg (not_or.mpr ⟨hregistration, hunregistration⟩)]
      unfold dispatchQuery
      split
      · unfold queueStatus
        split
        · exact .of_sent_eq rfl
        · split <;> exact .reply rfl
      · unfold getResults
        split
        · exact .of_sent_eq rfl
        · split <;> exact .reply rfl
      · unfold purgeResults
        split
        · exact .of_sent_eq rfl
        · split
          · exact .reply rfl
          · split <;> exact .reply rfl
      · unfold checkLoad
        split
        · exact .of_sent_eq rfl
        · split <;> exact .reply rfl
      · refine ⟨_, rfl, ?_⟩
        intro m hm envelope henvelope
        rcases List.mem_cons.mp hm with rfl | hm
        · cases henvelope
        · rw [List.mem_singleton.mp hm] at henvelope
          cases henvelope
      · contradiction
      · contradiction
      · exact .of_sent_eq rfl

end Hub

namespace Controller

variable {wire : Wire} {toIso : Time → String} {c d : Controller} {e : ControllerEvent}

/-- The peer who waits for an answer to a query. -/
def asker : ControllerEvent → Option (List String)
  | .query incoming =>
    if incoming.type = "registration_request" ∨ incoming.type = "unregistration_request" then none
    else some incoming.envelope
  | .tick _ | .monitor _ | .pong _ | .timeout _ => none

/-- Whatever an event sends to a peer confirms a registration, or goes to the peer who has asked. -/
theorem answersPeer_step (h : Step wire toIso c e d) : Hub.AnswersPeer (asker e) c.hub d.hub := by
  cases e with
  | tick now =>
    cases h
    exact .of_sent_eq rfl
  | query incoming =>
    cases h
    exact Hub.answersPeer_dispatchQuery wire c.monitor.alive c.hub incoming
  | monitor incoming =>
    obtain ⟨ttracker, -, rfl⟩ := Option.map_eq_some_iff.mp h
    exact .of_sent_eq rfl
  | pong pong =>
    cases h
    exact .of_sent_eq rfl
  | timeout ptr =>
    rcases timeout_cases h with hd | ⟨callback, hrun⟩ | rfl
    · exact .of_sent_eq (by rw [hd])
    · have hsent := Hub.sent_runCallback hrun
      exact .of_sent_eq hsent
    · rw [hub_beat]
      have hscheduled : Hub.AnswersPeer none c.hub
          ({ c.hub with loop := c.hub.loop.pop ptr }.scheduleBeat (milliseconds c.monitor.interval)) :=
        .of_sent_eq rfl
      exact (hscheduled.trans (.foldl (Hub.answersPeer_handleNewHeart none) _ _)).trans
        (.foldl (Hub.answersPeer_handleHeartFailure none) _ _)

/-- An engine stays listed, unless the event is a query that takes it out. -/
theorem engine_kept {interval : ℤ}
    (hc : Reachable (System.Step wire) (System.initial interval) c.view) (h : Step wire toIso c e d)
    {ec : EngineConnector} (hec : ec ∈ c.hub.tracker.engines)
    (hkept : ∀ incoming, e = .query incoming → ¬c.view.DelistsEngine wire ec (.query incoming)) :
    ec ∈ d.hub.tracker.engines := by
  have hlisted := (WaitingTimed.reachable hc).engine_incoming
  cases e with
  | tick now =>
    cases h
    exact hec
  | query incoming =>
    cases h
    have hstep : System.Step wire c.view (.query incoming) _ := rfl
    exact (System.step_engineLaw (.reachable hc) hlisted hstep ec).mpr (.inl ⟨hec, hkept incoming rfl⟩)
  | monitor incoming =>
    obtain ⟨ttracker, -, rfl⟩ := Option.map_eq_some_iff.mp h
    exact hec
  | pong pong =>
    cases h
    exact hec
  | timeout ptr =>
    rcases timeout_cases h with hd | ⟨callback, hrun⟩ | rfl
    · rw [hd]
      exact hec
    · rw [Hub.engines_runCallback hrun]
      exact hec
    · exact (hears_beat toIso { c with hub := { c.hub with loop := c.hub.loop.pop ptr } } hlisted).engines ec hec

end Controller

/-- A registration that has been finished is held in every later state. -/
theorem System.holds_run {wire : Wire} {interval : ℤ} {s t : System} {es : List Event}
    (hs : Reachable (Step wire) (initial interval) s) (hrun : Run (Step wire) s es t) {ec : EngineConnector}
    (hec : ec ∈ s.hub.tracker.incomingRegistrations) (hfinished : s.hub.Finished ec.id) :
    ec ∈ t.hub.tracker.incomingRegistrations ∧ t.hub.Finished ec.id := by
  have hlater := finished_run hs hrun hfinished
  refine ⟨(keeps_run hs hrun (.inl hec)).resolve_right fun hpurged => ?_, hlater⟩
  exact (WaitingTimed.reachable (hs.extend hrun)).purged_waiting ec.id hpurged hlater

namespace NetworkEvent

variable {ι : Type*}

/-- The engine sends a request. -/
def Sends (i : ι) : NetworkEvent ι → Prop
  | .run j _ | .shutdown j => j = i
  | .provideService _ _ | .request _ | .hub _ | .reply _ _ => False

/-- A request socket sends its next request only when it has read a reply since the last, as those of the
engines are for their logoff. -/
def Lockstep (es : List (NetworkEvent ι)) : Prop :=
  ∀ before i after, es = before ++ .shutdown i :: after →
    ∃ first m rest, before = first ++ .reply i m :: rest ∧ ∀ e ∈ rest, ¬e.Sends i

/-- The event is not a request of another peer to take engines out. -/
def Unmeddling (e : NetworkEvent ι) : Prop :=
  ∀ incoming, e = .hub (.query incoming) →
    incoming.type ≠ "unregistration_request" ∧ incoming.type ≠ "purge_request"

/-- What has been in lockstep so far has been before. -/
theorem Lockstep.left {es : List (NetworkEvent ι)} {e : NetworkEvent ι} (h : Lockstep (es ++ [e])) :
    Lockstep es := by
  intro before i after hes
  apply h before i (after ++ [e])
  rw [hes, List.append_assoc, List.cons_append]

/-- An engine that logs off in lockstep has read a reply. -/
theorem Lockstep.replied {es : List (NetworkEvent ι)} {i : ι} (h : Lockstep (es ++ [.shutdown i])) :
    ∃ m, .reply i m ∈ es := by
  obtain ⟨first, m, rest, rfl, -⟩ := h es i [] rfl
  exact ⟨m, List.mem_append_right _ List.mem_cons_self⟩

end NetworkEvent

namespace Network

variable {ι : Type*} {T : Transport ι} {toIso : Time → String} {interval : ℤ}
  {clock lifetime tic lastPing : Time} {net after : Network ι} {es : List (NetworkEvent ι)}
  {e : NetworkEvent ι}

/-- Logoff requests come from registered engines, replies to engines confirm their registrations, and a
confirmed engine is listed unless the hub has served its logoff. -/
structure Member (T : Transport ι) (es : List (NetworkEvent ι)) (net : Network ι) : Prop where
  names : ∀ i msg, (net.engines i).hello = some msg → (net.engines i).queueName = msg.queue
  requests : ∀ incoming ∈ net.requests, incoming.type = "registration_request" ∨
    ∃ i, incoming = T.logoffRequest i (net.engines i) ∧ (net.engines i).registered = true
  replies : ∀ m ∈ net.replies, ∀ i, m.envelope = some (T.envelope i) → m.Confirms
  replied : ∀ i m, .reply i m ∈ es → (net.engines i).registered = true
  member : ∀ i, Confirmed T i net → ∃ msg ec, (net.engines i).hello = some msg ∧ MadeFrom T i msg ec ∧
    ec ∈ net.controller.hub.tracker.incomingRegistrations ∧ net.controller.hub.Finished ec.id ∧
      (ec ∈ net.controller.hub.tracker.engines ∨ .request (T.logoffRequest i (net.engines i)) ∈ es)

/-- A reply leaves the queue name of the engine alone. -/
theorem queueName_dispatchRegistration {engine engine' : Engine} {frames : List Frame}
    (h : engine.dispatchRegistration frames = some engine') : engine'.queueName = engine.queueName := by
  unfold Engine.dispatchRegistration at h
  split at h
  · split at h
    · cases h
      rfl
    · cases h
  · cases h
    rfl

namespace Member

/-- Before any engine runs there is nothing to tell. -/
theorem initial (T : Transport ι) (interval : ℤ) (clock lifetime tic lastPing : Time) :
    Member T [] (.initial interval clock lifetime tic lastPing) where
  names _ _ h := by cases h
  requests _ h := absurd h List.not_mem_nil
  replies _ h := absurd h List.not_mem_nil
  replied _ _ h := absurd h List.not_mem_nil
  member i h := by
    rcases h with hregistered | ⟨m, hm, -⟩
    · cases hregistered
    · exact absurd hm List.not_mem_nil

/-- A step at the engines, none of which forgets its names or that it is registered. -/
theorem of_engines (inv : Member T es net) (hcontroller : after.controller = net.controller)
    (hsame : ∀ i msg, (net.engines i).hello = some msg → (after.engines i).hello = some msg ∧
      (after.engines i).queueName = (net.engines i).queueName ∧
        ((net.engines i).registered = true → (after.engines i).registered = true))
    (hnames : ∀ i msg, (after.engines i).hello = some msg → (net.engines i).hello = some msg ∨
      (after.engines i).queueName = msg.queue)
    (hrequests : ∀ incoming ∈ after.requests, incoming ∈ net.requests ∨
      incoming.type = "registration_request" ∨
        ∃ i, incoming = T.logoffRequest i (after.engines i) ∧ (after.engines i).registered = true)
    (hreplies : ∀ m ∈ after.replies, m ∈ net.replies)
    (hreplied : ∀ i m, e = .reply i m → (after.engines i).registered = true)
    (hconfirmed : ∀ i, Confirmed T i after → Confirmed T i net) : Member T (es ++ [e]) after := by
  have hlogoff {i : ι} {msg : Registration} (hhello : (net.engines i).hello = some msg) :
      T.logoffRequest i (after.engines i) = T.logoffRequest i (net.engines i) := by
    simp only [Transport.logoffRequest, (hsame i msg hhello).2.1]
  have hkept {i : ι} (hregistered : (net.engines i).registered = true) :
      (after.engines i).registered = true ∧
        T.logoffRequest i (after.engines i) = T.logoffRequest i (net.engines i) := by
    obtain ⟨msg, ec, hhello, -⟩ := inv.member i (.inl hregistered)
    exact ⟨(hsame i msg hhello).2.2 hregistered, hlogoff hhello⟩
  refine ⟨?_, ?_, fun m hm => inv.replies m (hreplies m hm), ?_, ?_⟩
  · intro i msg hmsg
    rcases hnames i msg hmsg with hold | hnew
    · exact (hsame i msg hold).2.1.trans (inv.names i msg hold)
    · exact hnew
  · intro incoming hmem
    rcases hrequests incoming hmem with hold | hnew
    · apply (inv.requests incoming hold).imp_right
      intro hexists
      obtain ⟨i, heq, hregistered⟩ := hexists
      exact ⟨i, heq.trans (hkept hregistered).2.symm, (hkept hregistered).1⟩
    · exact hnew
  · intro i m hmem
    rcases List.mem_append.mp hmem with hold | hnew
    · exact (hkept (inv.replied i m hold)).1
    · exact hreplied i m (List.mem_singleton.mp hnew).symm
  · intro i hi
    obtain ⟨msg, ec, hhello, hmade, hec, hfinished, hlisted⟩ := inv.member i (hconfirmed i hi)
    rw [hcontroller, hlogoff hhello]
    exact ⟨msg, ec, (hsame i msg hhello).1, hmade, hec, hfinished,
      hlisted.imp_right fun hmem => List.mem_append_left _ hmem⟩

/-- A handler of the hub, if it takes out no engine but one whose logoff it serves. -/
theorem of_served (inv : Member T es net)
    (hnet : Reachable (Controller.Step T.wire toIso) (.create interval clock lifetime tic lastPing)
      net.controller)
    {requests : List Incoming} (hrequests : ∀ incoming ∈ requests, incoming ∈ net.requests)
    {ce : ControllerEvent} {c : Controller} (hstep : Controller.Step T.wire toIso net.controller ce c)
    (honest : Honest T toIso (.create interval clock lifetime tic lastPing)
      ({ net with requests := requests }.served c))
    (hasker : ∀ i, Controller.asker ce ≠ some (T.envelope i)) (hevent : ∀ i m, e ≠ .reply i m)
    (hkept : ∀ i msg ec, Confirmed T i net → (net.engines i).hello = some msg → MadeFrom T i msg ec →
      ec ∈ net.controller.hub.tracker.engines → ec ∈ c.hub.tracker.engines ∨
        e = .request (T.logoffRequest i (net.engines i))) :
    Member T (es ++ [e]) ({ net with requests := requests }.served c) := by
  obtain ⟨messages, hsent, hpeer⟩ := Controller.answersPeer_step hstep
  have hreplies : ({ net with requests := requests }.served c).replies = net.replies ++ messages := by
    rw [served, hsent, List.drop_left]
  refine ⟨inv.names, fun incoming hmem => inv.requests incoming (hrequests incoming hmem), ?_, ?_, ?_⟩
  · intro m hm i henvelope
    rw [hreplies, List.mem_append] at hm
    rcases hm with hold | hnew
    · exact inv.replies m hold i henvelope
    · exact (hpeer m hnew _ henvelope).resolve_right (hasker i)
  · intro i m hmem
    rcases List.mem_append.mp hmem with hold | hnew
    · exact inv.replied i m hold
    · exact absurd (List.mem_singleton.mp hnew).symm (hevent i m)
  · intro i hconfirmed
    by_cases hbefore : Confirmed T i net
    · obtain ⟨msg, ec, hhello, hmade, hec, hfinished, hlisted⟩ := inv.member i hbefore
      obtain ⟨ds, hds⟩ := Controller.run_step hstep
      obtain ⟨hheld, hlater⟩ := System.holds_run (Controller.reachable_view hnet) hds hec hfinished
      refine ⟨msg, ec, hhello, hmade, hheld, hlater, ?_⟩
      rcases hlisted with hlisted | hlogoff
      · apply (hkept i msg ec hbefore hhello hmade hlisted).imp_right
        intro heq
        exact List.mem_append_right _ (heq ▸ List.mem_singleton_self _)
      · exact .inr (List.mem_append_left _ hlogoff)
    · have hack : Acknowledges T i net ({ net with requests := requests }.served c) :=
        acknowledges_of_served (Controller.listed hnet) hstep hbefore rfl rfl rfl honest
          (Controller.listed honest.reachable) hconfirmed
      obtain ⟨msg, ec, messages', hhello, -, -, hrequest, hlisted, hqueue, hheart, hservices⟩ := hack
      have hview := Controller.reachable_view honest.reachable
      exact ⟨msg, ec, hhello, ⟨hrequest, hqueue, hheart, hservices⟩,
        (WaitingTimed.reachable hview).engine_incoming ec hlisted,
        (RegistryInvariant.reachable hview).engine_finished ec hlisted, .inl hlisted⟩

/-- An engine that logs off is the one which its request takes out. -/
theorem delists_logoff (inv : Member T es net)
    (hnet : Reachable (Controller.Step T.wire toIso) (.create interval clock lifetime tic lastPing)
      net.controller)
    {incoming : Incoming} (hmem : incoming ∈ net.requests) {i : ι} {msg : Registration}
    {ec : EngineConnector} (hmade : MadeFrom T i msg ec) (hec : ec ∈ net.controller.hub.tracker.engines)
    (hdelists : net.controller.view.DelistsEngine T.wire ec (.query incoming)) :
    incoming = T.logoffRequest i (net.engines i) := by
  rcases inv.requests incoming hmem with htype | ⟨j, rfl, hregistered⟩
  · cases hdelists with
    | unregisters _ hunregisters _ => simp [htype] at hunregisters
    | purges _ _ hpurges _ _ _ _ => simp [htype] at hpurges
  · cases hdelists with
    | unregisters _ _ hqueue =>
      obtain ⟨other, ec', hhello, hmade', hec', -⟩ := inv.member j (.inl hregistered)
      have registry := RegistryInvariant.reachable (Controller.reachable_view hnet)
      have hsame : ec'.queue = ec.queue := by
        rw [hmade'.queue, ← inv.names j other hhello, ← hqueue]
        rfl
      have heq := registry.queue_unique ec' hec' ec (Controller.listed hnet ec hec) hsame
      have hto : T.helloRequest j other = T.helloRequest i msg := by
        rw [← hmade'.incomingMsg, ← hmade.incomingMsg, heq]
      rw [T.envelope_injective (congrArg Incoming.envelope hto)]
    | purges _ _ hpurges _ _ _ _ => simp [Transport.logoffRequest] at hpurges

section Step

variable [DecidableEq ι]

/-- A step at one engine, which forgets neither its names nor that it is registered. -/
theorem of_setEngine (inv : Member T es net) {j : ι} {engine : Engine}
    (hcontroller : after.controller = net.controller)
    (hengines : after.engines = (net.setEngine j engine).engines)
    (hsame : ∀ msg, (net.engines j).hello = some msg → engine.hello = some msg ∧
      engine.queueName = (net.engines j).queueName)
    (hnames : ∀ msg, engine.hello = some msg → (net.engines j).hello = some msg ∨
      engine.queueName = msg.queue)
    (hregistered : (net.engines j).registered = true → engine.registered = true)
    (hrequests : ∀ incoming ∈ after.requests, incoming ∈ net.requests ∨
      incoming.type = "registration_request")
    (hreplies : ∀ m ∈ after.replies, m ∈ net.replies)
    (hreplied : ∀ i m, e = .reply i m → i = j ∧ engine.registered = true)
    (hconfirmed : ∀ i, Confirmed T i after → Confirmed T i net) : Member T (es ++ [e]) after := by
  apply inv.of_engines hcontroller _ _ (fun incoming hmem => (hrequests incoming hmem).imp_right .inl)
    hreplies _ hconfirmed
  · rw [hengines]
    apply (Function.forall_update_iff net.engines fun i engine => ∀ msg, (net.engines i).hello = some msg →
      engine.hello = some msg ∧ engine.queueName = (net.engines i).queueName ∧
        ((net.engines i).registered = true → engine.registered = true)).mpr
    exact ⟨fun msg hmsg => ⟨(hsame msg hmsg).1, (hsame msg hmsg).2, hregistered⟩,
      fun i _ msg hmsg => ⟨hmsg, rfl, id⟩⟩
  · rw [hengines]
    apply (Function.forall_update_iff net.engines fun i engine => ∀ msg, engine.hello = some msg →
      (net.engines i).hello = some msg ∨ engine.queueName = msg.queue).mpr
    exact ⟨hnames, fun i _ msg hmsg => .inl hmsg⟩
  · intro i m he
    obtain ⟨rfl, hafter⟩ := hreplied i m he
    simp only [hengines, setEngine, Function.update_self]
    exact hafter

/-- Every event keeps it, if the engines are in lockstep and no other peer meddles. -/
theorem step (inv : Member T es net) (hlockstep : NetworkEvent.Lockstep (es ++ [e]))
    (hunmeddling : e.Unmeddling)
    (honest : Honest T toIso (.create interval clock lifetime tic lastPing) net)
    (h : Step T toIso net e after) : Member T (es ++ [e]) after := by
  have hlater := honest.step (Controller.listed honest.reachable) h
  have hkept (i : ι) (msg : Registration) (hmsg : (net.engines i).hello = some msg) :
      (after.engines i).hello = some msg := hello_kept h hmsg
  cases h with
  | provideService j s =>
    refine inv.of_setEngine rfl rfl (fun _ hmsg => ⟨hmsg, rfl⟩) (fun _ hmsg => .inl hmsg) id
      (fun _ hmem => .inl hmem) (fun _ hm => hm) (by simp) ?_
    intro i hi
    have hregistered : ((net.engines j).provideService s).registered = (net.engines j).registered := rfl
    exact hi.imp_left (registered_setEngine hregistered i).symm.trans
  | run j name hfirst =>
    have hregistered : ((net.engines j).run name).registered = (net.engines j).registered := rfl
    refine inv.of_setEngine rfl rfl ?_ ?_ id ?_ (fun _ hm => hm) (by simp) ?_
    · intro msg hmsg
      rw [hfirst] at hmsg
      cases hmsg
    · intro msg hmsg
      cases hmsg
      exact .inr rfl
    · intro incoming hmem
      apply (List.mem_append.mp hmem).imp_right
      intro hnew
      rw [List.mem_singleton.mp hnew]
      rfl
    · intro i hi
      exact hi.imp_left (registered_setEngine hregistered i).symm.trans
  | shutdown j hrunning =>
    obtain ⟨m, hread⟩ := hlockstep.replied
    refine inv.of_engines rfl ?_ ?_ ?_ (fun _ hm => hm) (by simp) (fun _ hi => hi)
    · exact fun i msg hmsg => ⟨hmsg, rfl, id⟩
    · exact fun i msg hmsg => .inl hmsg
    · intro incoming hmem
      apply (List.mem_append.mp hmem).imp_right
      intro hnew
      exact .inr ⟨j, List.mem_singleton.mp hnew, inv.replied j m hread⟩
  | request incoming c hmem hserved =>
    apply inv.of_served honest.reachable (fun _ hin => List.mem_of_mem_erase hin) hserved hlater _
      (by simp)
    · intro i msg ec _ _ hmade hec
      by_cases hdelists : net.controller.view.DelistsEngine T.wire ec (.query incoming)
      · exact .inr (congrArg _ (inv.delists_logoff honest.reachable hmem hmade hec hdelists))
      · left
        apply Controller.engine_kept (Controller.reachable_view honest.reachable) hserved hec
        intro _ heq
        cases heq
        exact hdelists
    · intro i
      have htype : incoming.type = "registration_request" ∨ incoming.type = "unregistration_request" := by
        apply (inv.requests incoming hmem).imp_right
        rintro ⟨j, rfl, -⟩
        rfl
      simp [Controller.asker, htype]
  | hub ce c hother hserved =>
    apply inv.of_served honest.reachable (fun _ hin => hin) hserved hlater _ (by simp)
    · intro i msg ec _ _ _ hec
      left
      apply Controller.engine_kept (Controller.reachable_view honest.reachable) hserved hec
      intro incoming heq hdelists
      have hpeer := hunmeddling incoming (congrArg NetworkEvent.hub heq)
      cases hdelists with
      | unregisters _ htype _ => exact hpeer.1 htype
      | purges _ _ htype _ _ _ _ => exact hpeer.2 htype
    · intro i hasker
      cases ce with
      | query incoming =>
        simp only [Controller.asker] at hasker
        split at hasker
        · cases hasker
        · exact hother incoming rfl i (Option.some.inj hasker)
      | tick now => cases hasker
      | monitor incoming => cases hasker
      | pong pong => cases hasker
      | timeout ptr => cases hasker
  | reply j m engine hmem hsocket henvelope hengine =>
    have hregistered := registered_of_confirms hengine (inv.replies m hmem j henvelope)
    have hhello := hello_dispatchRegistration hengine
    refine inv.of_setEngine rfl rfl ?_ ?_ (fun _ => hregistered) (fun _ hin => .inl hin)
      (fun _ hin => List.mem_of_mem_erase hin) ?_ (fun _ hi => confirmed_of_reply hmem henvelope hengine hi)
    · intro msg hmsg
      exact ⟨hhello.trans hmsg, queueName_dispatchRegistration hengine⟩
    · intro msg hmsg
      exact .inl (hhello.symm.trans hmsg)
    · intro i _ heq
      cases heq
      exact ⟨rfl, hregistered⟩

/-- It holds at the end of every such run. -/
theorem of_run (hrun : Run (Step T toIso) (.initial interval clock lifetime tic lastPing) es net)
    (hlockstep : NetworkEvent.Lockstep es) (hunmeddling : ∀ e ∈ es, e.Unmeddling) : Member T es net := by
  have hstep (es : List (NetworkEvent ι)) (s : Network ι) (e : NetworkEvent ι) (t : Network ι)
      (inv : Honest T toIso (.create interval clock lifetime tic lastPing) s ∧
        (NetworkEvent.Lockstep es → (∀ e ∈ es, e.Unmeddling) → Member T es s)) (h : Step T toIso s e t) :
      Honest T toIso (.create interval clock lifetime tic lastPing) t ∧
        (NetworkEvent.Lockstep (es ++ [e]) → (∀ d ∈ es ++ [e], d.Unmeddling) → Member T (es ++ [e]) t) := by
    refine ⟨inv.1.step (Controller.listed inv.1.reachable) h, ?_⟩
    intro hlockstep hunmeddling
    rw [List.forall_mem_append] at hunmeddling
    exact (inv.2 hlockstep.left hunmeddling.1).step hlockstep (hunmeddling.2 e List.mem_cons_self) inv.1 h
  have hall := hrun.history _ hstep ⟨.initial T toIso interval clock lifetime tic lastPing,
    fun _ _ => .initial T interval clock lifetime tic lastPing⟩
  exact hall.2 hlockstep hunmeddling

end Step

end Member

end Network

/-- Where the request sockets of the engines are in lockstep and no other peer asks the hub to take engines
out, an engine that is registered is listed, under the names and the services with which it has said hello,
until the hub has served its own logoff. An engine that has been refused never logs off its namesake. -/
theorem registered_until_logoff {ι : Type*} [DecidableEq ι] {T : Transport ι} {toIso : Time → String}
    {interval : ℤ} {clock lifetime tic lastPing : Time} {es : List (NetworkEvent ι)} {net : Network ι}
    (hrun : Run (Network.Step T toIso) (.initial interval clock lifetime tic lastPing) es net)
    (hlockstep : NetworkEvent.Lockstep es) (hunmeddling : ∀ e ∈ es, e.Unmeddling) {i : ι}
    (hregistered : (net.engines i).registered = true) :
    ∃ msg ec, (net.engines i).hello = some msg ∧ Network.MadeFrom T i msg ec ∧
      (ec ∈ net.controller.hub.tracker.engines ∨ .request (T.logoffRequest i (net.engines i)) ∈ es) := by
  obtain ⟨msg, ec, hhello, hmade, -, -, hlisted⟩ :=
    (Network.Member.of_run hrun hlockstep hunmeddling).member i (.inl hregistered)
  exact ⟨msg, ec, hhello, hmade, hlisted⟩

/-- An engine gets registered and asks to be taken out; it is listed until the hub has
read this. -/
theorem registered_until_logoff_pair :
    ∃ (es : List (NetworkEvent Bool)) (net : Network Bool), .shutdown true ∈ es ∧
      (net.engines true).registered = true ∧
      ∃ msg ec, (net.engines true).hello = some msg ∧ Network.MadeFrom .pair true msg ec ∧
        (ec ∈ net.controller.hub.tracker.engines ∨
          .request (Transport.pair.logoffRequest true (net.engines true)) ∈ es) := by
  obtain ⟨m, net, hrun, hregistered, hhello⟩ := Network.registered_along .pair Time.toIsoString true "e"
  have hlogoff : Network.Step .pair Time.toIsoString net (.shutdown true)
      { net with requests := net.requests ++ [Transport.pair.logoffRequest true (net.engines true)] } :=
    .shutdown net true (by simp [hhello])
  refine ⟨_, _, ?_, hregistered, registered_until_logoff (hrun.append (.single hlogoff)) ?_ ?_ hregistered⟩
  · simp
  · intro before j after h
    have hlast : before = [.run true "e",
          .request (Transport.pair.helloRequest true (({} : Engine).registration "e")),
          .hub (.pong ⟨"e-heart", Time.toIsoString 0⟩), .hub (.timeout 0), .reply true m] ∧ j = true ∧
        after = [] := by
      simpa [List.cons_eq_append_iff] using h
    obtain ⟨rfl, rfl, -⟩ := hlast
    exact ⟨[_, _, _, _], m, [], rfl, fun _ hin => absurd hin List.not_mem_nil⟩
  · simp [NetworkEvent.Unmeddling]

end Gpf