import Gpf.Controller.HubHeartbeat
import Gpf.Controller.RegistryStep

/-!
# What the hub sends under the tag of a registration

A message under the tag of a registration is only ever the acknowledgement of a connector which the
hub lists as an engine when the handler that sends it ends, and a connector carries the request which
it was made from. Both hold of every event of the controller, a beat with all its hearts included.
-/

namespace Gpf

open Transition

/-- The tag by which `engine::dispatch_registration` knows a reply to its request. -/
def Sent.Confirms (m : Sent) : Prop := m.frames.head? = some (.text "registration_request")

namespace Hub

/-- Every engine is still among the incoming registrations. -/
def Listed (hub : Hub) : Prop :=
  ∀ ec ∈ hub.tracker.engines, ec ∈ hub.tracker.incomingRegistrations

/-- Whatever the handler sends under the tag of a registration acknowledges an engine listed after it. -/
def AcksListed (hub hub' : Hub) : Prop :=
  ∃ messages, hub'.sent = hub.sent ++ messages ∧
    ∀ m ∈ messages, m.Confirms → ∃ ec ∈ hub'.tracker.engines, m = registrationAck ec

/-- What a new or a failed heart does to the registry: engines are only added, and from the incoming
registrations. -/
structure Hears (hub hub' : Hub) : Prop where
  incoming : hub'.tracker.incomingRegistrations = hub.tracker.incomingRegistrations
  engines : ∀ ec ∈ hub.tracker.engines, ec ∈ hub'.tracker.engines
  listed : hub'.Listed
  acks : AcksListed hub hub'

/-- A handler which sends nothing. -/
theorem AcksListed.of_sent_eq {hub hub' : Hub} (hsent : hub'.sent = hub.sent) :
    AcksListed hub hub' := by
  refine ⟨[], ?_, ?_⟩
  · rw [hsent, List.append_nil]
  · simp

/-- A handler which sends messages under other tags. -/
theorem AcksListed.of_sent {hub hub' : Hub} (messages : List Sent)
    (hsent : hub'.sent = hub.sent ++ messages) (htag : ∀ m ∈ messages, ¬m.Confirms) :
    AcksListed hub hub' :=
  ⟨messages, hsent, fun m hm hconfirms => absurd hconfirms (htag m hm)⟩

/-- A reply under another tag. -/
theorem AcksListed.reply {hub hub' : Hub} {incoming : Incoming} {tag : String} {frames : List Frame}
    (hsent : hub'.sent = hub.sent) (htag : tag ≠ "registration_request") :
    AcksListed hub (hub'.reply incoming (.text tag :: frames)) := by
  apply AcksListed.of_sent [_]
  · rw [Hub.reply, hsent]
  · intro m hm
    rw [List.mem_singleton.mp hm]
    simpa [Sent.Confirms] using htag

/-- Hearing of a heart which the hub does not know. -/
theorem Hears.refl {hub : Hub} (hlisted : hub.Listed) : Hears hub hub :=
  ⟨rfl, fun _ h => h, hlisted, .of_sent_eq rfl⟩

/-- Hearing of several hearts. -/
theorem Hears.trans {first second third : Hub} (h : Hears first second) (h' : Hears second third) :
    Hears first third := by
  refine ⟨h'.incoming.trans h.incoming, fun ec hec => h'.engines ec (h.engines ec hec), h'.listed, ?_⟩
  obtain ⟨messages, hsent, hacks⟩ := h.acks
  obtain ⟨messages', hsent', hacks'⟩ := h'.acks
  refine ⟨messages ++ messages', ?_, ?_⟩
  · rw [hsent', hsent, List.append_assoc]
  · intro m hm hconfirms
    rcases List.mem_append.mp hm with hold | hnew
    · obtain ⟨ec, hec, heq⟩ := hacks m hold hconfirms
      exact ⟨ec, h'.engines ec hec, heq⟩
    · exact hacks' m hnew hconfirms

/-- A handler which leaves the registry alone and sends messages under other tags. -/
theorem Hears.of_sent {hub hub' : Hub} (hlisted : hub.Listed)
    (hincoming : hub'.tracker.incomingRegistrations = hub.tracker.incomingRegistrations)
    (hengines : hub'.tracker.engines = hub.tracker.engines) (messages : List Sent)
    (hsent : hub'.sent = hub.sent ++ messages) (htag : ∀ m ∈ messages, ¬m.Confirms) :
    Hears hub hub' where
  incoming := hincoming
  engines := by
    rw [hengines]
    exact fun _ h => h
  listed := by
    rw [Listed, hengines, hincoming]
    exact hlisted
  acks := .of_sent messages hsent htag

/-- Finishing a registration lists its connector, also when its id is listed already. -/
theorem hears_finishFound {hub : Hub} (hlisted : hub.Listed) {ec : EngineConnector}
    (hmem : ec ∈ hub.tracker.incomingRegistrations) : Hears hub (hub.finishFound ec) := by
  have hengines {c : EngineConnector} : c ∈ (hub.finishFound ec).tracker.engines ↔
      c ∈ hub.tracker.engines ∨ c = ec ∧ ∀ d ∈ hub.tracker.engines, d.id ≠ ec.id :=
    KeyedTable.mem_insert
  have hself : ec ∈ (hub.finishFound ec).tracker.engines := by
    by_cases hid : ∀ d ∈ hub.tracker.engines, d.id ≠ ec.id
    · exact hengines.mpr (.inr ⟨rfl, hid⟩)
    · push Not at hid
      obtain ⟨d, hd, heq⟩ := hid
      have hsame : d = ec := KeyedTable.eq_of_key_eq (hlisted d hd) hmem heq
      exact hengines.mpr (.inl (hsame ▸ hd))
  refine ⟨rfl, fun c hc => hengines.mpr (.inl hc), ?_, ?_⟩
  · intro c hc
    rcases hengines.mp hc with hold | hnew
    · exact hlisted c hold
    · exact hnew.1 ▸ hmem
  · refine ⟨[registrationNotification ec, registrationAck ec], rfl, ?_⟩
    intro m hm hconfirms
    rcases List.mem_cons.mp hm with rfl | hack
    · simp [Sent.Confirms, registrationNotification] at hconfirms
    · exact ⟨ec, hself, List.mem_singleton.mp hack⟩

/-- `finish_registration` acknowledges a connector which it lists. -/
theorem hears_finishRegistration {hub : Hub} (hlisted : hub.Listed) (heart : String) :
    Hears hub (hub.finishRegistration heart) := by
  cases hfind : hub.tracker.incomingRegistrations.findHeart heart with
  | none =>
    simp only [finishRegistration, hfind]
    exact .refl hlisted
  | some ec =>
    simp only [finishRegistration, hfind]
    exact hears_finishFound hlisted (EngineConnectorSet.findHeart_some hfind).1

/-- A new heart. -/
theorem hears_handleNewHeart {hub : Hub} (hlisted : hub.Listed) (heart : String) :
    Hears hub (hub.handleNewHeart heart) := by
  unfold handleNewHeart
  split
  · exact .refl hlisted
  · exact hears_finishRegistration hlisted heart

/-- A failed heart. -/
theorem hears_handleHeartFailure {hub : Hub} (hlisted : hub.Listed) (heart : String) :
    Hears hub (hub.handleHeartFailure heart) := by
  unfold handleHeartFailure
  split
  · exact .refl hlisted
  · unfold _unregisterEngine
    split
    · exact .refl hlisted
    · refine Hears.of_sent hlisted rfl rfl [unregistrationNotification _] rfl ?_
      intro m hm
      rw [List.mem_singleton.mp hm]
      simp [Sent.Confirms, unregistrationNotification]

/-- A registration request is answered by acknowledging a listed engine, or not at all. -/
theorem acksListed_registerEngine {hub : Hub} (hlisted : hub.Listed) (wire : Wire)
    (alive : String → Bool) (incoming : Incoming) :
    AcksListed hub (hub.registerEngine wire alive incoming) := by
  cases hparse : wire.registration incoming.header with
  | none =>
    simp only [registerEngine, hparse]
    exact .of_sent_eq rfl
  | some msg =>
    rw [registerEngine_eq hparse]
    split
    · exact .of_sent_eq rfl
    · split
      · have hinserted : (hub.nextId.2.insertIncoming
            (connectorOf hub.tracker.nextId msg incoming none)).Listed := fun ec hec =>
          KeyedTable.mem_insert.mpr (.inl (hlisted ec hec))
        exact (hears_finishRegistration hinserted msg.heartbeat).acks
      · exact .of_sent_eq rfl

/-- The answer to a query is no acknowledgement, unless the query is a registration request. -/
theorem acksListed_dispatchQuery {hub : Hub} (hlisted : hub.Listed) (wire : Wire)
    (alive : String → Bool) (incoming : Incoming) :
    AcksListed hub (hub.dispatchQuery wire alive incoming) := by
  unfold dispatchQuery
  split
  · unfold queueStatus
    split
    · exact .of_sent_eq rfl
    · split <;> exact .reply rfl (by decide)
  · unfold getResults
    split
    · exact .of_sent_eq rfl
    · split <;> exact .reply rfl (by decide)
  · unfold purgeResults
    split
    · exact .of_sent_eq rfl
    · split
      · exact .reply rfl (by decide)
      · split <;> exact .reply rfl (by decide)
  · unfold checkLoad
    split
    · exact .of_sent_eq rfl
    · split <;> exact .reply rfl (by decide)
  · exact .of_sent _ rfl (by simp [Sent.Confirms])
  · exact acksListed_registerEngine hlisted wire alive incoming
  · unfold unregisterEngine
    split <;> exact .of_sent_eq rfl
  · exact .of_sent_eq rfl

/-- No callback of a timer sends anything. -/
theorem sent_runCallback {hub hub' : Hub} {callback : Callback}
    (h : hub.runCallback callback = some hub') : hub'.sent = hub.sent := by
  cases callback with
  | purgeStalledRegistration heart =>
    rw [runCallback, Option.some.injEq] at h
    rw [← h]
    unfold _purgeStalledRegistration
    split <;> rfl
  | handleStrandedMsgs eid uuid =>
    rw [runCallback, Option.some.injEq] at h
    rw [← h]
    unfold _handleStrandedMsgs
    split <;> rfl
  | shutdown => cases h
  | beat =>
    cases h
    rfl

/-- Hearing of a list of hearts, one by one. -/
theorem Hears.foldl {f : Hub → String → Hub}
    (hf : ∀ (hub : Hub) heart, hub.Listed → Hears hub (f hub heart)) (hearts : List String) (hub : Hub)
    (hlisted : hub.Listed) : Hears hub (hearts.foldl f hub) := by
  induction hearts generalizing hub with
  | nil => exact .refl hlisted
  | cons heart hearts ih =>
    have hhead := hf hub heart hlisted
    exact hhead.trans (ih (f hub heart) hhead.listed)

end Hub

/-- The connector carries what a registration request says, and the request itself. -/
def EngineConnector.Carries (wire : Wire) (ec : EngineConnector) : Prop :=
  ec.incomingMsg.type = "registration_request" ∧
    ∃ msg, wire.registration ec.incomingMsg.header = some msg ∧
      ec.queue = msg.queue ∧ ec.heartbeat = msg.heartbeat ∧ ec.services = msg.services

namespace Hub

/-- `finish_registration` leaves the incoming registrations as they are. -/
theorem incoming_finishRegistration (hub : Hub) (heart : String) :
    (hub.finishRegistration heart).tracker.incomingRegistrations =
      hub.tracker.incomingRegistrations := by
  unfold finishRegistration
  split <;> rfl

/-- A registration which a query brings in carries that query. -/
theorem carries_dispatchQuery (wire : Wire) (alive : String → Bool) (hub : Hub) (incoming : Incoming)
    {ec : EngineConnector}
    (hec : ec ∈ (hub.dispatchQuery wire alive incoming).tracker.incomingRegistrations) :
    ec ∈ hub.tracker.incomingRegistrations ∨ ec.incomingMsg = incoming ∧ ec.Carries wire := by
  unfold dispatchQuery at hec
  split at hec
  · exact .inl ((queueStatus_answers wire hub incoming).calm.incoming ▸ hec)
  · exact .inl ((getResults_answers wire hub incoming).calm.incoming ▸ hec)
  · exact .inl ((purgeResults_calm wire hub incoming).incoming ▸ hec)
  · exact .inl ((checkLoad_answers wire hub incoming).calm.incoming ▸ hec)
  · exact .inl hec
  · rename_i htype
    cases hparse : wire.registration incoming.header with
    | none =>
      simp only [registerEngine, hparse] at hec
      exact .inl hec
    | some msg =>
      have hinserted (ptr : Option ℕ) {c : EngineConnector}
          (hc : c ∈ (hub.nextId.2.insertIncoming
            (connectorOf hub.tracker.nextId msg incoming ptr)).tracker.incomingRegistrations) :
          c ∈ hub.tracker.incomingRegistrations ∨ c.incomingMsg = incoming ∧ c.Carries wire := by
        rcases KeyedTable.mem_insert.mp hc with hold | ⟨rfl, -⟩
        · exact .inl hold
        · exact .inr ⟨rfl, htype, msg, hparse, rfl, rfl, rfl⟩
      rw [registerEngine_eq hparse] at hec
      split at hec
      · exact .inl hec
      · split at hec
        · rw [incoming_finishRegistration] at hec
          exact hinserted none hec
        · exact hinserted _ hec
  · exact .inl ((unregisterEngine_calm hub incoming).incoming ▸ hec)
  · exact .inl hec

/-- A callback of a timer brings no registration in. -/
theorem incoming_runCallback {hub hub' : Hub} {callback : Callback}
    (h : hub.runCallback callback = some hub') {ec : EngineConnector}
    (hec : ec ∈ hub'.tracker.incomingRegistrations) : ec ∈ hub.tracker.incomingRegistrations := by
  cases callback with
  | purgeStalledRegistration heart =>
    rw [runCallback, Option.some.injEq] at h
    rw [← h] at hec
    unfold _purgeStalledRegistration at hec
    split at hec
    · exact hec
    · exact (KeyedTable.mem_erase.mp hec).1
  | handleStrandedMsgs eid uuid =>
    rw [runCallback, Option.some.injEq] at h
    rw [← h] at hec
    unfold _handleStrandedMsgs at hec
    split at hec <;> exact hec
  | shutdown => cases h
  | beat =>
    cases h
    exact hec

end Hub

namespace Controller

variable {wire : Wire} {toIso : Time → String}

/-- A beat is the hearing of its new and its failed hearts. -/
theorem hears_beat (toIso : Time → String) (c : Controller) (hlisted : c.hub.Listed) :
    c.hub.Hears (c.beat toIso).hub := by
  have hscheduled : c.hub.Hears (c.hub.scheduleBeat (milliseconds c.monitor.interval)) :=
    .of_sent hlisted rfl rfl [] (by rw [List.append_nil]; rfl) (by simp)
  have hnew := Hub.Hears.foldl (fun hub heart h => Hub.hears_handleNewHeart h heart)
    (c.monitor.newHearts.sort (· ≤ ·)) _ hscheduled.listed
  have hfailed := Hub.Hears.foldl (fun hub heart h => Hub.hears_handleHeartFailure h heart)
    (c.monitor.heartFailures.sort (· ≤ ·)) _ hnew.listed
  rw [hub_beat]
  exact (hscheduled.trans hnew).trans hfailed

/-- What a firing timer does: it leaves the queue, and either nothing else happens, or a callback of the
hub runs, or the heartmonitor beats. -/
theorem timeout_cases {c d : Controller} {ptr : ℕ} (h : c.timeout toIso ptr = some d) :
    d.hub = { c.hub with loop := c.hub.loop.pop ptr } ∨
      (∃ callback, { c.hub with loop := c.hub.loop.pop ptr }.runCallback callback = some d.hub) ∨
      d = { c with hub := { c.hub with loop := c.hub.loop.pop ptr } }.beat toIso := by
  unfold timeout at h
  split at h
  · cases h
  · rename_i timer hfind
    by_cases hactive : (c.hub.loop.pop ptr).active ptr = true
    · rw [if_pos hactive] at h
      obtain ⟨hub, hrun, hd⟩ := Option.map_eq_some_iff.mp h
      right
      by_cases hbeat : timer.callback = .beat
      · rw [if_pos hbeat] at hd
        rw [hbeat] at hrun
        cases hrun
        exact .inr hd.symm
      · rw [if_neg hbeat] at hd
        rw [← hd]
        exact .inl ⟨timer.callback, hrun⟩
    · rw [if_neg hactive, Option.some.injEq] at h
      exact .inl (h ▸ rfl)

/-- Whatever an event sends under the tag of a registration acknowledges an engine listed after it. -/
theorem acksListed {c d : Controller} {e : ControllerEvent} (hlisted : c.hub.Listed)
    (h : Step wire toIso c e d) : c.hub.AcksListed d.hub := by
  cases e with
  | tick now =>
    cases h
    exact .of_sent_eq rfl
  | query incoming =>
    cases h
    exact Hub.acksListed_dispatchQuery hlisted wire _ incoming
  | monitor incoming =>
    obtain ⟨ttracker, -, rfl⟩ := Option.map_eq_some_iff.mp h
    exact .of_sent_eq rfl
  | pong pong =>
    cases h
    exact .of_sent_eq rfl
  | timeout ptr =>
    rcases timeout_cases h with hd | ⟨callback, hrun⟩ | rfl
    · exact .of_sent_eq (by rw [hd])
    · have hsent := Hub.sent_runCallback hrun
      exact .of_sent_eq hsent
    · exact (hears_beat toIso { c with hub := { c.hub with loop := c.hub.loop.pop ptr } } hlisted).acks

/-- A registration which an event brings in carries the query that was the event. -/
theorem carries_of_step {c d : Controller} {e : ControllerEvent} (hlisted : c.hub.Listed)
    (h : Step wire toIso c e d) {ec : EngineConnector} (hec : ec ∈ d.hub.tracker.incomingRegistrations) :
    ec ∈ c.hub.tracker.incomingRegistrations ∨ e = .query ec.incomingMsg ∧ ec.Carries wire := by
  cases e with
  | tick now =>
    cases h
    exact .inl hec
  | query incoming =>
    cases h
    rcases Hub.carries_dispatchQuery wire _ c.hub incoming hec with hold | ⟨heq, hcarries⟩
    · exact .inl hold
    · exact .inr ⟨by rw [heq], hcarries⟩
  | monitor incoming =>
    obtain ⟨ttracker, -, rfl⟩ := Option.map_eq_some_iff.mp h
    exact .inl hec
  | pong pong =>
    cases h
    exact .inl hec
  | timeout ptr =>
    left
    rcases timeout_cases h with hd | ⟨callback, hrun⟩ | rfl
    · rw [hd] at hec
      exact hec
    · have hmem := Hub.incoming_runCallback hrun hec
      exact hmem
    · have hbeat := hears_beat toIso { c with hub := { c.hub with loop := c.hub.loop.pop ptr } } hlisted
      rw [hbeat.incoming] at hec
      exact hec

end Controller

end Gpf
