import Mathlib.Data.List.Chain
import Gpf.Controller.HubHeartbeat
import Gpf.Controller.RegistryUnique

/-!
# What the notifier tells about an engine

Whoever listens to the notifier learns of engines that register and of engines whose heart fails. For an
engine which the hub lists, the last of these messages agrees with the heartmonitor, also when the heart
has failed and come back, since the registration is then finished once more.
-/

namespace Gpf

open Transition

/-- What a message tells those who listen to the notifier about the engine with the given id: `true`
that it has registered, `false` that it has gone. -/
def Sent.notice? (eid : ℤ) (m : Sent) : Option Bool :=
  match m.socket, m.frames with
  | .notifier, [.text tag, .registration msg] =>
    if tag = "registration_notification" ∧ msg.eid = some eid then some true else none
  | .notifier, [.text tag, .number eid'] =>
    if tag = "unregistration_notification" ∧ eid' = eid then some false else none
  | _, _ => none

/-- A message which tells nothing about any engine. -/
def Sent.Silent (m : Sent) : Prop := ∀ eid, m.notice? eid = none

/-- What the notifier has told about an engine so far. -/
def Hub.notices (hub : Hub) (eid : ℤ) : List Bool := hub.sent.filterMap (Sent.notice? eid)

/-- An engine is said to have gone only right after it was said to have registered. -/
def Hub.NoticesChained (hub : Hub) (eid : ℤ) : Prop :=
  List.IsChain (fun a b => a = true ∨ b = true) (false :: hub.notices eid)

/-- For every engine that is listed, the last message of the notifier tells whether its heart is alive,
and the name of one whose heart is not alive is among the dead engines. -/
structure Announced (s : System) : Prop where
  chained : ∀ eid, s.hub.NoticesChained eid
  standing : ∀ ec ∈ s.hub.tracker.engines,
    (s.hub.notices ec.id).getLast? = some (decide (ec.heartbeat ∈ s.hearts))
  dead : ∀ ec ∈ s.hub.tracker.engines, ec.heartbeat ∉ s.hearts → ec.queue ∈ s.hub.tracker.deadEngines

/-- Everything that one event tells about engines: nothing, while no engine joins and no heart of an engine
changes; or that an engine has registered, whose heart is alive then; or that an engine has gone, whose
heart is alive no more. -/
inductive NoticeStep (s t : System) : Prop
  | silent (hnotices : ∀ eid, t.hub.notices eid = s.hub.notices eid)
      (hengines : ∀ ec ∈ t.hub.tracker.engines, ec ∈ s.hub.tracker.engines)
      (hdead : t.hub.tracker.deadEngines = s.hub.tracker.deadEngines)
      (hhearts : ∀ ec ∈ t.hub.tracker.engines, (ec.heartbeat ∈ t.hearts ↔ ec.heartbeat ∈ s.hearts))
  | registered (ec : EngineConnector)
      (hnotices : ∀ eid, t.hub.notices eid =
        s.hub.notices eid ++ if ec.id = eid then [true] else [])
      (hengines : ∀ c ∈ t.hub.tracker.engines, c = ec ∨ c ∈ s.hub.tracker.engines ∧ c.id ≠ ec.id ∧
        (c.heartbeat ∈ t.hearts ↔ c.heartbeat ∈ s.hearts))
      (hdead : t.hub.tracker.deadEngines = s.hub.tracker.deadEngines)
      (halive : ec.heartbeat ∈ t.hearts)
  | gone (ec : EngineConnector) (hmem : ec ∈ s.hub.tracker.engines) (halive : ec.heartbeat ∈ s.hearts)
      (hnotices : ∀ eid, t.hub.notices eid =
        s.hub.notices eid ++ if ec.id = eid then [false] else [])
      (hengines : ∀ c ∈ t.hub.tracker.engines, c = ec ∨ c ∈ s.hub.tracker.engines ∧ c.id ≠ ec.id ∧
        (c.heartbeat ∈ t.hearts ↔ c.heartbeat ∈ s.hearts))
      (hdead : t.hub.tracker.deadEngines = insert ec.queue s.hub.tracker.deadEngines)
      (hfailed : ec.heartbeat ∉ t.hearts)

namespace Sent

/-- A message on the query socket is not heard on the notifier. -/
theorem silent_of_query {m : Sent} (h : m.socket = .query) : m.Silent := by
  intro eid
  simp only [notice?, h]

/-- The notification of a registration tells of its engine. -/
@[simp] theorem notice?_registrationNotification (ec : EngineConnector) (eid : ℤ) :
    (Hub.registrationNotification ec).notice? eid = if ec.id = eid then some true else none := by
  simp [notice?, Hub.registrationNotification]

/-- An acknowledgement goes to the engine alone. -/
@[simp] theorem notice?_registrationAck (ec : EngineConnector) (eid : ℤ) :
    (Hub.registrationAck ec).notice? eid = none := silent_of_query rfl eid

/-- The notification of a failure tells of its engine. -/
@[simp] theorem notice?_unregistrationNotification (eid' eid : ℤ) :
    (Hub.unregistrationNotification eid').notice? eid = if eid' = eid then some false else none := by
  simp [notice?, Hub.unregistrationNotification]

end Sent

namespace Hub

/-- Silent messages tell nothing. -/
theorem notices_of_silent {hub hub' : Hub} (messages : List Sent) (hsent : hub'.sent = hub.sent ++ messages)
    (hsilent : ∀ m ∈ messages, m.Silent) (eid : ℤ) : hub'.notices eid = hub.notices eid := by
  have hnone : messages.filterMap (Sent.notice? eid) = [] := by
    rw [List.filterMap_eq_nil_iff]
    intro m hm
    exact hsilent m hm eid
  rw [notices, hsent, List.filterMap_append, hnone, List.append_nil]
  rfl

/-- A handler which sends nothing tells nothing. -/
theorem notices_of_sent_eq {hub hub' : Hub} (hsent : hub'.sent = hub.sent) (eid : ℤ) :
    hub'.notices eid = hub.notices eid := by rw [notices, hsent, notices]

/-- Finishing a registration tells that its engine has registered. -/
theorem notices_finishes {hub hub' : Hub} {ec : EngineConnector} (h : Finishes hub hub' ec) (eid : ℤ) :
    hub'.notices eid = hub.notices eid ++ if ec.id = eid then [true] else [] := by
  rw [notices, h.sent, List.filterMap_append]
  by_cases heid : ec.id = eid <;> simp [heid, notices]

/-- What a query sends, unless it is a registration request, is not about any engine; engines may leave. -/
structure Mute (hub hub' : Hub) : Prop where
  notices : ∀ eid, hub'.notices eid = hub.notices eid
  engines : ∀ ec ∈ hub'.tracker.engines, ec ∈ hub.tracker.engines
  dead : hub'.tracker.deadEngines = hub.tracker.deadEngines

/-- A handler which sends nothing and leaves the registry alone is mute. -/
theorem Mute.of_eq {hub hub' : Hub} (htracker : hub'.tracker = hub.tracker)
    (hsent : hub'.sent = hub.sent) : Mute hub hub' where
  notices := notices_of_sent_eq hsent
  engines := by
    rw [htracker]
    exact fun _ h => h
  dead := by rw [htracker]

/-- A reply is not about any engine. -/
theorem Mute.reply {hub hub' : Hub} {incoming : Incoming} {frames : List Frame}
    (hsent : hub'.sent = hub.sent)
    (hengines : ∀ ec ∈ hub'.tracker.engines, ec ∈ hub.tracker.engines)
    (hdead : hub'.tracker.deadEngines = hub.tracker.deadEngines) :
    Mute hub (hub'.reply incoming frames) where
  notices := by
    apply notices_of_silent [⟨.query, some incoming.envelope, frames⟩]
    · rw [Hub.reply, hsent]
    · intro m hm
      rw [List.mem_singleton.mp hm]
      exact Sent.silent_of_query rfl
  engines := hengines
  dead := hdead

/-- Every query but a registration request is mute. -/
theorem mute_dispatchQuery (wire : Wire) (alive : String → Bool) (hub : Hub) {incoming : Incoming}
    (htype : incoming.type ≠ "registration_request") :
    Mute hub (hub.dispatchQuery wire alive incoming) := by
  unfold dispatchQuery
  split
  · unfold queueStatus
    split
    · exact .of_eq rfl rfl
    · split <;> exact .reply rfl (fun _ h => h) rfl
  · unfold getResults
    split
    · exact .of_eq rfl rfl
    · split <;> exact .reply rfl (fun _ h => h) rfl
  · unfold purgeResults
    split
    · exact .of_eq rfl rfl
    · split
      · exact .reply rfl (fun _ h => h) rfl
      · split
        · exact .reply rfl (fun _ h => h) rfl
        · exact .reply rfl (fun _ h => (mem_purgeEngines.mp h).1) rfl
  · unfold checkLoad
    split
    · exact .of_eq rfl rfl
    · split <;> exact .reply rfl (fun _ h => h) rfl
  · refine ⟨notices_of_silent _ rfl ?_, fun _ h => h, rfl⟩
    intro m hm eid
    rcases List.mem_cons.mp hm with rfl | hlast
    · rfl
    · rw [List.mem_singleton.mp hlast]
      rfl
  · contradiction
  · unfold unregisterEngine
    split
    · exact .of_eq rfl rfl
    · exact ⟨fun _ => rfl, fun _ h => (KeyedTable.mem_erase.mp h).1, rfl⟩
  · exact .of_eq rfl rfl

/-- A callback of a timer is mute. -/
theorem mute_runCallback {hub hub' : Hub} {callback : Callback}
    (h : hub.runCallback callback = some hub') : Mute hub hub' := by
  cases callback with
  | purgeStalledRegistration heart =>
    rw [runCallback, Option.some.injEq] at h
    rw [← h]
    unfold _purgeStalledRegistration
    split
    · exact .of_eq rfl rfl
    · exact ⟨fun _ => rfl, fun _ h => h, rfl⟩
  | handleStrandedMsgs eid uuid =>
    rw [runCallback, Option.some.injEq] at h
    rw [← h]
    unfold _handleStrandedMsgs
    split <;> exact .of_eq rfl rfl
  | shutdown => cases h
  | beat =>
    cases h
    exact .of_eq rfl rfl

end Hub

namespace System

variable {wire : Wire} {s t : System}

/-- A mute handler under which no heart changes. -/
theorem notice_of_mute (h : s.hub.Mute t.hub) (hhearts : t.hearts = s.hearts) : NoticeStep s t :=
  .silent h.notices h.engines h.dead fun ec _ => by rw [hhearts]

/-- A registration request tells nothing, or, with the heart alive, that its engine has registered. -/
theorem notice_registerEngine (wire : Wire) (registry : RegistryInvariant s.hub)
    (timed : WaitingTimed s) (incoming : Incoming)
    (ht : t = { s with hub := s.hub.registerEngine wire (fun h => decide (h ∈ s.hearts)) incoming }) :
    NoticeStep s t := by
  subst ht
  cases hparse : wire.registration incoming.header with
  | none =>
    simp only [Hub.registerEngine, hparse]
    exact notice_of_mute (.of_eq rfl rfl) rfl
  | some msg =>
    rw [Hub.registerEngine_eq hparse]
    by_cases htaken : Hub.namesTaken s.hub.tracker msg.queue msg.heartbeat = true
    · rw [if_pos htaken]
      exact notice_of_mute ⟨fun _ => rfl, fun _ h => h, rfl⟩ rfl
    · have hfree := Hub.namesTaken_eq_false.mp (Bool.eq_false_iff.mpr htaken)
      rw [if_neg htaken]
      by_cases halive : decide (msg.heartbeat ∈ s.hearts) = true
      · rw [if_pos halive]
        have haccept := Hub.insertIncoming_accepts incoming hfree none
        generalize hec : Hub.connectorOf s.hub.tracker.nextId msg incoming none = ec at haccept
        have hheart : ec.heartbeat = msg.heartbeat := by rw [← hec, Hub.connectorOf]
        have hid : ∀ c ∈ s.hub.tracker.incomingRegistrations, c.id ≠ ec.id := by
          intro c hc
          rw [haccept.id_eq]
          exact (registry.incoming_lt c hc).ne
        have hfinish : Finishes (s.hub.nextId.2.insertIncoming ec)
            ((s.hub.nextId.2.insertIncoming ec).finishRegistration msg.heartbeat) ec := by
          rw [← hheart]
          exact Hub.finishRegistration_finishes hid haccept.free.incomingHeart
        have hbeating : ec.heartbeat ∈ s.hearts := by
          rw [hheart]
          exact of_decide_eq_true halive
        refine .registered ec ?_ ?_ ?_ hbeating
        · intro eid
          rw [← Hub.notices_of_sent_eq haccept.sent]
          exact Hub.notices_finishes hfinish eid
        · intro c hc
          rcases RegistryInvariant.mem_engines_finishes hfinish hc with hold | hnew
          · exact .inr ⟨hold, hid c (timed.engine_incoming c hold), Iff.rfl⟩
          · exact .inl hnew
        · have htracker := congrArg EngineTracker.deadEngines hfinish.tracker
          exact htracker
      · rw [if_neg halive]
        exact notice_of_mute ⟨fun _ => rfl, fun _ h => h, rfl⟩ rfl

/-- A heart that appears tells nothing, or that the engine of its registration has registered. -/
theorem notice_handleNewHeart (registry : RegistryInvariant s.hub) (timed : WaitingTimed s)
    {heart : String} (hhub : t.hub = s.hub.handleNewHeart heart)
    (hhearts : t.hearts = insert heart s.hearts) : NoticeStep s t := by
  have hother {c : EngineConnector} (hne : c.heartbeat ≠ heart) :
      c.heartbeat ∈ t.hearts ↔ c.heartbeat ∈ s.hearts := by
    rw [hhearts, Finset.mem_insert]
    exact or_iff_right hne
  rcases Hub.handleNewHeart_cases s.hub heart with ⟨hnone, heq⟩ | ⟨ec, hheart, hfinish⟩
  · have hsame : t.hub = s.hub := hhub.trans heq
    refine .silent (fun _ => by rw [hsame]) (fun _ h => hsame ▸ h) (by rw [hsame]) ?_
    intro c hc
    rw [hsame] at hc
    exact hother (hnone c (timed.engine_incoming c hc))
  · rw [← hhub] at hfinish
    refine .registered ec (Hub.notices_finishes hfinish) ?_ (by rw [hfinish.tracker]) ?_
    · intro c hc
      by_cases hceq : c = ec
      · exact .inl hceq
      · right
        have hold := (RegistryInvariant.mem_engines_finishes hfinish hc).resolve_right hceq
        have hincoming := timed.engine_incoming c hold
        refine ⟨hold, fun hid => hceq (KeyedTable.eq_of_key_eq hincoming hfinish.mem hid), ?_⟩
        apply hother
        intro hsame
        exact hceq (registry.heart_unique c hincoming ec hfinish.mem (hsame.trans hheart.symm))
    · rw [hhearts, hheart]
      exact Finset.mem_insert_self _ _

/-- A heart that fails tells nothing, or that the engine which it belongs to has gone. -/
theorem notice_handleHeartFailure (registry : RegistryInvariant s.hub) (timed : WaitingTimed s)
    {heart : String} (hbefore : heart ∈ s.hearts) (hhub : t.hub = s.hub.handleHeartFailure heart)
    (hhearts : t.hearts = s.hearts.erase heart) : NoticeStep s t := by
  have hother {c : EngineConnector} (hne : c.heartbeat ≠ heart) :
      c.heartbeat ∈ t.hearts ↔ c.heartbeat ∈ s.hearts := by
    rw [hhearts, Finset.mem_erase]
    exact and_iff_right hne
  cases hfind : s.hub.tracker.engines.findHeart heart with
  | none =>
    have hsame : t.hub = s.hub := by simp only [hhub, Hub.handleHeartFailure, hfind]
    refine .silent (fun _ => by rw [hsame]) (fun _ h => hsame ▸ h) (by rw [hsame]) ?_
    intro c hc
    exact hother (EngineConnectorSet.findHeart_eq_none.mp hfind c (hsame ▸ hc))
  | some ec =>
    obtain ⟨hmem, hheart⟩ := EngineConnectorSet.findHeart_some hfind
    have hid : s.hub.tracker.engines.find? ec.id = some ec :=
      KeyedTable.find?_eq_some.mpr ⟨hmem, rfl⟩
    simp only [Hub.handleHeartFailure, hfind, Hub._unregisterEngine, hid] at hhub
    have hincoming := timed.engine_incoming ec hmem
    refine .gone ec hmem (hheart ▸ hbefore) ?_ ?_ (by rw [hhub]) ?_
    · intro eid
      rw [hhub, Hub.notices, List.filterMap_append]
      by_cases heid : ec.id = eid <;> simp [heid, Hub.notices]
    · intro c hc
      rw [hhub] at hc
      by_cases hceq : c = ec
      · exact .inl hceq
      · right
        refine ⟨hc, fun heq => hceq (KeyedTable.eq_of_key_eq hc hmem heq), ?_⟩
        apply hother
        intro hsame
        exact hceq (registry.heart_unique c (timed.engine_incoming c hc) ec hincoming
          (hsame.trans hheart.symm))
    · rw [hhearts, hheart]
      exact Finset.notMem_erase _ _

/-- Every event tells one of the listed things. -/
theorem step_notice {e : Event} (registry : RegistryInvariant s.hub) (timed : WaitingTimed s)
    (h : System.Step wire s e t) : NoticeStep s t := by
  cases e with
  | tick now =>
    cases h
    exact notice_of_mute (.of_eq rfl rfl) rfl
  | query incoming =>
    cases h
    by_cases htype : incoming.type = "registration_request"
    · apply notice_registerEngine wire registry timed incoming
      simp only [Hub.dispatchQuery, htype]
    · exact notice_of_mute (Hub.mute_dispatchQuery wire _ s.hub htype) rfl
  | monitor incoming =>
    obtain ⟨ttracker, -, rfl⟩ := Option.map_eq_some_iff.mp h
    exact notice_of_mute (.of_eq rfl rfl) rfl
  | heartAppears heart =>
    simp only [Step, next] at h
    split at h
    · cases h
    · cases h
      exact notice_handleNewHeart registry timed rfl rfl
  | heartFails heart =>
    simp only [Step, next] at h
    split at h
    · rename_i hbefore
      cases h
      exact notice_handleHeartFailure registry timed hbefore rfl rfl
    · cases h
  | beatScheduled waiting =>
    cases h
    exact notice_of_mute (.of_eq rfl rfl) rfl
  | timeout ptr =>
    obtain ⟨hub, htimeout, rfl⟩ := Option.map_eq_some_iff.mp h
    obtain ⟨timer, -, -, ⟨-, hrun⟩ | ⟨-, rfl⟩⟩ := Hub.timeout_cases htimeout
    · have hmute := Hub.mute_runCallback hrun
      exact notice_of_mute ⟨hmute.notices, hmute.engines, hmute.dead⟩ rfl
    · exact notice_of_mute (.of_eq rfl rfl) rfl

end System

namespace Hub

/-- One more message about an engine keeps them chained, unless it is that the engine has gone and the last
was not that it has registered. -/
theorem NoticesChained.append {hub hub' : Hub} {eid : ℤ} {notice : Bool} (h : hub.NoticesChained eid)
    (hnotices : hub'.notices eid = hub.notices eid ++ [notice])
    (hlast : notice = false → (hub.notices eid).getLast? = some true) : hub'.NoticesChained eid := by
  rw [NoticesChained, hnotices, ← List.cons_append, List.isChain_append]
  refine ⟨h, List.isChain_singleton _, ?_⟩
  intro a ha b hb
  rw [List.head?_singleton, Option.mem_some_iff] at hb
  subst hb
  cases notice with
  | true => exact .inr rfl
  | false =>
    left
    rw [List.getLast?_cons, hlast rfl] at ha
    exact (Option.mem_some_iff.mp ha).symm

/-- Messages about other engines do not matter. -/
theorem NoticesChained.of_eq {hub hub' : Hub} {eid : ℤ} (h : hub.NoticesChained eid)
    (hnotices : hub'.notices eid = hub.notices eid) : hub'.NoticesChained eid := by
  rw [NoticesChained, hnotices]
  exact h

end Hub

namespace Announced

/-- Without engines there is nothing to tell. -/
theorem initial (interval : ℤ) : Announced (System.initial interval) where
  chained _ := List.isChain_singleton _
  standing _ h := absurd h (KeyedTable.notMem_empty _)
  dead _ h := absurd h (KeyedTable.notMem_empty _)

/-- Every step keeps the listeners informed. -/
theorem step {s t : System} (inv : Announced s) (h : NoticeStep s t) : Announced t := by
  cases h with
  | silent hnotices hengines hdead hhearts =>
    refine ⟨fun eid => (inv.chained eid).of_eq (hnotices eid), ?_, ?_⟩
    · intro ec hec
      rw [hnotices, inv.standing ec (hengines ec hec)]
      simp only [hhearts ec hec]
    · intro ec hec hfailed
      rw [hdead]
      exact inv.dead ec (hengines ec hec) (mt (hhearts ec hec).mpr hfailed)
  | registered ec hnotices hengines hdead halive =>
    refine ⟨?_, ?_, ?_⟩
    · intro eid
      have heid := hnotices eid
      split at heid
      · exact (inv.chained eid).append heid (by simp)
      · exact (inv.chained eid).of_eq (heid.trans (List.append_nil _))
    · intro c hc
      rcases hengines c hc with rfl | ⟨hold, hid, hhearts⟩
      · simp [hnotices, halive]
      · rw [hnotices, if_neg (Ne.symm hid), List.append_nil, inv.standing c hold]
        simp only [hhearts]
    · intro c hc hfailed
      rw [hdead]
      rcases hengines c hc with rfl | ⟨hold, -, hhearts⟩
      · exact absurd halive hfailed
      · exact inv.dead c hold (mt hhearts.mpr hfailed)
  | gone ec hmem halive hnotices hengines hdead hfailed =>
    refine ⟨?_, ?_, ?_⟩
    · intro eid
      have heid := hnotices eid
      split at heid
      · rename_i hid
        refine (inv.chained eid).append heid fun _ => ?_
        rw [← hid, inv.standing ec hmem, decide_eq_true halive]
      · exact (inv.chained eid).of_eq (heid.trans (List.append_nil _))
    · intro c hc
      rcases hengines c hc with rfl | ⟨hold, hid, hhearts⟩
      · simp [hnotices, hfailed]
      · rw [hnotices, if_neg (Ne.symm hid), List.append_nil, inv.standing c hold]
        simp only [hhearts]
    · intro c hc hdeadHeart
      rw [hdead]
      rcases hengines c hc with rfl | ⟨hold, -, hhearts⟩
      · exact Finset.mem_insert_self _ _
      · exact Finset.mem_insert_of_mem (inv.dead c hold (mt hhearts.mpr hdeadHeart))

/-- The listeners are informed in every reachable state. -/
theorem reachable {wire : Wire} {interval : ℤ} {s : System}
    (h : Reachable (System.Step wire) (System.initial interval) s) : Announced s := by
  have hall : Reachable (System.Step wire) (System.initial interval) s ∧ Announced s := by
    refine h.preserves (fun s => Reachable (System.Step wire) (System.initial interval) s ∧ Announced s)
      ⟨⟨[], .nil _⟩, initial interval⟩ ?_
    intro s e t hs hstep
    obtain ⟨es, hrun⟩ := hs.1
    have hreach : Reachable (System.Step wire) (System.initial interval) s := ⟨es, hrun⟩
    refine ⟨⟨es ++ [e], hrun.append (.single hstep)⟩, hs.2.step ?_⟩
    exact System.step_notice (RegistryInvariant.reachable hreach) (WaitingTimed.reachable hreach) hstep
  exact hall.2

end Announced

/-- In every state that hub and heartmonitor reach together, every message of the notifier that an engine
has gone directly follows one that it has registered; and of every engine that is listed the last message
tells whether its heart is alive, and if it is not, its queue name is among the dead engines. -/
theorem notifier_agrees {wire : Wire} {toIso : Time → String} {interval : ℤ}
    {clock lifetime tic lastPing : Time} {c : Controller}
    (hreach : Reachable (Controller.Step wire toIso) (.create interval clock lifetime tic lastPing) c) :
    (∀ eid, List.IsChain (fun a b => a = true ∨ b = true) (false :: c.hub.notices eid)) ∧
      ∀ ec ∈ c.hub.tracker.engines,
        (c.hub.notices ec.id).getLast? = some (c.monitor.alive ec.heartbeat) ∧
          (c.monitor.alive ec.heartbeat = false → ec.queue ∈ c.hub.tracker.deadEngines) := by
  have hannounced := Announced.reachable (Controller.reachable_view hreach)
  refine ⟨hannounced.chained, ?_⟩
  intro ec hec
  refine ⟨hannounced.standing ec hec, ?_⟩
  intro hfailed
  exact hannounced.dead ec hec (of_decide_eq_false hfailed)

/-- The engine of the session registers, its heart answers the first ping, and then misses two beats. -/
theorem notifier_agrees_session :
    ∃ c : Controller, (∃ ec ∈ c.hub.tracker.engines.records, c.monitor.alive ec.heartbeat = false) ∧
      (∀ eid, List.IsChain (fun a b => a = true ∨ b = true) (false :: c.hub.notices eid)) ∧
        ∀ ec ∈ c.hub.tracker.engines,
          (c.hub.notices ec.id).getLast? = some (c.monitor.alive ec.heartbeat) ∧
            (c.monitor.alive ec.heartbeat = false → ec.queue ∈ c.hub.tracker.deadEngines) := by
  obtain ⟨c, hrun, hgone⟩ := Controller.exists_run .session (fun _ => "20140101T000000")
    (.create 2000 0 0 0 0)
    [.query .register, .pong ⟨"h", "20140101T000000"⟩, .timeout 0, .timeout 2, .timeout 3]
    (fun c => ∃ ec ∈ c.hub.tracker.engines.records, c.monitor.alive ec.heartbeat = false)
    (by decide +kernel)
  exact ⟨c, hgone, notifier_agrees ⟨_, hrun⟩⟩

end Gpf
