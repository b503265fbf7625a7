import Gpf.Controller.HubRun

/-!
# What one event does to the registry

Most handlers leave alone which registrations exist. `RegistryStep` lists what the others do, each
with the part of the log and of the sent messages that goes with it, and `step_registry` shows
that the list is complete. Whatever is proved of the registry afterwards is proved from this list.
-/

namespace Gpf

open Transition

/-- The notification of a finished registration, for the engine with the given id. -/
def Sent.announces (eid : ℤ) (m : Sent) : Bool :=
  match m.frames with
  | [.text _, .registration msg] => decide (msg.eid = some eid)
  | _ => false

/-- The answer to a registration request. -/
def Sent.isAck (m : Sent) : Bool :=
  decide (m.frames = [.text "registration_request", .text "ACK"])

/-- A message which is neither of the two that finish a registration. -/
def Sent.Quiet (m : Sent) : Prop := (∀ eid, m.announces eid = false) ∧ m.isAck = false

/-- An engine with the given id is registered. -/
def Hub.Lists (hub : Hub) (eid : ℤ) : Prop := ∃ ec ∈ hub.tracker.engines, ec.id = eid

instance (hub : Hub) (eid : ℤ) : Decidable (hub.Lists eid) :=
  inferInstanceAs (Decidable (∃ ec ∈ hub.tracker.engines.records, ec.id = eid))

/-- A step which neither accepts nor finishes nor purges a registration; engines may leave. -/
structure Calm (hub hub' : Hub) : Prop where
  incoming : hub'.tracker.incomingRegistrations = hub.tracker.incomingRegistrations
  nextId : hub'.tracker.nextId = hub.tracker.nextId
  engines : ∀ ec ∈ hub'.tracker.engines, ec ∈ hub.tracker.engines
  log : ∃ lines, hub'.log = hub.log ++ lines ∧ ∀ line ∈ lines, ∃ eid, line = .unregistering eid
  sent : ∃ messages, hub'.sent = hub.sent ++ messages ∧ ∀ m ∈ messages, m.Quiet

/-- No connector of either table has the queue name or the heart name. -/
structure NamesFree (tracker : EngineTracker) (queue heart : String) : Prop where
  engineQueue : ∀ ec ∈ tracker.engines, ec.queue ≠ queue
  engineHeart : ∀ ec ∈ tracker.engines, ec.heartbeat ≠ heart
  incomingQueue : ∀ ec ∈ tracker.incomingRegistrations, ec.queue ≠ queue
  incomingHeart : ∀ ec ∈ tracker.incomingRegistrations, ec.heartbeat ≠ heart

/-- The registry after a registration is accepted: its connector is fresh and outstanding work is
not known of it. -/
structure Accepts (hub hub' : Hub) (ec : EngineConnector) : Prop where
  id_eq : ec.id = hub.tracker.nextId
  free : NamesFree hub.tracker ec.queue ec.heartbeat
  queues : ec.queues = []
  tracker : hub'.tracker = { hub.tracker with
    nextId := hub.tracker.nextId + 1
    incomingRegistrations := hub.tracker.incomingRegistrations.insert ec }
  log : hub'.log = hub.log ++ [.accepted ec.id ec.queue ec.heartbeat]
  sent : hub'.sent = hub.sent

/-- The registry after the body of `finish_registration` has run for a waiting connector. -/
structure Finishes (hub hub' : Hub) (ec : EngineConnector) : Prop where
  mem : ec ∈ hub.tracker.incomingRegistrations
  tracker : hub'.tracker = { hub.tracker with engines := hub.tracker.engines.insert ec }
  log : hub'.log = hub.log ++ [.finishing ec.id]
  sent : hub'.sent = hub.sent ++ [Hub.registrationNotification ec, Hub.registrationAck ec]

/-- Everything that one event can do to the registry. -/
inductive RegistryStep (e : Event) (hub hub' : Hub) : Prop
  | calm (h : Calm hub hub')
      (hheart : ∀ heart, e = .heartAppears heart →
        ∀ ec ∈ hub.tracker.incomingRegistrations, ec.heartbeat ≠ heart)
  | refused (htracker : hub'.tracker = { hub.tracker with nextId := hub.tracker.nextId + 1 })
      (hlog : hub'.log = hub.log) (hsent : hub'.sent = hub.sent)
      (he : ∀ heart, e ≠ .heartAppears heart)
  | accepted (ec : EngineConnector) (h : Accepts hub hub' ec) (he : ∀ heart, e ≠ .heartAppears heart)
  | started (mid : Hub) (ec : EngineConnector) (haccept : Accepts hub mid ec)
      (hfinish : Finishes mid hub' ec) (he : ∀ heart, e ≠ .heartAppears heart)
  | finished (ec : EngineConnector) (h : Finishes hub hub' ec) (he : e = .heartAppears ec.heartbeat)
  | purged (ec : EngineConnector) (hmem : ec ∈ hub.tracker.incomingRegistrations)
      (htracker : hub'.tracker = { hub.tracker with
        incomingRegistrations := hub.tracker.incomingRegistrations.erase ec.id })
      (hlog : hub'.log = hub.log ++ [.purging ec.id]) (hsent : hub'.sent = hub.sent)
      (he : ∀ heart, e ≠ .heartAppears heart)

/-- A handler which touches neither the registry nor the log and sends nothing is calm. -/
theorem Calm.of_eq {hub hub' : Hub} (htracker : hub'.tracker = hub.tracker)
    (hlog : hub'.log = hub.log) (hsent : hub'.sent = hub.sent) : Calm hub hub' where
  incoming := by rw [htracker]
  nextId := by rw [htracker]
  engines := by rw [htracker]; exact fun _ h => h
  log := ⟨[], by rw [hlog, List.append_nil], by simp⟩
  sent := ⟨[], by rw [hsent, List.append_nil], by simp⟩

/-- Doing nothing is calm. -/
theorem Calm.refl (hub : Hub) : Calm hub hub := .of_eq rfl rfl rfl

/-- Sending quiet messages to either socket is calm, whatever happens to the tasks and timers. -/
theorem Calm.of_sent {hub hub' : Hub} (messages : List Sent) (htracker : hub'.tracker = hub.tracker)
    (hlog : hub'.log = hub.log) (hsent : hub'.sent = hub.sent ++ messages)
    (hquiet : ∀ m ∈ messages, m.Quiet) : Calm hub hub' where
  incoming := by rw [htracker]
  nextId := by rw [htracker]
  engines := by rw [htracker]; exact fun _ h => h
  log := ⟨[], by rw [hlog, List.append_nil], by simp⟩
  sent := ⟨messages, hsent, hquiet⟩

namespace Hub

/-- A search that finds something is `isSome`, so free names are those which no search finds. -/
theorem namesTaken_eq_false {tracker : EngineTracker} {queue heart : String} :
    namesTaken tracker queue heart = false ↔ NamesFree tracker queue heart := by
  simp only [namesTaken, Bool.or_eq_false_iff, Option.isSome_eq_false_iff, Option.isNone_iff_eq_none,
    EngineConnectorSet.findQueue_eq_none, EngineConnectorSet.findHeart_eq_none]
  constructor
  · rintro ⟨⟨⟨h₁, h₂⟩, h₃⟩, h₄⟩
    exact ⟨h₁, h₂, h₃, h₄⟩
  · intro h
    exact ⟨⟨⟨h.engineQueue, h.engineHeart⟩, h.incomingQueue⟩, h.incomingHeart⟩

/-- Right after its acceptance the heart index finds the new registration and no older one. -/
theorem findHeart_insertIncoming {hub : Hub} {ec : EngineConnector}
    (hid : ∀ c ∈ hub.tracker.incomingRegistrations, c.id ≠ ec.id)
    (hheart : ∀ c ∈ hub.tracker.incomingRegistrations, c.heartbeat ≠ ec.heartbeat) :
    (hub.insertIncoming ec).tracker.incomingRegistrations.findHeart ec.heartbeat = some ec := by
  have hmem {c : EngineConnector} :
      c ∈ (hub.insertIncoming ec).tracker.incomingRegistrations ↔
        c ∈ hub.tracker.incomingRegistrations ∨ c = ec := by
    rw [insertIncoming, KeyedTable.mem_insert]
    exact or_congr_right (and_iff_left hid)
  cases hfind : (hub.insertIncoming ec).tracker.incomingRegistrations.findHeart ec.heartbeat with
  | none => exact absurd rfl (EngineConnectorSet.findHeart_eq_none.mp hfind ec (hmem.mpr (.inr rfl)))
  | some c =>
    obtain ⟨hc, hheartbeat⟩ := EngineConnectorSet.findHeart_some hfind
    rcases hmem.mp hc with hold | rfl
    · exact absurd hheartbeat (hheart c hold)
    · rfl

/-- The body of `finish_registration` is the transition `Finishes`. -/
theorem finishFound_finishes {hub : Hub} {ec : EngineConnector}
    (hmem : ec ∈ hub.tracker.incomingRegistrations) : Finishes hub (hub.finishFound ec) ec :=
  ⟨hmem, rfl, rfl, rfl⟩

/-- A new heart finishes the registration found under its name, or changes nothing. -/
theorem handleNewHeart_cases (hub : Hub) (heart : String) :
    (∀ ec ∈ hub.tracker.incomingRegistrations, ec.heartbeat ≠ heart) ∧ hub.handleNewHeart heart = hub ∨
      ∃ ec, ec.heartbeat = heart ∧ Finishes hub (hub.handleNewHeart heart) ec := by
  cases hfind : hub.tracker.incomingRegistrations.findHeart heart with
  | none =>
    left
    exact ⟨EngineConnectorSet.findHeart_eq_none.mp hfind, by simp only [handleNewHeart, hfind]⟩
  | some ec =>
    right
    obtain ⟨hmem, hheart⟩ := EngineConnectorSet.findHeart_some hfind
    refine ⟨ec, hheart, ?_⟩
    simp only [handleNewHeart, finishRegistration, hfind]
    exact finishFound_finishes hmem

/-- The failure of a heart leaves the registrations as they are. -/
theorem handleHeartFailure_calm (hub : Hub) (heart : String) :
    Calm hub (hub.handleHeartFailure heart) := by
  unfold handleHeartFailure
  split
  · exact .refl hub
  · unfold _unregisterEngine
    split
    · exact .refl hub
    · refine ⟨rfl, rfl, fun _ h => h, ⟨[], by simp, by simp⟩, ⟨_, rfl, ?_⟩⟩
      simp [unregistrationNotification, Sent.Quiet, Sent.announces, Sent.isAck]

/-- An unregistration request removes at most an engine. -/
theorem unregisterEngine_calm (hub : Hub) (incoming : Incoming) :
    Calm hub (hub.unregisterEngine incoming) := by
  unfold unregisterEngine
  split
  · exact .refl hub
  · refine ⟨rfl, rfl, fun _ h => (KeyedTable.mem_erase.mp h).1, ⟨_, rfl, ?_⟩, ⟨[], by simp, by simp⟩⟩
    simp

/-- A request that parses consumes an id; then the searches and the heart decide. -/
theorem registerEngine_eq {wire : Wire} {alive : String → Bool} {hub : Hub} {incoming : Incoming}
    {msg : Registration} (hparse : wire.registration incoming.header = some msg) :
    hub.registerEngine wire alive incoming =
      if namesTaken hub.tracker msg.queue msg.heartbeat then hub.nextId.2
      else if alive msg.heartbeat then
        (hub.nextId.2.insertIncoming (connectorOf hub.tracker.nextId msg incoming none)).finishRegistration
          msg.heartbeat
      else
        { hub.nextId.2.insertIncoming
            (connectorOf hub.tracker.nextId msg incoming (some hub.loop.nextPtr)) with
          loop := hub.loop.add hub.clock (milliseconds hub.registrationTimeout)
            (.purgeStalledRegistration msg.heartbeat) } := by
  simp only [registerEngine, hparse]
  rfl

/-- A connector made from a request whose names are free is accepted. -/
theorem insertIncoming_accepts {hub : Hub} {msg : Registration} (incoming : Incoming)
    (hfree : NamesFree hub.tracker msg.queue msg.heartbeat) (callback : Option ℕ) :
    Accepts hub (hub.nextId.2.insertIncoming (connectorOf hub.tracker.nextId msg incoming callback))
      (connectorOf hub.tracker.nextId msg incoming callback) :=
  ⟨rfl, hfree, rfl, rfl, rfl, rfl⟩

/-- With a beating heart, the registration just accepted is the one that is finished. -/
theorem finishRegistration_finishes {hub : Hub} {ec : EngineConnector}
    (hfresh : ∀ c ∈ hub.tracker.incomingRegistrations, c.id ≠ ec.id)
    (hheart : ∀ c ∈ hub.tracker.incomingRegistrations, c.heartbeat ≠ ec.heartbeat) :
    Finishes (hub.insertIncoming ec) ((hub.insertIncoming ec).finishRegistration ec.heartbeat) ec := by
  have hfind := findHeart_insertIncoming hfresh hheart
  simp only [finishRegistration, hfind]
  exact finishFound_finishes (EngineConnectorSet.findHeart_some hfind).1

/-- A registration request which does not parse changes nothing, a refused one consumes an id, and an
accepted one is inserted and, with a beating heart, finished at once. -/
theorem registerEngine_step (wire : Wire) (alive : String → Bool) (hub : Hub) (incoming : Incoming)
    (hbelow : ∀ ec ∈ hub.tracker.incomingRegistrations, ec.id < hub.tracker.nextId)
    (e : Event) (he : ∀ heart, e ≠ .heartAppears heart) :
    RegistryStep e hub (hub.registerEngine wire alive incoming) := by
  cases hparse : wire.registration incoming.header with
  | none =>
    simp only [registerEngine, hparse]
    exact .calm (.refl hub) fun heart h => absurd h (he heart)
  | some msg =>
    rw [registerEngine_eq hparse]
    by_cases htaken : namesTaken hub.tracker msg.queue msg.heartbeat = true
    · rw [if_pos htaken]
      exact .refused rfl rfl rfl he
    · have hfree := namesTaken_eq_false.mp (Bool.eq_false_iff.mpr htaken)
      rw [if_neg htaken]
      by_cases halive : alive msg.heartbeat = true
      · rw [if_pos halive]
        exact .started _ _ (insertIncoming_accepts incoming hfree none)
          (finishRegistration_finishes (fun c hc => (hbelow c hc).ne) hfree.incomingHeart) he
      · rw [if_neg halive]
        obtain ⟨hid, hnames, hqueues, htracker, hlog, hsent⟩ :=
          insertIncoming_accepts incoming hfree (some hub.loop.nextPtr)
        exact .accepted _ ⟨hid, hnames, hqueues, htracker, hlog, hsent⟩ he

/-- An answer to a query is quiet unless it starts with the tag of a registration. -/
theorem reply_calm {hub hub' : Hub} {incoming : Incoming} {frames : List Frame}
    (htracker : hub'.tracker = hub.tracker) (hlog : hub'.log = hub.log) (hsent : hub'.sent = hub.sent)
    (hquiet : Sent.Quiet ⟨.query, some incoming.envelope, frames⟩) :
    Calm hub (hub'.reply incoming frames) :=
  .of_sent [_] htracker hlog (by rw [reply, hsent]) (by simpa using hquiet)

/-- The handler only answers: whatever it does is to send quiet messages. -/
def Answers (hub hub' : Hub) : Prop :=
  ∃ messages, hub' = { hub with sent := hub.sent ++ messages } ∧ ∀ m ∈ messages, m.Quiet

/-- A handler which only answers is calm. -/
theorem Answers.calm {hub hub' : Hub} (h : Answers hub hub') : Calm hub hub' := by
  obtain ⟨messages, rfl, hquiet⟩ := h
  exact .of_sent messages rfl rfl rfl hquiet

/-- Doing nothing, as with a request that does not parse, is to send no message. -/
theorem Answers.refl (hub : Hub) : Answers hub hub :=
  ⟨[], by rw [List.append_nil], fun _ h => absurd h List.not_mem_nil⟩

/-- One reply which is quiet. -/
theorem Answers.reply {hub : Hub} {incoming : Incoming} {frames : List Frame}
    (hquiet : Sent.Quiet ⟨.query, some incoming.envelope, frames⟩) :
    Answers hub (hub.reply incoming frames) := by
  refine ⟨[_], rfl, ?_⟩
  intro m hm
  rw [List.mem_singleton.mp hm]
  exact hquiet

/-- `check_load` only answers. -/
theorem checkLoad_answers (wire : Wire) (hub : Hub) (incoming : Incoming) :
    Answers hub (hub.checkLoad wire incoming) := by
  unfold checkLoad
  split
  · exact .refl hub
  · split <;> exact .reply (by simp [Sent.Quiet, Sent.announces, Sent.isAck])

/-- `queue_status` only answers. -/
theorem queueStatus_answers (wire : Wire) (hub : Hub) (incoming : Incoming) :
    Answers hub (hub.queueStatus wire incoming) := by
  unfold queueStatus
  split
  · exact .refl hub
  · split <;> exact .reply (by simp [Sent.Quiet, Sent.announces, Sent.isAck])

/-- `get_results` only answers. -/
theorem getResults_answers (wire : Wire) (hub : Hub) (incoming : Incoming) :
    Answers hub (hub.getResults wire incoming) := by
  unfold getResults
  split
  · exact .refl hub
  · split <;> exact .reply (by simp [Sent.Quiet, Sent.announces, Sent.isAck])

/-- The engines that the loop of `purge_results` keeps. -/
theorem mem_purgeEngines {engines : EngineConnectorSet} {eids : List ℤ} {ec : EngineConnector} :
    ec ∈ purgeEngines engines eids ↔ ec ∈ engines ∧ ec.id ∉ eids := KeyedTable.mem_foldl_erase

/-- `purge_results` answers, and removes at most engines from the registry. -/
theorem purgeResults_calm (wire : Wire) (hub : Hub) (incoming : Incoming) :
    Calm hub (hub.purgeResults wire incoming) := by
  unfold purgeResults
  split
  · exact .refl hub
  · split
    · exact reply_calm rfl rfl rfl (by simp [Sent.Quiet, Sent.announces, Sent.isAck])
    · split
      · exact reply_calm rfl rfl rfl (by simp [Sent.Quiet, Sent.announces, Sent.isAck])
      · refine ⟨rfl, rfl, fun _ h => (mem_purgeEngines.mp h).1, ⟨[], by simp [reply], by simp⟩, ⟨[_], rfl, ?_⟩⟩
        simp [Sent.Quiet, Sent.announces, Sent.isAck]

/-- A shutdown request only answers and schedules the exit. -/
theorem shutdownRequest_calm (hub : Hub) : Calm hub hub.shutdownRequest :=
  .of_sent _ rfl rfl rfl (by simp [Sent.Quiet, Sent.announces, Sent.isAck])

/-- A query does to the registry what its handler does. -/
theorem dispatchQuery_step (wire : Wire) (alive : String → Bool) (hub : Hub) (incoming : Incoming)
    (hbelow : ∀ ec ∈ hub.tracker.incomingRegistrations, ec.id < hub.tracker.nextId)
    (e : Event) (he : ∀ heart, e ≠ .heartAppears heart) :
    RegistryStep e hub (hub.dispatchQuery wire alive incoming) := by
  have hcalm {hub' : Hub} (h : Calm hub hub') : RegistryStep e hub hub' :=
    .calm h fun heart heq => absurd heq (he heart)
  unfold dispatchQuery
  split
  · exact hcalm (queueStatus_answers wire hub incoming).calm
  · exact hcalm (getResults_answers wire hub incoming).calm
  · exact hcalm (purgeResults_calm wire hub incoming)
  · exact hcalm (checkLoad_answers wire hub incoming).calm
  · exact hcalm (shutdownRequest_calm hub)
  · exact registerEngine_step wire alive hub incoming hbelow e he
  · exact hcalm (unregisterEngine_calm hub incoming)
  · exact hcalm (.refl hub)

/-- A queued timer leaves the queue, and its callback runs exactly if it is still active. -/
theorem timeout_cases {hub hub' : Hub} {ptr : ℕ} (h : hub.timeout ptr = some hub') :
    ∃ timer ∈ hub.loop.queue, timer.ptr = ptr ∧
      (hub.loop.active ptr = true ∧
          { hub with loop := hub.loop.pop ptr }.runCallback timer.callback = some hub' ∨
        hub.loop.active ptr = false ∧ hub' = { hub with loop := hub.loop.pop ptr }) := by
  unfold timeout at h
  cases hfind : hub.loop.queue.find? fun timer => decide (timer.ptr = ptr) with
  | none => simp [hfind] at h
  | some timer =>
    simp only [hfind] at h
    have hptr : timer.ptr = ptr := by simpa using List.find?_some hfind
    refine ⟨timer, List.mem_of_find?_eq_some hfind, hptr, ?_⟩
    by_cases hactive : hub.loop.active ptr = true
    · left
      rw [if_pos (show (hub.loop.pop ptr).active ptr = true from hactive)] at h
      exact ⟨hactive, h⟩
    · right
      rw [if_neg (show ¬(hub.loop.pop ptr).active ptr = true from hactive), Option.some.injEq] at h
      exact ⟨Bool.eq_false_iff.mpr hactive, h.symm⟩

/-- A timer that fires purges a waiting registration or leaves the registry alone. -/
theorem timeout_step {hub hub' : Hub} {ptr : ℕ} (h : hub.timeout ptr = some hub')
    (e : Event) (he : ∀ heart, e ≠ .heartAppears heart) : RegistryStep e hub hub' := by
  have hcalm {hub' : Hub} (h : Calm hub hub') : RegistryStep e hub hub' :=
    .calm h fun heart heq => absurd heq (he heart)
  obtain ⟨timer, _, _, ⟨_, hrun⟩ | ⟨_, rfl⟩⟩ := timeout_cases h
  · cases hcallback : timer.callback with
    | purgeStalledRegistration heart =>
      rw [hcallback, runCallback, Option.some.injEq, _purgeStalledRegistration] at hrun
      split at hrun
      · subst hrun
        exact hcalm (.of_eq rfl rfl rfl)
      · rename_i ec hfind
        subst hrun
        exact .purged ec (EngineConnectorSet.findHeart_some hfind).1 rfl rfl rfl he
    | handleStrandedMsgs eid uuid =>
      rw [hcallback, runCallback, Option.some.injEq, _handleStrandedMsgs] at hrun
      split at hrun <;> subst hrun <;> exact hcalm (.of_eq rfl rfl rfl)
    | shutdown =>
      rw [hcallback, runCallback] at hrun
      contradiction
    | beat =>
      rw [hcallback, runCallback, Option.some.injEq] at hrun
      subst hrun
      exact hcalm (.of_eq rfl rfl rfl)
  · exact hcalm (.of_eq rfl rfl rfl)

end Hub

/-- Every event does one of the listed things to the registry. -/
theorem System.step_registry {wire : Wire} {s t : System} {e : Event}
    (hbelow : ∀ ec ∈ s.hub.tracker.incomingRegistrations, ec.id < s.hub.tracker.nextId)
    (h : System.Step wire s e t) : RegistryStep e s.hub t.hub := by
  cases e with
  | tick now =>
    cases h
    exact .calm (.of_eq rfl rfl rfl) (by simp)
  | query incoming =>
    cases h
    exact Hub.dispatchQuery_step wire _ s.hub incoming hbelow _ (by simp)
  | monitor incoming =>
    obtain ⟨ttracker, _, rfl⟩ := Option.map_eq_some_iff.mp h
    exact .calm (.of_eq rfl rfl rfl) (by simp)
  | heartAppears heart =>
    simp only [Step, next] at h
    split at h
    · contradiction
    · rw [Option.some.injEq] at h
      subst h
      rcases Hub.handleNewHeart_cases s.hub heart with ⟨hnone, heq⟩ | ⟨ec, hheart, hfinish⟩
      · exact .calm (by rw [heq]; exact .refl s.hub) fun _ he => by cases he; exact hnone
      · exact .finished ec hfinish (by rw [hheart])
  | heartFails heart =>
    simp only [Step, next] at h
    split at h
    · rw [Option.some.injEq] at h
      subst h
      exact .calm (Hub.handleHeartFailure_calm s.hub heart) (by simp)
    · contradiction
  | beatScheduled waiting =>
    cases h
    exact .calm (.of_eq rfl rfl rfl) (by simp)
  | timeout ptr =>
    obtain ⟨hub, htimeout, rfl⟩ := Option.map_eq_some_iff.mp h
    exact Hub.timeout_step htimeout _ (by simp)

end Gpf
