import Mathlib.Data.Finset.Card
import Gpf.Controller.PurgeRequests
import Gpf.Controller.RegistryUnique

/-!
# The engines which the hub tells of

An engine can be looked up from the moment its registration is finished. It leaves the registry by an
unregistration request for its queue name, or by a purge request which lists its id and is not refused.
Nothing else takes it out, so neither a heart failure nor a timer does.
-/

namespace Gpf

open Transition

/-- `unknown_engine_error`, with the `engine_name_t` attached to it. -/
structure UnknownEngineError where
  engineName : String
deriving DecidableEq

namespace Hub

/-- `hub::get_engine`, by id. -/
def getEngine (hub : Hub) (eid : ℤ) : Except UnknownEngineError EngineConnector :=
  match hub.tracker.engines.find? eid with
  | none => .error { engineName := toString eid }
  | some ec => .ok ec

/-- `hub::get_engine`, by queue name. -/
def getEngineByQueue (hub : Hub) (queue : String) : Except UnknownEngineError EngineConnector :=
  match hub.tracker.engines.findQueue queue with
  | none => .error { engineName := queue }
  | some ec => .ok ec

/-- `hub::get_num_engines`, an `unsigned int`. -/
def getNumEngines (hub : Hub) : ℕ := hub.tracker.engines.records.length % 4294967296

end Hub

namespace System

variable (wire : Wire)

/-- The handlers which list an engine: its heart appears, or it registers with its heart beating. -/
inductive ListsEngine (s : System) (ec : EngineConnector) : Event → Prop
  | appears (hmem : ec ∈ s.hub.tracker.incomingRegistrations) : ListsEngine s ec (.heartAppears ec.heartbeat)
  | beating (incoming : Incoming) (msg : Registration) (htype : incoming.type = "registration_request")
      (hparse : wire.registration incoming.header = some msg)
      (hfree : NamesFree s.hub.tracker msg.queue msg.heartbeat) (halive : msg.heartbeat ∈ s.hearts)
      (hec : ec = Hub.connectorOf s.hub.tracker.nextId msg incoming none) : ListsEngine s ec (.query incoming)

/-- The requests which take an engine out of the registry. -/
inductive DelistsEngine (s : System) (ec : EngineConnector) : Event → Prop
  | unregisters (incoming : Incoming) (htype : incoming.type = "unregistration_request")
      (hqueue : incoming.header = ec.queue) : DelistsEngine s ec (.query incoming)
  | purges (incoming : Incoming) (msg : PurgeResultsRequest) (htype : incoming.type = "purge_request")
      (hparse : wire.purgeResultsRequest incoming.header = some msg) (hall : msg.all = false)
      (hnone : s.hub.ttracker.firstPending? msg.msgIds = none) (heid : ec.id ∈ msg.eids) :
      DelistsEngine s ec (.query incoming)

end System

namespace Hub

/-- Queries other than these three leave the registry alone. -/
theorem tracker_dispatchQuery (wire : Wire) (alive : String → Bool) (hub : Hub) {incoming : Incoming}
    (hregistration : incoming.type ≠ "registration_request")
    (hunregistration : incoming.type ≠ "unregistration_request") (hpurge : incoming.type ≠ "purge_request") :
    (hub.dispatchQuery wire alive incoming).tracker = hub.tracker := by
  have hanswers {hub' : Hub} (h : hub.Answers hub') : hub'.tracker = hub.tracker := by
    obtain ⟨messages, rfl, _⟩ := h
    rfl
  unfold dispatchQuery
  split
  · exact hanswers (hub.queueStatus_answers wire incoming)
  · exact hanswers (hub.getResults_answers wire incoming)
  · contradiction
  · exact hanswers (hub.checkLoad_answers wire incoming)
  · rfl
  · contradiction
  · contradiction
  · rfl

/-- The engines after a registration request that parses: its own is new among them if its names are free
and its heart is beating. -/
theorem mem_engines_registerEngine {wire : Wire} {alive : String → Bool} {hub : Hub} {incoming : Incoming}
    {msg : Registration} (hbelow : ∀ ec ∈ hub.tracker.incomingRegistrations, ec.id < hub.tracker.nextId)
    (hlisted : ∀ ec ∈ hub.tracker.engines, ec ∈ hub.tracker.incomingRegistrations)
    (hparse : wire.registration incoming.header = some msg) (ec : EngineConnector) :
    ec ∈ (hub.registerEngine wire alive incoming).tracker.engines ↔ ec ∈ hub.tracker.engines ∨
      NamesFree hub.tracker msg.queue msg.heartbeat ∧ alive msg.heartbeat = true ∧
        ec = connectorOf hub.tracker.nextId msg incoming none := by
  rw [registerEngine_eq hparse]
  cases htaken : namesTaken hub.tracker msg.queue msg.heartbeat with
  | true =>
    have hused : ¬NamesFree hub.tracker msg.queue msg.heartbeat := by
      rw [← namesTaken_eq_false, htaken]
      exact Bool.noConfusion
    simp [hused, nextId]
  | false =>
    have hfree := namesTaken_eq_false.mp htaken
    rw [if_neg Bool.false_ne_true]
    cases halive : alive msg.heartbeat with
    | true =>
      have hfresh : ∀ c ∈ hub.nextId.2.tracker.incomingRegistrations,
          c.id ≠ (connectorOf hub.tracker.nextId msg incoming none).id := fun c hc => (hbelow c hc).ne
      have hfinish : Finishes (hub.nextId.2.insertIncoming (connectorOf hub.tracker.nextId msg incoming none))
          ((hub.nextId.2.insertIncoming (connectorOf hub.tracker.nextId msg incoming none)).finishRegistration
            msg.heartbeat) (connectorOf hub.tracker.nextId msg incoming none) :=
        finishRegistration_finishes hfresh hfree.incomingHeart
      rw [if_pos rfl, hfinish.tracker, KeyedTable.mem_insert, and_iff_right hfree, and_iff_right rfl]
      exact or_congr_right (and_iff_left fun c hc => hfresh c (hlisted c hc))
    | false => simp [insertIncoming, nextId]

/-- No callback of a timer changes which engines are listed. -/
theorem engines_runCallback {hub hub' : Hub} {callback : Callback} (h : hub.runCallback callback = some hub') :
    hub'.tracker.engines = hub.tracker.engines := by
  cases callback with
  | purgeStalledRegistration heart =>
    rw [runCallback, Option.some.injEq, _purgeStalledRegistration] at h
    split at h <;> exact h ▸ rfl
  | handleStrandedMsgs eid uuid =>
    rw [runCallback, Option.some.injEq, _handleStrandedMsgs] at h
    split at h <;> exact h ▸ rfl
  | shutdown => cases h
  | beat =>
    cases h
    rfl

/-- Nor does its turn. -/
theorem engines_timeout {hub hub' : Hub} {ptr : ℕ} (h : hub.timeout ptr = some hub') :
    hub'.tracker.engines = hub.tracker.engines := by
  obtain ⟨timer, _, _, ⟨_, hrun⟩ | ⟨_, rfl⟩⟩ := timeout_cases h
  · rw [engines_runCallback hrun]
  · rfl

end Hub

namespace System

variable {wire : Wire} {s t : System} {e : Event}

/-- An engine is listed after an event if the event lists it, or if it was and the event does not take it
out. -/
def EngineLaw (wire : Wire) (s : System) (e : Event) (t : System) : Prop :=
  ∀ ec, ec ∈ t.hub.tracker.engines ↔
    ec ∈ s.hub.tracker.engines ∧ ¬s.DelistsEngine wire ec e ∨ s.ListsEngine wire ec e

/-- A handler which leaves the engines as they are. -/
theorem EngineLaw.of_same (hengines : t.hub.tracker.engines = s.hub.tracker.engines)
    (hkept : ∀ ec ∈ s.hub.tracker.engines, ¬s.DelistsEngine wire ec e)
    (hlisted : ∀ ec, s.ListsEngine wire ec e → ec ∈ s.hub.tracker.engines) : EngineLaw wire s e t := by
  intro ec
  rw [hengines]
  constructor
  · exact fun h => .inl ⟨h, hkept ec h⟩
  · rintro (h | h)
    · exact h.1
    · exact hlisted ec h

/-- An event which is neither a heart nor one of the three requests. -/
theorem EngineLaw.of_other (hengines : t.hub.tracker.engines = s.hub.tracker.engines)
    (hheart : ∀ heart, e ≠ .heartAppears heart)
    (hquery : ∀ incoming, e = .query incoming → incoming.type ≠ "registration_request" ∧
      incoming.type ≠ "unregistration_request" ∧ incoming.type ≠ "purge_request") : EngineLaw wire s e t := by
  apply EngineLaw.of_same hengines
  · intro ec _ hdelists
    cases hdelists with
    | unregisters incoming htype hqueue => exact (hquery incoming rfl).2.1 htype
    | purges incoming msg htype hparse hall hnone heid => exact (hquery incoming rfl).2.2 htype
  · intro ec hlists
    cases hlists with
    | appears hmem => exact absurd rfl (hheart ec.heartbeat)
    | beating incoming msg htype hparse hfree halive hec => exact absurd htype (hquery incoming rfl).1

/-- A registration request lists its engine if its names are free and its heart is beating. -/
theorem engineLaw_registerEngine (registry : RegistryInvariant s.hub)
    (hlisted : ∀ ec ∈ s.hub.tracker.engines, ec ∈ s.hub.tracker.incomingRegistrations) {incoming : Incoming}
    (htype : incoming.type = "registration_request")
    (ht : t.hub = s.hub.registerEngine wire (fun h => decide (h ∈ s.hearts)) incoming) :
    EngineLaw wire s (.query incoming) t := by
  have hkept : ∀ ec ∈ s.hub.tracker.engines, ¬s.DelistsEngine wire ec (.query incoming) := by
    intro ec _ hdelists
    cases hdelists with
    | unregisters incoming htype' hqueue => simp [htype] at htype'
    | purges incoming msg htype' hparse hall hnone heid => simp [htype] at htype'
  cases hparse : wire.registration incoming.header with
  | none =>
    apply EngineLaw.of_same _ hkept
    · intro ec hlists
      cases hlists with
      | beating incoming msg htype hparse' hfree halive hec => simp [hparse] at hparse'
    · simp only [ht, Hub.registerEngine, hparse]
  | some msg =>
    intro ec
    rw [ht, Hub.mem_engines_registerEngine registry.incoming_lt hlisted hparse, decide_eq_true_eq]
    apply or_congr
    · exact (and_iff_left_of_imp (hkept ec)).symm
    · constructor
      · intro h
        exact .beating incoming msg htype hparse h.1 h.2.1 h.2.2
      · intro hlists
        cases hlists with
        | beating incoming msg' htype hparse' hfree halive hec =>
          cases hparse.symm.trans hparse'
          exact ⟨hfree, halive, hec⟩

/-- A heart that appears lists the engine whose registration waits for it. -/
theorem engineLaw_heartAppears (registry : RegistryInvariant s.hub)
    (hlisted : ∀ ec ∈ s.hub.tracker.engines, ec ∈ s.hub.tracker.incomingRegistrations) {heart : String}
    (ht : t.hub = s.hub.handleNewHeart heart) : EngineLaw wire s (.heartAppears heart) t := by
  have hkept : ∀ ec, ¬s.DelistsEngine wire ec (.heartAppears heart) := by
    intro ec hdelists
    cases hdelists
  rcases s.hub.handleNewHeart_cases heart with ⟨hnone, hsame⟩ | ⟨ec', rfl, hfinish⟩
  · apply EngineLaw.of_same _ (fun ec _ => hkept ec)
    · intro ec hlists
      cases hlists with
      | appears hmem => exact absurd rfl (hnone ec hmem)
    · rw [ht, hsame]
  · intro ec
    rw [ht, hfinish.tracker, KeyedTable.mem_insert]
    constructor
    · rintro (hold | ⟨rfl, _⟩)
      · exact .inl ⟨hold, hkept ec⟩
      · exact .inr (.appears hfinish.mem)
    · rintro (hold | hlists)
      · exact .inl hold.1
      · generalize hevent : Event.heartAppears ec'.heartbeat = e at hlists
        cases hlists with
        | beating => cases hevent
        | appears hmem =>
          have heq : ec = ec' := registry.heart_unique ec hmem ec' hfinish.mem (Event.heartAppears.inj hevent).symm
          -- a connector with its id is listed only if it is itself
          by_cases hthere : ec ∈ s.hub.tracker.engines
          · exact .inl hthere
          · refine .inr ⟨heq, fun c hc hid => hthere ?_⟩
            rwa [heq, ← KeyedTable.eq_of_key_eq (hlisted c hc) hfinish.mem hid]

/-- An unregistration request takes out the engine with the queue name. -/
theorem engineLaw_unregisterEngine (registry : RegistryInvariant s.hub)
    (hlisted : ∀ ec ∈ s.hub.tracker.engines, ec ∈ s.hub.tracker.incomingRegistrations) {incoming : Incoming}
    (htype : incoming.type = "unregistration_request") (ht : t.hub = s.hub.unregisterEngine incoming) :
    EngineLaw wire s (.query incoming) t := by
  have hnone : ∀ ec, ¬s.ListsEngine wire ec (.query incoming) := by
    intro ec hlists
    cases hlists with
    | beating incoming msg htype' hparse hfree halive hec => simp [htype] at htype'
  have hdelists : ∀ ec, s.DelistsEngine wire ec (.query incoming) ↔ incoming.header = ec.queue := by
    intro ec
    constructor
    · intro h
      cases h with
      | unregisters incoming htype hqueue => exact hqueue
      | purges incoming msg htype' hparse hall hnone heid => simp [htype] at htype'
    · exact fun hqueue => .unregisters incoming htype hqueue
  intro ec
  rw [or_iff_left (hnone ec), hdelists, ht, Hub.unregisterEngine]
  cases hfind : s.hub.tracker.engines.findQueue incoming.header with
  | none =>
    have hqueue := EngineConnectorSet.findQueue_eq_none.mp hfind
    exact (and_iff_left_of_imp fun hec heq => hqueue ec hec heq.symm).symm
  | some ec' =>
    obtain ⟨hec', hqueue⟩ := EngineConnectorSet.findQueue_some hfind
    simp only [KeyedTable.mem_erase]
    apply and_congr_right
    intro hec
    apply not_congr
    constructor
    · intro hid
      rw [KeyedTable.eq_of_key_eq hec hec' hid, hqueue]
    · intro heq
      rw [registry.queue_unique ec (hlisted ec hec) ec' (hlisted ec' hec') (heq.symm.trans hqueue.symm)]

/-- A purge request takes out the engines which it lists, unless it is refused. -/
theorem engineLaw_purgeResults {incoming : Incoming} (htype : incoming.type = "purge_request")
    (ht : t.hub = s.hub.purgeResults wire incoming) : EngineLaw wire s (.query incoming) t := by
  have hnone : ∀ ec, ¬s.ListsEngine wire ec (.query incoming) := by
    intro ec hlists
    cases hlists with
    | beating incoming msg htype' hparse hfree halive hec => simp [htype] at htype'
  have hsame (hkept : ∀ msg, wire.purgeResultsRequest incoming.header = some msg → msg.all = false →
        s.hub.ttracker.firstPending? msg.msgIds ≠ none)
      (hengines : t.hub.tracker.engines = s.hub.tracker.engines) : EngineLaw wire s (.query incoming) t := by
    apply EngineLaw.of_same hengines _ (fun ec hlists => absurd hlists (hnone ec))
    intro ec _ hdelists
    cases hdelists with
    | unregisters incoming htype' hqueue => simp [htype] at htype'
    | purges incoming msg htype' hparse hall hnone heid => exact hkept msg hparse hall hnone
  cases hparse : wire.purgeResultsRequest incoming.header with
  | none =>
    apply hsame (by simp [hparse])
    simp only [ht, Hub.purgeResults, hparse]
  | some msg =>
    cases hall : msg.all with
    | true =>
      apply hsame (by simp [hparse, hall])
      simp only [ht, Hub.purgeResults, hparse, hall]
      rfl
    | false =>
      rw [Hub.purgeResults_eq hparse hall] at ht
      cases hfirst : s.hub.ttracker.firstPending? msg.msgIds with
      | some id =>
        apply hsame (by simp [hparse, hfirst])
        simp only [ht, hfirst, Hub.reply]
      | none =>
        intro ec
        have hdelists : s.DelistsEngine wire ec (.query incoming) ↔ ec.id ∈ msg.eids := by
          constructor
          · intro h
            cases h with
            | unregisters incoming htype' hqueue => simp [htype] at htype'
            | purges incoming msg' htype' hparse' hall hnone heid =>
              cases hparse.symm.trans hparse'
              exact heid
          · exact fun heid => .purges incoming msg htype hparse hall hfirst heid
        rw [or_iff_left (hnone ec), hdelists, ht, hfirst]
        exact Hub.mem_purgeEngines

/-- Every event lists and takes out engines as the law says. -/
theorem step_engineLaw (registry : RegistryInvariant s.hub)
    (hlisted : ∀ ec ∈ s.hub.tracker.engines, ec ∈ s.hub.tracker.incomingRegistrations)
    (h : System.Step wire s e t) : EngineLaw wire s e t := by
  have hother (hengines : t.hub.tracker.engines = s.hub.tracker.engines)
      (hheart : ∀ heart, e ≠ .heartAppears heart) (hquery : ∀ incoming, e ≠ .query incoming) :
      EngineLaw wire s e t :=
    EngineLaw.of_other hengines hheart fun incoming he => absurd he (hquery incoming)
  cases e with
  | tick now =>
    cases h
    exact hother rfl (by simp) (by simp)
  | query incoming =>
    cases h
    by_cases hregistration : incoming.type = "registration_request"
    · apply engineLaw_registerEngine registry hlisted hregistration
      simp only [Hub.dispatchQuery, hregistration]
    · by_cases hunregistration : incoming.type = "unregistration_request"
      · apply engineLaw_unregisterEngine registry hlisted hunregistration
        simp only [Hub.dispatchQuery, hunregistration]
      · by_cases hpurge : incoming.type = "purge_request"
        · apply engineLaw_purgeResults hpurge
          simp only [Hub.dispatchQuery, hpurge]
        · apply EngineLaw.of_other
          · rw [Hub.tracker_dispatchQuery wire _ s.hub hregistration hunregistration hpurge]
          · simp
          · intro incoming' he
            cases he
            exact ⟨hregistration, hunregistration, hpurge⟩
  | monitor incoming =>
    obtain ⟨ttracker, _, rfl⟩ := Option.map_eq_some_iff.mp h
    exact hother rfl (by simp) (by simp)
  | heartAppears heart =>
    obtain ⟨_, h⟩ := Option.ite_none_left_eq_some.mp h
    cases h
    exact engineLaw_heartAppears registry hlisted rfl
  | heartFails heart =>
    obtain ⟨_, h⟩ := Option.ite_none_right_eq_some.mp h
    cases h
    apply hother _ (by simp) (by simp)
    unfold Hub.handleHeartFailure
    split
    · rfl
    · unfold Hub._unregisterEngine
      split <;> rfl
  | beatScheduled waiting =>
    cases h
    exact hother rfl (by simp) (by simp)
  | timeout ptr =>
    obtain ⟨hub, htimeout, rfl⟩ := Option.map_eq_some_iff.mp h
    exact hother (Hub.engines_timeout htimeout) (by simp) (by simp)

/-- The run from the start has listed the engine, and nothing has taken it out since. -/
def StaysListed (wire : Wire) (interval : ℤ) (es : List Event) (s : System) (ec : EngineConnector) : Prop :=
  ∃ first e rest u v, es = first ++ e :: rest ∧ Run (Step wire) (initial interval) first u ∧
    Step wire u e v ∧ Run (fun s e t => Step wire s e t ∧ ¬s.DelistsEngine wire ec e) v rest s ∧
    u.ListsEngine wire ec e

/-- The registry holds the engines which stay listed. -/
theorem mem_engines_iff {interval : ℤ} {es : List Event} (hrun : Run (Step wire) (initial interval) es s)
    (ec : EngineConnector) : ec ∈ s.hub.tracker.engines ↔ StaysListed wire interval es s ec := by
  apply hrun.standing (Reachable (Step wire) (initial interval)) (fun s => ec ∈ s.hub.tracker.engines)
  · intro s e t hs hstep
    obtain ⟨before, hbefore⟩ := hs
    exact ⟨before ++ [e], hbefore.append (.single hstep)⟩
  · intro s e t hs hstep
    exact step_engineLaw (.reachable hs) (WaitingTimed.reachable hs).engine_incoming hstep ec
  · exact ⟨[], .nil _⟩
  · exact KeyedTable.notMem_empty ec

end System

namespace Hub

/-- A search by id answers the engine with this id. -/
theorem getEngine_eq_ok {hub : Hub} {ec : EngineConnector} :
    hub.getEngine ec.id = .ok ec ↔ ec ∈ hub.tracker.engines := by
  unfold getEngine
  cases hfind : hub.tracker.engines.find? ec.id with
  | none => simpa using fun hec => KeyedTable.find?_eq_none.mp hfind ec hec rfl
  | some found =>
    obtain ⟨hmem, hid⟩ := KeyedTable.find?_eq_some.mp hfind
    constructor
    · rintro h
      cases h
      exact hmem
    · intro hec
      rw [KeyedTable.eq_of_key_eq hec hmem hid.symm]

/-- A search by id throws where no engine has the id, and the error carries it. -/
theorem getEngine_eq_error {hub : Hub} {eid : ℤ} :
    hub.getEngine eid = .error { engineName := toString eid } ↔ ∀ ec ∈ hub.tracker.engines, ec.id ≠ eid := by
  unfold getEngine
  cases hfind : hub.tracker.engines.find? eid with
  | none => exact iff_of_true rfl (KeyedTable.find?_eq_none.mp hfind)
  | some found =>
    obtain ⟨hmem, hid⟩ := KeyedTable.find?_eq_some.mp hfind
    exact iff_of_false (fun h => by cases h) fun hnone => hnone found hmem hid

/-- A search by queue name answers the engine with this name, where it is the only one. -/
theorem getEngineByQueue_eq_ok {hub : Hub} {ec : EngineConnector}
    (hunique : ∀ a ∈ hub.tracker.engines, ∀ b ∈ hub.tracker.engines, a.queue = b.queue → a = b) :
    hub.getEngineByQueue ec.queue = .ok ec ↔ ec ∈ hub.tracker.engines := by
  unfold getEngineByQueue
  cases hfind : hub.tracker.engines.findQueue ec.queue with
  | none => simpa using fun hec => EngineConnectorSet.findQueue_eq_none.mp hfind ec hec rfl
  | some found =>
    obtain ⟨hmem, hqueue⟩ := EngineConnectorSet.findQueue_some hfind
    constructor
    · rintro h
      cases h
      exact hmem
    · intro hec
      rw [hunique ec hec found hmem hqueue.symm]

/-- A search by queue name throws where no engine has the name, and the error carries it. -/
theorem getEngineByQueue_eq_error {hub : Hub} {queue : String} :
    hub.getEngineByQueue queue = .error { engineName := queue } ↔
      ∀ ec ∈ hub.tracker.engines, ec.queue ≠ queue := by
  unfold getEngineByQueue
  cases hfind : hub.tracker.engines.findQueue queue with
  | none => exact iff_of_true rfl (EngineConnectorSet.findQueue_eq_none.mp hfind)
  | some found =>
    obtain ⟨hmem, hqueue⟩ := EngineConnectorSet.findQueue_some hfind
    exact iff_of_false (fun h => by cases h) fun hnone => hnone found hmem hqueue

end Hub

/-- At the end of every run, looking up an engine by its id or by its queue name finds it exactly if the run
has listed it and nothing has taken it out since; an id or a name is unknown exactly if no such engine has it,
and the error says which; and the number of engines is that of their names, modulo the size of an `unsigned
int`. -/
theorem engine_found_iff {wire : Wire} {interval : ℤ} {es : List Event} {s : System}
    (hrun : Run (System.Step wire) (System.initial interval) es s) :
    (∀ ec, (s.hub.getEngine ec.id = .ok ec ↔ System.StaysListed wire interval es s ec) ∧
      (s.hub.getEngineByQueue ec.queue = .ok ec ↔ System.StaysListed wire interval es s ec)) ∧
    (∀ eid, s.hub.getEngine eid = .error { engineName := toString eid } ↔
      ∀ ec, System.StaysListed wire interval es s ec → ec.id ≠ eid) ∧
    (∀ queue, s.hub.getEngineByQueue queue = .error { engineName := queue } ↔
      ∀ ec, System.StaysListed wire interval es s ec → ec.queue ≠ queue) ∧
    ∃ names : Finset String, s.hub.getNumEngines = names.card % 4294967296 ∧
      ∀ queue, queue ∈ names ↔ ∃ ec, System.StaysListed wire interval es s ec ∧ ec.queue = queue := by
  have hreach : Reachable (System.Step wire) (System.initial interval) s := ⟨es, hrun⟩
  have registry := RegistryInvariant.reachable hreach
  have hlisted := (WaitingTimed.reachable hreach).engine_incoming
  have hunique : ∀ a ∈ s.hub.tracker.engines, ∀ b ∈ s.hub.tracker.engines, a.queue = b.queue → a = b :=
    fun a ha b hb => registry.queue_unique a (hlisted a ha) b (hlisted b hb)
  simp only [← System.mem_engines_iff hrun]
  refine ⟨fun ec => ⟨Hub.getEngine_eq_ok, Hub.getEngineByQueue_eq_ok hunique⟩,
    fun eid => Hub.getEngine_eq_error, fun queue => Hub.getEngineByQueue_eq_error, ?_⟩
  have hrecords : s.hub.tracker.engines.records.Nodup := .of_map _ s.hub.tracker.engines.nodup_keys
  have hnodup : (s.hub.tracker.engines.records.map EngineConnector.queue).Nodup :=
    hrecords.map_on fun a ha b hb => hunique a ha b hb
  refine ⟨(s.hub.tracker.engines.records.map EngineConnector.queue).toFinset, ?_, fun queue => ?_⟩
  · rw [Hub.getNumEngines, List.toFinset_card_of_nodup hnodup, List.length_map]
  · rw [List.mem_toFinset]
    exact List.mem_map

/-- The engine of the session registers, leaves, and is listed again when its heart comes back. -/
theorem engine_found_session :
    ∃ s ec, ec.queue = "q" ∧ s.hub.getEngineByQueue "q" = .ok ec ∧
      System.StaysListed .session 2000
        [.query .register, .heartAppears "h", .query .unregister, .heartFails "h", .heartAppears "h"] s ec := by
  obtain ⟨s, hrun, hsome⟩ := System.exists_run .session (System.initial 2000)
    [.query .register, .heartAppears "h", .query .unregister, .heartFails "h", .heartAppears "h"]
    (fun s => ∃ ec ∈ s.hub.tracker.engines.records, ec.queue = "q") (by decide)
  obtain ⟨ec, hec, hqueue⟩ := hsome
  have hstays := ((engine_found_iff hrun).1 ec).1.mp (Hub.getEngine_eq_ok.mpr hec)
  have hfound := ((engine_found_iff hrun).1 ec).2.mpr hstays
  rw [hqueue] at hfound
  exact ⟨s, ec, hqueue, hfound, hstays⟩

end Gpf
