import Gpf.Controller.RegistryInvariant

/-!
# Which names a registration is refused for

`register_engine` looks for both names in both tables. `incoming_registrations` keeps a connector
also after its registration is finished, so besides the names in use, the names of finished
registrations are refused, and stay refused after their engine has left.
-/

namespace Gpf

open Transition

namespace Hub

/-- A registered engine has one of the names. -/
def EngineUses (hub : Hub) (queue heart : String) : Prop :=
  ∃ ec ∈ hub.tracker.engines, ec.queue = queue ∨ ec.heartbeat = heart

/-- A registration which was accepted, and neither finished nor purged, has one of the names. -/
def WaitingUses (hub : Hub) (queue heart : String) : Prop :=
  ∃ eid queue' heart', .accepted eid queue' heart' ∈ hub.log ∧ .finishing eid ∉ hub.log ∧
    .purging eid ∉ hub.log ∧ (queue' = queue ∨ heart' = heart)

/-- One of the names is in use. -/
def InUse (hub : Hub) (queue heart : String) : Prop :=
  hub.EngineUses queue heart ∨ hub.WaitingUses queue heart

/-- A finished registration which is still kept in `incoming_registrations` has one of the names. -/
def Retained (hub : Hub) (queue heart : String) : Prop :=
  ∃ ec ∈ hub.tracker.incomingRegistrations, .finishing ec.id ∈ hub.log ∧
    (ec.queue = queue ∨ ec.heartbeat = heart)

/-- `register_engine` takes no new registration in. -/
def Refuses (wire : Wire) (alive : String → Bool) (hub : Hub) (incoming : Incoming) : Prop :=
  (hub.registerEngine wire alive incoming).tracker.incomingRegistrations =
    hub.tracker.incomingRegistrations

/-- Finishing a registration leaves it among the incoming ones. -/
@[simp] theorem incomingRegistrations_finishRegistration (hub : Hub) (heart : String) :
    (hub.finishRegistration heart).tracker.incomingRegistrations =
      hub.tracker.incomingRegistrations := by
  unfold finishRegistration
  split <;> rfl

/-- A well-formed request is refused exactly when one of the four searches finds something. -/
theorem refuses_iff_namesTaken {wire : Wire} {hub : Hub} {incoming : Incoming} {msg : Registration}
    (inv : RegistryInvariant hub) (alive : String → Bool)
    (hparse : wire.registration incoming.header = some msg) :
    Refuses wire alive hub incoming ↔ namesTaken hub.tracker msg.queue msg.heartbeat = true := by
  rw [Refuses, registerEngine_eq hparse]
  by_cases htaken : namesTaken hub.tracker msg.queue msg.heartbeat = true
  · rw [if_pos htaken]
    exact iff_of_true rfl htaken
  · rw [if_neg htaken]
    refine iff_of_false (fun hsame => ?_) htaken
    have hfree := namesTaken_eq_false.mp (Bool.eq_false_iff.mpr htaken)
    -- in either branch the new connector has been inserted, and its id is fresh
    have hnew : ∃ ec ∈ hub.tracker.incomingRegistrations, ec.queue = msg.queue := by
      rw [← hsame]
      have hfresh : ∀ c ∈ hub.tracker.incomingRegistrations, c.id ≠ hub.tracker.nextId :=
        fun c hc => (inv.incoming_lt c hc).ne
      by_cases halive : alive msg.heartbeat = true
      · rw [if_pos halive, incomingRegistrations_finishRegistration]
        exact ⟨_, KeyedTable.mem_insert.mpr (.inr ⟨rfl, hfresh⟩), rfl⟩
      · rw [if_neg halive]
        exact ⟨_, KeyedTable.mem_insert.mpr (.inr ⟨rfl, hfresh⟩), rfl⟩
    obtain ⟨ec, hec, hqueue⟩ := hnew
    exact hfree.incomingQueue ec hec hqueue

/-- The four searches find something exactly when a connector of either table has a name. -/
theorem namesTaken_eq_true {tracker : EngineTracker} {queue heart : String} :
    namesTaken tracker queue heart = true ↔
      (∃ ec ∈ tracker.engines, ec.queue = queue ∨ ec.heartbeat = heart) ∨
        ∃ ec ∈ tracker.incomingRegistrations, ec.queue = queue ∨ ec.heartbeat = heart := by
  rw [← Bool.not_eq_false, namesTaken_eq_false]
  constructor
  · intro htaken
    by_contra hnone
    rw [not_or] at hnone
    obtain ⟨hengines, hincoming⟩ := hnone
    refine htaken ⟨?_, ?_, ?_, ?_⟩
    · exact fun ec hec heq => hengines ⟨ec, hec, .inl heq⟩
    · exact fun ec hec heq => hengines ⟨ec, hec, .inr heq⟩
    · exact fun ec hec heq => hincoming ⟨ec, hec, .inl heq⟩
    · exact fun ec hec heq => hincoming ⟨ec, hec, .inr heq⟩
  · rintro (⟨ec, hec, heq | heq⟩ | ⟨ec, hec, heq | heq⟩) hfree
    · exact hfree.engineQueue ec hec heq
    · exact hfree.engineHeart ec hec heq
    · exact hfree.incomingQueue ec hec heq
    · exact hfree.incomingHeart ec hec heq

/-- What `incoming_registrations` holds is either waiting or retained. -/
theorem incoming_iff {hub : Hub} {queue heart : String} (inv : RegistryInvariant hub) :
    (∃ ec ∈ hub.tracker.incomingRegistrations, ec.queue = queue ∨ ec.heartbeat = heart) ↔
      hub.WaitingUses queue heart ∨ hub.Retained queue heart := by
  constructor
  · intro hexists
    obtain ⟨ec, hec, hname⟩ := hexists
    by_cases hfinished : .finishing ec.id ∈ hub.log
    · exact .inr ⟨ec, hec, hfinished, hname⟩
    · obtain ⟨haccepted, hpurging⟩ := inv.incoming_accepted ec hec
      exact .inl ⟨ec.id, ec.queue, ec.heartbeat, haccepted, hfinished, hpurging, hname⟩
  · intro hcase
    rcases hcase with ⟨eid, queue', heart', haccepted, _, hpurging, hname⟩ | ⟨ec, hec, _, hname⟩
    · obtain ⟨ec, hec, _, rfl, rfl⟩ := inv.accepted_incoming eid queue' heart' haccepted hpurging
      exact ⟨ec, hec, hname⟩
    · exact ⟨ec, hec, hname⟩

/-- A well-formed request is refused exactly when a name is in use or retained. -/
theorem refuses_iff {wire : Wire} {hub : Hub} {incoming : Incoming} {msg : Registration}
    (inv : RegistryInvariant hub) (alive : String → Bool)
    (hparse : wire.registration incoming.header = some msg) :
    Refuses wire alive hub incoming ↔
      hub.InUse msg.queue msg.heartbeat ∨ hub.Retained msg.queue msg.heartbeat := by
  rw [refuses_iff_namesTaken inv alive hparse, namesTaken_eq_true, incoming_iff inv, ← or_assoc]
  rfl

end Hub

/-- In every reachable state, a well-formed request is refused exactly while its names are in use, if
and only if no finished registration retains them beyond their use. -/
theorem refused_exactly_in_use_iff {wire : Wire} {interval : ℤ} {s : System} {incoming : Incoming}
    {msg : Registration} (alive : String → Bool)
    (hreach : Reachable (System.Step wire) (System.initial interval) s)
    (hparse : wire.registration incoming.header = some msg) :
    (Hub.Refuses wire alive s.hub incoming ↔ s.hub.InUse msg.queue msg.heartbeat) ↔
      (s.hub.Retained msg.queue msg.heartbeat → s.hub.InUse msg.queue msg.heartbeat) := by
  rw [Hub.refuses_iff (.reachable hreach) alive hparse]
  constructor
  · intro h hretained
    exact h.mp (.inr hretained)
  · intro h
    exact ⟨fun hcase => hcase.elim id h, .inl⟩

/-- After the engine of the session has unregistered, its names are refused although nothing uses
them. -/
theorem refused_after_unregistration :
    ∃ s, Reachable (System.Step .session) (System.initial 2000) s ∧
      Wire.session.registration Incoming.register.header = some { heartbeat := "h", queue := "q" } ∧
      ¬(Hub.Refuses .session (fun h => decide (h ∈ s.hearts)) s.hub .register ↔
        s.hub.InUse "q" "h") := by
  obtain ⟨s, hrun, hengines, hlog, hsame⟩ := System.exists_run .session (.initial 2000)
    [.heartAppears "h", .query .register, .query .unregister]
    (fun s => s.hub.tracker.engines.records = [] ∧
      s.hub.log = [.accepted 0 "q" "h", .finishing 0, .unregistering 0] ∧
      (s.hub.registerEngine .session (fun h => decide (h ∈ s.hearts))
        .register).tracker.incomingRegistrations.records =
          s.hub.tracker.incomingRegistrations.records) (by decide)
  refine ⟨s, ⟨_, hrun⟩, by decide, fun h => ?_⟩
  rcases h.mp (KeyedTable.ext hsame) with ⟨ec, hec, _⟩ | ⟨eid, _, _, haccepted, hfinishing, _⟩
  · rw [KeyedTable.mem_def, hengines] at hec
    exact List.not_mem_nil hec
  · rw [hlog] at haccepted hfinishing
    obtain ⟨rfl, _⟩ : eid = 0 ∧ _ := by simpa using haccepted
    exact hfinishing (by simp)

/-- The law at the state in which the engine of the session is registered. -/
theorem refused_exactly_in_use_session :
    ∃ s, Reachable (System.Step .session) (System.initial 2000) s ∧
      ((Hub.Refuses .session (fun h => decide (h ∈ s.hearts)) s.hub .register ↔
          s.hub.InUse "q" "h") ↔
        (s.hub.Retained "q" "h" → s.hub.InUse "q" "h")) := by
  obtain ⟨s, hrun, _⟩ := System.exists_run .session (.initial 2000)
    [.heartAppears "h", .query .register] (fun s => s.hub.tracker.nextId = 1) (by decide)
  have hparse : Wire.session.registration Incoming.register.header =
      some { heartbeat := "h", queue := "q" } := by decide
  exact ⟨s, ⟨_, hrun⟩, refused_exactly_in_use_iff _ ⟨_, hrun⟩ hparse⟩

end Gpf
