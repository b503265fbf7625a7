import Gpf.Controller.WaitingTimers

/-!
# Names and ids of the registry are unique

Both tables are unique by id only. That no queue name and no heart name occurs twice rests on the
searches of `register_engine`, and on every engine still being among the incoming registrations: a
purge timer, which removes by heart name, is never active when its registration has been finished.
-/

namespace Gpf

open Transition

/-- The connectors have an id, a queue name or a heart name in common. -/
def EngineConnector.Shares (a b : EngineConnector) : Prop :=
  a.id = b.id ∨ a.queue = b.queue ∨ a.heartbeat = b.heartbeat

/-- The event is a registration request that parses, so `next_id` hands out an id. -/
def Event.TakesId (wire : Wire) (e : Event) : Prop :=
  ∃ incoming, e = .query incoming ∧ incoming.type = "registration_request" ∧
    (wire.registration incoming.header).isSome

/-- Waiting registrations which have something in common are the same. -/
theorem RegistryInvariant.eq_of_shares {hub : Hub} (inv : RegistryInvariant hub)
    {a b : EngineConnector} (ha : a ∈ hub.tracker.incomingRegistrations)
    (hb : b ∈ hub.tracker.incomingRegistrations) (h : a.Shares b) : a = b := by
  rcases h with hid | hqueue | hheart
  · exact KeyedTable.eq_of_key_eq ha hb hid
  · exact inv.queue_unique a ha b hb hqueue
  · exact inv.heart_unique a ha b hb hheart

namespace System

variable {wire : Wire} {s t : System} {e : Event}

/-- The counter never goes back. -/
theorem nextId_le (registry : RegistryInvariant s.hub) (h : System.Step wire s e t) :
    s.hub.tracker.nextId ≤ t.hub.tracker.nextId := by
  cases System.step_registry registry.incoming_lt h with
  | calm hcalm _ => rw [hcalm.nextId]
  | refused htracker _ _ _ =>
    rw [htracker]
    exact Int.le_add_one le_rfl
  | accepted ec haccept _ =>
    rw [haccept.tracker]
    exact Int.le_add_one le_rfl
  | started mid ec haccept hfinish _ =>
    rw [hfinish.tracker, haccept.tracker]
    exact Int.le_add_one le_rfl
  | finished ec hfinish _ => rw [hfinish.tracker]
  | purged ec _ htracker _ _ _ => rw [htracker]

/-- A registration request that parses advances the counter. -/
theorem nextId_lt (he : e.TakesId wire) (h : System.Step wire s e t) :
    s.hub.tracker.nextId < t.hub.tracker.nextId := by
  obtain ⟨incoming, rfl, htype, hparse⟩ := he
  obtain ⟨msg, hparse⟩ := Option.isSome_iff_exists.mp hparse
  cases h
  simp only [Hub.dispatchQuery, htype, Hub.registerEngine_eq hparse]
  have hfinish : ∀ (hub : Hub) (heart : String),
      (hub.finishRegistration heart).tracker.nextId = hub.tracker.nextId := by
    intro hub heart
    unfold Hub.finishRegistration
    split <;> rfl
  split
  · exact Int.lt_succ _
  · split
    · rw [hfinish]
      exact Int.lt_succ _
    · exact Int.lt_succ _

/-- Along a run the counter never goes back. -/
theorem nextId_run {es : List Event} (registry : RegistryInvariant s.hub)
    (h : Run (System.Step wire) s es t) : s.hub.tracker.nextId ≤ t.hub.tracker.nextId := by
  induction h with
  | nil s => exact le_rfl
  | cons hstep _ ih => exact (nextId_le registry hstep).trans (ih (registry.step hstep))

end System

/-- In every reachable state engines with an id, a queue name or a heart name in common are the same, and
so are incoming registrations, and so are an incoming registration and an engine; and whenever two
requests take ids one after the other, they take different ones. -/
theorem registry_unique {wire : Wire} {interval : ℤ} {s : System}
    (hreach : Reachable (System.Step wire) (System.initial interval) s) :
    (∀ a ∈ s.hub.tracker.engines, ∀ b ∈ s.hub.tracker.engines, a.Shares b → a = b) ∧
      (∀ a ∈ s.hub.tracker.incomingRegistrations, ∀ b ∈ s.hub.tracker.incomingRegistrations,
        a.Shares b → a = b) ∧
      (∀ a ∈ s.hub.tracker.incomingRegistrations, ∀ b ∈ s.hub.tracker.engines, a.Shares b → a = b) ∧
      ∀ (e : Event) t es u (e' : Event), e.TakesId wire → System.Step wire s e t → Run (System.Step wire) t es u →
        e'.TakesId wire → s.hub.tracker.nextId ≠ u.hub.tracker.nextId := by
  have registry := RegistryInvariant.reachable hreach
  have timed := WaitingTimed.reachable hreach
  refine ⟨?_, ?_, ?_, ?_⟩
  · intro a ha b hb hshares
    exact registry.eq_of_shares (timed.engine_incoming a ha) (timed.engine_incoming b hb) hshares
  · intro a ha b hb hshares
    exact registry.eq_of_shares ha hb hshares
  · intro a ha b hb hshares
    exact registry.eq_of_shares ha (timed.engine_incoming b hb) hshares
  · intro e t es u e' he hstep hrun _
    have hlt := System.nextId_lt he hstep
    have hle := System.nextId_run (registry.step hstep) hrun
    exact (hlt.trans_le hle).ne

/-- Uniqueness in the state after the engine of the session has registered. -/
theorem registry_unique_session :
    ∃ s : System, (∃ ec ∈ s.hub.tracker.engines, ec.queue = "q") ∧
      (∀ a ∈ s.hub.tracker.engines, ∀ b ∈ s.hub.tracker.engines, a.Shares b → a = b) ∧
      (∀ a ∈ s.hub.tracker.incomingRegistrations, ∀ b ∈ s.hub.tracker.incomingRegistrations,
        a.Shares b → a = b) ∧
      (∀ a ∈ s.hub.tracker.incomingRegistrations, ∀ b ∈ s.hub.tracker.engines, a.Shares b → a = b) ∧
      ∀ (e : Event) t es u (e' : Event), e.TakesId .session → System.Step .session s e t →
        Run (System.Step .session) t es u → e'.TakesId .session →
          s.hub.tracker.nextId ≠ u.hub.tracker.nextId := by
  obtain ⟨s, hrun, hmem⟩ := System.exists_run .session (System.initial 2000)
    [.heartAppears "h", .query .register]
    (fun s => ∃ ec ∈ s.hub.tracker.engines.records, ec.queue = "q") (by decide)
  exact ⟨s, hmem, registry_unique ⟨_, hrun⟩⟩

end Gpf
