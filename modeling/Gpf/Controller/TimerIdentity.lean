import Gpf.Controller.RegistryStep

/-!
# The identities of the timers

A new timer object is a fresh one: neither the queue nor the deactivated objects nor a waiting
registration knows its identity before. So a timer that a handler has just scheduled is the one
that fires under its identity, and it is active.
-/

namespace Gpf

open Transition

/-- Every identity in sight was handed out before the next one. -/
structure TimerIdentity (hub : Hub) : Prop where
  queued_lt : ∀ timer ∈ hub.loop.queue, timer.ptr < hub.loop.nextPtr
  inactive_lt : ∀ ptr ∈ hub.loop.inactive, ptr < hub.loop.nextPtr
  callback_lt : ∀ ec ∈ hub.tracker.incomingRegistrations, ∀ ptr, ec.deletionCallback = some ptr →
    ptr < hub.loop.nextPtr

/-- What handlers do to the loop: nothing, schedule a timer, or deactivate that of a registration. -/
inductive LoopStep (hub hub' : Hub) : Prop
  | same (hloop : hub'.loop = hub.loop)
  | added (now waiting : Time) (callback : Callback) (hloop : hub'.loop = hub.loop.add now waiting callback)
  | deactivated (ec : EngineConnector) (hmem : ec ∈ hub.tracker.incomingRegistrations) (ptr : ℕ)
      (hcallback : ec.deletionCallback = some ptr) (hloop : hub'.loop = hub.loop.setInactive ptr)

namespace TimerIdentity

/-- A new hub knows no timers. -/
theorem create (interval : ℤ) : TimerIdentity (Hub.create interval) where
  queued_lt _ h := absurd h List.not_mem_nil
  inactive_lt _ h := absurd h (Finset.notMem_empty _)
  callback_lt _ h := absurd h (KeyedTable.notMem_empty _)

/-- The loop of a handler keeps the identities apart, if the registrations it leaves do. -/
theorem loopStep {hub hub' : Hub} (inv : TimerIdentity hub) (h : LoopStep hub hub')
    (hcallback : ∀ ec ∈ hub'.tracker.incomingRegistrations,
      ec ∈ hub.tracker.incomingRegistrations ∨
        ∀ ptr, ec.deletionCallback = some ptr → ptr < hub'.loop.nextPtr) :
    TimerIdentity hub' := by
  have hnext : hub.loop.nextPtr ≤ hub'.loop.nextPtr := by
    cases h with
    | same hloop => rw [hloop]
    | added now waiting callback hloop =>
      rw [hloop]
      exact Nat.le_succ _
    | deactivated ec hmem ptr _ hloop =>
      rw [hloop]
      exact le_rfl
  refine ⟨?_, ?_, ?_⟩
  · intro timer htimer
    cases h with
    | same hloop => exact (inv.queued_lt timer (hloop ▸ htimer)).trans_le hnext
    | added now waiting callback hloop =>
      rw [hloop, Loop.mem_add] at htimer
      rcases htimer with hold | rfl
      · exact (inv.queued_lt timer hold).trans_le hnext
      · rw [hloop]
        exact Nat.lt_succ_self _
    | deactivated ec hmem ptr _ hloop =>
      rw [hloop] at htimer
      exact (inv.queued_lt timer htimer).trans_le hnext
  · intro ptr' hptr'
    cases h with
    | same hloop => exact (inv.inactive_lt ptr' (hloop ▸ hptr')).trans_le hnext
    | added now waiting callback hloop =>
      rw [hloop] at hptr'
      exact (inv.inactive_lt ptr' hptr').trans_le hnext
    | deactivated ec hmem ptr hptr hloop =>
      rw [hloop, Loop.setInactive, Finset.mem_insert] at hptr'
      rcases hptr' with rfl | hold
      · exact (inv.callback_lt ec hmem _ hptr).trans_le hnext
      · exact (inv.inactive_lt ptr' hold).trans_le hnext
  · intro ec hec ptr hptr
    rcases hcallback ec hec with hold | hnew
    · exact (inv.callback_lt ec hold ptr hptr).trans_le hnext
    · exact hnew ptr hptr

/-- A handler which leaves the loop alone and takes no registration in. -/
theorem of_same {hub hub' : Hub} (inv : TimerIdentity hub) (hloop : hub'.loop = hub.loop)
    (hincoming : ∀ ec ∈ hub'.tracker.incomingRegistrations,
      ec ∈ hub.tracker.incomingRegistrations) : TimerIdentity hub' :=
  inv.loopStep (.same hloop) fun ec hec => .inl (hincoming ec hec)

/-- Taking a timer out of the queue. -/
theorem pop {hub : Hub} (inv : TimerIdentity hub) (ptr : ℕ) :
    TimerIdentity { hub with loop := hub.loop.pop ptr } where
  queued_lt timer h := inv.queued_lt timer (List.mem_filter.mp h).1
  inactive_lt := inv.inactive_lt
  callback_lt := inv.callback_lt

/-- Finishing a registration deactivates at most its own timer. -/
theorem finishRegistration {hub : Hub} (inv : TimerIdentity hub) (heart : String) :
    TimerIdentity (hub.finishRegistration heart) := by
  unfold Hub.finishRegistration
  split
  · exact inv
  · rename_i ec hfind
    have hmem := (EngineConnectorSet.findHeart_some hfind).1
    refine inv.loopStep ?_ fun c hc => .inl hc
    cases hcallback : ec.deletionCallback with
    | none => exact .same (by simp only [Hub.finishFound, hcallback])
    | some ptr => exact .deactivated ec hmem ptr hcallback (by simp only [Hub.finishFound, hcallback])

/-- A waiting registration is the only one that knows the timer scheduled for it. -/
theorem registerEngine {hub : Hub} (inv : TimerIdentity hub) (wire : Wire) (alive : String → Bool)
    (incoming : Incoming) : TimerIdentity (hub.registerEngine wire alive incoming) := by
  cases hparse : wire.registration incoming.header with
  | none =>
    simp only [Hub.registerEngine, hparse]
    exact inv
  | some msg =>
    rw [Hub.registerEngine_eq hparse]
    by_cases htaken : Hub.namesTaken hub.tracker msg.queue msg.heartbeat = true
    · rw [if_pos htaken]
      exact inv.of_same rfl fun _ h => h
    · rw [if_neg htaken]
      by_cases halive : alive msg.heartbeat = true
      · rw [if_pos halive]
        have hinserted : TimerIdentity
            (hub.nextId.2.insertIncoming (Hub.connectorOf hub.tracker.nextId msg incoming none)) := by
          refine inv.loopStep (.same rfl) fun c hc => ?_
          rcases KeyedTable.mem_insert.mp hc with hold | ⟨rfl, _⟩
          · exact .inl hold
          · exact .inr (by simp [Hub.connectorOf])
        exact hinserted.finishRegistration msg.heartbeat
      · rw [if_neg halive]
        apply inv.loopStep (.added _ _ _ rfl)
        intro c hc
        rcases KeyedTable.mem_insert.mp hc with hold | ⟨rfl, _⟩
        · exact .inl hold
        · right
          intro ptr hptr
          have heq : hub.loop.nextPtr = ptr := Option.some.inj hptr
          rw [← heq]
          exact Nat.lt_succ_self _

/-- A failed heart schedules at most one timer. -/
theorem handleHeartFailure {hub : Hub} (inv : TimerIdentity hub) (heart : String) :
    TimerIdentity (hub.handleHeartFailure heart) := by
  unfold Hub.handleHeartFailure
  split
  · exact inv
  · unfold Hub._unregisterEngine
    split
    · exact inv
    · exact inv.loopStep (.added _ _ _ rfl) fun _ h => .inl h

/-- A handler which only answers leaves the loop alone. -/
theorem answers {hub hub' : Hub} (inv : TimerIdentity hub) (h : hub.Answers hub') :
    TimerIdentity hub' := by
  obtain ⟨messages, rfl, _⟩ := h
  exact inv.of_same rfl fun _ hec => hec

/-- No query but a registration or a shutdown touches the loop. -/
theorem dispatchQuery {hub : Hub} (inv : TimerIdentity hub) (wire : Wire) (alive : String → Bool)
    (incoming : Incoming) : TimerIdentity (hub.dispatchQuery wire alive incoming) := by
  unfold Hub.dispatchQuery
  split
  · exact inv.answers (hub.queueStatus_answers wire incoming)
  · exact inv.answers (hub.getResults_answers wire incoming)
  · unfold Hub.purgeResults
    split
    · exact inv
    · split
      · exact inv.of_same rfl fun _ h => h
      · split <;> exact inv.of_same rfl fun _ h => h
  · exact inv.answers (hub.checkLoad_answers wire incoming)
  · exact inv.loopStep (.added _ _ _ rfl) fun _ h => .inl h
  · exact inv.registerEngine wire alive incoming
  · unfold Hub.unregisterEngine
    split
    · exact inv
    · exact inv.of_same rfl fun _ h => h
  · exact inv

/-- No hub callback touches the loop. -/
theorem runCallback {hub hub' : Hub} (inv : TimerIdentity hub) {callback : Callback}
    (h : hub.runCallback callback = some hub') : TimerIdentity hub' := by
  cases callback with
  | purgeStalledRegistration heart =>
    rw [Hub.runCallback, Option.some.injEq, Hub._purgeStalledRegistration] at h
    split at h
    · exact h ▸ inv
    · subst h
      exact inv.of_same rfl fun _ hec => (KeyedTable.mem_erase.mp hec).1
  | handleStrandedMsgs eid uuid =>
    rw [Hub.runCallback, Option.some.injEq, Hub._handleStrandedMsgs] at h
    split at h
    · exact h ▸ inv
    · subst h
      exact inv.of_same rfl fun _ hec => hec
  | shutdown => cases h
  | beat =>
    cases h
    exact inv

/-- Every event keeps the identities apart. -/
theorem step {wire : Wire} {s t : System} {e : Event} (inv : TimerIdentity s.hub)
    (h : System.Step wire s e t) : TimerIdentity t.hub := by
  cases e with
  | tick now =>
    cases h
    exact inv.of_same rfl fun _ hec => hec
  | query incoming =>
    cases h
    exact inv.dispatchQuery wire _ incoming
  | monitor incoming =>
    obtain ⟨ttracker, _, rfl⟩ := Option.map_eq_some_iff.mp h
    exact inv.of_same rfl fun _ hec => hec
  | heartAppears heart =>
    obtain ⟨_, h⟩ := (Option.ite_none_left_eq_some).mp h
    cases h
    unfold Hub.handleNewHeart
    split
    · exact inv
    · exact inv.finishRegistration heart
  | heartFails heart =>
    obtain ⟨_, h⟩ := (Option.ite_none_right_eq_some).mp h
    cases h
    exact inv.handleHeartFailure heart
  | beatScheduled waiting =>
    cases h
    exact inv.loopStep (.added _ _ _ rfl) fun _ hec => .inl hec
  | timeout ptr =>
    obtain ⟨hub, htimeout, rfl⟩ := Option.map_eq_some_iff.mp h
    obtain ⟨timer, _, _, ⟨_, hrun⟩ | ⟨_, rfl⟩⟩ := Hub.timeout_cases htimeout
    · exact (inv.pop ptr).runCallback hrun
    · exact inv.pop ptr

/-- The identities are apart in every state that a run reaches. -/
theorem reachable {wire : Wire} {interval : ℤ} {s : System}
    (h : Reachable (System.Step wire) (System.initial interval) s) : TimerIdentity s.hub :=
  h.preserves (fun s : System => TimerIdentity s.hub) (create interval) fun _ _ _ inv hstep =>
    inv.step hstep

end TimerIdentity

end Gpf
