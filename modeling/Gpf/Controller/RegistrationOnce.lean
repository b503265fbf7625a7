import Gpf.Controller.RegistryInvariant

/-!
# How often a registration is finished

`finish_registration` leaves the connector in `incoming_registrations`, so the next appearance of
its heart finishes it once more, also after the engine has left. Runs in which no finished heart
appears again are exactly those in which every registration is finished at most once and no
engine comes back.
-/

namespace Gpf

open Transition

/-- Each accepted registration was finished at most once: one execution of the body of
`finish_registration`, one notification, and one answer for each execution. -/
structure FinishedOnce (hub : Hub) : Prop where
  executed : ∀ eid, hub.log.count (.finishing eid) ≤ 1
  notified : ∀ eid, hub.sent.countP (·.announces eid) ≤ 1
  answered : hub.sent.countP (·.isAck) = hub.log.countP (·.isFinishing)

/-- Along the given events, no engine that was registered and has left is registered again. -/
def NeverReturns (wire : Wire) (start : System) (es : List Event) : Prop :=
  ∀ {es₁ es₂ es₃ s t u}, es₁ ++ es₂ ++ es₃ <+: es →
    Run (System.Step wire) start es₁ s → Run (System.Step wire) s es₂ t →
    Run (System.Step wire) t es₃ u →
    ∀ eid, s.hub.Lists eid → ¬t.hub.Lists eid → ¬u.hub.Lists eid

/-- The event is no appearance of a heart under which a finished registration is still kept. -/
def NoReturningHeart (hub : Hub) (e : Event) : Prop :=
  ∀ heart, e = .heartAppears heart → ∀ ec ∈ hub.tracker.incomingRegistrations,
    ec.heartbeat = heart → .finishing ec.id ∉ hub.log

/-- The messages agree with the log, so only the executions need counting. -/
theorem finishedOnce_iff {hub : Hub} (inv : RegistryInvariant hub) :
    FinishedOnce hub ↔ ∀ eid, hub.log.count (.finishing eid) ≤ 1 := by
  constructor
  · exact FinishedOnce.executed
  · intro h
    exact ⟨h, fun eid => inv.announced eid ▸ h eid, inv.acknowledged⟩

/-- Only an appearing heart can return. -/
theorem noReturningHeart_of_ne {hub : Hub} {e : Event} (he : ∀ heart, e ≠ .heartAppears heart) :
    NoReturningHeart hub e := fun heart h => absurd h (he heart)

/-- Finishing a registration keeps the bound exactly when it is the first time. -/
theorem count_finishing_le_one_iff {hub hub' : Hub} {ec : EngineConnector}
    (h : Finishes hub hub' ec) (hbound : ∀ eid, hub.log.count (.finishing eid) ≤ 1) :
    (∀ eid, hub'.log.count (.finishing eid) ≤ 1) ↔ .finishing ec.id ∉ hub.log := by
  have hcount := RegistryInvariant.count_finishing_finishes h
  constructor
  · intro hle
    have hself := hle ec.id
    rw [hcount, if_pos rfl] at hself
    exact List.count_eq_zero.mp (by omega)
  · intro hfirst eid
    rw [hcount]
    by_cases heid : ec.id = eid
    · rw [if_pos heid, ← heid, List.count_eq_zero.mpr hfirst]
    · rw [if_neg heid]
      exact hbound eid

/-- Among the registrations kept under one heart there is only one to ask about. -/
theorem noReturningHeart_finished {hub : Hub} {ec : EngineConnector} (inv : RegistryInvariant hub)
    (hmem : ec ∈ hub.tracker.incomingRegistrations) :
    NoReturningHeart hub (.heartAppears ec.heartbeat) ↔ .finishing ec.id ∉ hub.log := by
  constructor
  · intro h
    exact h ec.heartbeat rfl ec hmem rfl
  · intro h heart heq c hc hheart
    have hsame : c.heartbeat = ec.heartbeat := hheart.trans (Event.heartAppears.inj heq).symm
    rw [inv.heart_unique c hc ec hmem hsame]
    exact h

/-- A step finishes a registration twice exactly when a finished heart appears again. -/
theorem finishedOnce_step {wire : Wire} {s t : System} {e : Event} (inv : RegistryInvariant s.hub)
    (honce : FinishedOnce s.hub) (h : System.Step wire s e t) :
    FinishedOnce t.hub ↔ NoReturningHeart s.hub e := by
  rw [finishedOnce_iff (inv.step h)]
  have hbound := honce.executed
  cases System.step_registry inv.incoming_lt h with
  | calm hcalm hheart =>
    have hno : NoReturningHeart s.hub e := fun heart he ec hec heq => absurd heq (hheart heart he ec hec)
    refine iff_of_true (fun eid => ?_) hno
    rw [RegistryInvariant.count_finishing_calm hcalm]
    exact hbound eid
  | refused _ hlog _ he =>
    refine iff_of_true (fun eid => ?_) (noReturningHeart_of_ne he)
    rw [hlog]
    exact hbound eid
  | accepted ec haccept he =>
    refine iff_of_true (fun eid => ?_) (noReturningHeart_of_ne he)
    rw [haccept.log, List.count_append]
    exact hbound eid
  | started mid ec haccept hfinish he =>
    have hmid : ∀ eid, mid.log.count (.finishing eid) = s.hub.log.count (.finishing eid) := by
      intro eid
      rw [haccept.log, List.count_append]
      rfl
    have hfresh : .finishing ec.id ∉ mid.log := by
      intro hmem
      have hold := List.count_pos_iff.mpr hmem
      rw [hmid, List.count_pos_iff] at hold
      exact (inv.finishing_lt ec.id hold).ne haccept.id_eq
    refine iff_of_true ?_ (noReturningHeart_of_ne he)
    exact (count_finishing_le_one_iff hfinish fun eid => hmid eid ▸ hbound eid).mpr hfresh
  | finished ec hfinish he =>
    rw [he, noReturningHeart_finished inv hfinish.mem]
    exact count_finishing_le_one_iff hfinish hbound
  | purged ec _ _ hlog _ he =>
    refine iff_of_true (fun eid => ?_) (noReturningHeart_of_ne he)
    rw [hlog, List.count_append]
    exact hbound eid

/-- An engine which has left, having been finished at some time. -/
def Hub.Left (hub : Hub) (eid : ℤ) : Prop := .finishing eid ∈ hub.log ∧ ¬hub.Lists eid

/-- Without a returning heart, no step brings an engine back which has left. -/
theorem left_step {wire : Wire} {s t : System} {e : Event} {eid : ℤ} (inv : RegistryInvariant s.hub)
    (hleft : s.hub.Left eid) (h : System.Step wire s e t) (hno : NoReturningHeart s.hub e) :
    t.hub.Left eid := by
  obtain ⟨hfinished, hgone⟩ := hleft
  cases System.step_registry inv.incoming_lt h with
  | calm hcalm _ =>
    obtain ⟨lines, hlog, _⟩ := hcalm.log
    refine ⟨hlog ▸ List.mem_append_left lines hfinished, ?_⟩
    intro hexists
    obtain ⟨ec, hec, hid⟩ := hexists
    exact hgone ⟨ec, hcalm.engines ec hec, hid⟩
  | refused htracker hlog _ _ =>
    rw [Hub.Left, Hub.Lists, htracker, hlog]
    exact ⟨hfinished, hgone⟩
  | accepted ec haccept _ =>
    rw [Hub.Left, Hub.Lists, haccept.tracker, haccept.log]
    exact ⟨List.mem_append_left _ hfinished, hgone⟩
  | started mid ec haccept hfinish _ =>
    refine ⟨?_, ?_⟩
    · rw [hfinish.log, haccept.log]
      exact List.mem_append_left _ (List.mem_append_left _ hfinished)
    · intro hexists
      obtain ⟨c, hc, hid⟩ := hexists
      rcases RegistryInvariant.mem_engines_finishes hfinish hc with hold | rfl
      · rw [haccept.tracker] at hold
        exact hgone ⟨c, hold, hid⟩
      · have hlt := inv.finishing_lt eid hfinished
        exact hlt.ne (hid.symm.trans haccept.id_eq)
  | finished ec hfinish he =>
    rw [he, noReturningHeart_finished inv hfinish.mem] at hno
    refine ⟨hfinish.log ▸ List.mem_append_left _ hfinished, ?_⟩
    intro hexists
    obtain ⟨c, hc, hid⟩ := hexists
    rcases RegistryInvariant.mem_engines_finishes hfinish hc with hold | rfl
    · exact hgone ⟨c, hold, hid⟩
    · exact hno (hid ▸ hfinished)
  | purged ec _ htracker hlog _ _ =>
    rw [Hub.Left, Hub.Lists, htracker, hlog]
    exact ⟨List.mem_append_left _ hfinished, hgone⟩

/-- The log only grows. -/
theorem finishing_mem_step {wire : Wire} {s t : System} {e : Event} {eid : ℤ}
    (inv : RegistryInvariant s.hub) (hmem : .finishing eid ∈ s.hub.log)
    (h : System.Step wire s e t) : .finishing eid ∈ t.hub.log := by
  cases System.step_registry inv.incoming_lt h with
  | calm hcalm _ =>
    obtain ⟨lines, hlog, _⟩ := hcalm.log
    exact hlog ▸ List.mem_append_left lines hmem
  | refused _ hlog _ _ => exact hlog ▸ hmem
  | accepted ec haccept _ => exact haccept.log ▸ List.mem_append_left _ hmem
  | started mid ec haccept hfinish _ =>
    have hmid : .finishing eid ∈ mid.log := haccept.log ▸ List.mem_append_left _ hmem
    exact hfinish.log ▸ List.mem_append_left _ hmid
  | finished ec hfinish _ => exact hfinish.log ▸ List.mem_append_left _ hmem
  | purged ec _ _ hlog _ _ => exact hlog ▸ List.mem_append_left _ hmem

/-- In a run without a returning heart, no engine comes back. -/
theorem neverReturns_of_throughout {wire : Wire} {start : System} {es : List Event}
    (inv : RegistryInvariant start.hub)
    (hno : Throughout (System.Step wire) (fun s e _ => NoReturningHeart s.hub e) start es) :
    NeverReturns wire start es := by
  intro es₁ es₂ es₃ s t u hprefix hfirst hsecond hthird eid hlisted hgone
  obtain ⟨rest, rfl⟩ := hprefix
  have hthroughout := hno.left.right (hfirst.append hsecond)
  have hinvS : RegistryInvariant s.hub :=
    hfirst.preserves (fun s => RegistryInvariant s.hub) (fun _ _ _ inv h => inv.step h) inv
  have hfinished : RegistryInvariant t.hub ∧ .finishing eid ∈ t.hub.log := by
    refine hsecond.preserves (fun s => RegistryInvariant s.hub ∧ .finishing eid ∈ s.hub.log) ?_ ?_
    · rintro _ _ _ ⟨inv, hmem⟩ h
      exact ⟨inv.step h, finishing_mem_step inv hmem h⟩
    · obtain ⟨ec, hec, rfl⟩ := hlisted
      exact ⟨hinvS, hinvS.engine_finished ec hec⟩
  have hleft : RegistryInvariant u.hub ∧ u.hub.Left eid := by
    refine hthird.preserves_throughout (fun s => RegistryInvariant s.hub ∧ s.hub.Left eid) ?_
      hthroughout ⟨hfinished.1, hfinished.2, hgone⟩
    rintro _ _ _ ⟨inv, hleft⟩ h hno
    exact ⟨inv.step h, left_step inv hleft h hno⟩
  exact hleft.2.2

/-- Whatever the hub receives: every registration is finished at most once and no engine comes back
exactly when no heart appears under which a finished registration is still kept. -/
theorem registration_once_iff (wire : Wire) (interval : ℤ) (es : List Event) :
    (Always (System.Step wire) (fun s => FinishedOnce s.hub) (System.initial interval) es ∧
        NeverReturns wire (System.initial interval) es) ↔
      Throughout (System.Step wire) (fun s e _ => NoReturningHeart s.hub e)
        (System.initial interval) es := by
  have inv : RegistryInvariant (System.initial interval).hub := .create interval
  have honce : FinishedOnce (System.initial interval).hub :=
    (finishedOnce_iff inv).mpr fun _ => Nat.zero_le 1
  have halways : Always (System.Step wire) (fun s => FinishedOnce s.hub) (System.initial interval) es ↔
      Throughout (System.Step wire) (fun s e _ => NoReturningHeart s.hub e)
        (System.initial interval) es :=
    always_iff_throughout (fun s : System => RegistryInvariant s.hub) (fun _ _ _ inv h => inv.step h)
      (fun _ _ _ inv honce h => finishedOnce_step inv honce h) inv honce es
  constructor
  · intro h
    exact halways.mp h.1
  · intro hno
    exact ⟨halways.mpr hno, neverReturns_of_throughout inv hno⟩

/-- A heart whose engine has unregistered fails and appears again: its registration is finished a
second time, and the engine is back. -/
theorem returning_heart :
    ¬Always (System.Step .session) (fun s => FinishedOnce s.hub) (System.initial 2000)
        [.heartAppears "h", .query .register, .query .unregister, .heartFails "h", .heartAppears "h"] ∧
      ¬NeverReturns .session (System.initial 2000)
        [.heartAppears "h", .query .register, .query .unregister, .heartFails "h",
          .heartAppears "h"] := by
  obtain ⟨s, hfirst, hlisted, hrest⟩ := System.exists_run .session (.initial 2000)
    [.heartAppears "h", .query .register]
    (fun s => s.hub.Lists 0 ∧ (s.run .session [.query .unregister]).any (fun t =>
      decide (¬t.hub.Lists 0 ∧ (t.run .session [.heartFails "h", .heartAppears "h"]).any (fun u =>
        decide (u.hub.Lists 0 ∧ u.hub.log.count (.finishing 0) = 2)) = true)) = true) (by decide)
  obtain ⟨t, hsecond, hgone, hrest⟩ := System.exists_run _ _ _ _ hrest
  obtain ⟨u, hthird, hback, htwice⟩ := System.exists_run _ _ _ _ hrest
  constructor
  · intro h
    have honce := (h.run ((hfirst.append hsecond).append hthird)).executed 0
    omega
  · intro h
    exact h (List.prefix_refl _) hfirst hsecond hthird 0 hlisted hgone hback

end Gpf
