import Gpf.Controller.RegistryInvariant
import Gpf.Controller.TimerIdentity

/-!
# Waiting registrations and their timers

A registration waits from its acceptance until it is finished or purged. While it waits, its heart is
not alive and one active timer in the queue is going to purge it; whatever finishes it deactivates
that timer. `WaitingStep` lists what an event does to registrations, hearts and timers together.
-/

namespace Gpf

open Transition

/-- The timer is bound to `_purge_stalled_registration` for the given heart. -/
def DeadlineTimer.Purges (timer : DeadlineTimer Callback) (heart : String) : Prop :=
  timer.callback = .purgeStalledRegistration heart

/-- The registration has been finished. -/
def Hub.Finished (hub : Hub) (eid : ℤ) : Prop := .finishing eid ∈ hub.log

instance (hub : Hub) (eid : ℤ) : Decidable (hub.Finished eid) :=
  inferInstanceAs (Decidable (.finishing eid ∈ hub.log))

/-- Every waiting registration has a dead heart and an active timer of its own, every active purge timer
has a waiting registration, and nothing finished is ever purged. -/
structure WaitingTimed (s : System) : Prop where
  ptr_nodup : (s.hub.loop.queue.map DeadlineTimer.ptr).Nodup
  callback_unique : ∀ a ∈ s.hub.tracker.incomingRegistrations,
    ∀ b ∈ s.hub.tracker.incomingRegistrations, ∀ ptr, a.deletionCallback = some ptr →
      b.deletionCallback = some ptr → a = b
  heart_dead : ∀ ec ∈ s.hub.tracker.incomingRegistrations, ¬s.hub.Finished ec.id →
    ec.heartbeat ∉ s.hearts
  has_timer : ∀ ec ∈ s.hub.tracker.incomingRegistrations, ¬s.hub.Finished ec.id →
    ∃ timer ∈ s.hub.loop.queue, ec.deletionCallback = some timer.ptr ∧ timer.Purges ec.heartbeat ∧
      s.hub.loop.active timer.ptr = true
  has_registration : ∀ timer ∈ s.hub.loop.queue, s.hub.loop.active timer.ptr = true →
    ∀ heart, timer.Purges heart → ∃ ec ∈ s.hub.tracker.incomingRegistrations,
      ec.deletionCallback = some timer.ptr ∧ ec.heartbeat = heart ∧ ¬s.hub.Finished ec.id
  purged_waiting : ∀ eid, .purging eid ∈ s.hub.log → ¬s.hub.Finished eid
  engine_incoming : ∀ ec ∈ s.hub.tracker.engines, ec ∈ s.hub.tracker.incomingRegistrations

/-- A step which lets no registration in, out or finish, and leaves their hearts and timers alone. -/
structure Untouched (s t : System) : Prop where
  incoming : t.hub.tracker.incomingRegistrations = s.hub.tracker.incomingRegistrations
  engines : ∀ ec ∈ t.hub.tracker.engines, ec ∈ s.hub.tracker.engines
  finished : ∀ eid, t.hub.Finished eid ↔ s.hub.Finished eid
  purging : ∀ eid, .purging eid ∈ t.hub.log → .purging eid ∈ s.hub.log
  hearts : ∀ heart ∈ t.hearts, heart ∈ s.hearts ∨
    ∀ ec ∈ s.hub.tracker.incomingRegistrations, ec.heartbeat ≠ heart
  inactive : t.hub.loop.inactive = s.hub.loop.inactive
  nodup : TimerIdentity s.hub → (s.hub.loop.queue.map DeadlineTimer.ptr).Nodup →
    (t.hub.loop.queue.map DeadlineTimer.ptr).Nodup
  added : ∀ timer ∈ t.hub.loop.queue, timer ∈ s.hub.loop.queue ∨ ∀ heart, ¬timer.Purges heart
  kept : ∀ timer ∈ s.hub.loop.queue, s.hub.loop.active timer.ptr = true →
    ∀ ec ∈ s.hub.tracker.incomingRegistrations, timer.Purges ec.heartbeat →
      timer ∈ t.hub.loop.queue

/-- Everything that one event does to registrations, hearts and timers. -/
inductive WaitingStep (s t : System) : Prop
  | untouched (h : Untouched s t)
  | accepted (ec : EngineConnector) (now waiting : Time) (haccept : Accepts s.hub t.hub ec)
      (hdead : ec.heartbeat ∉ s.hearts) (hhearts : t.hearts = s.hearts)
      (hcallback : ec.deletionCallback = some s.hub.loop.nextPtr)
      (hloop : t.hub.loop = s.hub.loop.add now waiting (.purgeStalledRegistration ec.heartbeat))
  | started (mid : Hub) (ec : EngineConnector) (haccept : Accepts s.hub mid ec)
      (hfinish : Finishes mid t.hub ec) (hcallback : ec.deletionCallback = none)
      (hhearts : t.hearts = s.hearts) (hloop : t.hub.loop = s.hub.loop)
  | finished (ec : EngineConnector) (hfinish : Finishes s.hub t.hub ec)
      (hhearts : t.hearts = insert ec.heartbeat s.hearts)
      (hqueue : t.hub.loop.queue = s.hub.loop.queue)
      (hinactive : ∀ ptr, t.hub.loop.active ptr = true ↔
        s.hub.loop.active ptr = true ∧ ec.deletionCallback ≠ some ptr)
  | purged (timer : DeadlineTimer Callback) (ec : EngineConnector) (htimer : timer ∈ s.hub.loop.queue)
      (hactive : s.hub.loop.active timer.ptr = true) (hpurges : timer.Purges ec.heartbeat)
      (hmem : ec ∈ s.hub.tracker.incomingRegistrations)
      (htracker : t.hub.tracker = { s.hub.tracker with
        incomingRegistrations := s.hub.tracker.incomingRegistrations.erase ec.id })
      (hlog : t.hub.log = s.hub.log ++ [.purging ec.id]) (hhearts : t.hearts = s.hearts)
      (hloop : t.hub.loop = s.hub.loop.pop timer.ptr)

namespace WaitingTimed

/-- A new hub has no registrations and no timers. -/
theorem initial (interval : ℤ) : WaitingTimed (System.initial interval) where
  ptr_nodup := List.nodup_nil
  callback_unique _ h := absurd h (KeyedTable.notMem_empty _)
  heart_dead _ h := absurd h (KeyedTable.notMem_empty _)
  has_timer _ h := absurd h (KeyedTable.notMem_empty _)
  has_registration _ h := absurd h List.not_mem_nil
  purged_waiting _ h := absurd h List.not_mem_nil
  engine_incoming _ h := absurd h (KeyedTable.notMem_empty _)

variable {s t : System}

/-- Steps which leave the waiting registrations alone keep them timed. -/
theorem untouched (inv : WaitingTimed s) (identity : TimerIdentity s.hub) (h : Untouched s t) :
    WaitingTimed t where
  ptr_nodup := h.nodup identity inv.ptr_nodup
  callback_unique := by
    rw [h.incoming]
    exact inv.callback_unique
  heart_dead ec hec hwaiting hin := by
    rw [h.incoming] at hec
    rw [h.finished] at hwaiting
    rcases h.hearts _ hin with hold | hnone
    · exact inv.heart_dead ec hec hwaiting hold
    · exact hnone ec hec rfl
  has_timer ec hec hwaiting := by
    rw [h.incoming] at hec
    rw [h.finished] at hwaiting
    obtain ⟨timer, htimer, hcallback, hpurges, hactive⟩ := inv.has_timer ec hec hwaiting
    refine ⟨timer, h.kept timer htimer hactive ec hec hpurges, hcallback, hpurges, ?_⟩
    rw [Loop.active, h.inactive]
    exact hactive
  has_registration timer htimer hactive heart hpurges := by
    rw [Loop.active, h.inactive] at hactive
    have hold := (h.added timer htimer).resolve_right fun hno => hno heart hpurges
    rw [h.incoming]
    simp only [h.finished]
    exact inv.has_registration timer hold hactive heart hpurges
  purged_waiting eid hpurging := by
    rw [h.finished]
    exact inv.purged_waiting eid (h.purging eid hpurging)
  engine_incoming ec hec := by
    rw [h.incoming]
    exact inv.engine_incoming ec (h.engines ec hec)

/-- Timers stay with one registration each if another registration brings a timer of its own or none. -/
theorem callback_unique_insert (inv : WaitingTimed s) {ec : EngineConnector}
    {incoming : EngineConnectorSet}
    (hincoming : ∀ c, c ∈ incoming ↔ c ∈ s.hub.tracker.incomingRegistrations ∨ c = ec)
    (hfresh : ∀ c ∈ s.hub.tracker.incomingRegistrations, ∀ ptr, c.deletionCallback = some ptr →
      ec.deletionCallback ≠ some ptr) :
    ∀ a ∈ incoming, ∀ b ∈ incoming, ∀ ptr, a.deletionCallback = some ptr →
      b.deletionCallback = some ptr → a = b := by
  intro a ha b hb ptr hptr hptr'
  have hunique : ∀ a ∈ incoming, ∀ b ∈ incoming,
      a.deletionCallback = some ptr ∧ b.deletionCallback = some ptr → a = b := by
    apply KeyedTable.unique_insert hincoming
    · intro c hc d hd hsame
      exact inv.callback_unique c hc d hd ptr hsame.1 hsame.2
    · intro c hc
      exact ⟨fun hsame => hfresh c hc ptr hsame.1 hsame.2, fun hsame => hfresh c hc ptr hsame.2 hsame.1⟩
  exact hunique a ha b hb ⟨hptr, hptr'⟩

/-- The finished registrations after an acceptance are those before. -/
theorem finished_accepts {hub hub' : Hub} {ec : EngineConnector} (h : Accepts hub hub' ec) (eid : ℤ) :
    hub'.Finished eid ↔ hub.Finished eid := by
  rw [Hub.Finished, Hub.Finished, h.log, List.mem_append]
  simp

/-- The finished registrations after one is finished are those before and that one. -/
theorem finished_finishes {hub hub' : Hub} {ec : EngineConnector} (h : Finishes hub hub' ec)
    (eid : ℤ) : hub'.Finished eid ↔ hub.Finished eid ∨ eid = ec.id := by
  rw [Hub.Finished, Hub.Finished, h.log, List.mem_append]
  simp

/-- A registration which is accepted is not finished yet. -/
theorem not_finished_accepts {hub hub' : Hub} {ec : EngineConnector} (registry : RegistryInvariant hub)
    (h : Accepts hub hub' ec) : ¬hub.Finished ec.id := by
  intro hfinished
  have hlt := registry.finishing_lt ec.id hfinished
  rw [h.id_eq] at hlt
  exact lt_irrefl _ hlt

/-- A registration which is accepted while its heart is dead gets an active timer of its own. -/
theorem accepted (inv : WaitingTimed s) (registry : RegistryInvariant s.hub)
    (identity : TimerIdentity s.hub) {ec : EngineConnector} {now waiting : Time}
    (haccept : Accepts s.hub t.hub ec) (hdead : ec.heartbeat ∉ s.hearts) (hhearts : t.hearts = s.hearts)
    (hcallback : ec.deletionCallback = some s.hub.loop.nextPtr)
    (hloop : t.hub.loop = s.hub.loop.add now waiting (.purgeStalledRegistration ec.heartbeat)) :
    WaitingTimed t := by
  have hincoming {c : EngineConnector} : c ∈ t.hub.tracker.incomingRegistrations ↔
      c ∈ s.hub.tracker.incomingRegistrations ∨ c = ec := registry.mem_incoming_accepts haccept
  have hfresh : ∀ c ∈ s.hub.tracker.incomingRegistrations, ∀ ptr, c.deletionCallback = some ptr →
      ec.deletionCallback ≠ some ptr := by
    intro c hc ptr hptr hptr'
    have hlt := identity.callback_lt c hc ptr hptr
    rw [Option.some.inj (hptr'.symm.trans hcallback)] at hlt
    exact lt_irrefl _ hlt
  have hqueue {timer : DeadlineTimer Callback} : timer ∈ t.hub.loop.queue ↔
      timer ∈ s.hub.loop.queue ∨
        timer = ⟨s.hub.loop.nextPtr, now + waiting, .purgeStalledRegistration ec.heartbeat⟩ := by
    rw [hloop, Loop.mem_add]
  have hactive : ∀ ptr, t.hub.loop.active ptr = s.hub.loop.active ptr := by
    intro ptr
    rw [hloop]
    rfl
  have hnext : s.hub.loop.active s.hub.loop.nextPtr = true :=
    decide_eq_true fun hin => lt_irrefl _ (identity.inactive_lt _ hin)
  refine ⟨?_, ?_, ?_, ?_, ?_, ?_, ?_⟩
  · rw [hloop]
    exact Loop.nodup_add identity.queued_lt inv.ptr_nodup _ _ _
  · exact inv.callback_unique_insert (fun _ => hincoming) hfresh
  · intro c hc hwaiting
    rw [hhearts]
    rw [finished_accepts haccept] at hwaiting
    rcases hincoming.mp hc with hold | rfl
    · exact inv.heart_dead c hold hwaiting
    · exact hdead
  · intro c hc hwaiting
    rw [finished_accepts haccept] at hwaiting
    rcases hincoming.mp hc with hold | rfl
    · obtain ⟨timer, htimer, hptr, hpurges, hon⟩ := inv.has_timer c hold hwaiting
      exact ⟨timer, hqueue.mpr (.inl htimer), hptr, hpurges, (hactive _).trans hon⟩
    · exact ⟨_, hqueue.mpr (.inr rfl), hcallback, rfl, (hactive _).trans hnext⟩
  · intro timer htimer hon heart hpurges
    rw [hactive] at hon
    rcases hqueue.mp htimer with hold | rfl
    · obtain ⟨c, hc, hptr, hheart, hwaiting⟩ := inv.has_registration timer hold hon heart hpurges
      exact ⟨c, hincoming.mpr (.inl hc), hptr, hheart, (finished_accepts haccept _).not.mpr hwaiting⟩
    · refine ⟨ec, hincoming.mpr (.inr rfl), hcallback, Callback.purgeStalledRegistration.inj hpurges, ?_⟩
      exact (finished_accepts haccept _).not.mpr (not_finished_accepts registry haccept)
  · intro eid hpurging
    rw [haccept.log, List.mem_append] at hpurging
    rw [finished_accepts haccept]
    exact inv.purged_waiting eid (hpurging.resolve_right (by simp))
  · intro c hc
    rw [haccept.tracker] at hc
    exact hincoming.mpr (.inl (inv.engine_incoming c hc))

/-- A registration which is accepted while its heart is alive is finished at once and needs no timer. -/
theorem started (inv : WaitingTimed s) (registry : RegistryInvariant s.hub)
    {mid : Hub} {ec : EngineConnector} (haccept : Accepts s.hub mid ec)
    (hfinish : Finishes mid t.hub ec) (hcallback : ec.deletionCallback = none)
    (hhearts : t.hearts = s.hearts) (hloop : t.hub.loop = s.hub.loop) : WaitingTimed t := by
  have hincoming {c : EngineConnector} : c ∈ t.hub.tracker.incomingRegistrations ↔
      c ∈ s.hub.tracker.incomingRegistrations ∨ c = ec := by
    rw [hfinish.tracker]
    exact registry.mem_incoming_accepts haccept
  have hfinished {eid : ℤ} : t.hub.Finished eid ↔ s.hub.Finished eid ∨ eid = ec.id := by
    rw [finished_finishes hfinish, finished_accepts haccept]
  refine ⟨?_, ?_, ?_, ?_, ?_, ?_, ?_⟩
  · rw [hloop]
    exact inv.ptr_nodup
  · apply inv.callback_unique_insert fun _ => hincoming
    intro c _ ptr _ hptr
    rw [hcallback] at hptr
    cases hptr
  · intro c hc hwaiting
    rw [hfinished, not_or] at hwaiting
    rw [hhearts]
    have hold := (hincoming.mp hc).resolve_right fun heq => hwaiting.2 (heq ▸ rfl)
    exact inv.heart_dead c hold hwaiting.1
  · intro c hc hwaiting
    rw [hfinished, not_or] at hwaiting
    rw [hloop]
    have hold := (hincoming.mp hc).resolve_right fun heq => hwaiting.2 (heq ▸ rfl)
    exact inv.has_timer c hold hwaiting.1
  · intro timer htimer hon heart hpurges
    rw [hloop] at htimer hon
    obtain ⟨c, hc, hptr, hheart, hwaiting⟩ := inv.has_registration timer htimer hon heart hpurges
    refine ⟨c, hincoming.mpr (.inl hc), hptr, hheart, ?_⟩
    rw [hfinished, not_or]
    refine ⟨hwaiting, fun heq => ?_⟩
    have hlt := registry.incoming_lt c hc
    rw [heq, haccept.id_eq] at hlt
    exact lt_irrefl _ hlt
  · intro eid hpurging
    rw [hfinish.log, haccept.log, List.append_assoc, List.mem_append] at hpurging
    have hold := hpurging.resolve_right (by simp)
    rw [hfinished, not_or]
    refine ⟨inv.purged_waiting eid hold, fun heq => ?_⟩
    have hlt := registry.purging_lt eid hold
    rw [heq, haccept.id_eq] at hlt
    exact lt_irrefl _ hlt
  · intro c hc
    rcases RegistryInvariant.mem_engines_finishes hfinish hc with hold | rfl
    · rw [haccept.tracker] at hold
      exact hincoming.mpr (.inl (inv.engine_incoming c hold))
    · exact hincoming.mpr (.inr rfl)

/-- Whatever finishes a registration deactivates its timer and no other. -/
theorem finished (inv : WaitingTimed s) (registry : RegistryInvariant s.hub) {ec : EngineConnector}
    (hfinish : Finishes s.hub t.hub ec) (hhearts : t.hearts = insert ec.heartbeat s.hearts)
    (hqueue : t.hub.loop.queue = s.hub.loop.queue)
    (hinactive : ∀ ptr, t.hub.loop.active ptr = true ↔
      s.hub.loop.active ptr = true ∧ ec.deletionCallback ≠ some ptr) : WaitingTimed t := by
  have hincoming : t.hub.tracker.incomingRegistrations = s.hub.tracker.incomingRegistrations := by
    rw [hfinish.tracker]
  have hfinished {eid : ℤ} : t.hub.Finished eid ↔ s.hub.Finished eid ∨ eid = ec.id :=
    finished_finishes hfinish eid
  -- a registration which still waits is another one, with another heart and another timer
  have hother : ∀ c ∈ t.hub.tracker.incomingRegistrations, ¬t.hub.Finished c.id →
      c ∈ s.hub.tracker.incomingRegistrations ∧ ¬s.hub.Finished c.id ∧ c ≠ ec := by
    intro c hc hwaiting
    rw [hfinished, not_or] at hwaiting
    exact ⟨hincoming ▸ hc, hwaiting.1, fun heq => hwaiting.2 (heq ▸ rfl)⟩
  refine ⟨?_, ?_, ?_, ?_, ?_, ?_, ?_⟩
  · rw [hqueue]
    exact inv.ptr_nodup
  · rw [hincoming]
    exact inv.callback_unique
  · intro c hc hwaiting
    obtain ⟨hold, hwaiting, hne⟩ := hother c hc hwaiting
    rw [hhearts, Finset.mem_insert, not_or]
    refine ⟨fun heq => hne ?_, inv.heart_dead c hold hwaiting⟩
    exact registry.heart_unique c hold ec hfinish.mem heq
  · intro c hc hwaiting
    obtain ⟨hold, hwaiting, hne⟩ := hother c hc hwaiting
    obtain ⟨timer, htimer, hptr, hpurges, hon⟩ := inv.has_timer c hold hwaiting
    refine ⟨timer, hqueue ▸ htimer, hptr, hpurges, (hinactive _).mpr ⟨hon, fun hptr' => hne ?_⟩⟩
    exact inv.callback_unique c hold ec hfinish.mem _ hptr hptr'
  · intro timer htimer hon heart hpurges
    obtain ⟨hon, hptr'⟩ := (hinactive _).mp hon
    rw [hqueue] at htimer
    obtain ⟨c, hc, hptr, hheart, hwaiting⟩ := inv.has_registration timer htimer hon heart hpurges
    refine ⟨c, hincoming ▸ hc, hptr, hheart, ?_⟩
    rw [hfinished, not_or]
    refine ⟨hwaiting, fun heq => hptr' ?_⟩
    rw [← KeyedTable.eq_of_key_eq hc hfinish.mem heq]
    exact hptr
  · intro eid hpurging
    rw [hfinish.log, List.mem_append] at hpurging
    have hold := hpurging.resolve_right (by simp)
    rw [hfinished, not_or]
    refine ⟨inv.purged_waiting eid hold, fun heq => ?_⟩
    exact (registry.incoming_accepted ec hfinish.mem).2 (heq ▸ hold)
  · intro c hc
    rw [hincoming]
    rcases RegistryInvariant.mem_engines_finishes hfinish hc with hold | rfl
    · exact inv.engine_incoming c hold
    · exact hfinish.mem

/-- An active timer purges the waiting registration which it belongs to. -/
theorem purged (inv : WaitingTimed s) (registry : RegistryInvariant s.hub)
    {timer : DeadlineTimer Callback} {ec : EngineConnector} (htimer : timer ∈ s.hub.loop.queue)
    (hactive : s.hub.loop.active timer.ptr = true) (hpurges : timer.Purges ec.heartbeat)
    (hmem : ec ∈ s.hub.tracker.incomingRegistrations)
    (htracker : t.hub.tracker = { s.hub.tracker with
      incomingRegistrations := s.hub.tracker.incomingRegistrations.erase ec.id })
    (hlog : t.hub.log = s.hub.log ++ [.purging ec.id]) (hhearts : t.hearts = s.hearts)
    (hloop : t.hub.loop = s.hub.loop.pop timer.ptr) : WaitingTimed t := by
  obtain ⟨hptr, hwaiting⟩ : ec.deletionCallback = some timer.ptr ∧ ¬s.hub.Finished ec.id := by
    obtain ⟨c, hc, hptr, hheart, hwaiting⟩ := inv.has_registration timer htimer hactive _ hpurges
    rw [← registry.heart_unique c hc ec hmem hheart]
    exact ⟨hptr, hwaiting⟩
  have hincoming {c : EngineConnector} : c ∈ t.hub.tracker.incomingRegistrations ↔
      c ∈ s.hub.tracker.incomingRegistrations ∧ c.id ≠ ec.id := by
    rw [htracker, KeyedTable.mem_erase]
  have hfinished {eid : ℤ} : t.hub.Finished eid ↔ s.hub.Finished eid := by
    rw [Hub.Finished, Hub.Finished, hlog, List.mem_append]
    simp
  have hqueue {timer' : DeadlineTimer Callback} : timer' ∈ t.hub.loop.queue ↔
      timer' ∈ s.hub.loop.queue ∧ timer'.ptr ≠ timer.ptr := by
    rw [hloop, Loop.mem_pop]
  have hon : ∀ ptr, t.hub.loop.active ptr = s.hub.loop.active ptr := by
    intro ptr
    rw [hloop]
    rfl
  refine ⟨?_, ?_, ?_, ?_, ?_, ?_, ?_⟩
  · rw [hloop]
    exact Loop.nodup_pop inv.ptr_nodup timer.ptr
  · intro a ha b hb
    exact inv.callback_unique a (hincoming.mp ha).1 b (hincoming.mp hb).1
  · intro c hc hnot
    rw [hhearts]
    exact inv.heart_dead c (hincoming.mp hc).1 (hfinished.not.mp hnot)
  · intro c hc hnot
    obtain ⟨hold, hne⟩ := hincoming.mp hc
    obtain ⟨timer', htimer', hptr', hpurges', hon'⟩ := inv.has_timer c hold (hfinished.not.mp hnot)
    refine ⟨timer', hqueue.mpr ⟨htimer', fun heq => hne ?_⟩, hptr', hpurges', (hon _).trans hon'⟩
    rw [heq] at hptr'
    rw [inv.callback_unique c hold ec hmem _ hptr' hptr]
  · intro timer' htimer' hon' heart hpurges'
    obtain ⟨hold, hne⟩ := hqueue.mp htimer'
    rw [hon] at hon'
    obtain ⟨c, hc, hptr', hheart, hnot⟩ := inv.has_registration timer' hold hon' heart hpurges'
    refine ⟨c, hincoming.mpr ⟨hc, fun heq => hne ?_⟩, hptr', hheart, hfinished.not.mpr hnot⟩
    rw [KeyedTable.eq_of_key_eq hc hmem heq, hptr] at hptr'
    exact (Option.some.inj hptr').symm
  · intro eid hpurging
    rw [hlog, List.mem_append, List.mem_singleton] at hpurging
    rw [hfinished]
    rcases hpurging with hold | hnew
    · exact inv.purged_waiting eid hold
    · rw [LogLine.purging.inj hnew]
      exact hwaiting
  · intro c hc
    rw [htracker] at hc
    refine hincoming.mpr ⟨inv.engine_incoming c hc, fun heq => hwaiting ?_⟩
    rw [← heq]
    exact registry.engine_finished c hc

/-- Every step keeps the waiting registrations timed. -/
theorem waitingStep (inv : WaitingTimed s) (registry : RegistryInvariant s.hub)
    (identity : TimerIdentity s.hub) (h : WaitingStep s t) : WaitingTimed t := by
  cases h with
  | untouched h => exact inv.untouched identity h
  | accepted ec now waiting haccept hdead hhearts hcallback hloop =>
    exact inv.accepted registry identity haccept hdead hhearts hcallback hloop
  | started mid ec haccept hfinish hcallback hhearts hloop =>
    exact inv.started registry haccept hfinish hcallback hhearts hloop
  | finished ec hfinish hhearts hqueue hinactive =>
    exact inv.finished registry hfinish hhearts hqueue hinactive
  | purged timer ec htimer hactive hpurges hmem htracker hlog hhearts hloop =>
    exact inv.purged registry htimer hactive hpurges hmem htracker hlog hhearts hloop

end WaitingTimed

namespace Untouched

variable {s t : System}

/-- A calm step of the hub which leaves hearts and timers alone. -/
theorem of_same (h : Calm s.hub t.hub) (hhearts : t.hearts = s.hearts)
    (hloop : t.hub.loop = s.hub.loop) : Untouched s t where
  incoming := h.incoming
  engines := h.engines
  finished _ := RegistryInvariant.mem_log_calm h (by simp)
  purging _ := (RegistryInvariant.mem_log_calm h (by simp)).mp
  hearts _ hin := .inl (hhearts ▸ hin)
  inactive := by rw [hloop]
  nodup _ hnodup := by
    rw [hloop]
    exact hnodup
  added _ htimer := .inl (hloop ▸ htimer)
  kept _ htimer _ _ _ _ := hloop ▸ htimer

/-- A calm step of the hub which schedules a timer that purges nothing. -/
theorem of_added (h : Calm s.hub t.hub) (hhearts : ∀ heart ∈ t.hearts, heart ∈ s.hearts)
    {now waiting : Time} {callback : Callback}
    (hloop : t.hub.loop = s.hub.loop.add now waiting callback)
    (hcallback : ∀ heart, callback ≠ .purgeStalledRegistration heart) : Untouched s t where
  incoming := h.incoming
  engines := h.engines
  finished _ := RegistryInvariant.mem_log_calm h (by simp)
  purging _ := (RegistryInvariant.mem_log_calm h (by simp)).mp
  hearts heart hin := .inl (hhearts heart hin)
  inactive := by
    rw [hloop]
    rfl
  nodup identity hnodup := by
    rw [hloop]
    exact Loop.nodup_add identity.queued_lt hnodup _ _ _
  added timer htimer := by
    rw [hloop, Loop.mem_add] at htimer
    rcases htimer with hold | rfl
    · exact .inl hold
    · exact .inr fun heart => hcallback heart
  kept timer htimer _ _ _ _ := by
    rw [hloop, Loop.mem_add]
    exact .inl htimer

/-- A calm step of the hub in which a timer leaves the queue that purges no waiting registration. -/
theorem of_popped (h : Calm s.hub t.hub) (hhearts : t.hearts = s.hearts)
    {ptr : ℕ} (hloop : t.hub.loop = s.hub.loop.pop ptr)
    (hpurges : ∀ timer ∈ s.hub.loop.queue, timer.ptr = ptr → s.hub.loop.active ptr = true →
      ∀ ec ∈ s.hub.tracker.incomingRegistrations, ¬timer.Purges ec.heartbeat) : Untouched s t where
  incoming := h.incoming
  engines := h.engines
  finished _ := RegistryInvariant.mem_log_calm h (by simp)
  purging _ := (RegistryInvariant.mem_log_calm h (by simp)).mp
  hearts _ hin := .inl (hhearts ▸ hin)
  inactive := by
    rw [hloop]
    rfl
  nodup _ hnodup := by
    rw [hloop]
    exact Loop.nodup_pop hnodup ptr
  added timer htimer := by
    rw [hloop] at htimer
    exact .inl (Loop.mem_pop.mp htimer).1
  kept timer htimer hactive ec hec hpurge := by
    rw [hloop, Loop.mem_pop]
    refine ⟨htimer, fun heq => ?_⟩
    exact hpurges timer htimer heq (heq ▸ hactive) ec hec hpurge

end Untouched

namespace Hub

/-- The identities of the queued timers differ. -/
def DistinctTimers (hub : Hub) : Prop := (hub.loop.queue.map DeadlineTimer.ptr).Nodup

end Hub

namespace System

variable {wire : Wire} {s : System}

/-- What finishing a registration does to its timer. -/
theorem finished_step {ec : EngineConnector} (hmem : ec ∈ s.hub.tracker.incomingRegistrations) :
    WaitingStep s { hub := s.hub.finishFound ec, hearts := insert ec.heartbeat s.hearts } := by
  refine .finished ec (Hub.finishFound_finishes hmem) rfl ?_ ?_
  · rw [Hub.finishFound]
    cases ec.deletionCallback <;> rfl
  · intro ptr
    rw [Hub.finishFound]
    cases ec.deletionCallback with
    | none => simp
    | some own =>
      simp only [Loop.active, Loop.setInactive, decide_eq_true_eq, Finset.mem_insert, not_or, ne_eq,
        Option.some.injEq]
      exact ⟨fun h => ⟨h.2, Ne.symm h.1⟩, fun h => ⟨Ne.symm h.2, h.1⟩⟩

/-- A registration request is refused, or waits for its heart, or is finished at once. -/
theorem registerEngine_waiting (registry : RegistryInvariant s.hub) (incoming : Incoming) :
    WaitingStep s { s with
      hub := s.hub.registerEngine wire (fun h => decide (h ∈ s.hearts)) incoming } := by
  cases hparse : wire.registration incoming.header with
  | none =>
    simp only [Hub.registerEngine, hparse]
    exact .untouched (.of_same (.refl _) rfl rfl)
  | some msg =>
    rw [Hub.registerEngine_eq hparse]
    by_cases htaken : Hub.namesTaken s.hub.tracker msg.queue msg.heartbeat = true
    · rw [if_pos htaken]
      exact .untouched ⟨rfl, fun _ h => h, fun _ => Iff.rfl, fun _ h => h, fun _ h => .inl h, rfl,
        fun _ h => h, fun _ h => .inl h, fun _ h _ _ _ _ => h⟩
    · have hfree := Hub.namesTaken_eq_false.mp (Bool.eq_false_iff.mpr htaken)
      rw [if_neg htaken]
      by_cases halive : msg.heartbeat ∈ s.hearts
      · rw [if_pos (decide_eq_true halive)]
        have hfresh : ∀ c ∈ s.hub.nextId.2.tracker.incomingRegistrations,
            c.id ≠ (Hub.connectorOf s.hub.tracker.nextId msg incoming none).id :=
          fun c hc => (registry.incoming_lt c hc).ne
        refine .started _ _ (Hub.insertIncoming_accepts incoming hfree none)
          (Hub.finishRegistration_finishes hfresh hfree.incomingHeart) rfl rfl ?_
        have hfind := Hub.findHeart_insertIncoming hfresh hfree.incomingHeart
        simp only [Hub.finishRegistration, show msg.heartbeat =
          (Hub.connectorOf s.hub.tracker.nextId msg incoming none).heartbeat from rfl, hfind]
        rfl
      · rw [if_neg (by simpa using halive)]
        obtain ⟨hid, hnames, hqueues, htracker, hlog, hsent⟩ :=
          Hub.insertIncoming_accepts incoming hfree (some s.hub.loop.nextPtr)
        exact .accepted _ s.hub.clock (milliseconds s.hub.registrationTimeout)
          ⟨hid, hnames, hqueues, htracker, hlog, hsent⟩ halive rfl rfl rfl

/-- A timer that fires purges its registration, or does nothing to the waiting ones. -/
theorem timeout_waiting {hub : Hub} {ptr : ℕ} (hdistinct : s.hub.DistinctTimers)
    (h : s.hub.timeout ptr = some hub) : WaitingStep s { s with hub := hub } := by
  obtain ⟨timer, htimer, rfl, ⟨hactive, hrun⟩ | ⟨hinactive, rfl⟩⟩ := Hub.timeout_cases h
  · -- a timer bound to something else than the purge of a waiting registration
    have hpopped {hub : Hub} (hcalm : Calm s.hub hub) (hloop : hub.loop = s.hub.loop.pop timer.ptr)
        (hother : ∀ ec ∈ s.hub.tracker.incomingRegistrations, ¬timer.Purges ec.heartbeat) :
        WaitingStep s { s with hub := hub } := by
      refine .untouched (.of_popped hcalm rfl hloop ?_)
      intro timer' htimer' hptr _ ec hec
      rw [Loop.eq_of_ptr hdistinct htimer htimer' hptr]
      exact hother ec hec
    cases hcallback : timer.callback with
    | purgeStalledRegistration heart =>
      rw [hcallback, Hub.runCallback, Option.some.injEq, Hub._purgeStalledRegistration] at hrun
      split at hrun
      · rename_i hnone
        subst hrun
        refine hpopped (.of_eq rfl rfl rfl) rfl ?_
        intro ec hec hpurges
        rw [DeadlineTimer.Purges, hcallback] at hpurges
        exact EngineConnectorSet.findHeart_eq_none.mp hnone ec hec
          (Callback.purgeStalledRegistration.inj hpurges).symm
      · rename_i ec hfind
        subst hrun
        obtain ⟨hmem, hheart⟩ := EngineConnectorSet.findHeart_some hfind
        refine .purged timer ec htimer hactive ?_ hmem rfl rfl rfl rfl
        rw [DeadlineTimer.Purges, hcallback, hheart]
    | handleStrandedMsgs eid uuid =>
      rw [hcallback, Hub.runCallback, Option.some.injEq, Hub._handleStrandedMsgs] at hrun
      split at hrun <;> subst hrun <;>
        exact hpopped (.of_eq rfl rfl rfl) rfl (by simp [DeadlineTimer.Purges, hcallback])
    | shutdown =>
      rw [hcallback, Hub.runCallback] at hrun
      contradiction
    | beat =>
      rw [hcallback, Hub.runCallback, Option.some.injEq] at hrun
      subst hrun
      exact hpopped (.of_eq rfl rfl rfl) rfl (by simp [DeadlineTimer.Purges, hcallback])
  · refine .untouched (.of_popped (.of_eq rfl rfl rfl) rfl rfl ?_)
    intro _ _ _ hactive
    rw [hinactive] at hactive
    cases hactive

/-- A query does to the waiting registrations what its handler does. -/
theorem dispatchQuery_waiting (registry : RegistryInvariant s.hub) (incoming : Incoming) :
    WaitingStep s { s with
      hub := s.hub.dispatchQuery wire (fun h => decide (h ∈ s.hearts)) incoming } := by
  have hanswers {hub : Hub} (h : s.hub.Answers hub) : WaitingStep s { s with hub := hub } := by
    have hcalm := h.calm
    obtain ⟨messages, rfl, _⟩ := h
    exact .untouched (.of_same hcalm rfl rfl)
  unfold Hub.dispatchQuery
  split
  · exact hanswers (s.hub.queueStatus_answers wire incoming)
  · exact hanswers (s.hub.getResults_answers wire incoming)
  · refine .untouched (.of_same (s.hub.purgeResults_calm wire incoming) rfl ?_)
    unfold Hub.purgeResults
    split
    · rfl
    · split
      · rfl
      · split <;> rfl
  · exact hanswers (s.hub.checkLoad_answers wire incoming)
  · exact .untouched (.of_added s.hub.shutdownRequest_calm (fun _ h => h) rfl (by simp))
  · exact registerEngine_waiting registry incoming
  · refine .untouched (.of_same (s.hub.unregisterEngine_calm incoming) rfl ?_)
    unfold Hub.unregisterEngine
    split <;> rfl
  · exact .untouched (.of_same (.refl _) rfl rfl)

/-- Every event does one of the listed things to the waiting registrations. -/
theorem step_waiting {t : System} {e : Event} (registry : RegistryInvariant s.hub)
    (hdistinct : s.hub.DistinctTimers) (h : System.Step wire s e t) : WaitingStep s t := by
  cases e with
  | tick now =>
    cases h
    exact .untouched (.of_same (.of_eq rfl rfl rfl) rfl rfl)
  | query incoming =>
    cases h
    exact dispatchQuery_waiting registry incoming
  | monitor incoming =>
    obtain ⟨ttracker, _, rfl⟩ := Option.map_eq_some_iff.mp h
    exact .untouched (.of_same (.of_eq rfl rfl rfl) rfl rfl)
  | heartAppears heart =>
    obtain ⟨_, h⟩ := Option.ite_none_left_eq_some.mp h
    cases h
    unfold Hub.handleNewHeart
    cases hfind : s.hub.tracker.incomingRegistrations.findHeart heart with
    | none =>
      have hnone := EngineConnectorSet.findHeart_eq_none.mp hfind
      refine .untouched { Untouched.of_same (t := s) (.refl s.hub) rfl rfl with hearts := ?_ }
      intro heart' hin
      rcases Finset.mem_insert.mp hin with rfl | hold
      · exact .inr hnone
      · exact .inl hold
    | some ec =>
      obtain ⟨hmem, rfl⟩ := EngineConnectorSet.findHeart_some hfind
      simp only [Hub.finishRegistration, hfind]
      exact finished_step hmem
  | heartFails heart =>
    obtain ⟨_, h⟩ := Option.ite_none_right_eq_some.mp h
    cases h
    have hcalm := s.hub.handleHeartFailure_calm heart
    have hhearts : ∀ heart' ∈ s.hearts.erase heart, heart' ∈ s.hearts := fun _ hin =>
      Finset.mem_of_mem_erase hin
    unfold Hub.handleHeartFailure at hcalm ⊢
    split at hcalm
    · refine .untouched { Untouched.of_same (t := s) (.refl s.hub) rfl rfl with hearts := ?_ }
      exact fun heart' hin => .inl (hhearts heart' hin)
    · unfold Hub._unregisterEngine at hcalm ⊢
      split at hcalm
      · refine .untouched { Untouched.of_same (t := s) (.refl s.hub) rfl rfl with hearts := ?_ }
        exact fun heart' hin => .inl (hhearts heart' hin)
      · exact .untouched (.of_added hcalm hhearts rfl (by simp))
  | beatScheduled waiting =>
    cases h
    exact .untouched (.of_added (.of_eq rfl rfl rfl) (fun _ h => h) rfl (by simp))
  | timeout ptr =>
    obtain ⟨hub, htimeout, rfl⟩ := Option.map_eq_some_iff.mp h
    exact timeout_waiting hdistinct htimeout

end System

/-- The waiting registrations are timed in every state that a run reaches. -/
theorem WaitingTimed.reachable {wire : Wire} {interval : ℤ} {s : System}
    (h : Reachable (System.Step wire) (System.initial interval) s) : WaitingTimed s := by
  have hall : WaitingTimed s ∧ RegistryInvariant s.hub ∧ TimerIdentity s.hub :=
    h.preserves (fun s : System => WaitingTimed s ∧ RegistryInvariant s.hub ∧ TimerIdentity s.hub)
      ⟨.initial interval, .create interval, .create interval⟩ fun s e t inv hstep =>
        ⟨inv.1.waitingStep inv.2.1 inv.2.2 (System.step_waiting inv.2.1 inv.1.ptr_nodup hstep),
          inv.2.1.step hstep, inv.2.2.step hstep⟩
  exact hall.1

end Gpf
