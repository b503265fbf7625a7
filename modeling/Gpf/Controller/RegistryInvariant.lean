import Gpf.Controller.RegistryStep

/-!
# What holds of the registry in every reachable state

Ids come from the counter. Two waiting registrations never share a queue name or a heart name,
`incoming_registrations` holds exactly the accepted registrations which were not purged, and an
engine has been finished before it is listed. The log and the sent messages count the same
executions of `finish_registration`. No handler ever gives a connector outstanding work.
-/

namespace Gpf

open Transition

/-- The line which `finish_registration` writes, for any engine. -/
def LogLine.isFinishing : LogLine → Bool
  | .finishing _ => true
  | _ => false

/-- The line which the acceptance of the registration with the given id writes. -/
def LogLine.accepts (eid : ℤ) : LogLine → Bool
  | .accepted eid' _ _ => decide (eid' = eid)
  | _ => false

/-- The invariant of the registry, its log and its messages. -/
structure RegistryInvariant (hub : Hub) : Prop where
  incoming_lt : ∀ ec ∈ hub.tracker.incomingRegistrations, ec.id < hub.tracker.nextId
  accepted_lt : ∀ eid queue heart, .accepted eid queue heart ∈ hub.log → eid < hub.tracker.nextId
  accepted_once : ∀ eid, hub.log.countP (·.accepts eid) ≤ 1
  finishing_lt : ∀ eid, .finishing eid ∈ hub.log → eid < hub.tracker.nextId
  purging_lt : ∀ eid, .purging eid ∈ hub.log → eid < hub.tracker.nextId
  queue_unique : ∀ a ∈ hub.tracker.incomingRegistrations, ∀ b ∈ hub.tracker.incomingRegistrations,
    a.queue = b.queue → a = b
  heart_unique : ∀ a ∈ hub.tracker.incomingRegistrations, ∀ b ∈ hub.tracker.incomingRegistrations,
    a.heartbeat = b.heartbeat → a = b
  incoming_accepted : ∀ ec ∈ hub.tracker.incomingRegistrations,
    .accepted ec.id ec.queue ec.heartbeat ∈ hub.log ∧ .purging ec.id ∉ hub.log
  accepted_incoming : ∀ eid queue heart, .accepted eid queue heart ∈ hub.log → .purging eid ∉ hub.log →
    ∃ ec ∈ hub.tracker.incomingRegistrations, ec.id = eid ∧ ec.queue = queue ∧ ec.heartbeat = heart
  engine_finished : ∀ ec ∈ hub.tracker.engines, .finishing ec.id ∈ hub.log
  engine_idle : ∀ ec ∈ hub.tracker.engines, ec.queues = []
  incoming_idle : ∀ ec ∈ hub.tracker.incomingRegistrations, ec.queues = []
  announced : ∀ eid, hub.sent.countP (·.announces eid) = hub.log.count (.finishing eid)
  acknowledged : hub.sent.countP (·.isAck) = hub.log.countP (·.isFinishing)

namespace RegistryInvariant

/-- A new hub satisfies the invariant. -/
theorem create (interval : ℤ) : RegistryInvariant (Hub.create interval) where
  incoming_lt _ h := absurd h (KeyedTable.notMem_empty _)
  accepted_lt _ _ _ h := absurd h List.not_mem_nil
  accepted_once _ := Nat.zero_le 1
  finishing_lt _ h := absurd h List.not_mem_nil
  purging_lt _ h := absurd h List.not_mem_nil
  queue_unique _ h := absurd h (KeyedTable.notMem_empty _)
  heart_unique _ h := absurd h (KeyedTable.notMem_empty _)
  incoming_accepted _ h := absurd h (KeyedTable.notMem_empty _)
  accepted_incoming _ _ _ h := absurd h List.not_mem_nil
  engine_finished _ h := absurd h (KeyedTable.notMem_empty _)
  engine_idle _ h := absurd h (KeyedTable.notMem_empty _)
  incoming_idle _ h := absurd h (KeyedTable.notMem_empty _)
  announced _ := rfl
  acknowledged := rfl

/-- Lines about engines that leave do not touch what is known of registrations. -/
theorem mem_log_calm {hub hub' : Hub} (h : Calm hub hub') {line : LogLine}
    (hline : ∀ eid, line ≠ .unregistering eid) : line ∈ hub'.log ↔ line ∈ hub.log := by
  obtain ⟨lines, hlog, hlines⟩ := h.log
  rw [hlog, List.mem_append]
  apply or_iff_left
  intro hmem
  obtain ⟨eid, heq⟩ := hlines line hmem
  exact hline eid heq

/-- A calm step leaves the number of lines that tell of registrations. -/
theorem countP_calm {hub hub' : Hub} (h : Calm hub hub') (test : LogLine → Bool)
    (htest : ∀ eid, test (.unregistering eid) = false) :
    hub'.log.countP test = hub.log.countP test := by
  obtain ⟨lines, hlog, hlines⟩ := h.log
  have hzero : lines.countP test = 0 := by
    apply List.countP_eq_zero.mpr
    intro line hline
    obtain ⟨eid, rfl⟩ := hlines line hline
    simp [htest]
  rw [hlog, List.countP_append, hzero, Nat.add_zero]

/-- A calm step finishes nothing, so it leaves the number of executions unchanged. -/
theorem count_finishing_calm {hub hub' : Hub} (h : Calm hub hub') (eid : ℤ) :
    hub'.log.count (.finishing eid) = hub.log.count (.finishing eid) :=
  countP_calm h (· == .finishing eid) fun _ => by simp

/-- Calm steps keep the invariant. -/
theorem calm {hub hub' : Hub} (inv : RegistryInvariant hub) (h : Calm hub hub') :
    RegistryInvariant hub' where
  incoming_lt ec hec := by
    rw [h.incoming] at hec
    rw [h.nextId]
    exact inv.incoming_lt ec hec
  accepted_lt eid queue heart hmem := by
    rw [h.nextId]
    exact inv.accepted_lt eid queue heart ((mem_log_calm h (by simp)).mp hmem)
  accepted_once eid := by
    rw [countP_calm h _ fun _ => rfl]
    exact inv.accepted_once eid
  finishing_lt eid hmem := by
    rw [h.nextId]
    exact inv.finishing_lt eid ((mem_log_calm h (by simp)).mp hmem)
  purging_lt eid hmem := by
    rw [h.nextId]
    exact inv.purging_lt eid ((mem_log_calm h (by simp)).mp hmem)
  queue_unique := by
    rw [h.incoming]
    exact inv.queue_unique
  heart_unique := by
    rw [h.incoming]
    exact inv.heart_unique
  incoming_accepted ec hec := by
    rw [h.incoming] at hec
    rw [mem_log_calm h (by simp), mem_log_calm h (by simp)]
    exact inv.incoming_accepted ec hec
  accepted_incoming eid queue heart hmem hpurge := by
    rw [mem_log_calm h (by simp)] at hmem hpurge
    rw [h.incoming]
    exact inv.accepted_incoming eid queue heart hmem hpurge
  engine_finished ec hec :=
    (mem_log_calm h (by simp)).mpr (inv.engine_finished ec (h.engines ec hec))
  engine_idle ec hec := inv.engine_idle ec (h.engines ec hec)
  incoming_idle := by
    rw [h.incoming]
    exact inv.incoming_idle
  announced eid := by
    obtain ⟨messages, hsent, hquiet⟩ := h.sent
    have hzero : messages.countP (·.announces eid) = 0 :=
      List.countP_eq_zero.mpr fun m hm => by simp [(hquiet m hm).1 eid]
    rw [hsent, List.countP_append, hzero, Nat.add_zero, inv.announced, count_finishing_calm h]
  acknowledged := by
    obtain ⟨messages, hsent, hquiet⟩ := h.sent
    have hzero : messages.countP (·.isAck) = 0 :=
      List.countP_eq_zero.mpr fun m hm => by simp [(hquiet m hm).2]
    rw [hsent, List.countP_append, hzero, Nat.add_zero, inv.acknowledged,
      countP_calm h _ fun _ => rfl]

/-- A refused request only consumes an id. -/
theorem refused {hub hub' : Hub} (inv : RegistryInvariant hub)
    (htracker : hub'.tracker = { hub.tracker with nextId := hub.tracker.nextId + 1 })
    (hlog : hub'.log = hub.log) (hsent : hub'.sent = hub.sent) : RegistryInvariant hub' where
  incoming_lt ec hec := by
    rw [htracker] at hec ⊢
    exact (inv.incoming_lt ec hec).trans (Int.lt_succ _)
  accepted_lt eid queue heart hmem := by
    rw [htracker]
    exact (inv.accepted_lt eid queue heart (hlog ▸ hmem)).trans (Int.lt_succ _)
  accepted_once := by
    rw [hlog]
    exact inv.accepted_once
  finishing_lt eid hmem := by
    rw [htracker]
    exact (inv.finishing_lt eid (hlog ▸ hmem)).trans (Int.lt_succ _)
  purging_lt eid hmem := by
    rw [htracker]
    exact (inv.purging_lt eid (hlog ▸ hmem)).trans (Int.lt_succ _)
  queue_unique := by
    rw [htracker]
    exact inv.queue_unique
  heart_unique := by
    rw [htracker]
    exact inv.heart_unique
  incoming_accepted := by
    rw [htracker, hlog]
    exact inv.incoming_accepted
  accepted_incoming := by
    rw [htracker, hlog]
    exact inv.accepted_incoming
  engine_finished := by
    rw [htracker, hlog]
    exact inv.engine_finished
  engine_idle := by
    rw [htracker]
    exact inv.engine_idle
  incoming_idle := by
    rw [htracker]
    exact inv.incoming_idle
  announced := by
    rw [hsent, hlog]
    exact inv.announced
  acknowledged := by
    rw [hsent, hlog]
    exact inv.acknowledged

/-- The waiting registrations after an acceptance are the old ones and the new one. -/
theorem mem_incoming_accepts {hub hub' : Hub} {ec : EngineConnector} (inv : RegistryInvariant hub)
    (h : Accepts hub hub' ec) {c : EngineConnector} :
    c ∈ hub'.tracker.incomingRegistrations ↔ c ∈ hub.tracker.incomingRegistrations ∨ c = ec := by
  rw [h.tracker, KeyedTable.mem_insert]
  refine or_congr_right (and_iff_left fun d hd => ?_)
  rw [h.id_eq]
  exact (inv.incoming_lt d hd).ne

/-- Under the next id no registration has been accepted. -/
theorem countP_accepts_nextId {hub : Hub} (inv : RegistryInvariant hub) :
    hub.log.countP (·.accepts hub.tracker.nextId) = 0 := by
  apply List.countP_eq_zero.mpr
  intro line hline haccepts
  cases line with
  | accepted eid queue heart =>
    have hlt := inv.accepted_lt eid queue heart hline
    rw [of_decide_eq_true haccepts] at hlt
    exact lt_irrefl _ hlt
  | _ => simp [LogLine.accepts] at haccepts

/-- An accepted registration keeps the names of the waiting ones apart. -/
theorem accepts {hub hub' : Hub} {ec : EngineConnector} (inv : RegistryInvariant hub)
    (h : Accepts hub hub' ec) : RegistryInvariant hub' where
  incoming_lt c hc := by
    rw [inv.mem_incoming_accepts h] at hc
    rw [h.tracker]
    rcases hc with hold | rfl
    · exact (inv.incoming_lt c hold).trans (Int.lt_succ _)
    · rw [h.id_eq]
      exact Int.lt_succ _
  accepted_lt eid queue heart hmem := by
    rw [h.log, List.mem_append, List.mem_singleton] at hmem
    rw [h.tracker]
    rcases hmem with hold | hnew
    · exact (inv.accepted_lt eid queue heart hold).trans (Int.lt_succ _)
    · rw [(LogLine.accepted.inj hnew).1, h.id_eq]
      exact Int.lt_succ _
  accepted_once eid := by
    rw [h.log, List.countP_append, List.countP_singleton]
    by_cases heid : ec.id = eid
    · rw [← heid, h.id_eq, inv.countP_accepts_nextId, Nat.zero_add]
      split <;> omega
    · simpa [LogLine.accepts, heid] using inv.accepted_once eid
  finishing_lt eid hmem := by
    rw [h.log, List.mem_append, List.mem_singleton] at hmem
    rw [h.tracker]
    exact (inv.finishing_lt eid (hmem.resolve_right (by simp))).trans (Int.lt_succ _)
  purging_lt eid hmem := by
    rw [h.log, List.mem_append, List.mem_singleton] at hmem
    rw [h.tracker]
    exact (inv.purging_lt eid (hmem.resolve_right (by simp))).trans (Int.lt_succ _)
  queue_unique := by
    apply KeyedTable.unique_insert (fun _ => inv.mem_incoming_accepts h) inv.queue_unique
    intro c hc
    exact ⟨h.free.incomingQueue c hc, (h.free.incomingQueue c hc).symm⟩
  heart_unique := by
    apply KeyedTable.unique_insert (fun _ => inv.mem_incoming_accepts h) inv.heart_unique
    intro c hc
    exact ⟨h.free.incomingHeart c hc, (h.free.incomingHeart c hc).symm⟩
  incoming_accepted c hc := by
    rw [inv.mem_incoming_accepts h] at hc
    simp only [h.log, List.mem_append, List.mem_singleton]
    rcases hc with hold | rfl
    · obtain ⟨haccepted, hpurging⟩ := inv.incoming_accepted c hold
      exact ⟨.inl haccepted, by simp [hpurging]⟩
    · refine ⟨.inr rfl, ?_⟩
      intro hcase
      rcases hcase with hmem | hmem
      · exact (inv.purging_lt c.id hmem).ne h.id_eq
      · cases hmem
  accepted_incoming eid queue heart hmem hpurge := by
    simp only [h.log, List.mem_append, List.mem_singleton] at hmem hpurge
    rcases hmem with hold | hnew
    · obtain ⟨c, hc, hnames⟩ :=
        inv.accepted_incoming eid queue heart hold fun hp => hpurge (.inl hp)
      exact ⟨c, (inv.mem_incoming_accepts h).mpr (.inl hc), hnames⟩
    · obtain ⟨hid, hqueue, hheart⟩ := LogLine.accepted.inj hnew
      exact ⟨ec, (inv.mem_incoming_accepts h).mpr (.inr rfl), hid.symm, hqueue.symm, hheart.symm⟩
  engine_finished c hc := by
    rw [h.tracker] at hc
    rw [h.log]
    exact List.mem_append_left _ (inv.engine_finished c hc)
  engine_idle := by
    rw [h.tracker]
    exact inv.engine_idle
  incoming_idle c hc := by
    rw [inv.mem_incoming_accepts h] at hc
    rcases hc with hold | rfl
    · exact inv.incoming_idle c hold
    · exact h.queues
  announced eid := by
    rw [h.sent, h.log, inv.announced, List.count_append]
    simp
  acknowledged := by
    rw [h.sent, h.log, inv.acknowledged, List.countP_append]
    simp [LogLine.isFinishing]

/-- The engines after a finished registration are the old ones and, under a free id, its own. -/
theorem mem_engines_finishes {hub hub' : Hub} {ec c : EngineConnector} (h : Finishes hub hub' ec)
    (hc : c ∈ hub'.tracker.engines) : c ∈ hub.tracker.engines ∨ c = ec := by
  rw [h.tracker, KeyedTable.mem_insert] at hc
  exact hc.imp_right And.left

/-- Executing `finish_registration` adds one to the count of its engine only. -/
theorem count_finishing_finishes {hub hub' : Hub} {ec : EngineConnector} (h : Finishes hub hub' ec)
    (eid : ℤ) : hub'.log.count (.finishing eid) =
      hub.log.count (.finishing eid) + if ec.id = eid then 1 else 0 := by
  rw [h.log, List.count_append, List.count_singleton]
  simp

/-- A finished registration keeps the invariant. -/
theorem finishes {hub hub' : Hub} {ec : EngineConnector} (inv : RegistryInvariant hub)
    (h : Finishes hub hub' ec) : RegistryInvariant hub' where
  incoming_lt := by
    rw [h.tracker]
    exact inv.incoming_lt
  accepted_lt eid queue heart hmem := by
    rw [h.log, List.mem_append, List.mem_singleton] at hmem
    rw [h.tracker]
    exact inv.accepted_lt eid queue heart (hmem.resolve_right (by simp))
  accepted_once eid := by
    rw [h.log, List.countP_append]
    exact inv.accepted_once eid
  finishing_lt eid hmem := by
    rw [h.log, List.mem_append, List.mem_singleton] at hmem
    rw [h.tracker]
    rcases hmem with hold | hnew
    · exact inv.finishing_lt eid hold
    · rw [LogLine.finishing.inj hnew]
      exact inv.incoming_lt ec h.mem
  purging_lt eid hmem := by
    rw [h.log, List.mem_append, List.mem_singleton] at hmem
    rw [h.tracker]
    exact inv.purging_lt eid (hmem.resolve_right (by simp))
  queue_unique := by
    rw [h.tracker]
    exact inv.queue_unique
  heart_unique := by
    rw [h.tracker]
    exact inv.heart_unique
  incoming_accepted c hc := by
    rw [h.tracker] at hc
    obtain ⟨haccepted, hpurging⟩ := inv.incoming_accepted c hc
    simp only [h.log, List.mem_append, List.mem_singleton]
    exact ⟨.inl haccepted, by simp [hpurging]⟩
  accepted_incoming eid queue heart hmem hpurge := by
    simp only [h.log, List.mem_append, List.mem_singleton] at hmem hpurge
    rw [h.tracker]
    exact inv.accepted_incoming eid queue heart (hmem.resolve_right (by simp))
      fun hp => hpurge (.inl hp)
  engine_finished c hc := by
    rw [h.log, List.mem_append, List.mem_singleton]
    rcases mem_engines_finishes h hc with hold | rfl
    · exact .inl (inv.engine_finished c hold)
    · exact .inr rfl
  engine_idle c hc := by
    rcases mem_engines_finishes h hc with hold | rfl
    · exact inv.engine_idle c hold
    · exact inv.incoming_idle c h.mem
  incoming_idle := by
    rw [h.tracker]
    exact inv.incoming_idle
  announced eid := by
    rw [count_finishing_finishes h, h.sent, List.countP_append, inv.announced]
    simp [List.countP_cons, Hub.registrationNotification, Hub.registrationAck, Sent.announces]
  acknowledged := by
    rw [h.sent, h.log, List.countP_append, List.countP_append, inv.acknowledged]
    simp [Hub.registrationNotification, Hub.registrationAck, Sent.isAck,
      LogLine.isFinishing]

/-- A purged registration leaves no trace but its line. -/
theorem purged {hub hub' : Hub} {ec : EngineConnector} (inv : RegistryInvariant hub)
    (hmem : ec ∈ hub.tracker.incomingRegistrations)
    (htracker : hub'.tracker = { hub.tracker with
      incomingRegistrations := hub.tracker.incomingRegistrations.erase ec.id })
    (hlog : hub'.log = hub.log ++ [.purging ec.id]) (hsent : hub'.sent = hub.sent) :
    RegistryInvariant hub' := by
  have hincoming {c : EngineConnector} : c ∈ hub'.tracker.incomingRegistrations ↔
      c ∈ hub.tracker.incomingRegistrations ∧ c.id ≠ ec.id := by
    rw [htracker, KeyedTable.mem_erase]
  have hline {line : LogLine} (hne : ∀ eid, line ≠ .purging eid) :
      line ∈ hub'.log ↔ line ∈ hub.log := by
    rw [hlog, List.mem_append, List.mem_singleton]
    exact or_iff_left (hne ec.id)
  have hpurging {eid : ℤ} : .purging eid ∈ hub'.log ↔ .purging eid ∈ hub.log ∨ eid = ec.id := by
    rw [hlog, List.mem_append, List.mem_singleton, LogLine.purging.injEq]
  have hnext : hub'.tracker.nextId = hub.tracker.nextId := by rw [htracker]
  have hengines : hub'.tracker.engines = hub.tracker.engines := by rw [htracker]
  refine
    { incoming_lt := fun c hc => hnext ▸ inv.incoming_lt c (hincoming.mp hc).1
      accepted_lt := fun eid queue heart h =>
        hnext ▸ inv.accepted_lt eid queue heart ((hline (by simp)).mp h)
      accepted_once := fun eid => by
        rw [hlog, List.countP_append]
        exact inv.accepted_once eid
      finishing_lt := fun eid h => hnext ▸ inv.finishing_lt eid ((hline (by simp)).mp h)
      purging_lt := ?_
      queue_unique := fun a ha b hb => inv.queue_unique a (hincoming.mp ha).1 b (hincoming.mp hb).1
      heart_unique := fun a ha b hb => inv.heart_unique a (hincoming.mp ha).1 b (hincoming.mp hb).1
      incoming_accepted := ?_
      accepted_incoming := ?_
      engine_finished := fun c hc => (hline (by simp)).mpr (inv.engine_finished c (hengines ▸ hc))
      engine_idle := fun c hc => inv.engine_idle c (hengines ▸ hc)
      incoming_idle := fun c hc => inv.incoming_idle c (hincoming.mp hc).1
      announced := ?_
      acknowledged := ?_ }
  · intro eid h
    rw [hnext]
    rcases hpurging.mp h with hold | rfl
    · exact inv.purging_lt eid hold
    · exact inv.incoming_lt ec hmem
  · intro c hc
    obtain ⟨hold, hne⟩ := hincoming.mp hc
    obtain ⟨haccepted, hnotPurged⟩ := inv.incoming_accepted c hold
    refine ⟨(hline (by simp)).mpr haccepted, fun h => ?_⟩
    exact (hpurging.mp h).elim hnotPurged hne
  · intro eid queue heart h hnotPurged
    obtain ⟨c, hc, hid, hnames⟩ := inv.accepted_incoming eid queue heart ((hline (by simp)).mp h)
      fun hp => hnotPurged (hpurging.mpr (.inl hp))
    refine ⟨c, hincoming.mpr ⟨hc, fun heq => ?_⟩, hid, hnames⟩
    exact hnotPurged (hpurging.mpr (.inr (hid.symm.trans heq)))
  · intro eid
    rw [hsent, hlog, inv.announced, List.count_append]
    simp
  · rw [hsent, hlog, inv.acknowledged, List.countP_append]
    simp [LogLine.isFinishing]

/-- Every event keeps the invariant. -/
theorem step {wire : Wire} {s t : System} {e : Event} (inv : RegistryInvariant s.hub)
    (h : System.Step wire s e t) : RegistryInvariant t.hub := by
  cases System.step_registry inv.incoming_lt h with
  | calm hcalm _ => exact inv.calm hcalm
  | refused htracker hlog hsent _ => exact inv.refused htracker hlog hsent
  | accepted ec haccept _ => exact inv.accepts haccept
  | started mid ec haccept hfinish _ => exact (inv.accepts haccept).finishes hfinish
  | finished ec hfinish _ => exact inv.finishes hfinish
  | purged ec hmem htracker hlog hsent _ => exact inv.purged hmem htracker hlog hsent

/-- The invariant holds in every state that a run reaches. -/
theorem reachable {wire : Wire} {interval : ℤ} {s : System}
    (h : Reachable (System.Step wire) (System.initial interval) s) : RegistryInvariant s.hub :=
  h.preserves (fun s => RegistryInvariant s.hub) (create interval) fun _ _ _ inv hstep =>
    inv.step hstep

end RegistryInvariant

end Gpf
