import Gpf.Controller.PendingRecords

/-!
# Messages which cannot be processed

A handler gives up when the header does not parse, and it is left by an exception when a timestamp
does not. Both submission handlers read their timestamp before the first write. The two result
handlers read theirs last: by then the id has left `pending` and `unassigned`, and the record may
carry the completion time already.
-/

namespace Gpf

open Transition

/-- The header of a message parses, as far as there is a handler to parse it. -/
def Incoming.Parses (wire : Wire) (incoming : Incoming) : Prop :=
  match incoming.type with
  | "in" => (wire.inMsg incoming.header).isSome
  | "out" => (wire.outMsg incoming.header).isSome
  | "intask" => (wire.intask incoming.header).isSome
  | "outtask" => (wire.outtask incoming.header).isSome
  | "tracktask" => (wire.tracktask incoming.header).isSome
  | _ => True

/-- The message cannot be processed: its header does not parse, or one of its timestamps does not. -/
def Incoming.Malformed (wire : Wire) (incoming : Incoming) : Prop :=
  ¬incoming.Parses wire ∨ ¬incoming.Timed wire

/-- The completion time which a result message carries, if it can be parsed. -/
def Incoming.completedTime? (wire : Wire) (incoming : Incoming) : Option Time :=
  match incoming.type with
  | "out" => (wire.outMsg incoming.header).bind fun msg => TaskTracker.timestamp wire msg.completed
  | "outtask" =>
    (wire.outtask incoming.header).bind fun msg => TaskTracker.timestamp wire msg.completed
  | _ => none

namespace TaskTracker

variable {wire : Wire} {tracker : TaskTracker} {incoming : Incoming}

/-- A message which cannot be processed leaves the tracker as it is. -/
def Intact (wire : Wire) (tracker : TaskTracker) (incoming : Incoming) : Prop :=
  incoming.Malformed wire → (tracker.dispatchMonitorTraffic wire incoming).state = tracker

/-- What a result writes before its last timestamp is read, the tracker holds already: its task is not
pending, nor unassigned where that is looked at, and has the completion time. -/
def ResultNoted (wire : Wire) (tracker : TaskTracker) (incoming : Incoming) : Prop :=
  ∀ id, incoming.reports? wire = some id → ∀ t ∈ tracker.tasks, t.id = id →
    id ∉ tracker.pending ∧ (incoming.type = "outtask" → id ∉ tracker.unassigned) ∧
      ∀ time, incoming.completedTime? wire = some time → t.completed = some time

/-- A result leaves the tracker as it is exactly when its id is not pending. -/
theorem complete_eq_self {id : String} : tracker.complete id = tracker ↔ id ∉ tracker.pending := by
  constructor
  · intro hsame hpending
    rw [← hsame, mem_pending_complete] at hpending
    exact hpending.2 rfl
  · intro hpending
    rw [complete, if_neg hpending]

/-- A result does not look at the unassigned ids. -/
@[simp] theorem unassigned_complete (tracker : TaskTracker) (id : String) :
    (tracker.complete id).unassigned = tracker.unassigned := by
  unfold complete
  split <;> rfl

/-- Writing a record leaves the tracker as it is exactly when the record holds that already. -/
theorem modifyTask_eq_self {id : String} {f : Task → Task} (hf : ∀ t, (f t).id = t.id) :
    tracker.modifyTask id f hf = tracker ↔ ∀ t ∈ tracker.tasks, t.id = id → f t = t := by
  rw [← KeyedTable.modify_eq_self hf]
  constructor
  · intro hsame
    exact congrArg tasks hsame
  · intro hsame
    rw [modifyTask, hsame]

/-- A completion time is not part of the id. -/
theorem id_completed (time : Time) (t : Task) : { t with completed := some time }.id = t.id := rfl

/-- Where a rejected timestamp leaves the record of a result: with the completion time, if that was
not the one which was rejected. -/
def stampRejected (wire : Wire) (tracker : TaskTracker) (id : String) (completed : Option String) :
    TaskTracker :=
  (timestamp wire completed).elim tracker fun time =>
    tracker.modifyTask id (fun t => { t with completed := some time }) (id_completed time)

/-- A result with a rejected timestamp is left by an exception. -/
theorem stampResult_threw {id : String} {completed started : Option String}
    (hrejected : ¬((timestamp wire completed).isSome ∧ (timestamp wire started).isSome)) :
    stampResult wire tracker id completed started incoming =
      .threw (stampRejected wire tracker id completed) := by
  unfold stampResult stampRejected
  cases hcompleted : timestamp wire completed with
  | none => rfl
  | some time =>
    cases hstarted : timestamp wire started with
    | none => rfl
    | some startedTime => exact absurd (by simp [hcompleted, hstarted]) hrejected

/-- A rejected timestamp writes nothing but records. -/
theorem sets_stampRejected (wire : Wire) (tracker : TaskTracker) (id : String)
    (completed : Option String) :
    (stampRejected wire tracker id completed).pending = tracker.pending ∧
      (stampRejected wire tracker id completed).unassigned = tracker.unassigned := by
  unfold stampRejected
  cases timestamp wire completed <;> exact ⟨rfl, rfl⟩

/-- A rejected timestamp leaves the tracker as it is exactly when no completion time was accepted or
the record has it already. -/
theorem stampRejected_eq_self {id : String} {completed : Option String} :
    stampRejected wire tracker id completed = tracker ↔
      ∀ time, timestamp wire completed = some time →
        ∀ t ∈ tracker.tasks, t.id = id → t.completed = some time := by
  unfold stampRejected
  cases timestamp wire completed with
  | none => simp
  | some time =>
    simp only [Option.some.injEq, forall_eq', Option.elim_some]
    rw [modifyTask_eq_self]
    refine forall₃_congr fun t _ _ => ⟨fun hsame => ?_, fun hcompleted => ?_⟩
    · rw [← hsame]
    · rw [← hcompleted]

/-- A result with a rejected timestamp leaves the tracker as it is exactly when its id is neither pending
nor taken out of the unassigned ones, and no new completion time is written. -/
theorem rejected_result_eq_self {id : String} {completed started : Option String} {ids : Finset String}
    (hrejected : ¬((timestamp wire completed).isSome ∧ (timestamp wire started).isSome)) :
    (stampResult wire (complete { tracker with unassigned := ids } id) id completed started
        incoming).state = tracker ↔
      id ∉ tracker.pending ∧ ids = tracker.unassigned ∧
        ∀ time, timestamp wire completed = some time →
          ∀ t ∈ tracker.tasks, t.id = id → t.completed = some time := by
  rw [stampResult_threw hrejected, Outcome.state, ← stampRejected_eq_self]
  obtain ⟨hpending, hunassigned⟩ :=
    sets_stampRejected wire (complete { tracker with unassigned := ids } id) id completed
  constructor
  · intro hsame
    rw [hsame] at hpending hunassigned
    rw [unassigned_complete] at hunassigned
    have hnot : id ∉ tracker.pending := by
      rw [hpending, mem_pending_complete]
      exact fun h => h.2 rfl
    have hids : ids = tracker.unassigned := hunassigned.symm
    subst hids
    rw [complete_eq_self.mpr hnot] at hsame
    exact ⟨hnot, rfl, hsame⟩
  · intro hall
    obtain ⟨hnot, rfl, hsame⟩ := hall
    rw [complete_eq_self.mpr hnot]
    exact hsame

/-- A message which reports no result has nothing to be noted. -/
theorem resultNoted_of_none (hreports : incoming.reports? wire = none) :
    ResultNoted wire tracker incoming := by
  intro id hid
  rw [hreports] at hid
  cases hid

/-- A result for an id without a record has nothing to be noted. -/
theorem resultNoted_of_absent {id : String} (hreports : incoming.reports? wire = some id)
    (hfind : tracker.tasks.find? id = none) : ResultNoted wire tracker incoming := by
  intro id' hid t ht heq
  rw [hreports, Option.some.injEq] at hid
  subst hid
  exact absurd heq (KeyedTable.find?_eq_none.mp hfind t ht)

/-- What is to be noted of a result for an id which has a record. -/
theorem resultNoted_of_record {id : String} {completed : Option String} {task : Task}
    (hreports : incoming.reports? wire = some id)
    (htime : incoming.completedTime? wire = timestamp wire completed)
    (hfind : tracker.tasks.find? id = some task) :
    ResultNoted wire tracker incoming ↔
      id ∉ tracker.pending ∧ (incoming.type = "outtask" → id ∉ tracker.unassigned) ∧
        ∀ time, timestamp wire completed = some time →
          ∀ t ∈ tracker.tasks, t.id = id → t.completed = some time := by
  obtain ⟨htask, hid⟩ := KeyedTable.find?_eq_some.mp hfind
  constructor
  · intro h
    have hof := h id hreports
    rw [htime] at hof
    obtain ⟨hpending, hunassigned, -⟩ := hof task htask hid
    exact ⟨hpending, hunassigned, fun time hcompleted t ht heq => (hof t ht heq).2.2 time hcompleted⟩
  · intro h id' hreports' t ht heq
    rw [hreports, Option.some.injEq] at hreports'
    subst hreports'
    rw [htime]
    obtain ⟨hpending, hunassigned, hcompleted⟩ := h
    exact ⟨hpending, hunassigned, fun time htimed => hcompleted time htimed t ht heq⟩

/-- A result with a rejected timestamp, for an id which has a record, leaves the tracker as it is exactly
when what it writes before is noted. -/
theorem rejected_result_noted {id : String} {completed started : Option String} {task : Task}
    {ids : Finset String} (hreports : incoming.reports? wire = some id)
    (htime : incoming.completedTime? wire = timestamp wire completed)
    (hrejected : ¬((timestamp wire completed).isSome ∧ (timestamp wire started).isSome))
    (hids : ids = tracker.unassigned ↔ (incoming.type = "outtask" → id ∉ tracker.unassigned))
    (hfind : tracker.tasks.find? id = some task) :
    (stampResult wire (complete { tracker with unassigned := ids } id) id completed started
        incoming).state = tracker ↔ ResultNoted wire tracker incoming := by
  rw [rejected_result_eq_self hrejected, resultNoted_of_record hreports htime hfind, hids]

/-- A malformed `in` message. -/
theorem malformed_in (htype : incoming.type = "in") (hmalformed : incoming.Malformed wire) :
    (saveQueueRequest wire tracker incoming).state = tracker := by
  rw [Incoming.Malformed, Incoming.Parses, Incoming.Timed, htype] at hmalformed
  rcases saveQueueRequest_cases wire tracker incoming with
    ⟨-, hends⟩ | ⟨msg, hparse, ⟨-, hends⟩ | ⟨submitted, htime, -⟩⟩
  · rw [hends, Outcome.state]
  · rw [hends, Outcome.state]
  · exact absurd hmalformed (by simp [hparse, htime])

/-- A malformed `intask` message. -/
theorem malformed_intask (htype : incoming.type = "intask") (hmalformed : incoming.Malformed wire) :
    (saveTaskRequest wire tracker incoming).state = tracker := by
  rw [Incoming.Malformed, Incoming.Parses, Incoming.Timed, htype] at hmalformed
  rcases saveTaskRequest_cases wire tracker incoming with
    ⟨-, hends⟩ | ⟨msg, hparse, ⟨-, hends⟩ | ⟨submitted, htime, -⟩⟩
  · rw [hends, Outcome.state]
  · rw [hends, Outcome.state]
  · exact absurd hmalformed (by simp [hparse, htime])

/-- A malformed `tracktask` message. -/
theorem malformed_tracktask (htype : incoming.type = "tracktask")
    (hmalformed : incoming.Malformed wire) :
    (saveTaskDestination wire tracker incoming).state = tracker := by
  rw [Incoming.Malformed, Incoming.Parses, Incoming.Timed, htype] at hmalformed
  rcases saveTaskDestination_cases wire tracker incoming with ⟨-, hends⟩ | ⟨msg, hparse, -⟩
  · rw [hends, Outcome.state]
  · exact absurd hmalformed (by simp [hparse])

/-- A malformed `out` message. -/
theorem malformed_out (htype : incoming.type = "out") (hmalformed : incoming.Malformed wire) :
    (saveQueueResult wire tracker incoming).state = tracker ↔ ResultNoted wire tracker incoming := by
  have hreports : incoming.reports? wire = (wire.outMsg incoming.header).map Out.msgId := by
    rw [Incoming.reports?, htype]
    rfl
  have htime : incoming.completedTime? wire =
      (wire.outMsg incoming.header).bind fun msg => timestamp wire msg.completed := by
    rw [Incoming.completedTime?, htype]
    rfl
  rw [Incoming.Malformed, Incoming.Parses, Incoming.Timed, htype] at hmalformed
  rcases saveQueueResult_cases wire tracker incoming with
    ⟨hparse, hends⟩ | ⟨msg, hparse, ⟨hfind, hends⟩ | ⟨task, hfind, hends⟩⟩
  all_goals rw [hparse] at hreports htime
  · rw [hends]
    exact iff_of_true rfl (resultNoted_of_none hreports)
  · rw [hends]
    exact iff_of_true rfl (resultNoted_of_absent hreports hfind)
  · have hrejected : ¬((timestamp wire msg.completed).isSome ∧ (timestamp wire msg.started).isSome) :=
      fun hboth => absurd hmalformed (by simp [hparse, hboth])
    have hids : tracker.unassigned = tracker.unassigned ↔
        (incoming.type = "outtask" → msg.msgId ∉ tracker.unassigned) := by simp [htype]
    rw [hends]
    exact rejected_result_noted hreports htime hrejected hids hfind

/-- A malformed `outtask` message. -/
theorem malformed_outtask (htype : incoming.type = "outtask") (hmalformed : incoming.Malformed wire) :
    (saveTaskResult wire tracker incoming).state = tracker ↔ ResultNoted wire tracker incoming := by
  have hreports : incoming.reports? wire = (wire.outtask incoming.header).map Outtask.msgId := by
    rw [Incoming.reports?, htype]
    rfl
  have htime : incoming.completedTime? wire =
      (wire.outtask incoming.header).bind fun msg => timestamp wire msg.completed := by
    rw [Incoming.completedTime?, htype]
    rfl
  rw [Incoming.Malformed, Incoming.Parses, Incoming.Timed, htype] at hmalformed
  rcases saveTaskResult_cases wire tracker incoming with
    ⟨hparse, hends⟩ | ⟨msg, hparse, ⟨hfind, hends⟩ | ⟨task, hfind, hends⟩⟩
  all_goals rw [hparse] at hreports htime
  · rw [hends]
    exact iff_of_true rfl (resultNoted_of_none hreports)
  · rw [hends]
    exact iff_of_true rfl (resultNoted_of_absent hreports hfind)
  · have hrejected : ¬((timestamp wire msg.completed).isSome ∧ (timestamp wire msg.started).isSome) :=
      fun hboth => absurd hmalformed (by simp [hparse, hboth])
    have hids : tracker.unassigned.erase msg.msgId = tracker.unassigned ↔
        (incoming.type = "outtask" → msg.msgId ∉ tracker.unassigned) := by simp [htype]
    rw [hends, ← rejected_result_noted hreports htime hrejected hids hfind, stampResult_threw hrejected]

end TaskTracker

open TaskTracker

/-- Whatever the tracker and the message: a message which cannot be processed leaves the tracker as it is
exactly when it is no result for a recorded task, or what it writes before the exception is there. -/
theorem bad_message_intact_iff (wire : Wire) (tracker : TaskTracker) (incoming : Incoming) :
    Intact wire tracker incoming ↔ (incoming.Malformed wire → ResultNoted wire tracker incoming) := by
  apply imp_congr_right
  intro hmalformed
  unfold dispatchMonitorTraffic
  split
  · rename_i htype
    exact iff_of_true (malformed_in htype hmalformed)
      (resultNoted_of_none (by rw [Incoming.reports?, htype]; rfl))
  · rename_i htype
    exact malformed_out htype hmalformed
  · rename_i htype
    exact iff_of_true (malformed_intask htype hmalformed)
      (resultNoted_of_none (by rw [Incoming.reports?, htype]; rfl))
  · rename_i htype
    exact malformed_outtask htype hmalformed
  · rename_i htype
    exact iff_of_true (malformed_tracktask htype hmalformed)
      (resultNoted_of_none (by rw [Incoming.reports?, htype]; rfl))
  · exact iff_of_true rfl (resultNoted_of_none (by simp [Incoming.reports?]))

/-- The parsers of the session, on whose wire the result of its task may also come without timestamps. -/
def Wire.bareResult : Wire :=
  { Wire.session with
    outMsg := fun s => if s = "\n\x01t\x10\x00" then some { msgId := "t" } else Wire.session.outMsg s }

/-- The task of the session is submitted, and its result comes without timestamps: the exception leaves
the task neither pending nor completed in its record. -/
theorem bare_result_unpends :
    ∃ s, Reachable (System.Step .bareResult) (System.initial 2000) s ∧
      ¬Intact .bareResult s.hub.ttracker { type := "out", header := "\n\x01t\x10\x00" } := by
  obtain ⟨s, hrun, hpending, hlost⟩ := System.exists_run .bareResult (.initial 2000)
    [.monitor .submission]
    (fun s => "t" ∈ s.hub.ttracker.pending ∧
      "t" ∉ (s.hub.ttracker.dispatchMonitorTraffic .bareResult
        { type := "out", header := "\n\x01t\x10\x00" }).state.pending) (by decide)
  refine ⟨s, ⟨_, hrun⟩, fun hintact => hlost ?_⟩
  rw [hintact ?_]
  · exact hpending
  · apply Or.inr
    intro htimed
    exact absurd (htimed { msgId := "t" } (by decide)).1 (by decide)

end Gpf
