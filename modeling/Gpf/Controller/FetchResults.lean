import Gpf.Controller.ResultHistory

/-!
# Fetching results

`get_results` answers the first unknown id, or one entry for each id in the order of the request.
The content frames come from `result_content`, so there is one for each entry, and each is empty.
-/

namespace Gpf

open Transition

/-- The entry which `get_results` adds for an id with a record. -/
def TaskSet.entryOf (tasks : TaskSet) (id : String) : ResultEntry :=
  ⟨id, if ((tasks.find? id).bind Task.completed).isNone then .pending else .completed⟩

/-- The content which `get_results` sends for an id with a record. -/
def TaskSet.contentOf (tasks : TaskSet) (id : String) : String :=
  ((tasks.find? id).map Task.resultContent).getD ""

/-- The first of the ids which has no record. -/
def TaskSet.firstUnknown? (tasks : TaskSet) (ids : List String) : Option String :=
  ids.find? fun id => (tasks.find? id).isNone

/-- The loop of `get_results` stops at the first unknown id, or serves every id in order. -/
theorem Hub.resultEntries_eq (tasks : TaskSet) (statusOnly : Bool) (ids : List String)
    (results : List ResultEntry) (buffers : List String) :
    resultEntries tasks statusOnly ids results buffers =
      match tasks.firstUnknown? ids with
      | some id => .error id
      | none => .ok (results ++ ids.map tasks.entryOf,
          buffers ++ if statusOnly then [] else ids.map tasks.contentOf) := by
  induction ids generalizing results buffers with
  | nil => simp [resultEntries, TaskSet.firstUnknown?]
  | cons id ids ih =>
    cases hfind : tasks.find? id with
    | none => simp [resultEntries, TaskSet.firstUnknown?, hfind]
    | some task =>
      have hrest : tasks.firstUnknown? (id :: ids) = tasks.firstUnknown? ids := by
        simp [TaskSet.firstUnknown?, hfind]
      simp only [resultEntries, hfind, ih, hrest]
      cases tasks.firstUnknown? ids with
      | some unknown => rfl
      | none => cases statusOnly <;> simp [TaskSet.entryOf, TaskSet.contentOf, hfind]

/-- What a request for results is owed: one error which names the first unknown id, or one entry for
each id in the order of the request, completed if a result was recorded and pending if not, and
unless only the status is asked for, one content frame for each entry, which carries the payload
of the result last recorded. -/
def Answered (before after : Hub) (history : ResultHistory) (incoming : Incoming)
    (msg : GetResultsRequest) : Prop :=
  match before.ttracker.tasks.firstUnknown? msg.msgIds with
  | some id => after.sent = before.sent ++ [⟨.query, some incoming.envelope,
      [.text "get_results_reply", .text ("Unknown message id " ++ id)]⟩]
  | none => ∃ tag contents, after.sent = before.sent ++ [⟨.query, some incoming.envelope,
        .text tag :: .getResultsReply (msg.msgIds.map fun id =>
          ⟨id, if (history id).isSome then .completed else .pending⟩) :: contents⟩] ∧
      if msg.statusOnly then contents = []
      else contents.Forall₂ (fun frame id => ∀ result, history id = some result →
        frame = .text (String.join result.payload)) msg.msgIds

/-- No result recorded for one of the ids has a payload. -/
def NothingToCarry (tasks : TaskSet) (ids : List String) : Prop :=
  ∀ task ∈ tasks, task.id ∈ ids → ∀ result, task.outgoingMsg = some result →
    String.join result.payload = ""

/-- Without an unknown id, every id of the request has a record. -/
theorem TaskSet.exists_record {tasks : TaskSet} {ids : List String} (h : tasks.firstUnknown? ids = none)
    {id : String} (hid : id ∈ ids) : ∃ task ∈ tasks, task.id = id := by
  have hsome := List.find?_eq_none.mp h id hid
  rw [Option.isNone_iff_eq_none, ← ne_eq, Option.ne_none_iff_exists'] at hsome
  obtain ⟨task, hfind⟩ := hsome
  exact ⟨task, KeyedTable.find?_eq_some.mp hfind⟩

/-- What `get_results` sends when every id has a record, in terms of the history. -/
theorem Hub.getResults_sent {wire : Wire} {hub : Hub} {history : ResultHistory} {incoming : Incoming}
    {msg : GetResultsRequest} (hagrees : HistoryAgrees hub.ttracker history)
    (hparse : wire.getResultsRequest incoming.header = some msg)
    (hknown : hub.ttracker.tasks.firstUnknown? msg.msgIds = none) :
    (hub.getResults wire incoming).sent = hub.sent ++ [⟨.query, some incoming.envelope,
      .text "load_reply" :: .getResultsReply (msg.msgIds.map fun id =>
        ⟨id, if (history id).isSome then .completed else .pending⟩) ::
          if msg.statusOnly then [] else msg.msgIds.map fun _ => .text ""⟩] := by
  have hrecord : ∀ id ∈ msg.msgIds, ∃ task ∈ hub.ttracker.tasks, task.id = id ∧
      hub.ttracker.tasks.find? id = some task := by
    intro id hid
    obtain ⟨task, htask, heq⟩ := TaskSet.exists_record hknown hid
    exact ⟨task, htask, heq, KeyedTable.find?_eq_some.mpr ⟨htask, heq⟩⟩
  have hentries : msg.msgIds.map hub.ttracker.tasks.entryOf = msg.msgIds.map fun id =>
      ⟨id, if (history id).isSome then .completed else .pending⟩ := by
    apply List.map_congr_left
    intro id hid
    obtain ⟨task, htask, rfl, hfind⟩ := hrecord id hid
    rw [TaskSet.entryOf, hfind, Option.bind_some, ← hagrees.completed task htask]
    cases task.completed <;> rfl
  have hcontents : msg.msgIds.map hub.ttracker.tasks.contentOf = msg.msgIds.map fun _ => "" := by
    apply List.map_congr_left
    intro id hid
    obtain ⟨task, htask, rfl, hfind⟩ := hrecord id hid
    rw [TaskSet.contentOf, hfind]
    exact hagrees.content task htask
  simp only [getResults, hparse, resultEntries_eq, hknown, List.nil_append, hentries, hcontents, reply]
  cases msg.statusOnly <;> simp

/-- The history of known ids is what their records hold. -/
theorem nothingToCarry_iff {tracker : TaskTracker} {history : ResultHistory} {ids : List String}
    (hagrees : HistoryAgrees tracker history) (hknown : tracker.tasks.firstUnknown? ids = none) :
    NothingToCarry tracker.tasks ids ↔
      ∀ id ∈ ids, ∀ result, history id = some result → String.join result.payload = "" := by
  constructor
  · intro h id hid result hresult
    obtain ⟨task, htask, rfl⟩ := TaskSet.exists_record hknown hid
    exact h task htask hid result ((hagrees.outgoing task htask).trans hresult)
  · intro h task htask hid result hresult
    exact h task.id hid result ((hagrees.outgoing task htask).symm.trans hresult)

/-- Frames without content are the right ones exactly if no recorded result has a payload. -/
theorem forall₂_empty_iff {history : ResultHistory} {ids : List String} :
    (ids.map fun _ => Frame.text "").Forall₂ (fun frame id => ∀ result, history id = some result →
        frame = .text (String.join result.payload)) ids ↔
      ∀ id ∈ ids, ∀ result, history id = some result → String.join result.payload = "" := by
  rw [List.forall₂_map_left_iff, List.forall₂_same]
  refine forall_congr' fun id => forall_congr' fun _ => forall_congr' fun result =>
    forall_congr' fun _ => ?_
  rw [Frame.text.injEq, eq_comm]

/-- What `get_results` sends is what is owed exactly if an id is unknown, or only the status is asked
for, or no recorded result has a payload. -/
theorem answered_iff {wire : Wire} {hub : Hub} {history : ResultHistory} {incoming : Incoming}
    {msg : GetResultsRequest} (hagrees : HistoryAgrees hub.ttracker history)
    (hparse : wire.getResultsRequest incoming.header = some msg) :
    Answered hub (hub.getResults wire incoming) history incoming msg ↔
      (∃ id ∈ msg.msgIds, ∀ task ∈ hub.ttracker.tasks, task.id ≠ id) ∨ msg.statusOnly = true ∨
        NothingToCarry hub.ttracker.tasks msg.msgIds := by
  unfold Answered
  cases hunknown : hub.ttracker.tasks.firstUnknown? msg.msgIds with
  | some id =>
    have hnone : ∀ task ∈ hub.ttracker.tasks, task.id ≠ id := by
      have hfind := List.find?_some hunknown
      exact KeyedTable.find?_eq_none.mp (Option.isNone_iff_eq_none.mp hfind)
    refine iff_of_true ?_ (.inl ⟨id, List.mem_of_find?_eq_some hunknown, hnone⟩)
    simp only [Hub.getResults, hparse, Hub.resultEntries_eq, hunknown, Hub.reply]
  | none =>
    have hknown : ¬∃ id ∈ msg.msgIds, ∀ task ∈ hub.ttracker.tasks, task.id ≠ id := by
      intro hexists
      obtain ⟨id, hid, hnone⟩ := hexists
      obtain ⟨task, htask, heq⟩ := TaskSet.exists_record hunknown hid
      exact hnone task htask heq
    rw [or_iff_right hknown, Hub.getResults_sent hagrees hparse hunknown,
      nothingToCarry_iff hagrees hunknown]
    cases hstatus : msg.statusOnly with
    | true =>
      refine iff_of_true ⟨"load_reply", [], ?_, ?_⟩ (.inl rfl)
      · rfl
      · rfl
    | false =>
      rw [or_iff_right Bool.false_ne_true, ← forall₂_empty_iff]
      constructor
      · intro hexists
        obtain ⟨tag, contents, hsent, hcontents⟩ := hexists
        rw [List.append_cancel_left_eq] at hsent
        injection hsent with hmessage _
        injection hmessage with _ _ hframes
        injection hframes with _ hframes
        injection hframes with _ hframes
        rw [if_neg Bool.false_ne_true] at hframes hcontents
        rw [hframes]
        exact hcontents
      · intro hcontents
        exact ⟨"load_reply", _, rfl, hcontents⟩

/-- In every reachable state, a well-formed request for results gets what it is owed exactly if an id
is unknown, or only the status is asked for, or no recorded result has a payload. -/
theorem fetched_iff {wire : Wire} {interval : ℤ} {s : System × ResultHistory} {t : System}
    {incoming : Incoming} {msg : GetResultsRequest}
    (hreach : Reachable (Recorded wire) (System.initial interval, fun _ => none) s)
    (htype : incoming.type = "result_request")
    (hparse : wire.getResultsRequest incoming.header = some msg)
    (hstep : System.Step wire s.1 (.query incoming) t) :
    Answered s.1.hub t.hub s.2 incoming msg ↔
      (∃ id ∈ msg.msgIds, ∀ task ∈ s.1.hub.ttracker.tasks, task.id ≠ id) ∨ msg.statusOnly = true ∨
        NothingToCarry s.1.hub.ttracker.tasks msg.msgIds := by
  have hhub : t.hub = s.1.hub.getResults wire incoming := by
    cases hstep
    simp only [Hub.dispatchQuery, htype]
  rw [hhub]
  exact answered_iff (.reachable hreach) hparse

/-- The task of the session is answered with a payload, and a request for its result gets an empty
frame. -/
theorem session_result_empty :
    ∃ s t, Reachable (Recorded .session) (System.initial 2000, fun _ => none) s ∧
      Wire.session.getResultsRequest Incoming.fetch.header = some { msgIds := ["t"] } ∧
      System.Step .session s.1 (.query .fetch) t ∧
      ¬Answered s.1.hub t.hub s.2 .fetch { msgIds := ["t"] } := by
  obtain ⟨s, hrun, hknown, hbefore, hhistory, hstep⟩ := Recorded.exists_run .session
    (System.initial 2000, fun _ => none) [.monitor .submission, .monitor .result]
    (fun s => s.1.hub.ttracker.tasks.firstUnknown? ["t"] = none ∧ s.1.hub.sent = [] ∧
      s.2 "t" = some .result ∧ (s.1.next .session (.query .fetch)).any (fun t =>
        decide (t.hub.sent = [⟨.query, some [], [.text "load_reply",
          .getResultsReply [⟨"t", .completed⟩], .text ""]⟩])) = true) (by decide)
  obtain ⟨t, hstep, hsent⟩ := (Option.any_eq_true _ _).mp hstep
  refine ⟨s, t, ⟨_, hrun⟩, by decide, hstep, fun h => ?_⟩
  rw [Answered, hknown] at h
  obtain ⟨tag, contents, hanswer, hcontents⟩ := h
  rw [of_decide_eq_true hsent, hbefore, List.nil_append] at hanswer
  injection hanswer with hmessage _
  injection hmessage with _ _ hframes
  injection hframes with _ hframes
  injection hframes with _ hframes
  subst hframes
  rw [if_neg (by decide)] at hcontents
  cases hcontents with
  | cons hframe _ => exact absurd (hframe .result hhistory) (by decide)

/-- The law for the request of the session, after its task was answered. -/
theorem fetched_session :
    ∃ (s : System × ResultHistory) (t : System) (msg : GetResultsRequest), msg.msgIds = ["t"] ∧
      (Answered s.1.hub t.hub s.2 .fetch msg ↔
        (∃ id ∈ msg.msgIds, ∀ task ∈ s.1.hub.ttracker.tasks, task.id ≠ id) ∨ msg.statusOnly = true ∨
          NothingToCarry s.1.hub.ttracker.tasks msg.msgIds) := by
  obtain ⟨s, hrun, _⟩ := Recorded.exists_run .session (System.initial 2000, fun _ => none)
    [.monitor .submission, .monitor .result] (fun s => s.1.hub.sent = []) (by decide)
  have hparse : Wire.session.getResultsRequest Incoming.fetch.header =
      some { msgIds := ["t"] } := by decide
  exact ⟨s, _, _, rfl, fetched_iff ⟨_, hrun⟩ rfl hparse rfl⟩

end Gpf
