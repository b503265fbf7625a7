import Gpf.Controller.PurgeRequests
import Gpf.Controller.FetchResults

/-!
# Which reply a query gets

Each handler that answers a query sends one message on the query socket. Which tag the message
starts with depends on the writer: the handlers of purges and results use the tag of loads when
they succeed, and the reply to a shutdown request carries no envelope.
-/

namespace Gpf

open Transition

/-- The queries which the hub answers, with their parsed bodies. -/
inductive Query
  | load (msg : LoadRequest)
  | queue (msg : QueueStatusRequest)
  | purge (msg : PurgeResultsRequest)
  | result (msg : GetResultsRequest)
  | shutdown

/-- The query that a message makes, if it is one of these and its body parses. -/
def Incoming.query? (wire : Wire) (incoming : Incoming) : Option Query :=
  match incoming.type with
  | "load_request" => (wire.loadRequest incoming.header).map .load
  | "queue_request" => (wire.queueStatusRequest incoming.header).map .queue
  | "purge_request" => (wire.purgeResultsRequest incoming.header).map .purge
  | "result_request" => (wire.getResultsRequest incoming.header).map .result
  | "shutdown_request" => some .shutdown
  | _ => none

/-- The tag which the reply to a query is to start with. -/
def Query.replyTag : Query → String
  | .load _ => "load_reply"
  | .queue _ => "queue_status_reply"
  | .purge _ => "purge_results_reply"
  | .result _ => "get_results_reply"
  | .shutdown => "shutdown_reply"

/-- One message has been sent on the query socket: to the requester, and under the given tag. -/
def Hub.RepliesOnce (before after : Hub) (incoming : Incoming) (tag : String) : Prop :=
  ∃ messages reply, after.sent = before.sent ++ messages ∧
    messages.filter (fun m => decide (m.socket = .query)) = [reply] ∧
    reply.envelope = some incoming.envelope ∧ reply.frames.head? = some (.text tag)

/-- The queries which are answered under their own tag: of loads and queues, of a purge which is refused,
and of results one of which is unknown. -/
def Query.AnsweredAsSuch (ttracker : TaskTracker) : Query → Prop
  | .load _ | .queue _ => True
  | .purge msg => msg.all = false ∧ ∃ id ∈ msg.msgIds, id ∈ ttracker.pending
  | .result msg => ∃ id ∈ msg.msgIds, ∀ task ∈ ttracker.tasks, task.id ≠ id
  | .shutdown => False

namespace Hub

/-- A handler which sends one reply has replied once exactly if the reply has the right tag. -/
theorem repliesOnce_reply {hub hub' : Hub} {incoming : Incoming} {tag tag' : String}
    {frames : List Frame} (hsent : hub'.sent = hub.sent) :
    hub.RepliesOnce (hub'.reply incoming (.text tag' :: frames)) incoming tag ↔ tag' = tag := by
  constructor
  · intro h
    obtain ⟨messages, reply, hmessages, hfilter, _, htag⟩ := h
    rw [Hub.reply, hsent, List.append_cancel_left_eq] at hmessages
    subst hmessages
    cases hfilter
    simpa using htag
  · intro htag
    subst htag
    exact ⟨[_], _, by rw [Hub.reply, hsent], rfl, rfl, rfl⟩

variable {wire : Wire} {hub : Hub} {incoming : Incoming}

/-- `check_load` replies once and under its tag. -/
theorem repliesOnce_checkLoad {msg : LoadRequest} (hparse : wire.loadRequest incoming.header = some msg) :
    hub.RepliesOnce (hub.checkLoad wire incoming) incoming "load_reply" := by
  simp only [checkLoad, hparse]
  split <;> exact (repliesOnce_reply rfl).mpr rfl

/-- `queue_status` replies once and under its tag. -/
theorem repliesOnce_queueStatus {msg : QueueStatusRequest}
    (hparse : wire.queueStatusRequest incoming.header = some msg) :
    hub.RepliesOnce (hub.queueStatus wire incoming) incoming "queue_status_reply" := by
  simp only [queueStatus, hparse]
  split <;> exact (repliesOnce_reply rfl).mpr rfl

/-- `purge_results` replies under its tag exactly if it refuses a pending id. -/
theorem repliesOnce_purgeResults {msg : PurgeResultsRequest}
    (hparse : wire.purgeResultsRequest incoming.header = some msg) :
    hub.RepliesOnce (hub.purgeResults wire incoming) incoming "purge_results_reply" ↔
      msg.all = false ∧ ∃ id ∈ msg.msgIds, id ∈ hub.ttracker.pending := by
  cases hall : msg.all with
  | true =>
    simp only [purgeResults, hparse, hall, if_true]
    apply iff_of_false
    · intro h
      exact absurd ((repliesOnce_reply rfl).mp h) (by simp)
    · simp
  | false =>
    rw [purgeResults_eq hparse hall, and_iff_right rfl]
    cases hfirst : hub.ttracker.firstPending? msg.msgIds with
    | some id =>
      have htest := List.find?_some hfirst
      have hid : id ∈ hub.ttracker.pending := of_decide_eq_true htest
      exact iff_of_true ((repliesOnce_reply rfl).mpr rfl)
        ⟨id, List.mem_of_find?_eq_some hfirst, hid⟩
    | none =>
      have hnone := TaskTracker.firstPending?_eq_none.mp hfirst
      apply iff_of_false
      · intro h
        exact absurd ((repliesOnce_reply rfl).mp h) (by simp)
      · intro hexists
        obtain ⟨id, hid, hpending⟩ := hexists
        exact hnone id hid hpending

/-- `get_results` replies under its tag exactly if an id is unknown. -/
theorem repliesOnce_getResults {msg : GetResultsRequest}
    (hparse : wire.getResultsRequest incoming.header = some msg) :
    hub.RepliesOnce (hub.getResults wire incoming) incoming "get_results_reply" ↔
      ∃ id ∈ msg.msgIds, ∀ task ∈ hub.ttracker.tasks, task.id ≠ id := by
  simp only [getResults, hparse, resultEntries_eq]
  cases hunknown : hub.ttracker.tasks.firstUnknown? msg.msgIds with
  | some id =>
    have htest := List.find?_some hunknown
    have hfind := KeyedTable.find?_eq_none.mp (Option.isNone_iff_eq_none.mp htest)
    exact iff_of_true ((repliesOnce_reply rfl).mpr rfl)
      ⟨id, List.mem_of_find?_eq_some hunknown, hfind⟩
  | none =>
    apply iff_of_false
    · intro h
      exact absurd ((repliesOnce_reply rfl).mp h) (by simp)
    · intro hexists
      obtain ⟨id, hid, hnone⟩ := hexists
      obtain ⟨task, htask, heq⟩ := TaskSet.exists_record hunknown hid
      exact hnone task htask heq

/-- The reply to a shutdown request is addressed to nobody. -/
theorem not_repliesOnce_shutdownRequest {tag : String} :
    ¬hub.RepliesOnce hub.shutdownRequest incoming tag := by
  intro h
  obtain ⟨messages, reply, hsent, hfilter, henvelope, _⟩ := h
  rw [shutdownRequest, List.append_cancel_left_eq] at hsent
  subst hsent
  cases hfilter
  cases henvelope

end Hub

/-- In every state, a query whose body parses gets exactly one reply, addressed to the requester and under
the tag of its kind, exactly when it asks for loads or queues, or is a purge refused for a pending id, or
asks for the result of an unknown id. -/
theorem query_replied_iff {wire : Wire} {s t : System} {incoming : Incoming} {query : Query}
    (hquery : incoming.query? wire = some query) (hstep : System.Step wire s (.query incoming) t) :
    s.hub.RepliesOnce t.hub incoming query.replyTag ↔ query.AnsweredAsSuch s.hub.ttracker := by
  have hhub : t.hub = s.hub.dispatchQuery wire (fun h => decide (h ∈ s.hearts)) incoming := by
    cases hstep
    rfl
  rw [hhub]
  unfold Incoming.query? at hquery
  split at hquery
  · rename_i htype
    obtain ⟨msg, hparse, rfl⟩ := Option.map_eq_some_iff.mp hquery
    simp only [Hub.dispatchQuery, htype]
    exact iff_of_true (Hub.repliesOnce_checkLoad hparse) trivial
  · rename_i htype
    obtain ⟨msg, hparse, rfl⟩ := Option.map_eq_some_iff.mp hquery
    simp only [Hub.dispatchQuery, htype]
    exact iff_of_true (Hub.repliesOnce_queueStatus hparse) trivial
  · rename_i htype
    obtain ⟨msg, hparse, rfl⟩ := Option.map_eq_some_iff.mp hquery
    simp only [Hub.dispatchQuery, htype]
    exact Hub.repliesOnce_purgeResults hparse
  · rename_i htype
    obtain ⟨msg, hparse, rfl⟩ := Option.map_eq_some_iff.mp hquery
    simp only [Hub.dispatchQuery, htype]
    exact Hub.repliesOnce_getResults hparse
  · rename_i htype
    cases hquery
    simp only [Hub.dispatchQuery, htype]
    exact iff_of_false Hub.not_repliesOnce_shutdownRequest id
  · cases hquery

/-- A purge of everything is answered under the tag of loads. -/
theorem purge_replied_as_load :
    ∃ s t, Reachable (System.Step .session) (System.initial 2000) s ∧
      Incoming.purgeAll.query? .session = some (.purge { all := true }) ∧
      System.Step .session s (.query .purgeAll) t ∧
      ¬s.hub.RepliesOnce t.hub .purgeAll (Query.purge { all := true }).replyTag := by
  refine ⟨_, _, ⟨[], .nil _⟩, rfl, rfl, fun h => ?_⟩
  obtain ⟨messages, reply, hsent, hfilter, _, htag⟩ := h
  have hmessages : messages = [⟨.query, some [], [.text "load_reply", .purgeResultsReply]⟩] :=
    hsent.symm
  subst hmessages
  cases hfilter
  exact absurd htag (by decide)

/-- The law for the purge of everything in the first state. -/
theorem query_replied_session :
    ∃ (s t : System) (query : Query), Incoming.purgeAll.query? .session = some query ∧
      (s.hub.RepliesOnce t.hub .purgeAll query.replyTag ↔ query.AnsweredAsSuch s.hub.ttracker) := by
  have hquery : Incoming.purgeAll.query? .session = some (.purge { all := true }) := rfl
  exact ⟨System.initial 2000, _, _, hquery, query_replied_iff hquery rfl⟩

end Gpf
