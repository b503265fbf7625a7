import Gpf.Reactor.Timer

/-!
# The messages of the hub

The messages of `hub.proto` as parsed records, the multi-part messages which the hub receives,
and those which it sends. Optional fields keep their presence, except for `reg` of a registration,
which is only ever read through its accessor: that of an absent string answers the empty one.

Parsing itself belongs to protobuf and to Boost. The functions the handlers call are collected
in `Wire`, and everything that follows holds for every choice of them.
-/

namespace Gpf

/-- `gpf_hub::registration`. -/
structure Registration where
  heartbeat : String
  queue : String
  reg : String := ""
  services : List String := []
  eid : Option ℤ := none
deriving DecidableEq

/-- `gpf_hub::load_request`. -/
structure LoadRequest where
  eid : List ℤ
deriving DecidableEq

/-- `gpf_hub::load_reply`. -/
structure LoadReply where
  eid : List ℤ := []
  queuelen : List ℤ := []
  taskslen : List ℤ := []
deriving DecidableEq

/-- `gpf_hub::queue_status_request`. -/
structure QueueStatusRequest where
  verbose : Bool := false
  eids : List ℤ := []
deriving DecidableEq

/-- `gpf_hub::queue_status_reply::status`; a required number which was never set is `none`. -/
structure QueueStatus where
  eid : Option ℤ := none
  queuelen : Option ℤ := none
  taskslen : Option ℤ := none
  queues : List String := []
  completed : List String := []
  tasks : List String := []
deriving DecidableEq

/-- `gpf_hub::purge_results_request`. -/
structure PurgeResultsRequest where
  all : Bool := false
  msgIds : List String := []
  eids : List ℤ := []
deriving DecidableEq

/-- `gpf_hub::get_results_request`. -/
structure GetResultsRequest where
  msgIds : List String := []
  statusOnly : Bool := false
deriving DecidableEq

/-- `gpf_hub::get_results_reply::Status`. -/
inductive ResultStatus
  | pending
  | completed
  | unassigned
deriving DecidableEq

/-- `gpf_hub::get_results_reply::result`, without the content which the hub never sets. -/
structure ResultEntry where
  msgId : String
  status : ResultStatus
deriving DecidableEq

/-- `gpf_hub::in`, the submission of a task to the queue of one engine. -/
structure In where
  msgId : String
  eid : ℤ
  submitted : Option String := none
deriving DecidableEq

/-- `gpf_hub::out`, the result of such a task. -/
structure Out where
  msgId : String
  completed : Option String := none
  started : Option String := none
deriving DecidableEq

/-- `gpf_hub::intask`, the submission of a task to the task queue. -/
structure Intask where
  msgId : String
  eid : Option ℤ := none
  submitted : Option String := none
deriving DecidableEq

/-- `gpf_hub::outtask`, the result of such a task. -/
structure Outtask where
  msgId : String
  eid : ℤ
  completed : Option String := none
  started : Option String := none
deriving DecidableEq

/-- `has_eid` of a parsed `outtask`: the field is required, so parsing fails without it. -/
def Outtask.hasEid (_ : Outtask) : Bool := true

/-- `gpf_hub::tracktask`, the arrival of a task on an engine. -/
structure Tracktask where
  msgId : String
  eid : ℤ
deriving DecidableEq

/-- A received multi-part message: the routing envelope, the two parts which every handler reads,
and the further parts, which are the payload. -/
structure Incoming where
  envelope : List String := []
  type : String
  header : String := ""
  payload : List String := []
deriving DecidableEq

/-- One part of an outgoing message. -/
inductive Frame
  | text (s : String)
  | number (n : ℤ)
  | registration (m : Registration)
  | loadReply (m : LoadReply)
  | queueStatusReply (engine : List QueueStatus)
  | purgeResultsReply
  | getResultsReply (results : List ResultEntry)
deriving DecidableEq

/-- The two sockets on which the hub sends. -/
inductive Socket
  | query
  | notifier
deriving DecidableEq

/-- A message handed to a socket, behind the envelope of the message it answers, if any. -/
structure Sent where
  socket : Socket
  envelope : Option (List String) := none
  frames : List Frame
deriving DecidableEq

/-- The parsers which the handlers call: `m_header_marshal.deserialize` for each message type, which
answers `none` where it reports a failure, and `from_iso_string`, which answers `none` where it
throws. -/
structure Wire where
  registration : String → Option Registration
  loadRequest : String → Option LoadRequest
  queueStatusRequest : String → Option QueueStatusRequest
  purgeResultsRequest : String → Option PurgeResultsRequest
  getResultsRequest : String → Option GetResultsRequest
  inMsg : String → Option In
  outMsg : String → Option Out
  intask : String → Option Intask
  outtask : String → Option Outtask
  tracktask : String → Option Tracktask
  fromIsoString : String → Option Time

/-- The parsers on the wire format of one short session: the engine with queue `q` and heart `h`
registers, and a task `t` is submitted to it and answered. Every other string is malformed. -/
def Wire.session : Wire where
  registration s := if s = "\n\x01h\x12\x01q" then some { heartbeat := "h", queue := "q" } else none
  loadRequest _ := none
  queueStatusRequest _ := none
  purgeResultsRequest s := if s = "\x08\x01" then some { all := true } else none
  getResultsRequest s := if s = "\n\x01t" then some { msgIds := ["t"] } else none
  inMsg s :=
    if s = "\n\x01t\x10\x00\x1a\x0f20140101T000000" then
      some { msgId := "t", eid := 0, submitted := some "20140101T000000" }
    else none
  outMsg s :=
    if s = "\n\x01t\x10\x00\x1a\x0f20140101T000000\x22\x0f20140101T000000" then
      some { msgId := "t", completed := some "20140101T000000", started := some "20140101T000000" }
    else none
  intask _ := none
  outtask _ := none
  tracktask _ := none
  fromIsoString s := if s = "20140101T000000" then some 1388534400000000 else none

namespace Incoming

/-- The registration request of the session. -/
def register : Incoming := { type := "registration_request", header := "\n\x01h\x12\x01q" }

/-- Its unregistration request, which names the queue. -/
def unregister : Incoming := { type := "unregistration_request", header := "q" }

/-- The submission of its task. -/
def submission : Incoming := { type := "in", header := "\n\x01t\x10\x00\x1a\x0f20140101T000000" }

/-- The result of its task, with a payload of one part. -/
def result : Incoming :=
  { type := "out"
    header := "\n\x01t\x10\x00\x1a\x0f20140101T000000\x22\x0f20140101T000000"
    payload := ["42"] }

/-- Its request to purge everything. -/
def purgeAll : Incoming := { type := "purge_request", header := "\x08\x01" }

/-- Its request for the result of the task. -/
def fetch : Incoming := { type := "result_request", header := "\n\x01t" }

end Incoming

end Gpf
