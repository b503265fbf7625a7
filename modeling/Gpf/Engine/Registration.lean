import Gpf.Controller.HubHeartbeat

/-!
# Engines and the hub they register at

An engine says hello to the hub over a request socket of its own, and takes itself for registered when
an acknowledgement arrives there. Requests and replies may be delivered in any order and at any time.
The hub's socket hands a reply to the peer whose envelope it carries.
-/

namespace Gpf

open Transition

/-- `engine`, with the registration which it has sent to the hub. -/
structure Engine where
  services : List String := []
  heartName : String := ""
  queueName : String := ""
  registered : Bool := false
  hello : Option Registration := none

namespace Engine

/-- `engine::provide_service`. -/
def provideService (engine : Engine) (s : String) : Engine :=
  { engine with services := engine.services ++ [s] }

/-- The message with which `engine::run` says hello to the hub. -/
def registration (engine : Engine) (name : String) : Registration :=
  { heartbeat := name ++ "-heart", queue := name ++ "-queue", services := engine.services }

/-- `engine::run` up to the loop of its reactor: it takes its names and says hello to the hub. -/
def run (engine : Engine) (name : String) : Engine :=
  { engine with
    heartName := name ++ "-heart"
    queueName := name ++ "-queue"
    hello := some (engine.registration name) }

/-- `engine::dispatch_registration`; no result stands for the fatal log line, which ends the process. -/
def dispatchRegistration (engine : Engine) (frames : List Frame) : Option Engine :=
  if frames.head? = some (.text "registration_request") then
    if frames.tail.head? = some (.text "ACK") then some { engine with registered := true } else none
  else some engine

end Engine

/-- The serialization of registrations, which parsing undoes, and the routing envelopes of the engines, no
two of which are the same. -/
structure Transport (ι : Type*) where
  wire : Wire
  marshal : Registration → String
  envelope : ι → List String
  registration_marshal : ∀ msg, wire.registration (marshal msg) = some msg
  envelope_injective : Function.Injective envelope

namespace Transport

variable {ι : Type*} (T : Transport ι)

/-- The registration request of an engine, as the hub receives it. -/
def helloRequest (i : ι) (msg : Registration) : Incoming :=
  { envelope := T.envelope i, type := "registration_request", header := T.marshal msg }

/-- The unregistration request which `engine::shutdown` sends. -/
def logoffRequest (i : ι) (engine : Engine) : Incoming :=
  { envelope := T.envelope i, type := "unregistration_request", header := engine.queueName }

end Transport

/-- The hub with its heartmonitor, the engines, and the messages on their way between them. -/
structure Network (ι : Type*) where
  controller : Controller
  engines : ι → Engine := fun _ => {}
  requests : List Incoming := []
  replies : List Sent := []

/-- What can happen next. -/
inductive NetworkEvent (ι : Type*)
  | provideService (i : ι) (s : String)
  | run (i : ι) (name : String)
  | shutdown (i : ι)
  | request (incoming : Incoming)
  | hub (e : ControllerEvent)
  | reply (i : ι) (m : Sent)

namespace Network

variable {ι : Type*} [DecidableEq ι]

/-- Exchange one engine. -/
def setEngine (net : Network ι) (i : ι) (engine : Engine) : Network ι :=
  { net with engines := Function.update net.engines i engine }

omit [DecidableEq ι] in
/-- A handler of the hub has run; what it sent is on its way. -/
def served (net : Network ι) (c : Controller) : Network ι :=
  { net with
    controller := c
    replies := net.replies ++ c.hub.sent.drop net.controller.hub.sent.length }

/-- One event. Each engine runs once. The hub receives a request of an engine when it is delivered, and
anything else at any time, the queries of other peers included. -/
inductive Step (T : Transport ι) (toIso : Time → String) :
    Network ι → NetworkEvent ι → Network ι → Prop
  | provideService (net : Network ι) (i : ι) (s : String) :
      Step T toIso net (.provideService i s) (net.setEngine i ((net.engines i).provideService s))
  | run (net : Network ι) (i : ι) (name : String) (hfirst : (net.engines i).hello = none) :
      Step T toIso net (.run i name)
        { net.setEngine i ((net.engines i).run name) with
          requests := net.requests ++ [T.helloRequest i ((net.engines i).registration name)] }
  | shutdown (net : Network ι) (i : ι) (hrunning : (net.engines i).hello ≠ none) :
      Step T toIso net (.shutdown i)
        { net with requests := net.requests ++ [T.logoffRequest i (net.engines i)] }
  | request (net : Network ι) (incoming : Incoming) (c : Controller)
      (hmem : incoming ∈ net.requests)
      (hstep : Controller.Step T.wire toIso net.controller (.query incoming) c) :
      Step T toIso net (.request incoming)
        ({ net with requests := net.requests.erase incoming }.served c)
  | hub (net : Network ι) (e : ControllerEvent) (c : Controller)
      (hother : ∀ incoming, e = .query incoming → ∀ i, incoming.envelope ≠ T.envelope i)
      (hstep : Controller.Step T.wire toIso net.controller e c) :
      Step T toIso net (.hub e) (net.served c)
  | reply (net : Network ι) (i : ι) (m : Sent) (engine : Engine) (hmem : m ∈ net.replies)
      (hsocket : m.socket = .query) (henvelope : m.envelope = some (T.envelope i))
      (hengine : (net.engines i).dispatchRegistration m.frames = some engine) :
      Step T toIso net (.reply i m)
        { net.setEngine i engine with replies := net.replies.erase m }

end Network

end Gpf
