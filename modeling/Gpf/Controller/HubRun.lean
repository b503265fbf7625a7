import Gpf.Library.Transition
import Gpf.Controller.HubQueries

/-!
# Runs of the hub with its heartmonitor

One event is one handler, run to its end. The heartmonitor appears as the set `m_hearts`, which
decides when a heart can appear or fail, and by the timer of its beat; timers fire in any order. An
exception or `exit` leaves `hub::run`, so no event follows a handler that does not return.
-/

namespace Gpf

open Transition

/-- The hub and the hearts which its heartmonitor holds for alive. -/
structure System where
  hub : Hub
  hearts : Finset String := ∅

/-- What the reactor can hand to the hub. -/
inductive Event
  | tick (now : Time)
  | query (incoming : Incoming)
  | monitor (incoming : Incoming)
  | heartAppears (heart : String)
  | heartFails (heart : String)
  | beatScheduled (waiting : Time)
  | timeout (ptr : ℕ)

namespace System

/-- A new hub whose heartmonitor has no hearts yet. -/
def initial (interval : ℤ) : System := { hub := Hub.create interval }

/-- The state after an event, if it can occur and its handler returns. A heart appears only while
it is not in `m_hearts`, and fails only while it is; the callbacks of the hub run before the
heartmonitor updates its set. -/
def next (wire : Wire) (s : System) : Event → Option System
  | .tick now => some { s with hub := { s.hub with clock := now } }
  | .query incoming =>
    some { s with hub := s.hub.dispatchQuery wire (fun h => decide (h ∈ s.hearts)) incoming }
  | .monitor incoming =>
    (s.hub.ttracker.dispatchMonitorTraffic wire incoming).returned?.map fun ttracker =>
      { s with hub := { s.hub with ttracker := ttracker } }
  | .heartAppears heart =>
    if heart ∈ s.hearts then none
    else some { hub := s.hub.handleNewHeart heart, hearts := insert heart s.hearts }
  | .heartFails heart =>
    if heart ∈ s.hearts then
      some { hub := s.hub.handleHeartFailure heart, hearts := s.hearts.erase heart }
    else none
  | .beatScheduled waiting => some { s with hub := s.hub.scheduleBeat waiting }
  | .timeout ptr => (s.hub.timeout ptr).map fun hub => { s with hub := hub }

/-- One event of a run. -/
def Step (wire : Wire) (s : System) (e : Event) (t : System) : Prop := s.next wire e = some t

/-- The state after a list of events, computed. -/
def run (wire : Wire) (s : System) (es : List Event) : Option System := es.foldlM (next wire) s

/-- What is computed of the last state holds at the end of a run. -/
theorem exists_run (wire : Wire) (s : System) (es : List Event) (P : System → Prop)
    [DecidablePred P] (h : (s.run wire es).any (fun t => decide (P t)) = true) :
    ∃ t, Run (Step wire) s es t ∧ P t :=
  Transition.exists_run (fun _ _ _ hnext => hnext) s es P h

end System

end Gpf
