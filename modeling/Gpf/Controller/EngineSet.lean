import Gpf.Library.KeyedTable
import Gpf.Controller.Messages

/-!
# Engine connectors and the engine tracker

Both containers of the tracker are unique by engine id only. The indexes by queue name and by
heart name admit repetitions, and a search in them answers the first match.
-/

namespace Gpf

/-- `engine_connector`. The pointers become the message to answer and the identity of the timer. -/
structure EngineConnector where
  id : ℤ
  queue : String
  registration : String := ""
  heartbeat : String
  services : List String := []
  queues : List String := []
  tasks : List String := []
  incomingMsg : Incoming
  deletionCallback : Option ℕ := none
deriving DecidableEq

/-- `engine_connector_set`, unique by engine id. -/
abbrev EngineConnectorSet := KeyedTable EngineConnector EngineConnector.id

namespace EngineConnectorSet

/-- A search in the index tagged `queue_name_t`. -/
def findQueue (set : EngineConnectorSet) (queue : String) : Option EngineConnector :=
  set.first? fun ec => decide (ec.queue = queue)

/-- A search in the index tagged `heart_name_t`. -/
def findHeart (set : EngineConnectorSet) (heart : String) : Option EngineConnector :=
  set.first? fun ec => decide (ec.heartbeat = heart)

/-- The heart index finds a connector of that name. -/
theorem findHeart_some {set : EngineConnectorSet} {heart : String} {ec : EngineConnector}
    (h : set.findHeart heart = some ec) : ec ∈ set ∧ ec.heartbeat = heart := by
  obtain ⟨hmem, htest⟩ := KeyedTable.first?_some h
  exact ⟨hmem, of_decide_eq_true htest⟩

/-- The queue index finds a connector of that name. -/
theorem findQueue_some {set : EngineConnectorSet} {queue : String} {ec : EngineConnector}
    (h : set.findQueue queue = some ec) : ec ∈ set ∧ ec.queue = queue := by
  obtain ⟨hmem, htest⟩ := KeyedTable.first?_some h
  exact ⟨hmem, of_decide_eq_true htest⟩

/-- The queue index finds nothing exactly when no connector has the name. -/
theorem findQueue_eq_none {set : EngineConnectorSet} {queue : String} :
    set.findQueue queue = none ↔ ∀ ec ∈ set, ec.queue ≠ queue := by
  simp only [findQueue, KeyedTable.first?_eq_none, decide_eq_false_iff_not, ne_eq]

/-- The heart index finds nothing exactly when no connector has the name. -/
theorem findHeart_eq_none {set : EngineConnectorSet} {heart : String} :
    set.findHeart heart = none ↔ ∀ ec ∈ set, ec.heartbeat ≠ heart := by
  simp only [findHeart, KeyedTable.first?_eq_none, decide_eq_false_iff_not, ne_eq]

end EngineConnectorSet

/-- `engine_tracker`, with the counter behind `next_id`. -/
structure EngineTracker where
  engines : EngineConnectorSet := .empty
  incomingRegistrations : EngineConnectorSet := .empty
  deadEngines : Finset String := ∅
  nextId : ℤ := 0

end Gpf
