import GroundControl.Request
import GroundControl.Presence

/-!
# Events

What subscribers are told about the agents of a network and about their requests.

* `Event`;
* `Feed`, the events a subscriber has not read yet, of which only the latest ones are kept.
-/

namespace GroundControl

/-- Something subscribers are told. -/
inductive Event
  /-- the first message of an agent came in -/
  | registered (network : NetworkId) (agent : AgentId)
  /-- an agent was removed -/
  | evicted (network : NetworkId) (agent : AgentId)
  /-- the presence of an agent changed -/
  | presence (network : NetworkId) (agent : AgentId) (source target : Presence)
  /-- a request reached a terminal phase -/
  | finished (network : NetworkId) (agent : AgentId) (request : RequestId) (phase : Phase)
      (outcome : Outcome)
  deriving DecidableEq, Repr

namespace Event

/-- The network an event is about. -/
def network : Event → NetworkId
  | .registered n _ | .evicted n _ | .presence n _ _ _ | .finished n _ _ _ _ => n

/-- The agent an event is about. -/
def agent : Event → AgentId
  | .registered _ a | .evicted _ a | .presence _ a _ _ | .finished _ a _ _ _ => a

end Event

namespace Feed

/-- The number of events a feed of a given capacity keeps: the next power of two. -/
def room (capacity : Nat) : Nat := capacity.nextPowerOfTwo

/-- How many of the unread events are lost, and those that are left. -/
def window {α : Type} (capacity : Nat) (unread : List α) : Nat × List α :=
  let lost := unread.length - room capacity
  (lost, unread.drop lost)

end Feed

end GroundControl
