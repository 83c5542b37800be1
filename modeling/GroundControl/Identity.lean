/-!
# Identities

The names by which networks, agents, requests and replies are told apart, and the flags an
agent reports about itself.

* `NetworkId`, `AgentId`, `RequestId`, `ReplyKey`;
* `ReplyKey.label`, the form a key takes in a text;
* `Capabilities`, `Capabilities.contains`.
-/

namespace GroundControl

/-- The name of a network of agents. -/
abbrev NetworkId := String

/-- The number of an agent within its network. -/
abbrev AgentId := Nat

/-- The number of a request, given out by the control centre. -/
abbrev RequestId := Nat

/-- The token that links a reply to the command it answers. -/
abbrev ReplyKey := Nat

/-- The form of a reply key in a text. -/
def ReplyKey.label (key : ReplyKey) : String := "#" ++ toString key

/-- The capability flags of an agent, one bit each. -/
structure Capabilities where
  flags : Nat
  deriving DecidableEq, Repr

namespace Capabilities

/-- No capability at all. -/
def none : Capabilities := ⟨0⟩

instance : Inhabited Capabilities := ⟨none⟩

/-- Whether every flag of `wanted` is set. -/
def contains (c wanted : Capabilities) : Bool := c.flags &&& wanted.flags == wanted.flags

end Capabilities

end GroundControl
