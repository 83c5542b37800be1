import GroundControl.Identity

/-!
# Inbound messages

What an agent says to the ground, already decoded: who speaks, what kind of message it is, and
the reply it may carry.

* `MessageKind` and its labels;
* `Verdict`, `Reply`, `Message`;
* `Message.heartbeat`, `Message.lowPower`, `Message.accepted`, `Message.rejected`.
-/

namespace GroundControl

/-- A string of bytes. -/
abbrev Bytes := List UInt8

/-- The kinds of inbound messages. -/
inductive MessageKind
  /-- the regular sign of life -/
  | heartbeat
  /-- a sign of life from an agent that is powered down -/
  | lowPowerHeartbeat
  /-- the answer to a command -/
  | reply
  /-- anything else an agent reports unasked -/
  | telemetry
  deriving DecidableEq, Repr

namespace MessageKind

/-- Every kind of message. -/
def all : List MessageKind := [.heartbeat, .lowPowerHeartbeat, .reply, .telemetry]

/-- The name of a kind in reports and measurements. -/
def label : MessageKind → String
  | .heartbeat => "heartbeat"
  | .lowPowerHeartbeat => "low_power_heartbeat"
  | .reply => "reply"
  | .telemetry => "telemetry"

end MessageKind

/-- How an agent answers a command. -/
inductive Verdict
  | accepted
  | rejected (reason : String)
  deriving DecidableEq, Repr

/-- The answer to the command with a given key. -/
structure Reply where
  key : ReplyKey
  verdict : Verdict
  deriving DecidableEq, Repr

/-- One inbound message. -/
structure Message where
  network : NetworkId
  agent : AgentId
  kind : MessageKind
  payload : Bytes
  reply : Option Reply
  /-- the flags of the agent, if this message reports them -/
  capabilities : Option Capabilities
  deriving DecidableEq, Repr

namespace Message

/-- A message with neither payload nor reply. -/
def bare (network : NetworkId) (agent : AgentId) (kind : MessageKind) : Message :=
  ⟨network, agent, kind, [], none, none⟩

/-- A sign of life. -/
def heartbeat (network : NetworkId) (agent : AgentId) : Message :=
  bare network agent .heartbeat

/-- A sign of life from an agent that is powered down. -/
def lowPower (network : NetworkId) (agent : AgentId) : Message :=
  bare network agent .lowPowerHeartbeat

/-- A reply that accepts the command with the given key. -/
def accepted (network : NetworkId) (agent : AgentId) (key : ReplyKey) : Message :=
  { bare network agent .reply with reply := some ⟨key, .accepted⟩ }

/-- A reply that rejects the command with the given key. -/
def rejected (network : NetworkId) (agent : AgentId) (key : ReplyKey) (reason : String) :
    Message :=
  { bare network agent .reply with reply := some ⟨key, .rejected reason⟩ }

/-- The message with a payload. -/
def withPayload (m : Message) (payload : Bytes) : Message := { m with payload }

/-- The message with the flags of its sender. -/
def withCapabilities (m : Message) (flags : Capabilities) : Message :=
  { m with capabilities := some flags }

end Message

end GroundControl
