import GroundControl.Message

/-!
# Outbound traffic

What the ground says to its agents: commands for one agent, broadcasts for all of them, and the
frames in which either is handed to a link.

* `TrafficClass`, the classes of exchanges that are timed apart from each other;
* `Payload`, an encoded command; `Payload.expecting`, `Payload.oneWay`;
* `BroadcastKind`, `Bulletin`, an encoded broadcast;
* `Destination`, `Frame`.
-/

namespace GroundControl

/-- The classes of exchanges; each has a round-trip time of its own. -/
inductive TrafficClass
  /-- a short command with a short answer -/
  | command
  /-- the reading or writing of a parameter -/
  | parameter
  /-- a piece of a longer upload -/
  | fileTransfer
  deriving DecidableEq, Repr

namespace TrafficClass

/-- Every class. -/
def all : List TrafficClass := [.command, .parameter, .fileTransfer]

/-- The name of a class in reports and measurements. -/
def label : TrafficClass → String
  | .command => "command"
  | .parameter => "parameter"
  | .fileTransfer => "file_transfer"

/-- Whether the traffic of a class is subject to the broadcast throttle. -/
def isBulk : TrafficClass → Bool
  | .fileTransfer => true
  | _ => false

instance : Inhabited TrafficClass := ⟨.command⟩

end TrafficClass

/-- An encoded command for one agent. -/
structure Payload where
  trafficClass : TrafficClass
  body : Bytes
  /-- the key of the reply that completes the command, if it waits for one -/
  key : Option ReplyKey
  deriving DecidableEq, Repr

namespace Payload

/-- A command that is complete once the reply with `key` has come. -/
def expecting (body : Bytes) (key : ReplyKey) : Payload := ⟨.command, body, some key⟩

/-- A command that is complete once the link has taken it. -/
def oneWay (body : Bytes) : Payload := ⟨.command, body, none⟩

/-- The command in another class. -/
def withClass (p : Payload) (c : TrafficClass) : Payload := { p with trafficClass := c }

/-- Whether the command waits for a reply. -/
def expectsReply (p : Payload) : Bool := p.key.isSome

end Payload

/-- The kinds of broadcasts, counted apart. -/
inductive BroadcastKind
  | heartbeat
  | correction
  | command
  | signing
  | other
  deriving DecidableEq, Repr

namespace BroadcastKind

/-- Every kind of broadcast. -/
def all : List BroadcastKind := [.heartbeat, .correction, .command, .signing, .other]

/-- The name of a kind in reports and measurements. -/
def label : BroadcastKind → String
  | .heartbeat => "heartbeat"
  | .correction => "correction"
  | .command => "command"
  | .signing => "signing"
  | .other => "other"

end BroadcastKind

/-- An encoded broadcast. -/
structure Bulletin where
  kind : BroadcastKind
  body : Bytes
  deriving DecidableEq, Repr

/-- A piece of the correction stream. -/
def Bulletin.correction (body : Bytes) : Bulletin := ⟨.correction, body⟩

/-- Whom a frame is for. -/
inductive Destination
  | agent (id : AgentId)
  | everyone
  deriving DecidableEq, Repr

/-- The unit of traffic handed to a link. -/
structure Frame where
  network : NetworkId
  destination : Destination
  body : Bytes
  /-- the key of the command in a frame for one agent -/
  key : Option ReplyKey
  /-- the epoch under which the frame is to be signed -/
  epoch : Nat
  deriving DecidableEq, Repr

end GroundControl
