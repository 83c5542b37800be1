import GroundControl.Vehicle
import GroundControl.Time

/-!
# Radio links

A simulated link to a group of vehicles: frames are executed by the vehicles they are for, replies
come back after a delay, and every vehicle sends a heartbeat at a fixed interval.

* `LinkSettings`, with its defaults;
* `RadioLink`, `RadioLink.receive`, `RadioLink.heartbeats`.

A link loses all its traffic or none of it: shares of lost traffic between the two are not
simulated.
-/

namespace GroundControl

/-- The tuning of a link. -/
structure LinkSettings where
  /-- the vehicles in reach -/
  agents : List AgentId := [1]
  /-- the flags every vehicle reports -/
  capabilities : Capabilities := .none
  heartbeatInterval : Span := .ofMillis 1000
  /-- the delay of replies -/
  latency : Span := .ofMillis 20
  /-- the share of frames and replies that is lost -/
  packetLoss : Float := 0

/-- A link and the vehicles it reaches. -/
structure RadioLink where
  network : NetworkId
  settings : LinkSettings
  vehicles : Table AgentId Vehicle

namespace RadioLink

/-- A link whose vehicles have received no command. -/
def new (network : NetworkId) (settings : LinkSettings) : RadioLink where
  network; settings
  vehicles := .ofList (settings.agents.map fun a => (a, .new a))

/-- Whether the traffic of the link is lost. -/
def isDead (l : RadioLink) : Bool := decide (0 < l.settings.packetLoss)

/-- The message that reports a vehicle's response to the command with the given key. -/
def reply (l : RadioLink) (agent : AgentId) (key : ReplyKey) : Response → Message
  | .completed message =>
      (Message.accepted l.network agent key).withPayload message.toUTF8.toList
  | .rejected message => Message.rejected l.network agent key message

/-- Deliver a frame; the answer is the reply that is on its way back. -/
def receive (l : RadioLink) (f : Frame) : Option Message × RadioLink :=
  if l.isDead then (none, l)
  else
    match f.destination with
    | .everyone => (none, l)
    | .agent agent =>
        match l.vehicles.get? agent with
        | none => (none, l)
        | some vehicle =>
            let (response, vehicle) := vehicle.execute f.body
            (f.key.map fun key => l.reply agent key response,
              { l with vehicles := l.vehicles.insert agent vehicle })

/-- The heartbeat of a vehicle. -/
def heartbeat (l : RadioLink) (v : Vehicle) : Message :=
  (if v.sleeping then Message.lowPower l.network v.agent
    else Message.heartbeat l.network v.agent).withCapabilities l.settings.capabilities

/-- The heartbeats of all vehicles, in the order of their numbers. -/
def heartbeats (l : RadioLink) : List Message :=
  if l.isDead then [] else l.vehicles.values.map l.heartbeat

end RadioLink

end GroundControl
