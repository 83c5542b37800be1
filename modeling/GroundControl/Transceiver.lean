import GroundControl.RadioLink

/-!
# Transceivers

A transceiver is a radio link at work: it takes frames, sends the replies of the vehicles back after
the latency of the link, and hands over heartbeats at a fixed interval, one message at a time.

* `Transceiver`, `Transceiver.new`;
* `Transceiver.takeIn`, the execution of frames; `Transceiver.beat`, the heartbeats of an interval;
* `Transceiver.shutDown`.
-/

namespace GroundControl

/-- A radio link at work. -/
structure Transceiver where
  link : RadioLink
  /-- when the next heartbeats are due -/
  heartbeatDue : Instant
  /-- the heartbeats that are still to be handed over, the earliest first -/
  outbox : List Message
  isUp : Bool

namespace Transceiver

/-- A transceiver that begins at `now`. -/
def new (network : NetworkId) (settings : LinkSettings) (now : Instant) : Transceiver where
  link := .new network settings
  heartbeatDue := now
  outbox := []
  isUp := true

/-- Whether the heartbeats leave no pause between them.  Such a transceiver goes down in its first
turn, before it does anything. -/
def isBroken (t : Transceiver) : Bool := decide (t.link.settings.heartbeatInterval = 0)

/-- Execute a frame, and add the reply to those that are on their way. -/
def takeInOne : List Message × Transceiver → Frame → List Message × Transceiver
  | (replies, t), f =>
      let (reply, link) := t.link.receive f
      (replies ++ reply.toList, { t with link })

/-- Execute frames one after the other; the answer is the replies that are on their way back. -/
def takeIn (t : Transceiver) (frames : List Frame) : List Message × Transceiver :=
  frames.foldl takeInOne ([], t)

/-- When a reply arrives that sets out at `now`. -/
def arrival (t : Transceiver) (now : Instant) : Instant := now + t.link.settings.latency

/-- Go down; what was not handed over is lost. -/
def shutDown (t : Transceiver) : Transceiver := { t with outbox := [], isUp := false }

/-- Put the heartbeats of an interval into the outbox, unless the next ones cannot be put off. -/
def beat (t : Transceiver) (now : Instant) : Except Fault Transceiver := do
  let heartbeatDue ← Instant.nextDue t.heartbeatDue t.link.settings.heartbeatInterval now
  return { t with outbox := t.outbox ++ t.link.heartbeats, heartbeatDue }

end Transceiver

end GroundControl
