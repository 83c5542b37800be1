import GroundControl.Event

/-!
# Listings

The order in which things that happened are listed: by time where they have one, then by network and
agent, and apart from this as they happened.

* `Event.listedUpTo`, `Frame.listedUpTo`, `Message.listedUpTo`, the orders without the times;
* `Listing.ofEvents`, `Listing.ofFrames`;
* `Listing.timed`, the listing of things that have a time.
-/

namespace GroundControl

/-- Whether an event is listed before another one, or both at the same place. -/
def Event.listedUpTo (a b : Event) : Bool :=
  a.network < b.network || (a.network == b.network && a.agent ≤ b.agent)

/-- Whether a destination is listed before another one, or both at the same place: agents by their
numbers, and everyone after them. -/
def Destination.listedUpTo : Destination → Destination → Bool
  | .agent a, .agent b => a ≤ b
  | _, .everyone => true
  | .everyone, .agent _ => false

/-- Whether a frame is listed before another one, or both at the same place. -/
def Frame.listedUpTo (a b : Frame) : Bool :=
  a.network < b.network || (a.network == b.network && a.destination.listedUpTo b.destination)

/-- Whether a message is listed before another one, or both at the same place: by agent and kind,
and replies by their keys. -/
def Message.listedUpTo (a b : Message) : Bool :=
  let key (m : Message) := (m.reply.map fun r => r.key + 1).getD 0
  a.agent < b.agent ||
    (a.agent == b.agent &&
      (a.kind.label < b.kind.label || (a.kind == b.kind && key a ≤ key b)))

namespace Listing

/-- Events in the order in which they are listed. -/
def ofEvents (l : List Event) : List Event := l.mergeSort Event.listedUpTo

/-- Frames in the order in which they are listed. -/
def ofFrames (l : List Frame) : List Frame := l.mergeSort Frame.listedUpTo

/-- Things that have a time in the order in which they are listed: those of the same time in the
given one. -/
def timed {α : Type} (upTo : α → α → Bool) (l : List (Instant × α)) : List (Instant × α) :=
  l.mergeSort fun a b => a.1 < b.1 || (a.1 == b.1 && upTo a.2 b.2)

end Listing

end GroundControl
