import GroundControl.Transceiver

/-!
# The test range

A transceiver on its own, with someone who sends frames to it and listens to what it hands over.
Nothing but waiting takes time.

* `Range`, `Range.new`, `Range.send`;
* `Range.hangUp`, `Range.stopListening`: the end of the frames, and of the listening;
* `Range.settle`, everything there is to do now; `Range.sleep`, which lets time pass.
-/

namespace GroundControl

/-- A transceiver, a sender and a listener. -/
structure Range where
  now : Instant
  transceiver : Transceiver
  /-- the frames that wait for the transceiver, the earliest first -/
  frames : List Frame
  /-- whether there is someone who may send frames -/
  sending : Bool
  /-- whether there is someone who listens -/
  listening : Bool
  /-- the replies on their way, with the instants at which they arrive -/
  replies : List (Instant × Message)
  /-- what was heard and when, the earliest first -/
  heard : List (Instant × Message)

namespace Range

/-- A test range at the start of the clock. -/
def new (network : NetworkId) (settings : LinkSettings) : Range where
  now := 0
  transceiver := .new network settings 0
  frames := []
  sending := true
  listening := true
  replies := []
  heard := []

/-- Send a frame; the answer tells whether the transceiver takes frames. -/
def send (r : Range) (f : Frame) : Bool × Range :=
  if r.sending && r.transceiver.isUp then (true, { r with frames := r.frames ++ [f] })
  else (false, r)

/-- Send no more frames. -/
def hangUp (r : Range) : Range := { r with sending := false }

/-- Listen no more. -/
def stopListening (r : Range) : Range := { r with listening := false }

/-- Hear messages. -/
def hear (r : Range) (messages : List Message) : Range :=
  if r.listening then { r with heard := r.heard ++ messages.map (r.now, ·) } else r

/-- Let the transceiver execute the frames that wait.  Once they are executed and no more can come,
it goes down. -/
def execute (r : Range) : Range :=
  if r.transceiver.isBroken then { r with frames := [], transceiver := r.transceiver.shutDown }
  else if r.transceiver.isUp then
    let (replies, transceiver) := r.transceiver.takeIn r.frames
    let due := transceiver.arrival r.now
    { r with
      frames := []
      transceiver := if r.sending then transceiver else transceiver.shutDown
      replies := r.replies ++ replies.map (due, ·) }
  else { r with frames := [] }

/-- At most `n` rounds of heartbeats that are due.  A transceiver that has something to hand over
and nobody to take it goes down. -/
def beats : Nat → Range → Range
  | 0, r => r
  | n + 1, r =>
      if r.transceiver.isUp && decide (r.transceiver.heartbeatDue.alarm ≤ r.now) then
        match r.transceiver.beat r.now with
        | .error _ => { r with transceiver := r.transceiver.shutDown }
        | .ok transceiver =>
            match transceiver.outbox with
            | [] => beats n { r with transceiver }
            | messages =>
                if r.listening then
                  let r := { r with transceiver := { transceiver with outbox := [] } }
                  beats n (r.hear messages)
                else { r with transceiver := transceiver.shutDown }
      else r

/-- Hear the replies that arrive. -/
def hearReplies (r : Range) : Range :=
  let (due, later) := r.replies.partition fun e => e.1.alarm ≤ r.now
  { r with replies := later }.hear (due.map Prod.snd)

/-- Do everything there is to do now.  Successive heartbeats are at least a nanosecond apart, which
bounds the number of those that are due. -/
def settle (r : Range) : Range :=
  let r := r.execute
  (beats (r.now + 1 - r.transceiver.heartbeatDue) r).hearReplies

/-- The instants at which there will be something to do. -/
def alarms (r : Range) : List Instant :=
  (if r.transceiver.isUp then [r.transceiver.heartbeatDue.alarm] else []) ++
    r.replies.map (·.1.alarm)

/-- Go through the next `n` of the instants before `t` at which there is something to do, and then
to `t`. -/
def goOn (t : Instant) : Nat → Range → Range
  | 0, r => { r.settle with now := t }
  | n + 1, r =>
      let r := r.settle
      match (r.alarms.filter (· < t)).min? with
      | none => { r with now := t }
      | some a => goOn t n { r with now := a }

/-- Let time pass, up to a whole millisecond.  Alarms ring at whole milliseconds only, which bounds
their number. -/
def sleep (r : Range) (by_ : Span) : Range :=
  goOn (Instant.alarm (r.now + by_)) (by_ / Span.ofMillis 1 + 2) r

end Range

end GroundControl
