import GroundControl.Simulation.World

/-!
# Turns

What a task does in its turn, and the order of the turns.

* `World.serviceTurn`, `World.transceiverTurn`, `World.courierTurn`;
* `World.settle`, turns until no task has anything to do;
* `World.ring`, which moves the clock to an instant, and `World.jump`, which puts it forward.
-/

namespace GroundControl

namespace World

/-! ### The turn of a service -/

/-- A service does everything there is to do. -/
def serviceTurn (w : World) (k : Nat) : World :=
  match w.service? k with
  | none => w
  | some s => if s.isOver then w else w.hearService k (s.drain w.now w.rung.lastAlarm)

/-! ### The turn of a courier -/

/-- A courier that has arrived hands over its reply; if there is no room it waits, and if there is
nobody to take the reply it is lost. -/
def courierTurn (w : World) (c : Nat) : World :=
  match w.couriers[c]? with
  | none => w
  | some courier =>
      if courier.isDone then w
      else if courier.due.alarm ≤ w.rung then
        match w.offer courier.service courier.message with
        | (.full, w) => w.block courier.service (.courier c)
        | (_, w) => { w with couriers := w.couriers.modify c fun e => { e with isDone := true } }
      else w.setAlarm (.courier c) courier.due

/-- Send a reply on its way. -/
def dispatch (due : Instant) (k : Nat) (w : World) (message : Message) : World :=
  let courier : Courier := { service := k, message, due, isDone := false }
  { w with couriers := w.couriers ++ [courier] }.wake (.courier w.couriers.length)

/-! ### The turn of a transceiver -/

/-- Replace the transceiver with a number, which is linked to a service. -/
def setTransceiver (w : World) (l k : Nat) (t : Transceiver) : World :=
  { w with transceivers := w.transceivers.set l (k, t) }

/-- The pipe of a service. -/
def pipe? (w : World) (k : Nat) : Option Pipe := (w.service? k).map (·.station.carrier)

/-- Replace the pipe of a service. -/
def setPipe (w : World) (k : Nat) (carrier : Pipe) : World :=
  w.modifyService k fun s => { s with station := { s.station with carrier } }

/-- The transceiver goes down, and with it the link of the service. -/
def lower (w : World) (l k : Nat) (t : Transceiver) : World :=
  let w := w.setTransceiver l k t.shutDown
  match w.pipe? k with
  | none => w
  | some pipe => w.setPipe k pipe.close

/-- What a transceiver does next, if it has something to do: it hands over a heartbeat, executes the
frames that are there, goes down with its service, or prepares the next heartbeats.  The answer
tells whether it can go on. -/
def transceiverStep (w : World) (l k : Nat) (t : Transceiver) : Bool × World :=
  if t.isBroken then (false, w.lower l k t)
  else match t.outbox with
  | m :: rest =>
      match w.offer k m with
      | (.taken, w) => (true, w.setTransceiver l k { t with outbox := rest })
      | (.full, w) => (false, w.block k (.transceiver l))
      | (.refused, w) => (false, w.lower l k t)
  | [] =>
      match w.pipe? k with
      | none => (false, w)
      | some pipe =>
          if !pipe.frames.isEmpty then
            let (frames, pipe) := pipe.readAll
            let (replies, t) := t.takeIn frames
            let w := (w.setPipe k pipe).setTransceiver l k t
            (true, replies.foldl (dispatch (t.arrival w.now) k) w)
          else if w.isOver k then (false, w.lower l k t)
          else if t.heartbeatDue.alarm ≤ w.rung then
            match t.beat w.now with
            | .error _ => (false, w.lower l k t)
            | .ok t => (true, w.setTransceiver l k t)
          else (false, w.setAlarm (.transceiver l) t.heartbeatDue)

/-- At most `n` steps of a transceiver. -/
def transceiverSteps (l : Nat) : Nat → World → World
  | 0, w => w
  | n + 1, w =>
      match w.transceivers[l]? with
      | none => w
      | some (k, t) =>
          if t.isUp then
            match w.transceiverStep l k t with
            | (true, w) => transceiverSteps l n w
            | (false, w) => w
          else w

/-- A bound on the heartbeats a transceiver still hands over before it waits, and on the rounds of
heartbeats that are due. -/
def beatsDue (w : World) (t : Transceiver) : Nat :=
  t.outbox.length + (w.rung + 1 - t.heartbeatDue) * (t.link.vehicles.size + 1)

/-- A transceiver does everything there is to do.  Besides the heartbeats this is one execution of
frames and the last step. -/
def transceiverTurn (w : World) (l : Nat) : World :=
  match w.transceivers[l]? with
  | none => w
  | some (_, t) => transceiverSteps l (w.beatsDue t + 2) w

/-! ### The order of the turns -/

/-- The turn of a task. -/
def turn (w : World) : Task → World
  | .service k => w.serviceTurn k
  | .transceiver l => w.transceiverTurn l
  | .courier c => w.courierTurn c

/-- The attempts that the requests of a service have left, with those that are still queued. -/
def framesLeft (s : Service Pipe) : Nat :=
  let pending := s.station.agents.values.flatMap fun a => (a.backlog.map (·.requests)).getD []
  let queued (c : Command) : Nat :=
    match c.order with
    | .submit _ _ _ _ n => max n s.station.settings.attempts
    | _ => 1
  total (fun r : Request => r.maxAttempts + 1 - r.attempts) pending + total queued s.commands + 1

/-- A bound on the number of turns until no task has anything to do.  A turn is taken by a task that
is ready, or because of a frame, a message or the end of a service; messages are those that wait,
heartbeats, and replies to frames. -/
def unrest (w : World) : Nat :=
  let frames := total framesLeft w.control.services
  let heartbeats := total (fun e : Nat × Transceiver => w.beatsDue e.2) w.transceivers
  let inboxes := total (fun s : Service Pipe => s.inbox.length) w.control.services
  w.ready.length + 2 * w.control.services.length +
    4 * (frames + heartbeats + inboxes + w.couriers.length + w.blocked.length)

/-- At most `n` turns. -/
def turns : Nat → World → World
  | 0, w => w
  | n + 1, w =>
      match w.ready with
      | [] => w
      | t :: rest => turns n ({ w with ready := rest }.turn t)

/-- Let tasks take turns until none has anything to do. -/
def settle (w : World) : World := turns w.unrest w

/-! ### The clock -/

/-- The next instant at which an alarm rings. -/
def nextAlarm? (w : World) : Option Instant := (w.alarms.map (·.1)).min?

/-- Move the clock to an instant: the alarms up to there ring, in the order of their instants and
then in the order in which they were set. -/
def ring (w : World) (t : Instant) : World :=
  let (due, alarms) := w.alarms.partition fun e => e.1 ≤ t
  (due.mergeSort fun a b => a.1 ≤ b.1).foldl (fun w e => w.wake e.2)
    { w with now := t, rung := t, alarms }

/-- Put the clock forward.  Tasks that are ready take their turns before any alarm rings. -/
def jump (w : World) (by_ : Span) : World :=
  let w := { w with now := w.now + by_ }.settle
  w.ring w.now

end World

end GroundControl
