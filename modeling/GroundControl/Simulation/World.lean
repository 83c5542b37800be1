import GroundControl.Control
import GroundControl.Transceiver

/-!
# The simulated world

A control centre, the transceivers its networks are linked to, the replies that are on their way,
and a clock.  Services, transceivers and couriers are tasks that take turns; a task that has nothing
to do waits until another one wakes it or an alarm of its own rings.

* `Task`, `Courier`, `Outlet`;
* `World`, `World.new`;
* `World.wake`, `World.setAlarm`, `World.block`: who takes a turn, and when;
* `World.offer`, the hand-over of a message to a service;
* `World.hearService`, what becomes of the things a service has done.
-/

namespace GroundControl

/-- What becomes of the frames of a service. -/
inductive Outlet
  /-- the transceiver with this number takes them -/
  | transceiver (number : Nat)
  /-- they wait until someone reads them -/
  | kept
  /-- someone reads them at once -/
  | watched

/-- Whose turn it is. -/
inductive Task
  | service (number : Nat)
  | transceiver (number : Nat)
  | courier (number : Nat)
  deriving DecidableEq, Repr

/-- A reply on its way to a service. -/
structure Courier where
  service : Nat
  message : Message
  /-- when the reply arrives -/
  due : Instant
  isDone : Bool

/-- A control centre and what is around it. -/
structure World where
  now : Instant
  /-- the alarms up to here have rung -/
  rung : Instant
  control : Control Pipe
  /-- the outlet of each service -/
  outlets : List Outlet
  /-- the transceivers, each with the number of the service it is linked to -/
  transceivers : List (Nat × Transceiver)
  couriers : List Courier
  /-- the tasks that have something to do, in the order of their turns -/
  ready : List Task
  /-- the tasks that wait for room in the inbox of a service, the earliest first -/
  blocked : List (Nat × Task)
  /-- the alarms that were set, the earliest set first -/
  alarms : List (Instant × Task)
  /-- when whoever is at the controls leaves, if this is known -/
  leaving : Option Instant
  /-- the number of calls made -/
  calls : Nat
  answers : List (CallId × Answer)
  meter : Meter
  /-- the events nobody has asked for yet -/
  events : List (Instant × Event)
  /-- the watched frames nobody has asked for yet -/
  frames : List (Instant × Frame)
  /-- the outcome of each finished request, by the number of the service and the ticket -/
  outcomes : List ((Nat × Ticket) × Outcome)

/-- The simulated world runs on one host. -/
instance : Host := .plain

namespace World

/-- The world at the start of the clock. -/
def new (settings : ControlSettings) : Except SettingsError World :=
  match Control.new settings with
  | .error e => .error e
  | .ok control => .ok
      { now := 0, rung := 0, control, outlets := [], transceivers := [], couriers := []
        ready := [], blocked := [], alarms := [], leaving := none, calls := 0, answers := []
        meter := .empty, events := [], frames := [], outcomes := [] }

/-- The service with a number. -/
def service? (w : World) (k : Nat) : Option (Service Pipe) := w.control.service? k

/-- Change the service with a number. -/
def modifyService (w : World) (k : Nat) (f : Service Pipe → Service Pipe) : World :=
  { w with control := w.control.modifyService k f }

/-- Whether a service takes no orders and no messages any more. -/
def isOver (w : World) (k : Nat) : Bool := (w.service? k).all (·.isOver)

/-! ### Turns and alarms -/

/-- Give a task a turn, unless one is due to it already. -/
def wake (w : World) (t : Task) : World :=
  if t ∈ w.ready then w else { w with ready := w.ready ++ [t] }

/-- Wake a task at an instant, or at the first whole millisecond after it. -/
def setAlarm (w : World) (t : Task) (due : Instant) : World :=
  let alarm := (due.alarm, t)
  if alarm ∈ w.alarms then w else { w with alarms := w.alarms ++ [alarm] }

/-- Let a task wait for room in the inbox of a service; one that waits already keeps its place. -/
def block (w : World) (k : Nat) (t : Task) : World :=
  if (k, t) ∈ w.blocked then w else { w with blocked := w.blocked ++ [(k, t)] }

/-- Wake the first `n` of the tasks that wait for room in the inbox of a service. -/
def unblock (w : World) (k n : Nat) : World :=
  let lucky := (w.blocked.filter (·.1 = k)).take n
  lucky.foldl (fun w e => w.wake e.2)
    { w with blocked := lucky.foldl (fun l e => l.erase e) w.blocked }

/-! ### Messages -/

/-- The answer to the offer of a message. -/
inductive Offer
  | taken
  /-- the inbox of the service is full -/
  | full
  /-- the service has ended -/
  | refused

/-- The number of messages a service can still take in. -/
def inboxRoom (s : Service Pipe) : Nat := s.station.settings.inboundCapacity - s.inbox.length

/-- Offer a message to a service. -/
def offer (w : World) (k : Nat) (m : Message) : Offer × World :=
  match w.service? k with
  | none => (.refused, w)
  | some s =>
      if s.isOver then (.refused, w)
      else if inboxRoom s = 0 then (.full, w)
      else (.taken, (w.modifyService k (·.receive m)).wake (.service k))

/-! ### What a service has done -/

/-- Take note of the things a service has done.  Of the events it has published in one turn only as
many are kept as a subscriber may be behind. -/
def takeLog (w : World) (k : Nat) (log : List Effect) : World :=
  let events := (log.filterMap (·.event?)).map (w.now, ·)
  let outcomes := (log.filterMap (·.outcome?)).map fun (ticket, outcome) => ((k, ticket), outcome)
  { w with
    events := w.events ++ (Feed.window w.control.settings.eventCapacity events).2
    outcomes := w.outcomes ++ outcomes
    meter := log.foldl Effect.meter w.meter }

/-- Take the frames of a service to where they go. -/
def takeFrames (w : World) (k : Nat) (s : Service Pipe) : World :=
  match w.outlets[k]? with
  | some (.transceiver l) =>
      if s.isOver || !s.station.carrier.frames.isEmpty then w.wake (.transceiver l) else w
  | some .watched =>
      let (frames, carrier) := s.station.carrier.readAll
      { w with frames := w.frames ++ frames.map (w.now, ·) }.modifyService k fun s =>
        { s with station := { s.station with carrier } }
  | _ => w

/-- Take over what a service has done in its turn. -/
def hearService (w : World) (k : Nat) (s : Service Pipe) : World :=
  let (log, station) := s.station.takeLog
  let w := { w with answers := w.answers ++ s.answers }.modifyService k fun _ =>
    { s with station, answers := [] }
  let w := (w.takeLog k log).takeFrames k s
  let room := if s.isOver then w.blocked.length else inboxRoom s
  s.alarms.foldl (fun w due => w.setAlarm (.service k) due) (w.unblock k room)

/-- What the submitter of a request of a service is told, if there is anything to tell: a request
that disappears with its service is reported as abandoned. -/
def outcomeOf (w : World) (k : Nat) (h : Handle) : Option Outcome :=
  match w.outcomes.lookup (k, h.ticket) with
  | some outcome => some outcome
  | none => if w.isOver k then some (.abandoned h.network) else none

end World

end GroundControl
