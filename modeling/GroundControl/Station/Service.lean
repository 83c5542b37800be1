import GroundControl.Station.Operations

/-!
# The service of a station

A station is served by one task.  It carries out orders, takes in messages, and passes over the
backlogs and the sightings at fixed intervals; of several things that could be done at an instant it
does the first in this order.  Orders come before messages, and messages before the regular passes,
so that a reply that is there is matched before a pass looks for overdue requests.

* `Order`, `Command`, `Answer`;
* `Service τ`, with `Service.order`, `Service.receive`;
* `Service.poll`, the next thing to do at an instant; `Service.drain`, everything there is to do;
* `Activity`: while a broadcast waits for a token the task does nothing else, and after a fault or
  the order to stop it does nothing any more.
-/

namespace GroundControl

/-- What a station can be ordered to do. -/
inductive Order
  | submit (request : RequestId) (agent : AgentId) (payload : Payload) (urgency : Urgency)
      (maxAttempts : Nat)
  | broadcast (bulletin : Bulletin) (deadline : Instant)
  | correction (bulletin : Bulletin) (skipIfIdle : Bool) (deadline : Instant)
  | cancel (request : RequestId)
  | deregister (agent : AgentId)
  | adoptEpoch (epoch : Nat)
  /-- look for silent agents and move all requests as if it were `now` -/
  | tick (now : Instant)
  | report
  | snapshots
  | presenceOf (agent : AgentId)
  | phaseOf (request : RequestId)
  /-- remove every agent and end the service -/
  | stop

/-- The instant up to which a broadcast may be delayed. -/
def Order.deadline? : Order → Option Instant
  | .broadcast _ deadline => some deadline
  | .correction _ _ deadline => some deadline
  | _ => none

/-- The number of a call that waits for an answer. -/
abbrev CallId := Nat

/-- An order, and the call that waits for the answer if one does. -/
structure Command where
  order : Order
  call : Option CallId

/-- The answers to orders. -/
inductive Answer
  | submitted (result : Except DispatchError Handle)
  | broadcast (result : Except DispatchError Unit)
  | corrected (result : Except DispatchError Bool)
  | cancelled (found : Bool)
  | deregistered (result : Except DispatchError Unit)
  | done
  | report (report : Report)
  | snapshots (agents : List Snapshot)
  | presence (presence : Presence)
  | phase (phase : Option Phase)

/-- A broadcast that waits for a token. -/
structure Hold where
  call : Option CallId
  bulletin : Bulletin
  deadline : Instant
  /-- when to try again -/
  ready : Instant
  /-- whether the broadcast is a piece of the correction stream -/
  isCorrection : Bool

/-- What the task of a station is at. -/
inductive Activity
  /-- ready for the next thing to do -/
  | serving
  /-- waiting for a token -/
  | holding (hold : Hold)
  /-- ended by order -/
  | stopped
  /-- ended by a fault -/
  | crashed (fault : Fault)

/-- A station and the task that serves it. -/
structure Service (τ : Type) where
  station : Station τ
  activity : Activity
  /-- the orders that wait, the earliest first -/
  commands : List Command
  /-- whether no further order can come -/
  commandsClosed : Bool
  /-- the messages that wait, the earliest first -/
  inbox : List Message
  /-- when the next pass over the backlogs is due -/
  tickDue : Instant
  /-- when the next search for silent agents is due -/
  sweepDue : Instant
  /-- the answers that were given, the earliest first -/
  answers : List (CallId × Answer)

namespace Service

variable {τ : Type}

/-- A service that begins at `now`. -/
def new (station : Station τ) (now : Instant) : Service τ :=
  ⟨station, .serving, [], false, [], now, now, []⟩

/-- Whether the service has ended. -/
def isOver (s : Service τ) : Bool :=
  match s.activity with
  | .stopped | .crashed _ => true
  | _ => false

/-- Queue an order; a service that has ended takes none. -/
def order (s : Service τ) (c : Command) : Service τ :=
  if s.isOver then s else { s with commands := s.commands ++ [c] }

/-- Queue a message; a service that has ended takes none. -/
def receive (s : Service τ) (m : Message) : Service τ :=
  if s.isOver then s else { s with inbox := s.inbox ++ [m] }

/-- Answer a call. -/
def reply (s : Service τ) (call : Option CallId) (answer : Answer) : Service τ :=
  match call with
  | none => s
  | some id => { s with answers := s.answers ++ [(id, answer)] }

/-- End the service; what waits is not looked at any more. -/
def finish (s : Service τ) (activity : Activity) : Service τ :=
  { s with activity, commands := [], inbox := [] }

/-- Let the station work, and go on with the result; a fault ends the service. -/
def act {α : Type} (s : Service τ) (work : Act τ α) (next : α → Service τ → Service τ) :
    Service τ :=
  match work s.station with
  | .ok a station => next a { s with station }
  | .error fault station => { s with station }.finish (.crashed fault)

/-- Let the station work without a fault, and answer a call with the result. -/
def ask {α : Type} (s : Service τ) (call : Option CallId) (work : Station τ → α × Station τ)
    (answer : α → Answer) : Service τ :=
  let (a, station) := work s.station
  { s with station }.reply call (answer a)

/-- The answer to a broadcast. -/
def broadcastAnswer (isCorrection : Bool) (result : Except DispatchError Unit) : Answer :=
  if isCorrection then .corrected (result.map fun () => true) else .broadcast result

/-- Attempt a broadcast. -/
def attempt [Carrier τ] (s : Service τ) (call : Option CallId) (bulletin : Bulletin)
    (deadline : Instant) (isCorrection : Bool) (now : Instant) : Service τ :=
  s.act (Station.tryBroadcast bulletin deadline now) fun result s =>
    match result with
    | .done result => { s with activity := .serving }.reply call
        (broadcastAnswer isCorrection result)
    | .wait ready =>
        { s with activity := .holding ⟨call, bulletin, deadline, ready, isCorrection⟩ }

/-- Carry out an order. -/
def carryOut [Carrier τ] [Walk] (s : Service τ) (c : Command) (now : Instant) : Service τ :=
  match c.order with
  | .submit request agent payload urgency maxAttempts =>
      s.act (Station.submit request agent payload urgency maxAttempts now) fun result s =>
        s.reply c.call (.submitted result)
  | .broadcast bulletin deadline => s.attempt c.call bulletin deadline false now
  | .correction bulletin skipIfIdle deadline =>
      if s.station.takesCorrection skipIfIdle then s.attempt c.call bulletin deadline true now
      else s.reply c.call (.corrected (.ok false))
  | .cancel request => s.ask c.call (Station.cancel request) .cancelled
  | .deregister agent =>
      s.act (Station.deregister agent now) fun result s => s.reply c.call (.deregistered result)
  | .adoptEpoch epoch => { s with station := s.station.adoptEpoch epoch }
  | .tick time => s.act (Station.tick time) fun () s => s.reply c.call .done
  | .report => s.reply c.call (.report s.station.report)
  | .snapshots => s.reply c.call (.snapshots (s.station.snapshots now))
  | .presenceOf agent => s.reply c.call (.presence (s.station.presenceOf agent))
  | .phaseOf request => s.reply c.call (.phase (s.station.phaseOf request))
  | .stop => s.act (Station.shutdown now) fun () s => s.finish .stopped

/-- Put off something regular that was due at `due`, and do it; if it cannot be put off, the service
ends. -/
def again [Host] (s : Service τ) (due : Instant) (period : Span) (now : Instant)
    (work : Instant → Service τ) : Service τ :=
  match Host.nextDue due period now with
  | .error fault => s.finish (.crashed fault)
  | .ok next => work next

/-- What the task does next at `now`; nothing if it has to wait.  The timers that are set for
instants up to `rung` have rung: all that are due, unless the clock has just been put forward. -/
def poll [Carrier τ] [Host] (s : Service τ) (now rung : Instant) : Option (Service τ) :=
  match s.activity with
  | .stopped => none
  | .crashed _ => none
  | .holding h =>
      if h.ready ≤ rung then
        some ({ s with activity := .serving }.attempt h.call h.bulletin h.deadline h.isCorrection
          now)
      else none
  | .serving =>
      match s.commands with
      | c :: rest => some ({ s with commands := rest }.carryOut c now)
      | [] =>
          if s.commandsClosed then
            some (s.act (Station.shutdown now) fun () s => s.finish .stopped)
          else
            match s.inbox with
            | m :: rest =>
                some ({ s with inbox := rest }.act (Station.deliverInbound m now) fun () s => s)
            | [] =>
                if s.tickDue ≤ rung then
                  some (s.again s.tickDue s.station.settings.tickInterval now fun tickDue =>
                    { s with tickDue }.act (Station.pumpAll now) fun () s => s)
                else if s.sweepDue ≤ rung then
                  some (s.again s.sweepDue s.station.settings.sweepInterval now fun sweepDue =>
                    { s with sweepDue, station := (s.station.sweep now).2 })
                else none

/-- The next `n` things there are to do. -/
def polls [Carrier τ] [Host] (now rung : Instant) : Nat → Service τ → Service τ
  | 0, s => s
  | n + 1, s =>
      match s.poll now rung with
      | none => s
      | some s => polls now rung n s

/-- A bound on the number of things there are to do once timers have rung: a hold that is over, the
orders, the messages, the end of the orders, and as many regular passes as could be due with periods
of a nanosecond at least. -/
def potential (s : Service τ) (rung : Instant) : Nat :=
  2 + s.commands.length + s.inbox.length + (rung + 1 - s.tickDue) + (rung + 1 - s.sweepDue)

/-- Do everything there is to do. -/
def drain [Carrier τ] [Host] (s : Service τ) (now rung : Instant) : Service τ :=
  polls now rung (s.potential rung) s

/-- The instants up to which the service may delay a broadcast. -/
def deadlines (s : Service τ) : List Instant :=
  (match s.activity with
    | .holding h => [h.deadline]
    | _ => []) ++ s.commands.filterMap (·.order.deadline?)

/-- The instants at which the task wants to be woken. -/
def alarms (s : Service τ) : List Instant :=
  match s.activity with
  | .serving => [s.tickDue, s.sweepDue]
  | .holding h => [h.ready]
  | _ => []

end Service

end GroundControl
