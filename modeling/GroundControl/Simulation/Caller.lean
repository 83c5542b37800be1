import GroundControl.Simulation.Turn

/-!
# Callers

Whoever is at the controls of the simulated world: a caller gives orders, and waits for answers
while the tasks of the world take their turns and time passes.

* `Caller α`, what a caller does; `Stop`, why a caller does not come to the end of it;
* `Caller.waitUntil`, `Caller.sleepUntil`, `Caller.sleep`;
* `Caller.post`, `Caller.answer`, `Caller.call`: orders to a service and their answers;
  `Caller.postAll`, `Caller.callAll`: orders to several services;
* `Caller.deliver`, messages to a service.
-/

namespace GroundControl

/-- Why a caller stops. -/
inductive Stop
  /-- a computation on times failed -/
  | fault (fault : Fault)
  /-- it is time to leave -/
  | left
  deriving DecidableEq, Repr

/-- What a caller does in the world. -/
abbrev Caller (α : Type) := ExceptT Stop (StateM World) α

namespace World

/-- The last instant up to which some service may hold back a broadcast. -/
def patience (w : World) : Instant :=
  (w.control.services.flatMap (·.deadlines)).foldl max w.now

/-- Let tasks take their turns, and let alarms ring before the instant `limit` if there is one,
until something holds: `n` times at most.  The answer tells whether it holds. -/
def goOn (done : World → Bool) (limit : Option Instant) : Nat → World → Bool × World
  | 0, w => (done w.settle, w.settle)
  | n + 1, w =>
      let w := w.settle
      if done w then (true, w)
      else
        match w.nextAlarm?, limit with
        | some a, some t => if a < t then goOn done limit n (w.ring a) else (false, w.ring t)
        | some a, none => goOn done limit n (w.ring a)
        | none, some t => (false, w.ring t)
        | none, none => (false, w)

/-- A bound on the number of alarms that ring up to an instant: they do so at whole milliseconds. -/
def ringsUntil (w : World) (t : Instant) : Nat := (t - w.now) / Span.ofMillis 1 + 2

end World

namespace Caller

/-- Wait until something holds.  A caller for whom it is time to leave does not wait.  All a caller
has to wait for is that services get on with their orders, and each of them does once it holds back
no broadcast. -/
def waitUntil (done : World → Bool) : Caller Unit := do
  let w ← get
  if done w then return
  match w.leaving with
  | none => modify fun w => (w.goOn done none (w.ringsUntil w.patience)).2
  | some t =>
      if t ≤ w.now then throw .left
      let (reached, w) := w.goOn done (some t) (w.ringsUntil t)
      set w
      if !reached then throw .left

/-- Wait until an instant, or the first whole millisecond after it. -/
def sleepUntil (t : Instant) : Caller Unit := do
  let w ← get
  let t := t.alarm
  let limit := match w.leaving with
    | none => t
    | some leaving => min t leaving
  if w.now < limit then
    set (w.goOn (fun _ => false) (some limit) (w.ringsUntil limit)).2
  if limit < t then throw .left

/-- Let time pass. -/
def sleep (by_ : Span) : Caller Unit := do sleepUntil ((← get).now + by_)

/-! ### Orders and messages -/

/-- Whether a service takes an order at once, or never takes one again. -/
def settlesOrder (k : Nat) (w : World) : Bool :=
  match w.service? k with
  | none => true
  | some s => s.isOver || decide (s.commands.length < s.station.settings.commandCapacity)

/-- Give a service an order that can be queued, unless the service has ended. -/
def enqueue (k : Nat) (c : Command) : Caller Unit :=
  modify fun w => if w.isOver k then w else (w.modifyService k (·.order c)).wake (.service k)

/-- Give a service an order, waiting until it can be queued. -/
def post (k : Nat) (c : Command) : Caller Unit := do
  waitUntil (settlesOrder k)
  enqueue k c

/-- Give services orders, each of them as soon as it can be queued: those that can be queued now,
and then the others when one of them can, `n` times at most. -/
def postAll : Nat → List (Nat × Command) → Caller Unit
  | 0, _ => return
  | n + 1, orders => do
      if orders.isEmpty then return
      waitUntil fun w => orders.any fun e => settlesOrder e.1 w
      let later ← orders.filterM fun (k, c) => do
        if settlesOrder k (← get) then
          enqueue k c
          return false
        else return true
      postAll n later

/-- Whether a call is answered, or will never be. -/
def settlesCall (k : Nat) (call : CallId) (w : World) : Bool :=
  (w.answers.lookup call).isSome || w.isOver k

/-- Wait for the answer to a call of a service; there is none if the service ended before. -/
def answer (k : Nat) (call : CallId) : Caller (Option Answer) := do
  waitUntil (settlesCall k call)
  return (← get).answers.lookup call

/-- Give a service an order and wait for the answer. -/
def call (k : Nat) (order : Order) : Caller (Option Answer) := do
  let call := (← get).calls
  modify fun w => { w with calls := call + 1 }
  post k ⟨order, some call⟩
  answer k call

/-- Give orders to services of networks, and wait for all answers.  No order waits for another
one. -/
def callAll (orders : List (NetworkId × Nat × Order)) :
    Caller (List (NetworkId × Option Answer)) := do
  let first := (← get).calls
  modify fun w => { w with calls := first + orders.length }
  let errands := errands first orders
  postAll errands.length (errands.map fun e => (e.service, e.command))
  errands.mapM fun e => do return (e.network, ← answer e.service e.call)

/-- Wait until a service has ended. -/
def awaitEnd (k : Nat) : Caller Unit := waitUntil (·.isOver k)

/-- Whether a service takes a message at once, or never takes one again. -/
def settlesMessage (k : Nat) (w : World) : Bool :=
  match w.service? k with
  | none => true
  | some s => s.isOver || decide (World.inboxRoom s ≠ 0)

/-- Deliver a message to a service, waiting for room in its inbox; the answer tells whether it was
delivered. -/
def deliver (k : Nat) (m : Message) : Caller Bool := do
  waitUntil (settlesMessage k)
  match (← get).offer k m with
  | (.taken, w) => set w; return true
  | (_, _) => return false

end Caller

end GroundControl
