import GroundControl.Simulation.Caller

/-!
# The console

What a caller can do with the control centre of the simulated world.

* `Rig`, what the frames of a new network go to; `Caller.addNetwork`, `Caller.attach`;
* `Caller.remove`, `Caller.shutdown`;
* `Caller.submit`, `Caller.cancel`, `Caller.deregister`;
* `Caller.broadcast`, and `Caller.fanOut`, the correction stream of all networks;
* `Caller.synchronize`, `Caller.runUntil`: the signing epoch;
* `Caller.report`, `Caller.snapshots`, `Caller.presenceOf`, `Caller.phaseOf`: questions.
-/

namespace GroundControl

/-- What the frames of a new network go to. -/
inductive Rig
  /-- a transceiver of the network's own -/
  | linked (settings : LinkSettings)
  /-- nobody, until someone reads them -/
  | kept
  /-- someone who reads them at once -/
  | watched

namespace World

/-- Give the next service its outlet. -/
def addOutlet (w : World) (o : Outlet) : World := { w with outlets := w.outlets ++ [o] }

/-- Connect a new service to its rig; both begin with a turn. -/
def connect (w : World) (network : NetworkId) (k : Nat) (rig : Rig) : World :=
  let w := w.wake (.service k)
  match rig with
  | .linked settings =>
      let l := w.transceivers.length
      let transceiver := Transceiver.new network settings w.now
      let w := { w with transceivers := w.transceivers ++ [(k, transceiver)] }
      (w.addOutlet (.transceiver l)).wake (.transceiver l)
  | .kept => w.addOutlet .kept
  | .watched => w.addOutlet .watched

/-- Read up to `n` frames that wait for someone to read them. -/
def readFrames (w : World) (k n : Nat) : List Frame × World :=
  match w.pipe? k with
  | none => ([], w)
  | some pipe =>
      let (frames, pipe) := pipe.read n
      (frames, w.setPipe k pipe)

/-- Give up the reading end of a service's pipe, unless a transceiver holds it. -/
def closePipe (w : World) (k : Nat) : World :=
  match w.outlets[k]?, w.pipe? k with
  | some (.transceiver _), _ => w
  | _, some pipe => w.setPipe k pipe.close
  | _, none => w

end World

namespace Caller

/-- Take the result of work on the control centre that does not take time. -/
def onControl {α : Type} (work : Control Pipe → α × Control Pipe) : Caller α :=
  modifyGet fun w =>
    let (a, control) := work w.control
    (a, { w with control })

/-- Connect a service that was started for a network. -/
def start (network : NetworkId) (rig : Rig)
    (work : Instant → Control Pipe → Except DispatchError Nat × Control Pipe) :
    Caller (Except DispatchError Nat) := do
  let now := (← get).now
  match ← onControl (work now) with
  | .error e => return .error e
  | .ok k =>
      modify (·.connect network k rig)
      return .ok k

/-- Declare a network and attach it; the answer is the number of its service. -/
def addNetwork (settings : NetworkSettings) (capacity : Nat) (rig : Rig) :
    Caller (Except DispatchError Nat) :=
  start settings.id rig fun now c => c.addNetwork settings (.new settings.id capacity) now

/-- Attach a declared network; the answer is the number of its service. -/
def attach (network : NetworkId) (capacity : Nat) (rig : Rig) :
    Caller (Except DispatchError Nat) :=
  start network rig fun now c => c.attach network (.new network capacity) now

/-- Stop services and wait for their ends. -/
def stop (services : List Nat) : Caller Unit := do
  postAll services.length (services.map (·, ⟨.stop, none⟩))
  services.forM awaitEnd

/-- Detach a network and stop its service. -/
def remove (network : NetworkId) : Caller (Except DispatchError Unit) := do
  match ← onControl (·.detach network) with
  | .error e => return .error e
  | .ok k =>
      stop [k]
      return .ok ()

/-- Stop every service. -/
def shutdown : Caller Unit := do stop (← onControl (·.detachAll))

/-! ### Questions and orders to one network -/

/-- Give an order to a service of a network, and read its answer. -/
def askService {α : Type} (network : NetworkId) (k : Nat) (o : Order)
    (read : Answer → Option (Except DispatchError α)) : Caller (Except DispatchError α) := do
  return ((← call k o).bind read).getD (.error (.networkClosed network))

/-- Give an order to the service of a network, and read its answer. -/
def ask {α : Type} (network : NetworkId) (o : Order)
    (read : Answer → Option (Except DispatchError α)) : Caller (Except DispatchError α) := do
  match (← get).control.serviceOf network with
  | .error e => return .error e
  | .ok k => askService network k o read

/-- Submit a command; the answer is the handle, with the number of the service. -/
def submit (network : NetworkId) (agent : AgentId) (payload : Payload) (urgency : Urgency)
    (maxAttempts : Nat) : Caller (Except DispatchError (Nat × Handle)) := do
  match (← get).control.serviceOf network with
  | .error e => return .error e
  | .ok k =>
      let request ← onControl (·.nextRequest)
      ask network (.submit request agent payload urgency maxAttempts) fun
        | .submitted result => some (result.map (k, ·))
        | _ => none

/-- Send a broadcast, which may wait for a token as long as the settings of the network allow. -/
def broadcast (network : NetworkId) (bulletin : Bulletin) : Caller (Except DispatchError Unit) := do
  let w ← get
  match w.control.broadcastOrder network bulletin w.now with
  | .error fault => throw (.fault fault)
  | .ok (.error e) => return .error e
  | .ok (.ok (k, order)) =>
      askService network k order fun
        | .broadcast result => some result
        | _ => none

/-- Withdraw a request. -/
def cancel (network : NetworkId) (request : RequestId) : Caller (Except DispatchError Bool) :=
  ask network (.cancel request) fun
    | .cancelled found => some (.ok found)
    | _ => none

/-- Remove an agent. -/
def deregister (network : NetworkId) (agent : AgentId) : Caller (Except DispatchError Unit) :=
  ask network (.deregister agent) fun
    | .deregistered result => some result
    | _ => none

/-- The counters of a network. -/
def report (network : NetworkId) : Caller (Except DispatchError Report) :=
  ask network .report fun
    | .report r => some (.ok r)
    | _ => none

/-- The agents of a network. -/
def snapshots (network : NetworkId) : Caller (Except DispatchError (List Snapshot)) :=
  ask network .snapshots fun
    | .snapshots agents => some (.ok agents)
    | _ => none

/-- The presence of an agent. -/
def presenceOf (network : NetworkId) (agent : AgentId) : Caller (Except DispatchError Presence) :=
  ask network (.presenceOf agent) fun
    | .presence p => some (.ok p)
    | _ => none

/-- The phase of a request. -/
def phaseOf (network : NetworkId) (request : RequestId) :
    Caller (Except DispatchError (Option Phase)) :=
  ask network (.phaseOf request) fun
    | .phase p => some (.ok p)
    | _ => none

/-! ### Orders to all networks -/

/-- Send a piece of the correction stream to all networks that take it; the answer is the networks
that got it. -/
def fanOut (bulletin : Bulletin) (skipIdle : Bool) : Caller (List NetworkId) := do
  let w ← get
  match w.control.corrections bulletin skipIdle w.now with
  | .error fault => throw (.fault fault)
  | .ok orders => return recipients (← callAll orders)

/-- Let all networks look for silent agents and move all requests as if it were `now`. -/
def tick (now : Instant) : Caller Unit := do
  let networks := (← get).control.attached.entries
  let _ ← callAll (networks.map fun (network, k) => (network, k, .tick now))

/-! ### The signing epoch -/

/-- Advance the signing epoch, and tell it to all networks. -/
def synchronize (wall : WallTime) : Caller Nat := do
  let epoch ← onControl (·.synchronize wall)
  (← get).control.attached.values.forM fun k => post k ⟨.adoptEpoch epoch, none⟩
  return epoch

/-- Put off something regular that was due at `due`. -/
def again (due : Instant) (period : Span) (now : Instant) : Caller Instant :=
  match Instant.nextDue due period now with
  | .error fault => throw (.fault fault)
  | .ok next => return next

/-- Keep the epoch synchronised until `finish`: at most `n` times, or pauses between them. -/
def synchronizeUntil (finish : Instant) (wall : WallTime) : Nat → Instant → Caller Unit
  | 0, _ => return
  | n + 1, due => do
      let w ← get
      if finish.alarm ≤ w.now then return
      else if due.alarm ≤ w.now then
        let due ← again due w.control.settings.signingInterval w.now
        let _ ← synchronize wall
        synchronizeUntil finish wall n due
      else
        sleepUntil (min due finish)
        synchronizeUntil finish wall n due

/-- Keep the epoch synchronised for a while, with a wall clock that shows `wall` all the time: once
at the start and then at the interval of the settings, but not at the very end.  Two
synchronisations are at least a nanosecond apart, which bounds their number. -/
def runUntil (by_ : Span) (wall : WallTime) : Caller Unit := do
  let now := (← get).now
  synchronizeUntil (now + by_) wall (2 * (by_ + Span.ofMillis 1)) now

end Caller

end GroundControl
