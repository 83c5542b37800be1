import GroundControl.EpochClock
import GroundControl.Station.Service

/-!
# The control centre

The control centre runs one service for each attached network, numbers the requests of all networks,
and keeps the signing epoch they share.

* `Control τ`, `Control.new`;
* `Control.attach`, `Control.addNetwork`, `Control.detach`, `Control.detachAll`;
* `Control.serviceOf`, `Control.settingsOf`, `Control.networks`;
* `Control.nextRequest`, `Control.synchronize`;
* `Control.broadcastOrder`, the order of a broadcast to one network;
* `Control.corrections`, the orders of a fan-out of the correction stream; `errands`, orders with
  the calls that wait for their answers; `recipients`, the networks that have got the stream.
-/

namespace GroundControl

/-- The control centre.  Services are numbered in the order in which they were started. -/
structure Control (τ : Type) where
  settings : ControlSettings
  /-- the number of the service of each attached network -/
  attached : Table NetworkId Nat
  /-- every service that was ever started -/
  services : List (Service τ)
  /-- the number of the last request -/
  requests : Nat
  clock : EpochClock

namespace Control

variable {τ : Type}

/-- A control centre without any attached network. -/
def new (settings : ControlSettings) : Except SettingsError (Control τ) :=
  match settings.validate with
  | .error e => .error e
  | .ok () => .ok ⟨settings, ∅, [], 0, .new⟩

/-- The attached networks, in the order of their names. -/
def networks (c : Control τ) : List NetworkId := c.attached.keys

/-- The number of the service of a network. -/
def serviceOf (c : Control τ) (network : NetworkId) : Except DispatchError Nat :=
  match c.attached.get? network with
  | none => .error (.unknownNetwork network)
  | some k => .ok k

/-- The settings of a network. -/
def settingsOf (c : Control τ) (network : NetworkId) : Except DispatchError NetworkSettings :=
  match c.settings.networks.find? fun s => s.id = network with
  | none => .error (.unknownNetwork network)
  | some s => .ok s

/-- The service with a number. -/
def service? (c : Control τ) (k : Nat) : Option (Service τ) := c.services[k]?

/-- Change the service with a number. -/
def modifyService (c : Control τ) (k : Nat) (f : Service τ → Service τ) : Control τ :=
  { c with services := c.services.modify k f }

/-- Start a service, unless the network is attached; the answer is its number. -/
def start (c : Control τ) (settings : NetworkSettings) (carrier : τ) (now : Instant) :
    Except DispatchError Nat × Control τ :=
  if c.attached.contains settings.id then (.error (.duplicateNetwork settings.id), c)
  else
    let station := (Station.new settings carrier now).adoptEpoch c.clock.current
    let k := c.services.length
    (.ok k,
      { c with
        attached := c.attached.insert settings.id k
        services := c.services ++ [.new station now] })

/-- Attach a network that the settings declare. -/
def attach (c : Control τ) (network : NetworkId) (carrier : τ) (now : Instant) :
    Except DispatchError Nat × Control τ :=
  match c.settingsOf network with
  | .error e => (.error e, c)
  | .ok settings => c.start settings carrier now

/-- The declared networks with the settings of one of them replaced, or added at the end. -/
def declare (settings : NetworkSettings) : List NetworkSettings → List NetworkSettings
  | [] => [settings]
  | s :: rest => if s.id = settings.id then settings :: rest else s :: declare settings rest

/-- Declare a network and attach it. -/
def addNetwork (c : Control τ) (settings : NetworkSettings) (carrier : τ) (now : Instant) :
    Except DispatchError Nat × Control τ :=
  match settings.validate with
  | .error e => (.error (.config e), c)
  | .ok () =>
      match c.start settings carrier now with
      | (.error e, c) => (.error e, c)
      | (.ok k, c) =>
          (.ok k,
            { c with
              settings := { c.settings with networks := declare settings c.settings.networks } })

/-- Withdraw the declaration of a network and let go of its service, which is still to be
stopped. -/
def detach (c : Control τ) (network : NetworkId) : Except DispatchError Nat × Control τ :=
  match c.attached.get? network with
  | none => (.error (.unknownNetwork network), c)
  | some k =>
      let networks := c.settings.networks.filter fun s => s.id ≠ network
      (.ok k,
        { c with
          attached := c.attached.erase network
          settings := { c.settings with networks } })

/-- Let go of every service; the networks stay declared. -/
def detachAll (c : Control τ) : List Nat × Control τ :=
  (c.attached.values, { c with attached := ∅ })

/-- Give out the number of a new request. -/
def nextRequest (c : Control τ) : RequestId × Control τ :=
  (c.requests + 1, { c with requests := c.requests + 1 })

/-- Advance the signing epoch; the attached services are still to be told. -/
def synchronize (c : Control τ) (wall : WallTime) : Nat × Control τ :=
  let clock := c.clock.advance wall
  (clock.current, { c with clock })

/-- The order that sends a broadcast to a network, which may delay it as long as its settings allow,
and the number of its service. -/
def broadcastOrder (c : Control τ) (network : NetworkId) (bulletin : Bulletin) (now : Instant) :
    Except Fault (Except DispatchError (Nat × Order)) :=
  match c.serviceOf network, c.settingsOf network with
  | .error e, _ | _, .error e => return .error e
  | .ok k, .ok settings => do
      let deadline ← now.after settings.broadcastGrace
      return .ok (k, .broadcast bulletin deadline)

/-- How long a network lets a broadcast wait for a token. -/
def graceOf (c : Control τ) (network : NetworkId) : Span :=
  match c.settingsOf network with
  | .ok settings => settings.broadcastGrace
  | .error _ => 0

/-- The instants up to which the attached networks may delay a piece of the correction stream. -/
def correctionDeadlines (c : Control τ) (now : Instant) :
    Except Fault (List (NetworkId × Nat × Instant)) :=
  c.attached.entries.mapM fun (network, k) => do
    let deadline ← now.after (c.graceOf network)
    return (network, k, deadline)

/-- The orders that send a piece of the correction stream to the attached networks, each with the
network and the number of its service. -/
def corrections (c : Control τ) (bulletin : Bulletin) (skipIfIdle : Bool) (now : Instant) :
    Except Fault (List (NetworkId × Nat × Order)) := do
  let deadlines ← c.correctionDeadlines now
  return deadlines.map fun (network, k, deadline) =>
    (network, k, .correction bulletin skipIfIdle deadline)

end Control

/-- An order to the service of a network, and the call that waits for the answer. -/
structure Errand where
  network : NetworkId
  service : Nat
  order : Order
  call : CallId

namespace Errand

/-- The order as the service gets it. -/
def command (e : Errand) : Command := ⟨e.order, some e.call⟩

end Errand

/-- Orders to networks with the calls that wait for the answers, which are numbered from `first`
on. -/
def errands (first : CallId) (orders : List (NetworkId × Nat × Order)) : List Errand :=
  orders.mapIdx fun i (network, service, order) => ⟨network, service, order, first + i⟩

/-- Whether a network has got a piece of the correction stream. -/
def gotCorrection : Option Answer → Bool
  | some (.corrected (.ok sent)) => sent
  | _ => false

/-- The networks that have got a piece of the correction stream. -/
def recipients (answers : List (NetworkId × Option Answer)) : List NetworkId :=
  (answers.filter fun e => gotCorrection e.2).map (·.1)

end GroundControl
