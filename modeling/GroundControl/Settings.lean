import GroundControl.Time
import GroundControl.Identity

/-!
# Settings

The tuning of one network and of the control centre, and the conditions settings must meet.

* `RateLimit`, `NetworkSettings`, `ControlSettings`, with their defaults;
* `SettingsError`, and the order in which errors are looked for;
* `NetworkSettings.validate`, `ControlSettings.validate`.
-/

namespace GroundControl

/-- The throttle of broadcasts and bulk traffic: tokens per second, and how many can be saved. -/
structure RateLimit where
  perSecond : Float
  burst : Nat

/-- The tuning of one network. -/
structure NetworkSettings where
  id : NetworkId
  /-- the number of agents that may register -/
  maxAgents : Option Nat := none
  /-- the silence after which an agent counts as offline -/
  onlineTimeout : Span := .ofMillis 5000
  /-- the throttle of broadcasts and bulk traffic -/
  rateLimit : Option RateLimit := none
  /-- the number of requests that may be pending for one agent -/
  queueDepth : Nat := 16
  /-- the bounds of the time allowed for a reply -/
  minTimeout : Span := .ofMillis 100
  maxTimeout : Span := .ofMillis 3000
  /-- the time allowed for a reply before any round trip has been measured -/
  initialTimeout : Span := .ofMillis 1000
  /-- the attempts of a request that does not ask for a number of its own -/
  attempts : Nat := 3
  /-- whether the correction stream goes to this network -/
  corrections : Bool := true
  /-- how long the phase of a finished request can be asked for -/
  resultGrace : Span := .ofMillis 10000
  /-- how long a broadcast may wait for a token -/
  broadcastGrace : Span := .ofMillis 250
  /-- the period of the pass over all queues -/
  tickInterval : Span := .ofMillis 50
  /-- the period of the search for silent agents -/
  sweepInterval : Span := .ofMillis 1000
  /-- the messages that may wait for the network's station -/
  inboundCapacity : Nat := 1024
  /-- the orders that may wait for the network's station -/
  commandCapacity : Nat := 256

/-- The tuning of the control centre. -/
structure ControlSettings where
  networks : List NetworkSettings := []
  /-- the period of the synchronisation of the signing epoch -/
  signingInterval : Span := .ofMillis 1000
  /-- the events a subscriber may be behind -/
  eventCapacity : Nat := 1024

/-- The settings that must not be zero. -/
inductive Quantity
  | maxAgents
  | queueDepth
  | onlineTimeout
  | minTimeout
  | attempts
  | tickInterval
  | sweepInterval
  | inboundCapacity
  | commandCapacity
  | signingInterval
  | eventCapacity
  deriving DecidableEq, Repr

/-- The name of a setting in an error text. -/
def Quantity.label : Quantity → String
  | .maxAgents => "max_agent_count"
  | .queueDepth => "per_agent_queue_depth"
  | .onlineTimeout => "online_timeout"
  | .minTimeout => "min_timeout"
  | .attempts => "default_max_attempts"
  | .tickInterval => "tick_interval"
  | .sweepInterval => "liveness_sweep_interval"
  | .inboundCapacity => "inbound_capacity"
  | .commandCapacity => "command_capacity"
  | .signingInterval => "signing_sync_interval"
  | .eventCapacity => "event_capacity"

/-- What can be wrong with settings. -/
inductive SettingsError
  | emptyNetworkId
  | duplicateNetworkId (network : NetworkId)
  | zero (quantity : Quantity)
  | timeoutOrder
  | invalidRateLimit
  deriving DecidableEq, Repr

/-- The wording of an error. -/
def SettingsError.message : SettingsError → String
  | .emptyNetworkId => "network id must not be empty"
  | .duplicateNetworkId network => "duplicate network id: " ++ network
  | .zero quantity => quantity.label ++ " must be greater than 0"
  | .timeoutOrder =>
      "timeouts must satisfy min_timeout <= initial_timeout <= max_timeout"
  | .invalidRateLimit =>
      "broadcast rate limit must have a positive rate and a burst of at least 1"

/-- Whether a throttle ever lets anything through: a positive finite rate and room for a token. -/
def RateLimit.isValid (limit : RateLimit) : Bool :=
  decide (0 < limit.perSecond) && limit.perSecond.isFinite && decide (limit.burst ≠ 0)

namespace NetworkSettings

/-- The errors settings can have, in the order in which they are looked for, each with the
condition under which it is present. -/
def defects (s : NetworkSettings) : List (Bool × SettingsError) :=
  [ (decide (s.id = ""), .emptyNetworkId),
    (decide (s.maxAgents = some 0), .zero .maxAgents),
    (decide (s.queueDepth = 0), .zero .queueDepth),
    (decide (s.onlineTimeout = 0), .zero .onlineTimeout),
    (decide (s.minTimeout = 0), .zero .minTimeout),
    (decide (s.initialTimeout < s.minTimeout ∨ s.maxTimeout < s.initialTimeout), .timeoutOrder),
    (decide (s.attempts = 0), .zero .attempts),
    (decide (s.tickInterval = 0), .zero .tickInterval),
    (decide (s.sweepInterval = 0), .zero .sweepInterval),
    (decide (s.inboundCapacity = 0), .zero .inboundCapacity),
    (decide (s.commandCapacity = 0), .zero .commandCapacity),
    (s.rateLimit.any fun limit => !limit.isValid, .invalidRateLimit) ]

/-- The first error of the settings, if they have one. -/
def validate (s : NetworkSettings) : Except SettingsError Unit :=
  match s.defects.find? (·.1) with
  | some (_, e) => .error e
  | none => .ok ()

/-- Settings are accepted exactly if none of their possible errors is present. -/
theorem validate_eq_ok_iff (s : NetworkSettings) :
    s.validate = .ok () ↔ ∀ d ∈ s.defects, d.1 = false := by
  unfold validate
  split
  · rename_i b e h
    have hm := List.mem_of_find?_eq_some h
    have hb := List.find?_some h
    simp only [reduceCtorEq, false_iff]
    intro hall
    exact absurd (hb.symm.trans (hall _ hm)) (by decide)
  · rename_i h
    simpa using h

end NetworkSettings

namespace ControlSettings

/-- The first error of a list of networks, given the names that are taken already. -/
def validateNetworks (taken : List NetworkId) :
    List NetworkSettings → Except SettingsError Unit
  | [] => .ok ()
  | s :: rest =>
      match s.validate with
      | .error e => .error e
      | .ok () =>
          if s.id ∈ taken then .error (.duplicateNetworkId s.id)
          else validateNetworks (s.id :: taken) rest

/-- The first error of the settings, if they have one. -/
def validate (s : ControlSettings) : Except SettingsError Unit :=
  if s.signingInterval = 0 then .error (.zero .signingInterval)
  else if s.eventCapacity = 0 then .error (.zero .eventCapacity)
  else validateNetworks [] s.networks

end ControlSettings

end GroundControl
