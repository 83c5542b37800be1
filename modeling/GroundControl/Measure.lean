import GroundControl.Seconds
import GroundControl.Frame

/-!
# Measurements

The numbers exported about each network: counters, levels, and the list of round-trip times.

* `Series`, what is measured, and `Series.label`, the name it is exported under;
* `Change`, one measurement of a series;
* `Meter`, all measurements taken so far; `Meter.record`.
-/

namespace GroundControl

/-- Why an inbound message was dropped. -/
inductive DropReason
  /-- it is addressed to another network -/
  | wrongNetwork
  /-- its sender is new, and no further agent may register -/
  | agentCap
  deriving DecidableEq, Repr

/-- The name of a reason in measurements. -/
def DropReason.label : DropReason → String
  | .wrongNetwork => "wrong_network"
  | .agentCap => "agent_cap"

/-- A measured quantity of one network. -/
inductive Series
  | inbound (network : NetworkId) (kind : MessageKind)
  | dropped (network : NetworkId) (reason : DropReason)
  | broadcasts (network : NetworkId) (kind : BroadcastKind)
  /-- the requests that ended with the given label -/
  | commands (network : NetworkId) (outcome : String)
  | retries (network : NetworkId)
  | queueDepth (network : NetworkId)
  | agentsOnline (network : NetworkId)
  | roundTrip (network : NetworkId) (trafficClass : TrafficClass)
  deriving DecidableEq, Repr

namespace Series

/-- A series name with its labels, in the order of the labels' names. -/
def render (name : String) (labels : List (String × String)) : String :=
  name ++ "\x7b" ++ String.intercalate "," (labels.map fun l => l.1 ++ "=" ++ l.2) ++ "\x7d"

/-- The name a series is exported under. -/
def label : Series → String
  | .inbound n kind =>
      render "fleetlink_inbound_total" [("kind", kind.label), ("network", n)]
  | .dropped n reason =>
      render "fleetlink_inbound_dropped_total" [("network", n), ("reason", reason.label)]
  | .broadcasts n kind =>
      render "fleetlink_broadcasts_total" [("kind", kind.label), ("network", n)]
  | .commands n outcome =>
      render "fleetlink_commands_total" [("network", n), ("outcome", outcome)]
  | .retries n => render "fleetlink_retries_total" [("network", n)]
  | .queueDepth n => render "fleetlink_queue_depth" [("network", n)]
  | .agentsOnline n => render "fleetlink_agents_online" [("network", n)]
  | .roundTrip n c => render "fleetlink_rtt_seconds" [("class", c.label), ("network", n)]

end Series

/-- One measurement. -/
inductive Change
  /-- count one more -/
  | count
  /-- set the level -/
  | level (value : Nat)
  /-- add a time to the list -/
  | time (span : Span)
  deriving DecidableEq, Repr

/-- What the measurements of a series have come to. -/
inductive Reading
  | counter (value : Nat)
  | level (value : Nat)
  | times (spans : List Span)
  deriving DecidableEq, Repr

namespace Reading

/-- The reading after a further measurement. -/
def update : Option Reading → Change → Reading
  | some (.counter n), .count => .counter (n + 1)
  | _, .count => .counter 1
  | _, .level n => .level n
  | some (.times l), .time d => .times (l ++ [d])
  | _, .time d => .times [d]

end Reading

/-- The series measured so far. -/
structure Meter where
  readings : List (Series × Reading)
  deriving DecidableEq, Repr

namespace Meter

/-- A meter without measurements. -/
def empty : Meter := ⟨[]⟩

instance : Inhabited Meter := ⟨empty⟩

/-- The reading of a series. -/
def reading? (m : Meter) (series : Series) : Option Reading := m.readings.lookup series

/-- The readings with the one of `series` updated, at its place or at the end. -/
def put (series : Series) (change : Change) : List (Series × Reading) → List (Series × Reading)
  | [] => [(series, Reading.update none change)]
  | (s, r) :: rest =>
      if s = series then (series, Reading.update (some r) change) :: rest
      else (s, r) :: put series change rest

/-- Take in a measurement. -/
def record (m : Meter) (series : Series) (change : Change) : Meter :=
  ⟨put series change m.readings⟩

theorem lookup_put (s series : Series) (change : Change) (l : List (Series × Reading)) :
    (put series change l).lookup s =
      if s = series then some (Reading.update (l.lookup s) change) else l.lookup s := by
  induction l with
  | nil => grind [put]
  | cons e l ih => grind [put]

@[simp] theorem reading?_record (m : Meter) (s series : Series) (change : Change) :
    (m.record series change).reading? s =
      if s = series then some (Reading.update (m.reading? s) change) else m.reading? s :=
  lookup_put s series change m.readings

end Meter

end GroundControl
