import GroundControl.Backlog
import GroundControl.Carrier
import GroundControl.Event
import GroundControl.Measure
import GroundControl.RoundTrip
import GroundControl.Tally
import GroundControl.TokenBucket

/-!
# Stations

A station looks after one network: its agents and their backlogs, their presence, the round-trip
times, the throttle of broadcasts, and the link to the agents.

* `Effect`, what a station does to the world around it, and what of it is an event, an outcome or a
  measurement;
* `Agent`, `Station τ`, for a link of type `τ`;
* `Act τ α`, a piece of work of a station, which may meet a fault; what was done before the fault
  stays done;
* the questions a station answers: `presenceOf`, `phaseOf`, `queueDepth`, `snapshots`, `report`.
-/

namespace GroundControl

/-- What a station does to the world around it. -/
inductive Effect
  /-- a frame was handed to the link, with the answer of the link -/
  | sent (frame : Frame) (answer : Except LinkError Unit)
  /-- a submitter learned the outcome of its request -/
  | delivered (ticket : Ticket) (outcome : Outcome)
  /-- subscribers were told of an event -/
  | published (event : Event)
  /-- a measurement was taken -/
  | measured (series : Series) (change : Change)

namespace Effect

/-- The event subscribers were told of. -/
def event? : Effect → Option Event
  | .published event => some event
  | _ => none

/-- The outcome a submitter learned. -/
def outcome? : Effect → Option (Ticket × Outcome)
  | .delivered ticket outcome => some (ticket, outcome)
  | _ => none

/-- Take in the measurement, if one was taken. -/
def meter (m : Meter) : Effect → Meter
  | .measured series change => m.record series change
  | _ => m

end Effect

/-- What a station knows about an agent. -/
structure Agent where
  capabilities : Capabilities
  /-- absent until the first command for the agent -/
  backlog : Option Backlog
  deriving DecidableEq

/-- The number of pending requests of an agent. -/
def Agent.pendingLen (a : Agent) : Nat := (a.backlog.map (·.pendingLen)).getD 0

/-- A station and its link. -/
structure Station (τ : Type) where
  settings : NetworkSettings
  carrier : τ
  agents : Table AgentId Agent
  watch : Watch
  estimator : Estimator TrafficClass
  throttle : Option (Bucket Float)
  /-- the epoch under which frames are signed -/
  epoch : Nat
  tally : Tally
  /-- the agent whose backlog holds a pending request -/
  pending : Table RequestId AgentId
  /-- the last phase of each finished request that can still be asked for -/
  results : Table RequestId Phase
  /-- when the finished requests are forgotten, in the order in which they finished -/
  expiry : List (RequestId × Instant)
  /-- the number of handles given out -/
  tickets : Nat
  /-- lifecycle steps refused in backlogs that are gone -/
  refusals : List Phase.IllegalStep
  /-- what the station has done, the earliest first -/
  log : List Effect

/-- A piece of work of a station. -/
abbrev Act (τ α : Type) := EStateM Fault (Station τ) α

namespace Station

variable {τ : Type}

/-- A station that has heard nobody. -/
def new (settings : NetworkSettings) (carrier : τ) (now : Instant) : Station τ where
  settings; carrier
  agents := ∅
  watch := .new settings.onlineTimeout
  estimator := .new settings.minTimeout settings.maxTimeout settings.initialTimeout
  throttle := settings.rateLimit.map fun limit => .full limit.perSecond limit.burst now
  epoch := 0
  tally := {}
  pending := ∅
  results := ∅
  expiry := []
  tickets := 0
  refusals := []
  log := []

/-- The name of the station's network. -/
def id (s : Station τ) : NetworkId := s.settings.id

/-! ### Effects -/

/-- Do something to the world. -/
def emit (s : Station τ) (effect : Effect) : Station τ := { s with log := s.log ++ [effect] }

/-- Tell subscribers of an event. -/
def publish (s : Station τ) (event : Event) : Station τ := s.emit (.published event)

/-- Count one more of a series. -/
def count (s : Station τ) (series : Series) : Station τ := s.emit (.measured series .count)

/-- Set the level of a series. -/
def level (s : Station τ) (series : Series) (value : Nat) : Station τ :=
  s.emit (.measured series (.level value))

/-- Tell the submitters of finished requests how they ended. -/
def deliver (s : Station τ) (finished : List Finished) : Station τ :=
  { s with log := s.log ++ finished.map fun f => .delivered f.ticket f.outcome }

/-- Take the log. -/
def takeLog (s : Station τ) : List Effect × Station τ := (s.log, { s with log := [] })

/-! ### Questions -/

/-- The backlog of an agent, if it has one. -/
def backlogOf (s : Station τ) (agent : AgentId) : Option Backlog :=
  (s.agents.get? agent).bind (·.backlog)

/-- Replace the backlog of an agent. -/
def setBacklog (s : Station τ) (agent : AgentId) (b : Backlog) : Station τ :=
  { s with agents := s.agents.modify agent fun a => { a with backlog := some b } }

/-- The presence of an agent. -/
def presenceOf (s : Station τ) (agent : AgentId) : Presence := s.watch.presenceOf agent

/-- The phase of a request that is pending, or finished and not yet forgotten. -/
def phaseOf (s : Station τ) (request : RequestId) : Option Phase :=
  match s.pending.get? request with
  | some agent => (s.backlogOf agent).bind (·.phaseOf request)
  | none => s.results.get? request

/-- The pending requests of all agents. -/
def queueDepth (s : Station τ) : Nat := total Agent.pendingLen s.agents.values

/-- The agents, in the order of their numbers. -/
def snapshots (s : Station τ) (now : Instant) : List Snapshot :=
  s.agents.entries.map fun (agent, a) =>
    { agent
      presence := s.watch.presenceOf agent
      age := (s.watch.lastSeen agent).map now.since
      capabilities := a.capabilities
      queueDepth := a.pendingLen }

/-- The counters and levels of the network. -/
def report (s : Station τ) : Report where
  network := s.id
  agents := s.agents.size
  agentsOnline := s.watch.onlineCount
  tally := s.tally
  queueDepth := s.queueDepth
  epoch := s.epoch
  throttle := s.throttle.map fun b => ⟨b.granted, b.denied, b.level⟩

/-! ### Bookkeeping -/

/-- Adopt a newer epoch; older ones are ignored. -/
def adoptEpoch (s : Station τ) (epoch : Nat) : Station τ := { s with epoch := max s.epoch epoch }

/-- Publish a change of presence, with the number of agents online. -/
def announce (s : Station τ) (change : PresenceChange) : Station τ :=
  (s.level (.agentsOnline s.id) s.watch.onlineCount).publish
    (.presence s.id change.agent change.source change.target)

/-- The label under which a request that ended in a phase is counted. -/
def outcomeLabel : Phase → String
  | .failed cause => cause.label
  | .cancelled => "cancelled"
  | _ => "acked"

/-- Book a finished request: it is pending no longer, and its phase is kept for a while. -/
def conclude (f : Finished) (now : Instant) : Act τ Unit := fun s =>
  let s := { s with
    pending := s.pending.erase f.request
    tally := s.tally.recordFinished f.phase }
  let s := s.count (.commands s.id (outcomeLabel f.phase))
  let s := { s with results := s.results.insert f.request f.phase }
  match now.after s.settings.resultGrace with
  | .error fault => .error fault s
  | .ok expires =>
      let s := { s with expiry := s.expiry ++ [(f.request, expires)] }
      .ok () (s.publish (.finished s.id f.agent f.request f.phase f.outcome))

/-- Book finished requests one after the other. -/
def concludeAll (finished : List Finished) (now : Instant) : Act τ Unit :=
  finished.forM (conclude · now)

/-- Forget the finished requests whose time is over. -/
def expireResults (s : Station τ) (now : Instant) : Station τ :=
  let past := s.expiry.takeWhile fun e => e.2 ≤ now
  { s with
    expiry := s.expiry.dropWhile fun e => e.2 ≤ now
    results := past.foldl (fun t e => t.erase e.1) s.results }

end Station

end GroundControl
