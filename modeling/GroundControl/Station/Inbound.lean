import GroundControl.Station.Basic

/-!
# Inbound messages at a station

A message for this network, from an agent that is registered or may register, updates what is
known about the agent; the reply it carries, if any, is matched against the agent's backlog.  Any
other message is dropped and leaves nothing but a count.

* `Station.admits`, `Station.register`, `Station.hear`;
* `Station.matchReply`, `Station.route`.
-/

namespace GroundControl

/-- What a message says about the power of its sender. -/
def MessageKind.signal : MessageKind → Signal
  | .lowPowerHeartbeat => .poweredDown
  | _ => .alive

namespace Station

variable {τ : Type}

/-- Whether messages of an agent are heard: it is registered, or there is room for it. -/
def admits (s : Station τ) (agent : AgentId) : Bool :=
  s.agents.contains agent || s.settings.maxAgents.all fun n => decide (s.agents.size < n)

/-- Register an agent, unless it is registered already. -/
def register (s : Station τ) (agent : AgentId) : Station τ :=
  if s.agents.contains agent then s
  else
    { s with agents := s.agents.insert agent ⟨.none, none⟩ }.publish (.registered s.id agent)

/-- Drop a message of an agent for which there is no room. -/
def dropCapped (s : Station τ) : Station τ :=
  { s with tally := { s.tally with droppedAgentCap := s.tally.droppedAgentCap + 1 } }.count
    (.dropped s.id .agentCap)

/-- Take in what a message says about its sender. -/
def hear (s : Station τ) (m : Message) (now : Instant) : Station τ :=
  let s := { s with tally := { s.tally with inbound := s.tally.inbound.record m.kind } }.count
    (.inbound s.id m.kind)
  let s := match m.capabilities with
    | none => s
    | some capabilities =>
        { s with agents := s.agents.modify m.agent fun a => { a with capabilities } }
  let (change, watch) := s.watch.observe m.agent now m.kind.signal
  let s := { s with watch }
  match change with
  | none => s
  | some change => s.announce change

/-- Take in the round-trip time of an exchange. -/
def sample (trafficClass : TrafficClass) (measured : Span) : Act τ Unit := fun s =>
  match s.estimator.sample trafficClass measured with
  | .error fault => .error fault s
  | .ok estimator =>
      .ok () ({ s with estimator }.emit
        (.measured (.roundTrip s.id trafficClass) (.time measured)))

/-- Match a reply of an agent; the answer tells whether it belongs to a request. -/
def matchReply (agent : AgentId) (reply : Reply) (now : Instant) : Act τ Bool := do
  let s ← get
  match (s.backlogOf agent).map (·.answer reply.key reply.verdict now) with
  | some (some found, backlog) =>
      set ((s.setBacklog agent backlog).deliver [found.finished])
      match found.sample with
      | some (trafficClass, measured) => sample trafficClass measured
      | none => pure ()
      conclude found.finished now
      return true
  | _ =>
      set { s with tally := { s.tally with unmatchedReplies := s.tally.unmatchedReplies + 1 } }
      return false

/-- Route a message; the answer is the agent whose request it finished, if it finished one. -/
def route (m : Message) (now : Instant) : Act τ (Option AgentId) := do
  let s ← get
  if m.network ≠ s.id then
    set (s.count (.dropped s.id .wrongNetwork))
    return none
  else if !s.admits m.agent then
    set s.dropCapped
    return none
  else
    set ((s.register m.agent).hear m now)
    match m.reply with
    | none => return none
    | some reply =>
        let found ← matchReply m.agent reply now
        return if found then some m.agent else none

end Station

end GroundControl
