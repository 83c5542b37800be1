import GroundControl.Station.Basic

/-!
# Pumping a backlog

Pumping is what moves the requests of an agent: withdrawn and overdue ones are dealt with, and then
requests are handed to the link until one waits for its reply, the link refuses a frame, or bulk
traffic finds no token.

* `Pass τ`, what a pump works on; `Pass.round`, the transmission of one request;
* `Pass.run`, the rounds of one pump, no more than there are waiting requests;
* `Station.pump`, `Station.pumpAll`.
-/

namespace GroundControl

/-- What a pump looks up and does not change. -/
structure PassContext where
  network : NetworkId
  agent : AgentId
  estimator : Estimator TrafficClass
  maxTimeout : Span
  epoch : Nat
  now : Instant

/-- What a pump works on. -/
structure Pass (τ : Type) where
  backlog : Backlog
  throttle : Option (Bucket Float)
  carrier : τ
  finished : List Finished
  /-- frames that were not the first of their request -/
  retries : Nat
  /-- frames that the link took -/
  taken : Nat
  /-- frames that the link refused -/
  refused : Nat
  /-- the frames, with the answers of the link -/
  frames : List (Frame × Except LinkError Unit)

/-- How a round of a pump ends. -/
inductive Round (τ : Type)
  | next (p : Pass τ)
  | stop (p : Pass τ)
  | fault (fault : Fault) (p : Pass τ)

namespace Pass

variable {τ : Type}

/-- Pay for the transmission of a request, if its class has to: the answer tells whether it may be
sent. -/
def pay (p : Pass τ) (c : TrafficClass) (now : Instant) : Bool × Pass τ :=
  if c.isBulk then
    match p.throttle with
    | none => (true, p)
    | some bucket =>
        let (paid, bucket) := bucket.take 1 now
        (paid, { p with throttle := some bucket })
  else (true, p)

/-- The frame of a request. -/
def frameOf (ctx : PassContext) (launch : Launch) : Frame :=
  ⟨ctx.network, .agent ctx.agent, launch.body, launch.key, ctx.epoch⟩

/-- Hand a request that was launched to the link. -/
def transmit [Carrier τ] (ctx : PassContext) (p : Pass τ) (launch : Launch) : Round τ :=
  match ctx.estimator.timeout launch.trafficClass with
  | .error fault => .fault fault p
  | .ok base =>
      let timeout := backoff base p.backlog.timeouts ctx.maxTimeout
      let frame := frameOf ctx launch
      let (answer, carrier) := Carrier.send p.carrier frame
      let p := { p with carrier, frames := p.frames ++ [(frame, answer)] }
      match answer with
      | .ok () =>
          let p := { p with taken := p.taken + 1 }
          match p.backlog.transmitted ctx.now timeout with
          | (.error fault, backlog) => .fault fault { p with backlog }
          | (.ok finished, backlog) =>
              let p := { p with backlog, finished := p.finished ++ finished.toList }
              if backlog.awaiting then .stop p else .next p
      | .error e =>
          let (finished, backlog) := p.backlog.refused e.message
          .stop { p with
            backlog
            refused := p.refused + 1
            finished := p.finished ++ finished.toList }

/-- Transmit the next request, if there is one and it may be sent. -/
def round [Carrier τ] (ctx : PassContext) (p : Pass τ) : Round τ :=
  match p.backlog.nextClass with
  | none => .stop p
  | some c =>
      match p.pay c ctx.now with
      | (false, p) => .stop p
      | (true, p) =>
          match p.backlog.launch with
          | none => .stop p
          | some (launch, backlog) =>
              let retries := if 1 < launch.attempt then p.retries + 1 else p.retries
              transmit ctx { p with backlog, retries } launch

/-- At most `n` rounds. -/
def rounds [Carrier τ] (ctx : PassContext) : Nat → Pass τ → Option Fault × Pass τ
  | 0, p => (none, p)
  | n + 1, p =>
      match round ctx p with
      | .next p => rounds ctx n p
      | .stop p => (none, p)
      | .fault fault p => (some fault, p)

/-- The rounds of a pump.  A round that is followed by another one has taken a request from the
waiting ones for good, so there are enough of them. -/
def run [Carrier τ] (ctx : PassContext) (p : Pass τ) : Option Fault × Pass τ :=
  rounds ctx p.backlog.waiting.length p

end Pass

namespace Station

variable {τ : Type}

/-- What a pump of an agent looks up. -/
def passContext (s : Station τ) (agent : AgentId) (now : Instant) : PassContext :=
  ⟨s.id, agent, s.estimator, s.settings.maxTimeout, s.epoch, now⟩

/-- Book a pass. -/
def book (s : Station τ) (agent : AgentId) (p : Pass τ) : Station τ :=
  let tally := { s.tally with
    unicastSent := s.tally.unicastSent + p.taken
    sendFailures := s.tally.sendFailures + p.refused
    retries := s.tally.retries + p.retries }
  let log := s.log ++ p.frames.map fun f => .sent f.1 f.2
  ({ s with carrier := p.carrier, throttle := p.throttle, tally, log }.setBacklog agent
    p.backlog).deliver p.finished

/-- Move the requests of an agent. -/
def pump [Carrier τ] (agent : AgentId) (now : Instant) : Act τ Unit := do
  let s ← get
  match s.backlogOf agent with
  | none => pure ()
  | some backlog =>
      let (finished, backlog) := backlog.review now
      let (fault, p) := Pass.run (s.passContext agent now)
        ⟨backlog, s.throttle, s.carrier, finished, 0, 0, 0, []⟩
      set (s.book agent p)
      match fault with
      | some fault => throw fault
      | none =>
          modify fun s => p.retries.repeat (·.count (.retries s.id)) s
          concludeAll p.finished now

/-- The agents with pending requests, in the order in which they come up. -/
def busyAgents [Walk] (s : Station τ) : List AgentId :=
  ((Walk.entries s.agents).filter fun e => e.2.pendingLen ≠ 0).map (·.1)

/-- Move the requests of every agent, and forget the finished requests whose time is over. -/
def pumpAll [Carrier τ] [Walk] (now : Instant) : Act τ Unit := do
  (← get).busyAgents.forM (pump · now)
  modify (·.expireResults now)
  modify fun s => s.level (.queueDepth s.id) s.queueDepth

end Station

end GroundControl
