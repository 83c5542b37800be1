import GroundControl.Station.Inbound
import GroundControl.Station.Pump

/-!
# The operations of a station

* `Station.deliverInbound`, `Station.submit`, `Station.enqueue`;
* `Station.sweep`, `Station.tick`;
* `Station.tryBroadcast`, one attempt at a broadcast, and `Station.broadcast`, which waits for a
  token between the attempts; `Station.correction`;
* `Station.cancel`, `Station.deregister`, `Station.shutdown`.
-/

namespace GroundControl

/-- How an attempt at a broadcast ends. -/
inductive Attempt (α : Type)
  | done (answer : Except DispatchError α)
  /-- try again at an instant -/
  | wait (until_ : Instant)

namespace Station

variable {τ : Type}

/-- Route a message, and move what its reply has set free. -/
def deliverInbound [Carrier τ] (m : Message) (now : Instant) : Act τ Unit := do
  match ← route m now with
  | none => pure ()
  | some agent => pump agent now

/-- Queue a command for a registered agent. -/
def enqueue (request : RequestId) (agent : AgentId) (payload : Payload) (urgency : Urgency)
    (maxAttempts : Nat) (s : Station τ) : Except DispatchError Handle × Station τ :=
  match s.agents.get? agent with
  | none => (.error (.unknownAgent s.id agent), s)
  | some a =>
      let maxAttempts := if maxAttempts = 0 then s.settings.attempts else maxAttempts
      let r := Request.new request s.id agent payload urgency maxAttempts s.tickets
      let backlog := a.backlog.getD (.new agent s.settings.queueDepth)
      match backlog.submit r with
      | none => (.error (.queueFull s.id agent backlog.depth), s.setBacklog agent backlog)
      | some backlog =>
          (.ok r.handle,
            { s.setBacklog agent backlog with
              pending := s.pending.insert request agent
              tickets := s.tickets + 1 })

/-- Queue a command for a registered agent, and move the agent's requests. -/
def submit [Carrier τ] (request : RequestId) (agent : AgentId) (payload : Payload)
    (urgency : Urgency) (maxAttempts : Nat) (now : Instant) :
    Act τ (Except DispatchError Handle) := do
  match ← modifyGet (enqueue request agent payload urgency maxAttempts) with
  | .error e => return .error e
  | .ok handle =>
      pump agent now
      return .ok handle

/-- Mark silent agents as offline. -/
def sweep [Walk] (now : Instant) (s : Station τ) : List PresenceChange × Station τ :=
  let (changes, watch) := s.watch.sweep now
  (changes, changes.foldl announce { s with watch })

/-- Mark silent agents as offline, and move the requests of every agent. -/
def tick [Carrier τ] [Walk] (now : Instant) : Act τ Unit := do
  let _ ← modifyGet (sweep now)
  pumpAll now

/-! ### Broadcasts -/

/-- Hand a broadcast to the link. -/
def transmitAll [Carrier τ] (bulletin : Bulletin) (s : Station τ) :
    Except DispatchError Unit × Station τ :=
  let frame : Frame := ⟨s.id, .everyone, bulletin.body, none, s.epoch⟩
  let (answer, carrier) := Carrier.send s.carrier frame
  let s := { s with carrier }.emit (.sent frame answer)
  match answer with
  | .error source => (.error (.transport s.id source), s)
  | .ok () =>
      let tally := { s.tally with broadcasts := s.tally.broadcasts.record bulletin.kind }
      (.ok (), { s with tally }.count (.broadcasts s.id bulletin.kind))

/-- Give up a broadcast for lack of a token. -/
def rateLimited (s : Station τ) : Except DispatchError Unit × Station τ :=
  (.error (.rateLimited s.id),
    { s with tally := { s.tally with broadcastsRateLimited := s.tally.broadcastsRateLimited + 1 } })

/-- Attempt a broadcast that may wait for a token until `deadline`. -/
def tryBroadcast [Carrier τ] (bulletin : Bulletin) (deadline now : Instant) :
    Act τ (Attempt Unit) := do
  let s ← get
  match s.throttle with
  | none => return .done (← modifyGet (transmitAll bulletin))
  | some bucket =>
      let (claim, bucket) := bucket.claim 1 deadline now
      set { s with throttle := some bucket }
      match claim with
      | .error fault => throw fault
      | .ok .granted => return .done (← modifyGet (transmitAll bulletin))
      | .ok .denied => return .done (← modifyGet rateLimited)
      | .ok (.wait ready) => return .wait ready

/-- The attempts at a broadcast, `n` of them at most. -/
def broadcastRounds [Carrier τ] (wake : Instant → Instant) (bulletin : Bulletin)
    (deadline : Instant) : Nat → Instant → Act τ (Except DispatchError Unit × Instant)
  | 0, now => return (← modifyGet rateLimited, now)
  | n + 1, now => do
      match ← tryBroadcast bulletin deadline now with
      | .done answer => return (answer, now)
      | .wait ready => broadcastRounds wake bulletin deadline n (wake ready)

/-- Send a broadcast, waiting for a token until `deadline` at most.  A sleeper that wants to wake
at an instant `t` does so at `wake t`; the answer comes with the time at the end.  Every attempt
but the last one moves the clock on and stays before the deadline, which bounds their number. -/
def broadcast [Carrier τ] (wake : Instant → Instant) (bulletin : Bulletin)
    (deadline now : Instant) : Act τ (Except DispatchError Unit × Instant) :=
  broadcastRounds wake bulletin deadline (deadline - now + 2) now

/-- Whether a piece of the correction stream is to be sent to this network. -/
def takesCorrection (s : Station τ) (skipIfIdle : Bool) : Bool :=
  s.settings.corrections && !(skipIfIdle && !s.watch.anyOnline)

/-- Send a piece of the correction stream, if this network takes it; the answer tells whether it
was sent. -/
def correction [Carrier τ] (wake : Instant → Instant) (bulletin : Bulletin) (skipIfIdle : Bool)
    (deadline now : Instant) : Act τ (Except DispatchError Bool × Instant) := do
  if (← get).takesCorrection skipIfIdle then
    let (answer, now) ← broadcast wake bulletin deadline now
    return (answer.map fun () => true, now)
  else return (.ok false, now)

/-! ### Withdrawal and removal -/

/-- Withdraw a pending request; the answer tells whether it is pending. -/
def cancel (request : RequestId) (s : Station τ) : Bool × Station τ :=
  match s.pending.get? request with
  | none => (false, s)
  | some agent =>
      match s.backlogOf agent with
      | none => (false, s)
      | some backlog =>
          let (found, backlog) := backlog.withdraw request
          (found, s.setBacklog agent backlog)

/-- Let go of an agent that is registered no longer. -/
def evict (agent : AgentId) (a : Agent) (now : Instant) : Act τ Unit := do
  match a.backlog with
  | none => pure ()
  | some backlog =>
      let (finished, gone) := backlog.dissolve
      modify fun s => { s with refusals := s.refusals ++ gone.refusals }.deliver finished
      concludeAll finished now
  modify fun s => { s with watch := s.watch.forget agent }.publish (.evicted s.id agent)

/-- Remove an agent; its pending requests end. -/
def deregister (agent : AgentId) (now : Instant) : Act τ (Except DispatchError Unit) := do
  let s ← get
  match s.agents.get? agent with
  | none => return .error (.unknownAgent s.id agent)
  | some a =>
      set { s with agents := s.agents.erase agent }
      evict agent a now
      return .ok ()

/-- Remove every agent. -/
def shutdown [Walk] (now : Instant) : Act τ Unit := do
  let s ← get
  set { s with agents := ∅ }
  (Walk.entries s.agents).forM fun e => evict e.1 e.2 now
  modify fun s => s.level (.queueDepth s.id) 0

end Station

end GroundControl
