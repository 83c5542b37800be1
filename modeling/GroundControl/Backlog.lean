import GroundControl.Request

/-!
# The backlog of an agent

The pending requests of one agent: one of them in flight at most, the others waiting, urgent ones
before normal ones and each sort in the order of submission.

* `Backlog`, `Backlog.pendingLen`, `Backlog.submit`;
* `Backlog.launch`, which hands out the next request, and what the link does with it:
  `Backlog.transmitted`, `Backlog.refused`;
* `Backlog.review`, the check for withdrawn and overdue requests;
* `Backlog.answer`, the match of a reply;
* `Backlog.withdraw`, `Backlog.dissolve`.

Every request leaves the backlog through `Backlog.close`, which takes the last lifecycle step.
Steps that the lifecycle does not allow leave the phase as it is and are kept in
`Backlog.refusals`.
-/

namespace GroundControl

/-- The pending requests of one agent. -/
structure Backlog where
  agent : AgentId
  /-- the number of requests that may be pending -/
  depth : Nat
  waiting : List Request
  inFlight : Option Request
  /-- timeouts in a row, without any reply from the agent -/
  timeouts : Nat
  /-- the lifecycle steps that were refused -/
  refusals : List Phase.IllegalStep
  deriving DecidableEq

/-- A request handed out for transmission. -/
structure Launch where
  request : RequestId
  trafficClass : TrafficClass
  body : Bytes
  key : Option ReplyKey
  /-- the number of the attempt, counted from one -/
  attempt : Nat
  deriving DecidableEq, Repr

/-- The request a reply belongs to, and the round-trip time if it can be told. -/
structure Match where
  finished : Finished
  sample : Option (TrafficClass × Span)
  deriving DecidableEq, Repr

namespace Backlog

/-- A backlog without requests. -/
def new (agent : AgentId) (depth : Nat) : Backlog := ⟨agent, depth, [], none, 0, []⟩

/-- The pending requests, the one in flight first. -/
def requests (b : Backlog) : List Request := b.inFlight.toList ++ b.waiting

/-- The number of pending requests. -/
def pendingLen (b : Backlog) : Nat := b.waiting.length + b.inFlight.toList.length

/-- Whether no request is pending. -/
def isEmpty (b : Backlog) : Bool := b.pendingLen == 0

/-- Whether the request in flight waits for its reply. -/
def awaiting (b : Backlog) : Bool := b.inFlight.any fun r => r.phase == .awaitingAck

/-- The phase of a pending request. -/
def phaseOf (b : Backlog) (id : RequestId) : Option Phase :=
  (b.requests.find? fun r => r.id == id).map (·.phase)

/-- Keep the lifecycle steps that were refused. -/
def note (b : Backlog) (refused : List Phase.IllegalStep) : Backlog :=
  { b with refusals := b.refusals ++ refused }

/-- Put a request before the first normal one. -/
def insertBeforeNormal (r : Request) : List Request → List Request
  | [] => [r]
  | q :: rest =>
      if q.urgency = .normal then r :: q :: rest else q :: insertBeforeNormal r rest

/-- Put a new request at the end of its sort. -/
def enqueue (r : Request) (waiting : List Request) : List Request :=
  match r.urgency with
  | .urgent => insertBeforeNormal r waiting
  | .normal => waiting ++ [r]

/-- Put a request that is to be tried again at the head of its sort. -/
def requeue (r : Request) (waiting : List Request) : List Request :=
  match r.urgency with
  | .urgent => r :: waiting
  | .normal => insertBeforeNormal r waiting

/-- Add a request, unless the backlog is full. -/
def submit (b : Backlog) (r : Request) : Option Backlog :=
  if b.depth ≤ b.pendingLen then none
  else some { b with waiting := enqueue r b.waiting }

/-- The class of the request that would be handed out now. -/
def nextClass (b : Backlog) : Option TrafficClass :=
  match b.inFlight with
  | some _ => none
  | none => b.waiting.head?.map (·.trafficClass)

/-- Hand out the next request, unless one is in flight; this counts as an attempt. -/
def launch (b : Backlog) : Option (Launch × Backlog) :=
  match b.inFlight, b.waiting with
  | some _, _ => none
  | none, [] => none
  | none, r :: rest =>
      let (r, refused) := r.advance .sent
      let r := { r with attempts := r.attempts + 1 }
      some (⟨r.id, r.trafficClass, r.payload.body, r.payload.key, r.attempts⟩,
        { b with waiting := rest, inFlight := some r }.note refused)

/-- Let a request, taken out of the backlog before, take its last lifecycle step. -/
def close (b : Backlog) (r : Request) (target : Phase) (outcome : Outcome) :
    Finished × Backlog :=
  let (finished, refused) := r.finish target outcome
  (finished, b.note refused)

/-- Put the request that was in flight back among the waiting ones. -/
def retry (b : Backlog) (r : Request) : Backlog :=
  let (r, refused) := r.advance .queued
  { b with waiting := requeue r b.waiting }.note refused

/-- The link took the request in flight: one that expects a reply waits for it until `timeout`
has passed, any other is complete. -/
def transmitted (b : Backlog) (now : Instant) (timeout : Span) :
    Except Fault (Option Finished) × Backlog :=
  match b.inFlight with
  | none => (.ok none, b)
  | some r =>
      if r.phase ≠ .sent then (.ok none, b)
      else
        let r := { r with sentAt := some now }
        if r.payload.expectsReply then
          let (r, refused) := r.advance .awaitingAck
          match now.after timeout with
          | .error fault => (.error fault, { b with inFlight := some r }.note refused)
          | .ok deadline =>
              (.ok none, { b with inFlight := some { r with deadline } }.note refused)
        else
          let (finished, b) := { b with inFlight := none }.close r .acked
            (.success r.attempts none)
          (.ok (some finished), b)

/-- The link refused the request in flight, which counts as a failed attempt. -/
def refused (b : Backlog) (detail : String) : Option Finished × Backlog :=
  match b.inFlight with
  | none => (none, b)
  | some r =>
      let b := { b with inFlight := none }
      if r.attemptsRemain then (none, b.retry r)
      else
        let (finished, b) := b.close r (.failed .transport)
          (.failure .transport r.attempts (some detail))
        (some finished, b)

/-- End a request that was withdrawn. -/
def closeCancelled (b : Backlog) (r : Request) : Finished × Backlog :=
  b.close r .cancelled (.failure .cancelled r.attempts none)

/-- End the requests of a list, taken out of the backlog before, one after the other. -/
def closeAll (end_ : Backlog → Request → Finished × Backlog) (b : Backlog) :
    List Request → List Finished × Backlog
  | [] => ([], b)
  | r :: rest =>
      let (finished, b) := end_ b r
      let (others, b) := closeAll end_ b rest
      (finished :: others, b)

/-- End the withdrawn requests: the one in flight, then the waiting ones in their order. -/
def dropCancelled (b : Backlog) : List Finished × Backlog :=
  let flying := b.inFlight.toList.filter (·.cancelRequested)
  let waiting := b.waiting.filter (·.cancelRequested)
  closeAll closeCancelled
    { b with
      inFlight := b.inFlight.filter fun r => !r.cancelRequested
      waiting := b.waiting.filter fun r => !r.cancelRequested }
    (flying ++ waiting)

/-- The number at which the count of timeouts in a row stops, `2 ^ 32 - 1`. -/
def maxTimeouts : Nat := 4294967295

/-- Count a timeout, and try the request again or give it up. -/
def expire (b : Backlog) (r : Request) : Option Finished × Backlog :=
  let (r, refused) := r.advance .timedOut
  let r := { r with deadline := none }
  let b := { b with inFlight := none, timeouts := min (b.timeouts + 1) maxTimeouts }.note refused
  if r.attemptsRemain then (none, b.retry r)
  else
    let (finished, b) := b.close r (.failed .timeout) (.failure .timeout r.attempts none)
    (some finished, b)

/-- End the withdrawn requests, and time out the request in flight if its reply is overdue. -/
def review (b : Backlog) (now : Instant) : List Finished × Backlog :=
  let (cancelled, b) := b.dropCancelled
  match b.inFlight.filter (·.overdue now) with
  | none => (cancelled, b)
  | some r =>
      let (finished, b) := b.expire r
      (cancelled ++ finished.toList, b)

/-- The outcome of a request that is answered. -/
def verdictOutcome (attempts : Nat) (roundTrip : Option Span) : Verdict → Outcome
  | .accepted => .success attempts roundTrip
  | .rejected reason => .failure .rejected attempts (some reason)

/-- The last phase of a request that is answered. -/
def verdictPhase : Verdict → Phase
  | .accepted => .acked
  | .rejected _ => .failed .rejected

/-- Match a reply against the request that waits for it.  A withdrawn request ends as cancelled
whatever the reply says, and only the answer to a first attempt tells a round-trip time. -/
def answer (b : Backlog) (key : ReplyKey) (verdict : Verdict) (now : Instant) :
    Option Match × Backlog :=
  match b.inFlight.filter (·.awaits key) with
  | none => (none, b)
  | some r =>
      let b := { b with inFlight := none, timeouts := 0 }
      if r.cancelRequested then
        let (finished, b) := b.closeCancelled r
        (some ⟨finished, none⟩, b)
      else
        let roundTrip := r.sentAt.map now.since
        let sample := if r.attempts = 1 then roundTrip.map (r.trafficClass, ·) else none
        let (finished, b) := b.close r (verdictPhase verdict)
          (verdictOutcome r.attempts roundTrip verdict)
        (some ⟨finished, sample⟩, b)

/-- Mark the first request with the given number as withdrawn. -/
def markCancelled (id : RequestId) : List Request → List Request
  | [] => []
  | r :: rest =>
      if r.id = id then { r with cancelRequested := true } :: rest
      else r :: markCancelled id rest

/-- Withdraw a pending request; it ends at the next review or reply. -/
def withdraw (b : Backlog) (id : RequestId) : Bool × Backlog :=
  match b.inFlight.filter fun r => r.id = id with
  | some r => (true, { b with inFlight := some { r with cancelRequested := true } })
  | none =>
      (b.waiting.any fun r => r.id = id, { b with waiting := markCancelled id b.waiting })

/-- End a request whose agent is removed. -/
def closeGone (b : Backlog) (r : Request) : Finished × Backlog :=
  b.close r (.failed .agentGone) (.failure .agentGone r.attempts none)

/-- End every pending request because the agent is removed. -/
def dissolve (b : Backlog) : List Finished × Backlog :=
  closeAll closeGone { b with inFlight := none, waiting := [] } b.requests

end Backlog

end GroundControl
