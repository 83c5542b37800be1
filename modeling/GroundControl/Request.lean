import GroundControl.Time
import GroundControl.Frame
import GroundControl.Lifecycle

/-!
# Command requests

A command on its way to one agent, the outcome it ends with, and the handle on which its
submitter waits.

* `Outcome`, `Outcome.failureText`;
* `Request`, `Request.new`, `Request.attemptsRemain`;
* `Request.advance`, one lifecycle step; `Request.finish`, the last one;
* `Finished`, the record of a request that has reached a terminal phase;
* `Handle`, and `Outcome.abandoned`, what a handle reports if its request disappears.
-/

namespace GroundControl

/-- Which of two waiting requests goes first. -/
inductive Urgency
  | normal
  | urgent
  deriving DecidableEq, Repr

instance : Inhabited Urgency := ⟨.normal⟩

namespace Urgency

/-- The place of an urgency in the order of urgencies. -/
def rank : Urgency → Nat
  | .normal => 0
  | .urgent => 1

instance : LT Urgency := ⟨fun a b => a.rank < b.rank⟩

instance : DecidableLT Urgency := fun a b => inferInstanceAs (Decidable (a.rank < b.rank))

end Urgency

/-- How a request ended. -/
inductive Outcome
  /-- after so many attempts, with the round-trip time of the answered one -/
  | success (attempts : Nat) (roundTrip : Option Span)
  /-- after so many attempts, with what the agent or the link said about it -/
  | failure (cause : FailureCause) (attempts : Nat) (detail : Option String)
  deriving DecidableEq, Repr

namespace Outcome

/-- The number of attempts made. -/
def attempts : Outcome → Nat
  | .success n _ => n
  | .failure _ n _ => n

/-- The wording of a failure. -/
def failureText (cause : FailureCause) (attempts : Nat) : String :=
  "command failed after " ++ toString attempts ++ " attempt(s): " ++ cause.label

/-- The phase that goes with an outcome. -/
def phase : Outcome → Phase
  | .success .. => .acked
  | .failure .cancelled .. => .cancelled
  | .failure cause .. => .failed cause

/-- What a submitter is told if the request disappeared without an outcome. -/
def abandoned (network : NetworkId) : Outcome :=
  .failure .agentGone 0 (some ("network " ++ network ++ " closed"))

end Outcome

/-- The number under which a submitter waits for the outcome of a request. -/
abbrev Ticket := Nat

/-- A command for one agent. -/
structure Request where
  id : RequestId
  network : NetworkId
  agent : AgentId
  payload : Payload
  urgency : Urgency
  maxAttempts : Nat
  attempts : Nat
  phase : Phase
  /-- the instant up to which the current attempt may be answered -/
  deadline : Option Instant
  /-- the instant of the last transmission -/
  sentAt : Option Instant
  cancelRequested : Bool
  ticket : Ticket
  deriving DecidableEq, Repr

/-- What a submitter holds on to. -/
structure Handle where
  request : RequestId
  network : NetworkId
  agent : AgentId
  ticket : Ticket
  deriving DecidableEq, Repr

/-- A request that has reached a terminal phase. -/
structure Finished where
  request : RequestId
  agent : AgentId
  trafficClass : TrafficClass
  phase : Phase
  outcome : Outcome
  ticket : Ticket
  deriving DecidableEq, Repr

namespace Request

/-- A queued request without any attempt; at least one attempt is allowed. -/
def new (id : RequestId) (network : NetworkId) (agent : AgentId) (payload : Payload)
    (urgency : Urgency) (maxAttempts : Nat) (ticket : Ticket) : Request where
  id; network; agent; payload; urgency; ticket
  maxAttempts := max maxAttempts 1
  attempts := 0
  phase := .queued
  deadline := none
  sentAt := none
  cancelRequested := false

/-- The handle of a request. -/
def handle (r : Request) : Handle := ⟨r.id, r.network, r.agent, r.ticket⟩

/-- The class of the command. -/
def trafficClass (r : Request) : TrafficClass := r.payload.trafficClass

/-- Whether a further attempt is allowed. -/
def attemptsRemain (r : Request) : Bool := decide (r.attempts < r.maxAttempts)

/-- Whether the reply is overdue at `now`. -/
def overdue (r : Request) (now : Instant) : Bool :=
  r.phase == .awaitingAck && r.deadline.any fun d => decide (d < now)

/-- Whether the request waits for the reply with the given key. -/
def awaits (r : Request) (key : ReplyKey) : Bool :=
  r.phase == .awaitingAck && r.payload.key == some key

/-- Take a lifecycle step; a refused step leaves the request as it is and is returned. -/
def advance (r : Request) (target : Phase) : Request × List Phase.IllegalStep :=
  match r.phase.advance target with
  | .ok phase => ({ r with phase }, [])
  | .error refused => (r, [refused])

/-- Take the last step of the lifecycle, with the outcome for the submitter. -/
def finish (r : Request) (target : Phase) (outcome : Outcome) :
    Finished × List Phase.IllegalStep :=
  let (r, refused) := r.advance target
  (⟨r.id, r.agent, r.trafficClass, r.phase, outcome, r.ticket⟩, refused)

end Request

end GroundControl
