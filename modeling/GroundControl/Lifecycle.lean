/-!
# The lifecycle of a request

The phases a command request passes through and the steps between them.

* `FailureCause`, `Phase`, `Phase.isTerminal`;
* `Phase.canBecome`, the steps the lifecycle allows;
* `Phase.advance`, which takes an allowed step and refuses any other;
* `Phase.walk`, a sequence of attempted steps.
-/

namespace GroundControl

/-- Why a request ended without being acknowledged. -/
inductive FailureCause
  /-- no reply came in time to the last attempt -/
  | timeout
  /-- the agent refused the command -/
  | rejected
  /-- the agent was removed -/
  | agentGone
  /-- the caller withdrew the request -/
  | cancelled
  /-- the link refused the frame of the last attempt -/
  | transport
  deriving DecidableEq, Repr

namespace FailureCause

/-- Every cause of failure. -/
def all : List FailureCause := [.timeout, .rejected, .agentGone, .cancelled, .transport]

/-- The name of a cause in reports and measurements. -/
def label : FailureCause → String
  | .timeout => "timeout"
  | .rejected => "rejected"
  | .agentGone => "agent_gone"
  | .cancelled => "cancelled"
  | .transport => "transport"

/-- The name of a cause inside the name of a phase. -/
def title : FailureCause → String
  | .timeout => "Timeout"
  | .rejected => "Rejected"
  | .agentGone => "AgentGone"
  | .cancelled => "Cancelled"
  | .transport => "Transport"

end FailureCause

/-- The phases of a request. -/
inductive Phase
  /-- waiting for its turn -/
  | queued
  /-- handed to the link -/
  | sent
  /-- transmitted, waiting for the reply -/
  | awaitingAck
  /-- without a reply in time; left at once -/
  | timedOut
  /-- accepted by the agent, or transmitted if no reply is expected -/
  | acked
  | failed (cause : FailureCause)
  | cancelled
  deriving DecidableEq, Repr

namespace Phase

/-- The name of a phase in error texts. -/
def title : Phase → String
  | .queued => "Queued"
  | .sent => "Sent"
  | .awaitingAck => "AwaitingAck"
  | .timedOut => "TimedOut"
  | .acked => "Acked"
  | .failed cause => "Failed(" ++ cause.title ++ ")"
  | .cancelled => "Cancelled"

/-- Every phase. -/
def all : List Phase :=
  [.queued, .sent, .awaitingAck, .timedOut, .acked, .cancelled] ++ FailureCause.all.map .failed

/-- The name of a phase in listings. -/
def label : Phase → String
  | .queued => "queued"
  | .sent => "sent"
  | .awaitingAck => "awaiting_ack"
  | .timedOut => "timed_out"
  | .acked => "acked"
  | .cancelled => "cancelled"
  | .failed cause => "failed:" ++ cause.label

/-- Whether a phase is never left. -/
def isTerminal : Phase → Bool
  | .acked | .failed _ | .cancelled => true
  | _ => false

/-- Whether the lifecycle allows a step from one phase to another. -/
def canBecome : Phase → Phase → Bool
  | .queued, .sent => true
  | .queued, .failed .agentGone => true
  | .queued, .cancelled => true
  | .sent, .awaitingAck => true
  | .sent, .acked => true
  | .sent, .queued => true
  | .sent, .failed _ => true
  | .sent, .cancelled => true
  | .awaitingAck, .acked => true
  | .awaitingAck, .failed _ => true
  | .awaitingAck, .timedOut => true
  | .awaitingAck, .cancelled => true
  | .timedOut, .queued => true
  | .timedOut, .failed .timeout => true
  | _, _ => false

/-- A step the lifecycle does not allow. -/
structure IllegalStep where
  source : Phase
  target : Phase
  deriving DecidableEq, Repr

/-- The wording of a refused step. -/
def IllegalStep.message (e : IllegalStep) : String :=
  "invalid request transition: " ++ e.source.title ++ " -> " ++ e.target.title

/-- Take a step, if the lifecycle allows it. -/
def advance (source target : Phase) : Except IllegalStep Phase :=
  if source.canBecome target then .ok target else .error ⟨source, target⟩

/-- Attempt one step after the other; a refused step leaves the phase as it is. -/
def walk (start : Phase) : List Phase → List (Except IllegalStep Phase) × Phase
  | [] => ([], start)
  | target :: rest =>
      let step := start.advance target
      let (steps, last) := walk (step.toOption.getD start) rest
      (step :: steps, last)

/-- Nothing leaves a terminal phase. -/
theorem canBecome_of_isTerminal {source target : Phase} (h : source.isTerminal = true) :
    source.canBecome target = false := by
  cases source <;> simp_all [isTerminal, canBecome]

theorem advance_eq_ok_iff {source target p : Phase} :
    source.advance target = .ok p ↔ source.canBecome target = true ∧ p = target := by
  unfold advance
  split
  · rename_i h
    simp only [Except.ok.injEq, h, true_and]
    exact eq_comm
  · rename_i h
    simp only [h, false_and, reduceCtorEq, Bool.false_eq_true]

end Phase

end GroundControl
