import GroundControl.Backlog
import GroundControl.Table

/-!
# A backlog and its submitters

A backlog receives calls in any order, sensible or not, and the submitters of its requests wait for
the outcomes.

* `Backlog.Call`, everything a backlog can be asked to do; `Backlog.Response`, what it answers, and
  the requests that are taken in, handed out or ended with the answer;
* `Desk`, a backlog with the outcomes its submitters have learned; `Desk.call`, `Desk.tell`,
  `Desk.perform`;
* `Desk.run`, a list of calls, and `Desk.Step`, a call with the desk before and after it;
* `Desk.entered`, `Desk.ended`, `Desk.launches`: the requests that were taken in, those that have
  ended, and how often a request was handed out.

Tickets are given out in the order in which requests are taken in, so they tell requests apart even
if these have the same number.
-/

namespace GroundControl

namespace Backlog

/-- What a backlog can be asked to do. -/
inductive Call
  /-- take in a new request -/
  | submit (id : RequestId) (network : NetworkId) (agent : AgentId) (payload : Payload)
      (urgency : Urgency) (maxAttempts : Nat)
  /-- hand out the next request -/
  | launch
  /-- the link took what was handed out -/
  | transmitted (now : Instant) (timeout : Span)
  /-- the link refused what was handed out -/
  | refused (detail : String)
  | review (now : Instant)
  | answer (key : ReplyKey) (verdict : Verdict) (now : Instant)
  | withdraw (id : RequestId)
  | dissolve

/-- What a backlog answers. -/
inductive Response
  /-- the request that was taken in, nothing if there was no room -/
  | submitted (request : Option Request)
  | launched (launch : Option Launch)
  | transmitted (result : Except Fault (Option Finished))
  | refused (finished : Option Finished)
  | reviewed (finished : List Finished)
  | answered (found : Option Match)
  | withdrawn (found : Bool)
  | dissolved (finished : List Finished)

/-- The requests that end with an answer. -/
def Response.finished : Response → List Finished
  | .transmitted (.ok finished) | .refused finished => finished.toList
  | .reviewed finished | .dissolved finished => finished
  | .answered found => found.toList.map (·.finished)
  | .transmitted (.error _) | .submitted _ | .launched _ | .withdrawn _ => []

/-- The request that was taken in, if one was. -/
def Response.entered? : Response → Option Request
  | .submitted request => request
  | _ => none

/-- What was handed out, if anything was. -/
def Response.launched? : Response → Option Launch
  | .launched launch => launch
  | _ => none

end Backlog

/-- A backlog and the submitters of its requests. -/
structure Desk where
  backlog : Backlog
  /-- the number of requests that were taken in -/
  tickets : Nat
  /-- the outcomes that submitters have learned -/
  outcomes : Table Ticket Outcome

namespace Desk

open Backlog (Call Response)

/-- A desk without requests. -/
def new (agent : AgentId) (depth : Nat) : Desk := ⟨.new agent depth, 0, ∅⟩

/-- Tell a submitter how its request ended.  A submitter learns one outcome and then stops
listening. -/
def tell (d : Desk) (f : Finished) : Desk :=
  if d.outcomes.contains f.ticket then d
  else { d with outcomes := d.outcomes.insert f.ticket f.outcome }

/-- Pass a call on to the backlog.  After a fault the backlog is as the call has left it. -/
def call (d : Desk) : Call → Response × Desk
  | .submit id network agent payload urgency maxAttempts =>
      let r := Request.new id network agent payload urgency maxAttempts d.tickets
      match d.backlog.submit r with
      | none => (.submitted none, d)
      | some backlog => (.submitted (some r), { d with backlog, tickets := d.tickets + 1 })
  | .launch =>
      match d.backlog.launch with
      | none => (.launched none, d)
      | some (launch, backlog) => (.launched (some launch), { d with backlog })
  | .transmitted now timeout =>
      let (result, backlog) := d.backlog.transmitted now timeout
      (.transmitted result, { d with backlog })
  | .refused detail =>
      let (finished, backlog) := d.backlog.refused detail
      (.refused finished, { d with backlog })
  | .review now =>
      let (finished, backlog) := d.backlog.review now
      (.reviewed finished, { d with backlog })
  | .answer key verdict now =>
      let (found, backlog) := d.backlog.answer key verdict now
      (.answered found, { d with backlog })
  | .withdraw id =>
      let (found, backlog) := d.backlog.withdraw id
      (.withdrawn found, { d with backlog })
  | .dissolve =>
      let (finished, backlog) := d.backlog.dissolve
      (.dissolved finished, { d with backlog })

/-- Pass a call on to the backlog, and tell the submitters what has ended. -/
def perform (d : Desk) (c : Call) : Response × Desk :=
  let (response, d) := d.call c
  (response, response.finished.foldl tell d)

/-- A call, its answer, and the desk before and after it. -/
structure Step where
  before : Desk
  call : Call
  response : Response
  after : Desk

/-- What a call comes to. -/
def step (d : Desk) (c : Call) : Step := ⟨d, c, (d.perform c).1, (d.perform c).2⟩

/-- Pass on calls, one after the other. -/
def run : List Call → Desk → List Step × Desk
  | [], d => ([], d)
  | c :: rest, d =>
      let (steps, last) := run rest (d.step c).after
      (d.step c :: steps, last)

/-! ### What a history tells -/

/-- The ticket of the request that a step handed out, if it handed one out. -/
def Step.launched? (step : Step) : Option Ticket :=
  step.response.launched?.bind fun _ => step.after.backlog.inFlight.map (·.ticket)

/-- The requests that were taken in, as they were then. -/
def entered (steps : List Step) : List Request :=
  steps.filterMap fun step => step.response.entered?

/-- The requests that have ended. -/
def ended (steps : List Step) : List Finished := steps.flatMap fun step => step.response.finished

/-- How often the request with a ticket was handed out. -/
def launches (steps : List Step) (ticket : Ticket) : Nat :=
  steps.countP fun step => step.launched? = some ticket

theorem entered_snoc (past : List Step) (step : Step) :
    entered (past ++ [step]) = entered past ++ step.response.entered?.toList := by
  unfold entered
  rw [List.filterMap_append, List.filterMap_cons]
  cases step.response.entered? <;> rfl

theorem ended_snoc (past : List Step) (step : Step) :
    ended (past ++ [step]) = ended past ++ step.response.finished := by
  unfold ended
  rw [List.flatMap_append, List.flatMap_singleton]

theorem launches_snoc (past : List Step) (step : Step) (ticket : Ticket) :
    launches (past ++ [step]) ticket =
      launches past ticket + if step.launched? = some ticket then 1 else 0 := by
  unfold launches
  rw [List.countP_append, List.countP_singleton]
  simp only [decide_eq_true_eq]

/-- A step that hands nothing out leaves the attempts as they are. -/
theorem launches_snoc_of_eq_none {step : Step} (h : step.response.launched? = none)
    (past : List Step) (ticket : Ticket) :
    launches (past ++ [step]) ticket = launches past ticket := by
  have hn : step.launched? = none := by
    unfold Step.launched?
    rw [h]
    rfl
  rw [launches_snoc, hn, if_neg (Option.some_ne_none ticket).symm]
  rfl

/-- What every call preserves, together with the history so far, holds after all of them. -/
theorem run_induction {P : List Step → Desk → Prop}
    (hstep : ∀ past d c, P past d → P (past ++ [d.step c]) (d.step c).after)
    {past : List Step} {d : Desk} (h : P past d) (calls : List Call) :
    P (past ++ (run calls d).1) (run calls d).2 := by
  induction calls generalizing past d with
  | nil =>
    show P (past ++ []) d
    rwa [List.append_nil]
  | cons c rest ih =>
    have hnext := ih (hstep past d c h)
    rwa [List.append_assoc] at hnext

/-- Every step of a run is made of a call, and finds what the calls before it preserve. -/
theorem exists_of_mem_run {P : List Step → Desk → Prop}
    (hstep : ∀ past d c, P past d → P (past ++ [d.step c]) (d.step c).after)
    {past : List Step} {d : Desk} (h : P past d) {calls : List Call} {step : Step}
    (hm : step ∈ (run calls d).1) : ∃ past d c, P past d ∧ step = Desk.step d c := by
  induction calls generalizing past d with
  | nil => cases hm
  | cons c rest ih =>
    rcases List.mem_cons.1 hm with rfl | hm
    · exact ⟨past, d, c, h, rfl⟩
    · exact ih (hstep past d c h) hm

end Desk

end GroundControl
