import GroundControl.Station.History
import GroundControl.Station.Service

/-!
# Histories of a service

What can happen to a service, one thing after the other: orders and messages come in, and the task
that serves the station does the next thing there is to do.

* `Turn`, `Service.turn`; `Service.turns`, a list of them;
* `Order.operation?`, what an order asks of the station; `Service.next?`, the order that is taken up
  next; `Service.work?`, what the station is asked to do next.
-/

namespace GroundControl

/-- What can happen to a service. -/
inductive Turn
  /-- an order comes in -/
  | order (c : Command)
  /-- a message comes in -/
  | receive (m : Message)
  /-- no further order can come -/
  | close
  /-- the task does the next thing there is to do at `now`; timers set for up to `rung` have rung -/
  | poll (host : Host) (now rung : Instant)

/-- What an order asks of the station at `now`: nothing if it only asks a question, or if it is for
a broadcast, which may have to wait. -/
def Order.operation? [Walk] (now : Instant) : Order → Option Operation
  | .submit request agent payload urgency maxAttempts =>
      some (.submit request agent payload urgency maxAttempts now)
  | .cancel request => some (.cancel request)
  | .deregister agent => some (.deregister agent now)
  | .adoptEpoch epoch => some (.adoptEpoch epoch)
  | .tick time => some (.tick ‹Walk› time)
  | .stop => some (.shutdown ‹Walk› now)
  | .broadcast .. | .correction .. | .report | .snapshots | .presenceOf _ | .phaseOf _ => none

namespace Service

variable {τ : Type}

/-- The order the task takes up next, if it can take one up. -/
def next? (s : Service τ) : Option Order :=
  match s.activity with
  | .serving => s.commands.head?.map (·.order)
  | _ => none

/-- What the task asks of the station next. -/
def work? [Walk] (s : Service τ) (now rung : Instant) : Option Operation :=
  match s.activity with
  | .serving =>
      match s.commands with
      | c :: _ => c.order.operation? now
      | [] =>
          if s.commandsClosed then some (.shutdown ‹Walk› now)
          else
            match s.inbox with
            | m :: _ => some (.deliver m now)
            | [] =>
                if s.tickDue ≤ rung then some (.pumpAll ‹Walk› now)
                else if s.sweepDue ≤ rung then some (.sweep ‹Walk› now)
                else none
  | _ => none

variable [Carrier τ]

/-- What becomes of a service in a turn. -/
def turn (s : Service τ) : Turn → Service τ
  | .order c => s.order c
  | .receive m => s.receive m
  | .close => { s with commandsClosed := true }
  | .poll _ now rung => (s.poll now rung).getD s

theorem turn_poll_of_eq_none {host : Host} {s : Service τ} {now rung : Instant}
    (h : s.poll now rung = none) : s.turn (.poll host now rung) = s := by
  show (s.poll now rung).getD s = s
  rw [h]
  rfl

theorem turn_poll_of_eq_some {host : Host} {s s' : Service τ} {now rung : Instant}
    (h : s.poll now rung = some s') : s.turn (.poll host now rung) = s' := by
  show (s.poll now rung).getD s = s'
  rw [h]
  rfl

/-- What becomes of a service in turns, one after the other. -/
def turns (s : Service τ) (l : List Turn) : Service τ := l.foldl turn s

@[simp] theorem turns_nil (s : Service τ) : s.turns [] = s := rfl

@[simp] theorem turns_cons (s : Service τ) (t : Turn) (l : List Turn) :
    s.turns (t :: l) = (s.turn t).turns l := rfl

@[simp] theorem turns_append (s : Service τ) (l m : List Turn) :
    s.turns (l ++ m) = (s.turns l).turns m :=
  List.foldl_append

/-- What every turn preserves holds after all of them. -/
theorem turns_induction {P : Service τ → Prop} (hturn : ∀ s t, P s → P (s.turn t))
    {s : Service τ} (hs : P s) (l : List Turn) : P (s.turns l) := by
  induction l generalizing s with
  | nil => exact hs
  | cons t rest ih => exact ih (hturn s t hs)

end Service

end GroundControl
