import GroundControl.Proofs.Station.Tapes
import GroundControl.Station.Turns

/-!
# Services on tape

The task of a service looks at the link of its station no more than the station does.  So what
becomes of a service over some link becomes of it on tape, turn by turn.

* `Service.onTape`: a service with a tape in place of its link, after it has done and answered other
  things before;
* `Service.Mirrors`, with `mirrors_act`: what becomes of it there is what becomes of it here;
* `mirrors_poll`, `mirrors_turn`, `mirrors_turns`.
-/

namespace GroundControl

namespace Service

variable {τ : Type}

/-- The service with a tape in place of its link, after it has done other things and given other
answers before. -/
def onTape (s : Service τ) (log : List Effect) (given : List (CallId × Answer))
    (answers : List (Except LinkError Unit)) : Service Tape :=
  { s with station := s.station.onTape log answers, answers := given ++ s.answers }

/-- With the right answers on the tape, what becomes of the service there is `s`. -/
def Mirrors (s : Service τ)
    (f : List Effect → List (CallId × Answer) → List (Except LinkError Unit) → Service Tape) :
    Prop :=
  ∃ script, ∀ log given rest answers, answers = script ++ rest →
    f log given answers = s.onTape log given rest

section Quiet

variable (s : Service τ) (log : List Effect) (given : List (CallId × Answer))
  (answers : List (Except LinkError Unit))

@[simp] theorem isOver_onTape : (s.onTape log given answers).isOver = s.isOver := rfl

theorem onTape_order (c : Command) :
    (s.onTape log given answers).order c = (s.order c).onTape log given answers := by
  unfold order
  rw [isOver_onTape]
  split <;> rfl

theorem onTape_receive (m : Message) :
    (s.onTape log given answers).receive m = (s.receive m).onTape log given answers := by
  unfold receive
  rw [isOver_onTape]
  split <;> rfl

theorem onTape_reply (call : Option CallId) (answer : Answer) :
    (s.onTape log given answers).reply call answer =
      (s.reply call answer).onTape log given answers := by
  cases call with
  | none => rfl
  | some id =>
    unfold reply onTape
    dsimp only
    rw [List.append_assoc]

end Quiet

theorem mirrors_of_eq {s : Service τ}
    {f : List Effect → List (CallId × Answer) → List (Except LinkError Unit) → Service Tape}
    (h : ∀ log given rest, f log given rest = s.onTape log given rest) : Mirrors s f :=
  ⟨[], fun log given rest _ ha => ha ▸ h log given rest⟩

theorem mirrors_reply (s : Service τ) (call : Option CallId) (answer : Answer) :
    Mirrors (s.reply call answer) fun log given answers =>
      (s.onTape log given answers).reply call answer :=
  mirrors_of_eq fun log given rest => onTape_reply s log given rest call answer

/-- Work of the station, and what follows on it. -/
theorem mirrors_act {α : Type} {s : Service τ} {work : Act τ α} {work' : Act Tape α}
    {next : α → Service τ → Service τ} {next' : α → Service Tape → Service Tape}
    (hwork : Taped work work' s.station)
    (hnext : ∀ a t log given rest,
      next' a (onTape t log given rest) = (next a t).onTape log given rest) :
    Mirrors (s.act work next) fun log given answers =>
      (s.onTape log given answers).act work' next' := by
  obtain ⟨script, h⟩ := hwork
  refine ⟨script, fun log given rest answers ha => ?_⟩
  have h : work' (s.onTape log given answers).station = _ := h log rest answers ha
  unfold act
  dsimp only
  rw [h]
  cases work s.station with
  | ok a station => exact hnext a { s with station } log given rest
  | error fault station => rfl

/-- Work of the station that nothing follows on. -/
theorem mirrors_work {s : Service τ} {work : Act τ Unit} {work' : Act Tape Unit}
    (hwork : Taped work work' s.station) :
    Mirrors (s.act work fun () s => s) fun log given answers =>
      (s.onTape log given answers).act work' fun () s => s :=
  mirrors_act hwork fun _ _ _ _ _ => rfl

variable [Carrier τ] (s : Service τ)

omit [Carrier τ] in
/-- The end of the service. -/
theorem mirrors_shutdown [Walk] (now : Instant) :
    Mirrors (s.act (Station.shutdown now) fun () s => s.finish .stopped) fun log given answers =>
      (s.onTape log given answers).act (Station.shutdown now) fun () s => s.finish .stopped :=
  mirrors_act (Station.taped_shutdown s.station now) fun _ _ _ _ _ => rfl

theorem mirrors_attempt (call : Option CallId) (bulletin : Bulletin) (deadline : Instant)
    (isCorrection : Bool) (now : Instant) :
    Mirrors (s.attempt call bulletin deadline isCorrection now) fun log given answers =>
      (s.onTape log given answers).attempt call bulletin deadline isCorrection now := by
  refine mirrors_act (Station.taped_tryBroadcast s.station now bulletin deadline) ?_
  intro result t log given rest
  cases result with
  | done result => exact onTape_reply { t with activity := .serving } log given rest call _
  | wait ready => rfl

omit [Carrier τ] in
theorem mirrors_ask {α : Type} {work : Station τ → α × Station τ}
    {work' : Station Tape → α × Station Tape} (call : Option CallId) (answer : α → Answer)
    (h : ∀ before rest, work' (s.station.onTape before rest) =
      ((work s.station).1, (work s.station).2.onTape before rest)) :
    Mirrors (s.ask call work answer) fun log given answers =>
      (s.onTape log given answers).ask call work' answer := by
  refine mirrors_of_eq fun log given rest => ?_
  have h : work' (s.onTape log given rest).station = _ := h log rest
  unfold ask
  rw [h]
  exact onTape_reply { s with station := (work s.station).2 } log given rest call _

theorem mirrors_carryOut [Walk] (c : Command) (now : Instant) :
    Mirrors (s.carryOut c now) fun log given answers =>
      (s.onTape log given answers).carryOut c now := by
  obtain ⟨order, call⟩ := c
  unfold carryOut
  cases order with
  | submit request agent payload urgency maxAttempts =>
    exact mirrors_act (Station.taped_submit ..) fun _ t log given rest =>
      onTape_reply t log given rest call _
  | broadcast bulletin deadline => exact mirrors_attempt s call bulletin deadline false now
  | correction bulletin skipIfIdle deadline =>
    show Mirrors (if s.station.takesCorrection skipIfIdle then _ else _) fun log given answers =>
      if s.station.takesCorrection skipIfIdle then _ else _
    split
    · exact mirrors_attempt s call bulletin deadline true now
    · exact mirrors_reply s call _
  | cancel request =>
    exact mirrors_ask s call _ fun before rest =>
      Station.onTape_cancel s.station before rest request
  | deregister agent =>
    exact mirrors_act (Station.taped_deregister ..) fun _ t log given rest =>
      onTape_reply t log given rest call _
  | adoptEpoch epoch => exact mirrors_of_eq fun _ _ _ => rfl
  | tick time =>
    exact mirrors_act (Station.taped_tick ..) fun _ t log given rest =>
      onTape_reply t log given rest call _
  | report | snapshots | presenceOf agent | phaseOf request => exact mirrors_reply s call _
  | stop => exact mirrors_shutdown s now

omit [Carrier τ] in
theorem mirrors_again [Host] (due : Instant) (period : Span) (now : Instant)
    {work : Instant → Service τ}
    {work' : List Effect → List (CallId × Answer) → List (Except LinkError Unit) →
      Instant → Service Tape}
    (h : ∀ next, Mirrors (work next) fun log given answers => work' log given answers next) :
    Mirrors (s.again due period now work) fun log given answers =>
      (s.onTape log given answers).again due period now (work' log given answers) := by
  unfold again
  cases Host.nextDue due period now with
  | error fault => exact mirrors_of_eq fun _ _ _ => rfl
  | ok next => exact h next

omit [Carrier τ] in
/-- The task does something if its time has come, and otherwise looks for other things. -/
theorem mirrors_ite {c : Prop} [Decidable c] {x : Service τ} {y : Option (Service τ)}
    {f : List Effect → List (CallId × Answer) → List (Except LinkError Unit) → Service Tape}
    {g : List Effect → List (CallId × Answer) → List (Except LinkError Unit) →
      Option (Service Tape)}
    (hx : Mirrors x f)
    (hy : Mirrors (y.getD s) fun log given answers =>
      (g log given answers).getD (s.onTape log given answers)) :
    Mirrors ((if c then some x else y).getD s) fun log given answers =>
      (if c then some (f log given answers) else g log given answers).getD
        (s.onTape log given answers) := by
  by_cases hc : c
  · simp only [if_pos hc]
    exact hx
  · simp only [if_neg hc]
    exact hy

omit [Carrier τ] in
/-- A search for silent agents. -/
theorem mirrors_sweep [Walk] (now : Instant) :
    Mirrors { s with station := (s.station.sweep now).2 } fun log given answers =>
      { s.onTape log given answers with
        station := ((s.onTape log given answers).station.sweep now).2 } := by
  refine mirrors_of_eq fun log given rest => ?_
  have h : (s.onTape log given rest).station.sweep now = _ :=
    Station.onTape_sweep s.station log rest now
  rw [h]
  rfl

/-- The next thing the task does. -/
theorem mirrors_poll [Host] (now rung : Instant) :
    Mirrors ((s.poll now rung).getD s) fun log given answers =>
      ((s.onTape log given answers).poll now rung).getD (s.onTape log given answers) := by
  have hrest : ∀ t : Service τ, Mirrors t t.onTape := fun t => mirrors_of_eq fun _ _ _ => rfl
  obtain ⟨station, activity, commands, commandsClosed, inbox, tickDue, sweepDue, past⟩ := s
  cases activity with
  | stopped | crashed fault => exact hrest _
  | holding hold =>
    let t : Service τ :=
      ⟨station, .serving, commands, commandsClosed, inbox, tickDue, sweepDue, past⟩
    exact mirrors_ite _
      (mirrors_attempt t hold.call hold.bulletin hold.deadline hold.isCorrection now) (hrest _)
  | serving =>
    cases commands with
    | cons c rest =>
      exact mirrors_carryOut
        ⟨station, .serving, rest, commandsClosed, inbox, tickDue, sweepDue, past⟩ c now
    | nil =>
      let t (inbox : List Message) (tickDue sweepDue : Instant) : Service τ :=
        ⟨station, .serving, [], commandsClosed, inbox, tickDue, sweepDue, past⟩
      cases commandsClosed with
      | true => exact mirrors_shutdown (t inbox tickDue sweepDue) now
      | false =>
        cases inbox with
        | cons m rest =>
          exact mirrors_work (s := t rest tickDue sweepDue)
            (Station.taped_deliverInbound station now m)
        | nil =>
          have htick := mirrors_again (t [] tickDue sweepDue) tickDue
            station.settings.tickInterval now fun next =>
              mirrors_work (s := t [] next sweepDue) (Station.taped_pumpAll station now)
          have hsweep := mirrors_again (t [] tickDue sweepDue) sweepDue
            station.settings.sweepInterval now fun next =>
              mirrors_sweep (t [] tickDue next) now
          exact mirrors_ite _ htick (mirrors_ite _ hsweep (hrest _))

/-- What becomes of the service in a turn. -/
theorem mirrors_turn (t : Turn) :
    Mirrors (s.turn t) fun log given answers => (s.onTape log given answers).turn t := by
  cases t with
  | order c => exact mirrors_of_eq fun log given rest => onTape_order s log given rest c
  | receive m => exact mirrors_of_eq fun log given rest => onTape_receive s log given rest m
  | close => exact mirrors_of_eq fun _ _ _ => rfl
  | poll host now rung => exact mirrors_poll s now rung

/-- What becomes of the service in turns, one after the other. -/
theorem mirrors_turns (l : List Turn) :
    Mirrors (s.turns l) fun log given answers => (s.onTape log given answers).turns l := by
  induction l generalizing s with
  | nil => exact mirrors_of_eq fun _ _ _ => rfl
  | cons t rest ih =>
    obtain ⟨script, ht⟩ := mirrors_turn s t
    obtain ⟨script', hrest⟩ := ih (s.turn t)
    refine ⟨script ++ script', fun log given remaining answers ha => ?_⟩
    have ht : (s.onTape log given answers).turn t = _ :=
      ht log given (script' ++ remaining) answers (ha.trans (List.append_assoc ..))
    show ((s.onTape log given answers).turn t).turns rest = _
    rw [ht]
    exact hrest log given remaining _ rfl

end Service

end GroundControl
