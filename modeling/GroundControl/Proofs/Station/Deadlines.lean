import GroundControl.Proofs.Station.Attempts

/-!
# The deadlines of the attempts

The time that is allowed for a reply grows with the timeouts of the agent in a row, up to a bound,
and a request waits until this time is over and no longer: no earlier pump gives it up, and the
first later one does.

* `timeoutsInRow`, the timeouts of an agent since it was last answered or removed, and
  `timeouts_of_run`: the backlog counts them;
* `Allowance`, what is set when the link takes a frame to which a reply is awaited;
* `Step.Spares`, `Awaited`, what comes of the request in the steps after it;
* `DeadlinesKept`, for every attempt and every request, and `deadlines_kept`: it holds of every run
  from the beginning.
-/

namespace GroundControl

variable {τ : Type}

/-- The timeouts of an agent since it was last answered or removed. -/
def timeoutsInRow (agent : AgentId) (steps : List (Step τ)) : Nat :=
  steps.foldl (fun k step =>
    if step.resets agent then 0 else if step.timesOut agent then k + 1 else k) 0

/-- The link takes a frame of a request at `t`, and a reply to it is awaited for the span `d`. -/
structure Allowance (settings : NetworkSettings) (past : List (Step τ)) (step : Step τ)
    (agent : AgentId) (f : Frame) (q : Request) (t : Instant) (d : Span) : Prop where
  flight : (step.after.queueOf agent).inFlight = some q
  carries : f.Carries step.after.id q
  counted : step.takes q.handle = some t
  time : step.operation.time? = some t
  sentAt : q.sentAt = some t
  deadline : q.deadline = some (t + d)
  allowed : ∃ base, step.after.estimator.timeout q.trafficClass = .ok base ∧
    d = min settings.maxTimeout
      (min (2 ^ timeoutsInRow agent (past ++ [step])) (2 ^ 32 - 1) * base)
  lower : settings.minTimeout ≤ d
  upper : d ≤ settings.maxTimeout

/-- A step neither ends the wait of a request, nor withdraws it, nor moves the requests of its agent
after the deadline. -/
structure Step.Spares (step : Step τ) (agent : AgentId) (q : Request) (deadline : Instant) :
    Prop where
  unanswered : step.resets agent = false
  kept : (step.after.queueOf agent).inFlight ≠ some { q with cancelRequested := true }
  early : .pump agent ∈ step.actions → ∀ now, step.operation.time? = some now → now ≤ deadline

/-- A request stays in flight as long as it is spared, and it is timed out when its agent is pumped
after the deadline for the first time, unless that brings the reply or removes the agent. -/
structure Awaited (later : List (Step τ)) (agent : AgentId) (q : Request) (deadline : Instant) :
    Prop where
  spared : ∀ pre next post, later = pre ++ next :: post →
    (∀ other ∈ pre ++ [next], other.Spares agent q deadline) →
      next.timesOut agent = false ∧ (next.after.queueOf agent).inFlight = some q
  timedOut : ∀ pre next post now, later = pre ++ next :: post →
    (∀ other ∈ pre, other.Spares agent q deadline) → .pump agent ∈ next.actions →
      next.operation.time? = some now → deadline < now → next.resets agent = false →
        next.timesOut agent = true ∧
          ∀ r, (next.after.queueOf agent).inFlight = some r → next.Launches agent r

/-- The deadlines of all attempts are as they should be and are kept; and a request that is timed
out has been given the least timeout for each frame of it that the link took. -/
structure DeadlinesKept (settings : NetworkSettings) (steps : List (Step τ)) : Prop where
  allowances : ∀ past step later, steps = past ++ step :: later → ∀ agent f,
    (f, .ok ()) ∈ step.sendsTo agent → f.key.isSome = true →
      ∃ q t d, Allowance settings past step agent f q t d ∧ Awaited later agent q (t + d)
  timedOut : ∀ x ∈ accepted steps, ∀ step ∈ steps, ∀ n detail,
    (x.ticket, .failure .timeout n detail) ∈ Station.outcomes step.effects →
      ∃ now first rest, step.operation.time? = some now ∧ taken steps x = first :: rest ∧
        first + (rest.length + 1) * settings.minTimeout < now

namespace Station

variable [Carrier τ] {settings : NetworkSettings} {carrier : τ} {start : Instant}
  {operations : List Operation} {past later steps : List (Step τ)} {step : Step τ}
  {s last : Station τ} {agent : AgentId} {q : Request} {deadline : Instant}

/-! ### Timeouts in a row -/

omit [Carrier τ] in
theorem timeoutsInRow_append (agent : AgentId) (past : List (Step τ)) (step : Step τ) :
    timeoutsInRow agent (past ++ [step]) =
      if step.resets agent then 0
      else if step.timesOut agent then timeoutsInRow agent past + 1
      else timeoutsInRow agent past := by
  unfold timeoutsInRow
  rw [List.foldl_append]
  rfl

/-- A backlog counts the timeouts in a row, up to a bound. -/
theorem timeouts_of_run (h : run operations (new settings carrier start) = .ok (steps, s)) :
    (s.queueOf agent).timeouts = min (timeoutsInRow agent steps) Backlog.maxTimeouts := by
  refine run_induction (P := fun past s =>
    (s.queueOf agent).timeouts = min (timeoutsInRow agent past) Backlog.maxTimeouts) h rfl ?_
  rintro past step ⟨later, rfl⟩ hpast hp
  rw [← List.append_cons] at h
  obtain ⟨hs, -⟩ := knows_of_run (run_split h).1
  rw [(perform_visit hs hp agent).timeouts, timeoutsInRow_append, hpast]
  split
  · rfl
  · split
    · omega
    · rfl

/-! ### Attempts -/

/-- The frame to which a reply is awaited is the one that the request in flight was handed over
with, and what is allowed for the reply is as it should be. -/
theorem allowance_of_sent
    (h : run operations (new settings carrier start) = .ok (past ++ step :: later, s)) {f : Frame}
    (hf : (f, .ok ()) ∈ step.sendsTo agent) (hk : f.key.isSome = true) :
    ∃ q t d, Allowance settings past step agent f q t d ∧ q.cancelRequested = false := by
  obtain ⟨hpast, hp, -⟩ := run_split h
  obtain ⟨hs, -⟩ := knows_of_run hpast
  have hupto := run_upto h
  obtain ⟨hs', -, hsettings, -⟩ := knows_of_run hupto
  have hawaited : Sending.isAwaited (f, .ok ()) = true := (Bool.and_true _).trans hk
  rcases (perform_visit hs hp agent).flight hs' with ⟨q, hl⟩ | ⟨hunawaited, -⟩
  · obtain ⟨now, base, d, hnow, hsent, hbase, hd, hdeadline, hlo, hhi⟩ :=
      hl.span (tuned_of_run hupto)
    obtain ⟨frames, f', hframes, hunawaited, hcarries, -⟩ := hl.frame
    -- only the last frame for the agent is one to which a reply is awaited
    have hlast : f = f' := by
      rw [hframes] at hf
      rcases List.mem_append.1 hf with hf | hf
      · rw [hunawaited _ hf] at hawaited
        cases hawaited
      · exact congrArg Prod.fst (List.mem_singleton.1 hf)
    have hagent : q.agent = agent := hs'.placed agent q.ident (List.mem_map_of_mem
      (Backlog.mem_requests.2 (.inl hl.flight)))
    rw [timeouts_of_run hupto, hsettings, factor_min _ (by decide)] at hd
    refine ⟨q, now, d, ⟨hl.flight, hlast ▸ hcarries, ?_, hnow, hsent, hdeadline, ⟨base, hbase, hd⟩,
      hsettings ▸ hlo, hsettings ▸ hhi⟩, hl.unmarked⟩
    subst hagent
    exact (hl.takes (x := q.handle) rfl).trans hnow
  · rw [hunawaited _ hf] at hawaited
    cases hawaited

/-! ### Waiting for the reply -/

/-- A request in flight that is spared stays in flight. -/
theorem flight_of_spares (hs : step.before.Sound)
    (hp : perform step.operation step.before = .ok step.response step.after)
    (hq : (step.before.queueOf agent).inFlight = some q) (hc : q.cancelRequested = false)
    (hd : q.deadline = some deadline) (h : step.Spares agent q deadline) :
    step.timesOut agent = false ∧ (step.after.queueOf agent).inFlight = some q := by
  have hoverdue : ∀ now, step.operation.time? = some now → .pump agent ∈ step.actions →
      q.overdue now = false := by
    intro now hnow hpump
    unfold Request.overdue
    have hle := Nat.not_lt.2 (h.early hpump now hnow)
    rw [hd, Option.any_some, decide_eq_false hle, Bool.and_false]
  constructor
  · refine Bool.eq_false_iff.2 fun ht => ?_
    obtain ⟨now, hnow, ho⟩ := overdue_of_timesOut ht hq
    have hpump : .pump agent ∈ step.actions := by
      unfold Step.timesOut at ht
      exact of_decide_eq_true (Bool.and_eq_true_iff.1 (Bool.and_eq_true_iff.1 ht).1).1
    rw [hoverdue now hnow hpump] at ho
    cases ho
  · by_cases hw : ∀ request, .withdraw request ∉ step.actions
    · refine (perform_moves hp).flight hs hq hc fun a ha => ?_
      have hreset := List.any_eq_false.1 h.unanswered a ha
      cases a with
      | enter => trivial
      | answer other => exact fun he => hreset (decide_eq_true (.inl (congrArg Action.answer he)))
      | remove other => exact fun he => hreset (decide_eq_true (.inr (congrArg Action.remove he)))
      | withdraw request => exact absurd ha (hw request)
      | pump other =>
        rintro rfl
        obtain ⟨⟨now, hnow⟩, -⟩ := exists_time_of_pump ha
        rw [hnow]
        exact hoverdue now hnow ha
    · -- a withdrawal marks at most the request in flight
      have hpump : .pump agent ∉ step.actions := fun hm => hw (exists_time_of_pump hm).2
      have hreset : ¬ step.resets agent = true := Bool.eq_false_iff.1 h.unanswered
      have hflight := ((perform_moves hp).calm hpump).flight.trans (if_neg hreset)
      rw [hq] at hflight
      obtain ⟨r, hr, hu⟩ := Option.map_eq_some_iff.1 hflight
      rcases Request.eq_of_unmarked hu hc with rfl | rfl
      · exact hr
      · exact absurd hr h.kept

/-- A request in flight stays in flight as long as it is spared. -/
theorem flight_of_run (h : run operations s = .ok (steps, last)) (hs : s.Sound)
    (hq : (s.queueOf agent).inFlight = some q) (hc : q.cancelRequested = false)
    (hd : q.deadline = some deadline) (hspares : ∀ step ∈ steps, step.Spares agent q deadline) :
    last.Sound ∧ (last.queueOf agent).inFlight = some q := by
  induction operations generalizing s steps with
  | nil =>
    cases h
    exact ⟨hs, hq⟩
  | cons operation rest ih =>
    obtain ⟨response, after, others, hp, hr, rfl⟩ := run_cons_eq_ok.1 h
    obtain ⟨hfirst, hrest⟩ := List.forall_mem_cons.1 hspares
    exact ih hr (perform_transfer hs hp).1 (flight_of_spares hs hp hq hc hd hfirst).2 hrest

/-- A request in flight is given up when its agent is pumped after the deadline, unless its reply
comes in or its agent is removed. -/
theorem timesOut_of_late (hs : step.before.Sound)
    (hp : perform step.operation step.before = .ok step.response step.after)
    (hq : (step.before.queueOf agent).inFlight = some q) (hc : q.cancelRequested = false)
    (hd : q.deadline = some deadline) (hpump : .pump agent ∈ step.actions) {now : Instant}
    (hnow : step.operation.time? = some now) (hlate : deadline < now)
    (hreset : step.resets agent = false) :
    step.timesOut agent = true ∧
      ∀ r, (step.after.queueOf agent).inFlight = some r → step.Launches agent r := by
  have hphase : q.phase = .awaitingAck := ((hs.settled agent).inFlight q hq).phase
  have hoverdue : q.overdue now = true := by
    unfold Request.overdue
    rw [hphase, hd, Option.any_some, decide_eq_true hlate]
    rfl
  have htimes : step.timesOut agent = true := by
    unfold Step.timesOut
    rw [decide_eq_true hpump, hreset, hnow, Option.getD_some,
      Backlog.expires_iff.2 ⟨q, hq, hc, hoverdue⟩]
    rfl
  refine ⟨htimes, fun r hr => ?_⟩
  rcases (perform_visit hs hp agent).flight (perform_transfer hs hp).1 with ⟨q', hl⟩ | ⟨-, hflight⟩
  · obtain rfl := Option.some.inj (hr.symm.trans hl.flight)
    exact hl
  · obtain ⟨-, -, -, -, hno⟩ := hflight r hr
    rw [htimes] at hno
    cases hno

/-- A request waits for its reply until the deadline, and is given up after it. -/
theorem awaited_of_flight (h : run operations s = .ok (later, last)) (hs : s.Sound)
    (hq : (s.queueOf agent).inFlight = some q) (hc : q.cancelRequested = false)
    (hd : q.deadline = some deadline) : Awaited later agent q deadline := by
  constructor
  · rintro pre next post rfl hspares
    obtain ⟨hpre, hp, -⟩ := run_split h
    obtain ⟨hprior, hnext⟩ := List.forall_mem_append.1 hspares
    obtain ⟨hs', hq'⟩ := flight_of_run hpre hs hq hc hd hprior
    exact flight_of_spares hs' hp hq' hc hd (hnext next (List.mem_singleton_self next))
  · rintro pre next post now rfl hspares hpump hnow hlate hreset
    obtain ⟨hpre, hp, -⟩ := run_split h
    obtain ⟨hs', hq'⟩ := flight_of_run hpre hs hq hc hd hspares
    exact timesOut_of_late hs' hp hq' hc hd hpump hnow hlate hreset

/-! ### Every deadline -/

/-- Whatever a station is asked to do from its beginning on, at instants that do not decrease: the
deadline of every attempt is as far off as the timeouts in a row demand, it is kept, and a request
that is timed out has been given the least timeout for each frame that the link took. -/
theorem deadlines_kept (h : run operations (new settings carrier start) = .ok (steps, s))
    (htimes : (operations.filterMap Operation.time?).Pairwise (· ≤ ·)) :
    DeadlinesKept settings steps := by
  have horder : InOrder steps := by
    unfold InOrder instants
    rw [← operations_of_run h, List.filterMap_map] at htimes
    exact htimes
  constructor
  · rintro past step later rfl agent f hf hk
    obtain ⟨q, t, d, hallowance, hc⟩ := allowance_of_sent h hf hk
    obtain ⟨hpast, hp, hlater⟩ := run_split h
    have hs' := (perform_transfer (knows_of_run hpast).1 hp).1
    exact ⟨q, t, d, hallowance,
      awaited_of_flight hlater hs' hallowance.flight hc hallowance.deadline⟩
  · intro x hx step hm n detail htold
    have hout : (Outcome.failure .timeout n detail).TimedOut := trivial
    obtain ⟨-, -, now, first, rest, hnow, htaken, hlt⟩ :=
      (tracked_of_run h hx).timedOut step hm _ hout htold
    exact ⟨now, first, rest, hnow, htaken, hlt horder⟩

/-- An agent that answers neither attempt at a command, and is pumped at both deadlines and right
after them. -/
def silentTwice : List Operation :=
  [.route (.heartbeat "alpha" 1) 0,
    .submit 1 1 (.expecting [7] 3) .normal 2 10,
    .pump 1 1000000010, .pump 1 1000000011,
    .pump 1 3000000011, .pump 1 3000000012]

theorem deadlines_kept_silentTwice :
    ∃ steps s, run silentTwice (new { id := "alpha" } (Pipe.new "up" 4) 0) = .ok (steps, s) ∧
      (silentTwice.filterMap Operation.time?).Pairwise (· ≤ ·) ∧
        steps.map (·.timesOut 1) = [false, false, false, true, false, true] ∧
          taken steps ⟨1, "alpha", 1, 0⟩ = [10, 1000000011] ∧
            DeadlinesKept { id := "alpha" } steps := by
  have hrun : (run silentTwice (new { id := "alpha" } (Pipe.new "up" 4) 0)).toOption.map
      (fun r => (r.1.map (·.timesOut 1), taken r.1 ⟨1, "alpha", 1, 0⟩)) =
        some ([false, false, false, true, false, true], [10, 1000000011]) := by
    decide +kernel
  obtain ⟨steps, s, h, hread⟩ := exists_run_of_map hrun
  obtain ⟨htimes, htaken⟩ := Prod.mk.inj hread
  have horder : (silentTwice.filterMap Operation.time?).Pairwise (· ≤ ·) := by decide
  exact ⟨steps, s, h, horder, htimes, htaken, deadlines_kept h horder⟩

end Station

end GroundControl
