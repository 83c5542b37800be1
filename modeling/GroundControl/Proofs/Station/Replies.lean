import Mathlib.Data.List.Pairwise
import GroundControl.Proofs.Station.Attempts
import GroundControl.Proofs.Station.Traffic

/-!
# Replies that answer nothing, and replies that do

A reply ends a request only if it comes from the agent of the request, with the key of the request,
and while the request awaits it.  Any other reply of a registered agent tells that the agent is
there, and that is all.  The round-trip times are unambiguous: each is that of a request of which
only one frame was ever handed to the link.

* `Station.core`, a station without what it knows about its agents, its counters and its log;
  `Ignores`, what a message that answers no request leaves as it is, and `ignores_unanswered`;
* `Step.Answers`: a step takes in the reply to a request;
* `finishes_of_step`, `answers_of_told`: what a reply brings about, and what only a reply does;
  `verdict_of_told`: who is told of a reply is told what it says;
* `correlations`, the keys of the requests that are submitted for each agent;
* `RepliesMatched`, for every message of a run, and `replies_matched`: it holds of every run from
  the beginning.
-/

namespace GroundControl

variable {τ : Type}

/-- The message that an operation takes in, and when. -/
def Operation.message? : Operation → Option (Message × Instant)
  | .deliver m now | .route m now => some (m, now)
  | _ => none

/-- The agent and the key of a command that is submitted, if it expects a reply. -/
def Operation.correlation? : Operation → Option (AgentId × ReplyKey)
  | .submit _ agent payload _ _ _ | .enqueue _ agent payload _ _ => payload.key.map (agent, ·)
  | _ => none

/-- The agents and the keys of the commands that are submitted. -/
def correlations (operations : List Operation) : List (AgentId × ReplyKey) :=
  operations.filterMap Operation.correlation?

/-- Two steps do not submit commands for one agent with one key. -/
def Step.Apart (step other : Step τ) : Prop :=
  ∀ x, step.operation.correlation? = some x → ∀ y, other.operation.correlation? = some y → x ≠ y

instance : Std.Symm (Step.Apart : Step τ → Step τ → Prop) :=
  ⟨fun _ _ h x hx y hy => (h y hy x hx).symm⟩

/-- A step takes in the reply to a request, given as it was taken in: the reply comes from the agent
of the request, has the key of the request, and is awaited. -/
structure Step.Answers (step : Step τ) (r : Request) (m : Message) (reply : Reply) (now : Instant) :
    Prop where
  message : step.operation.message? = some (m, now)
  network_eq : m.network = step.before.id
  agent_eq : m.agent = r.agent
  reply_eq : m.reply = some reply
  key_eq : r.payload.key = some reply.key
  awaited : ∃ q, (step.before.queueOf r.agent).inFlight = some q ∧ q.phase = .awaitingAck ∧
    q.origin = r

namespace Station

/-! ### Messages that answer nothing -/

/-- A station without what it knows about its agents, its counters and its log. -/
def core (s : Station τ) : Station τ :=
  { s with agents := ∅, watch := { s.watch with sightings := ∅ }, tally := {}, log := [] }

/-- From `s` to `s'` nothing has changed but what is known about the presence and the power of an
agent, how many messages came in, and how many of them answered nothing. -/
structure Ignores (s : Station τ) (agent : AgentId) (s' : Station τ) : Prop where
  core : s'.core = s.core
  queues : ∀ other, s'.backlogOf other = s.backlogOf other
  own : ∃ capabilities, s'.agents.get? agent =
    (s.agents.get? agent).map fun a => { a with capabilities }
  others : ∀ other, other ≠ agent → s'.agents.get? other = s.agents.get? other ∧
    s'.watch.sightings.get? other = s.watch.sightings.get? other
  counters : s'.tally =
    { s.tally with inbound := s'.tally.inbound, unmatchedReplies := s'.tally.unmatchedReplies }
  /-- no frame is handed to the link, nobody is told of an outcome, and of one event at most -/
  log : ∃ effects, s'.log = s.log ++ effects ∧ sendings effects = [] ∧ outcomes effects = [] ∧
    (effects.filterMap Effect.event? = [] ∨ ∃ source target,
      effects.filterMap Effect.event? = [.presence s.id agent source target])

section Messages

variable {s : Station τ} {m : Message} {now : Instant}

theorem heard_of_registered (h : s.agents.contains m.agent = true) (now : Instant) :
    s.heard m now = ((s.counted m).flagged m).observed m now := by
  unfold heard register
  rw [if_pos h]
  rfl

theorem log_flagged (s : Station τ) (m : Message) : (s.flagged m).log = s.log := by
  unfold flagged
  split <;> rfl

theorem core_flagged (s : Station τ) (m : Message) : (s.flagged m).core = s.core := by
  unfold flagged
  split <;> rfl

/-- What is heard of an agent. -/
theorem log_observed (s : Station τ) (m : Message) (now : Instant) :
    ∃ effects, (s.observed m now).log = s.log ++ effects ∧ sendings effects = [] ∧
      outcomes effects = [] ∧ (effects.filterMap Effect.event? = [] ∨ ∃ source target,
        effects.filterMap Effect.event? = [.presence s.id m.agent source target]) := by
  unfold observed
  split
  · exact ⟨[], (List.append_nil _).symm, rfl, rfl, .inl rfl⟩
  · rename_i change hchange
    have hagent : change.agent = m.agent := by
      unfold Watch.observe at hchange
      dsimp only at hchange
      split at hchange
      · cases hchange
      · exact congrArg PresenceChange.agent (Option.some.inj hchange).symm
    refine ⟨_, List.append_assoc .., rfl, rfl, .inr ⟨change.source, change.target, ?_⟩⟩
    rw [← hagent]
    rfl

/-- Hearing a registered agent changes what is known about it. -/
theorem ignores_heard (h : s.agents.contains m.agent = true) (now : Instant) :
    Ignores s m.agent (s.heard m now) := by
  have hagents : (s.heard m now).agents = (s.hear m now).agents := by
    unfold heard register
    rw [if_pos h]
  have hheard := heard_of_registered h now
  have hcounted : ((s.counted m).flagged m).id = s.id := by
    show ((s.counted m).flagged m).core.id = s.core.id
    rw [core_flagged]
    rfl
  refine ⟨?_, backlogOf_heard s m now, ?_, fun other ho => ⟨?_, ?_⟩, ?_, ?_⟩
  · have hobserved : ∀ t : Station τ, (t.observed m now).core = t.core := fun t => by
      unfold observed
      split <;> rfl
    rw [hheard, hobserved, core_flagged]
    rfl
  · rw [hagents, agents_hear]
    cases m.capabilities with
    | none =>
      obtain ⟨a, ha⟩ := Option.isSome_iff_exists.1 h
      exact ⟨a.capabilities, by rw [ha]; rfl⟩
    | some capabilities =>
      refine ⟨capabilities, ?_⟩
      dsimp only
      rw [Table.get?_modify, if_pos rfl]
  · rw [hagents, agents_hear]
    cases m.capabilities with
    | none => rfl
    | some capabilities =>
      dsimp only
      rw [Table.get?_modify, if_neg ho]
  · rw [hheard, watch_observed, watch_flagged]
    show (Table.insert _ _ _).get? other = _
    rw [Table.get?_insert, if_neg ho]
    rfl
  · rw [heard_eq]
  · obtain ⟨effects, hl, hs, ho, he⟩ := log_observed ((s.counted m).flagged m) m now
    rw [log_flagged] at hl
    refine ⟨.measured (.inbound s.id m.kind) .count :: effects, ?_, hs, ho, hcounted ▸ he⟩
    rw [hheard, hl]
    exact (List.append_cons ..).symm

/-- A message of a registered agent that answers no request is ignored but for what it tells about
the agent. -/
theorem ignores_unanswered (h : s.agents.contains m.agent = true) (now : Instant) :
    Ignores s m.agent (s.unanswered m now) := by
  have hh := ignores_heard h now
  unfold unanswered
  split
  · obtain ⟨a, ha⟩ := Option.isSome_iff_exists.1 h
    exact ⟨rfl, fun _ => rfl, ⟨a.capabilities, by rw [ha]; exact ha⟩, fun _ _ => ⟨rfl, rfl⟩, rfl,
      _, rfl, rfl, rfl, .inl rfl⟩
  · split
    · rename_i hn
      unfold admits at hn
      rw [h] at hn
      cases hn
    · split
      · exact hh
      · refine ⟨hh.core, hh.queues, hh.own, hh.others, ?_, hh.log⟩
        have htally : (s.heard m now).tally =
            { s.tally with inbound := s.tally.inbound.record m.kind } := by
          rw [heard_eq]
        unfold unmatched
        rw [htally]

end Messages

/-! ### Replies -/

section Answers

variable [Carrier τ] {s s' : Station τ} {m : Message} {now : Instant} {step : Step τ}

/-- What a reply brings about: the request in flight is finished, and its round-trip time is taken
in if it can be told. -/
structure Finishes (s : Station τ) (m : Message) (now : Instant) (reply : Reply) (q : Request)
    (found : Match) (s' : Station τ) : Prop where
  brings : m.Brings s.id m.agent q reply
  flight : (s.queueOf m.agent).inFlight = some q
  answer : ∃ b, (s.queueOf m.agent).answer reply.key reply.verdict now = (some found, b)
  estimator : Sampled s.estimator found.sample s'.estimator

omit [Carrier τ] in
/-- The request that is finished is the one in flight. -/
theorem Finishes.ident_eq {reply : Reply} {q : Request} {found : Match}
    (h : Finishes s m now reply q found s') : found.finished.ident = q.ident := by
  obtain ⟨b, hb⟩ := h.answer
  obtain ⟨q', hq', -, hi, -⟩ := Backlog.flight_of_answer hb
  obtain rfl := Option.some.inj (h.flight.symm.trans hq')
  exact hi

omit [Carrier τ] in
theorem finishes_of_route (hs : s.Sound) (ha : s.answers m = true) {agent : Option AgentId}
    (h : route m now s = .ok agent s') : agent = some m.agent ∧ s'.Sound ∧
      ∃ reply q found, Finishes s m now reply q found s' ∧ Transfer s [] [found.finished] s' := by
  obtain ⟨reply, b, q, found, b', hn, hm, hb, hq, hk, hans, hr⟩ := route_of_answers ha now
  obtain ⟨rfl, estimator, he, -, rfl⟩ := (hr agent s').1 h
  have hqueue := queueOf_of_backlogOf hb
  have hquiet := quiet_heard s m now
  have hb' : (s.heard m now).backlogOf m.agent = some b := by rw [backlogOf_heard, hb]
  have ht := transfer_answered (hs.of_queueOf hquiet.queue) estimator hb' hans
  refine ⟨rfl, ht.1, reply, q, found, ⟨⟨hn, rfl, hm, hk⟩, hqueue ▸ hq, ⟨b', hqueue ▸ hans⟩, he⟩, ?_⟩
  exact (Transfer.of_quiet hquiet).trans ht.2

/-- A pump ends no request with a reply. -/
theorem unreplied_of_pump (hs : s.Sound) {agent : AgentId} (h : pump agent now s = .ok () s') :
    ∃ ended, Transfer s [] ended s' ∧ s'.estimator = s.estimator ∧
      ∀ f ∈ ended, ¬ f.outcome.Replied := by
  have hm := (course_pump h).moves
  obtain ⟨ended, ht, hends⟩ := hm.endings hs
  refine ⟨ended, ht, hm.estimator (by simp), fun f hf => ?_⟩
  obtain ⟨before, a, after, t, hl, -, hend⟩ := hends f hf
  have ha : a ∈ [Action.pump agent] := hl ▸ List.mem_append_right _ List.mem_cons_self
  obtain rfl := List.mem_singleton.1 ha
  cases hend with
  | moved hreply => exact hreply

/-- What a step brings about that takes in a reply. -/
theorem finishes_of_step (hs : step.before.Sound)
    (hp : perform step.operation step.before = .ok step.response step.after)
    (hm : step.operation.message? = some (m, now)) (ha : step.before.answers m = true) :
    ∃ reply q found ended, Finishes step.before m now reply q found step.after ∧
      Transfer step.before [] (found.finished :: ended) step.after ∧
        ∀ f ∈ ended, ¬ f.outcome.Replied ∧ ∀ m now, step.operation ≠ .route m now := by
  cases ho : step.operation with
  | deliver m' now' =>
    rw [ho] at hm hp
    obtain ⟨rfl, rfl⟩ := Prod.mk.inj (Option.some.inj hm)
    obtain ⟨⟨⟩, hd, -⟩ := Act.bind_pure_eq_ok.1 hp
    obtain ⟨agent, s₁, hr, hpump⟩ := Act.bind_eq_ok.1 hd
    obtain ⟨rfl, hs₁, reply, q, found, hf, ht⟩ := finishes_of_route hs ha hr
    obtain ⟨ended, ht', he, hends⟩ := unreplied_of_pump hs₁ hpump
    refine ⟨reply, q, found, ended, ⟨hf.brings, hf.flight, hf.answer, he ▸ hf.estimator⟩,
      ht.trans ht', fun f hm => ⟨hends f hm, nofun⟩⟩
  | route m' now' =>
    rw [ho] at hm hp
    obtain ⟨rfl, rfl⟩ := Prod.mk.inj (Option.some.inj hm)
    obtain ⟨agent, hr, -⟩ := Act.bind_pure_eq_ok.1 hp
    obtain ⟨-, -, reply, q, found, hf, ht⟩ := finishes_of_route hs ha hr
    exact ⟨reply, q, found, [], hf, ht, List.forall_mem_nil _⟩
  | _ =>
    rw [ho] at hm
    cases hm

/-- Only the reply to a request ends one with a reply, or ends one when a message is routed. -/
theorem answers_of_told (hs : step.before.Sound) (hn : step.before.Numbered)
    (hp : perform step.operation step.before = .ok step.response step.after) {ticket : Ticket}
    {o : Outcome} (ht : (ticket, o) ∈ outcomes step.effects)
    (ho : o.Replied ∨ ∃ m now, step.operation = .route m now) :
    ∃ m now, step.operation.message? = some (m, now) ∧ step.before.answers m = true := by
  obtain ⟨f, before, a, after, t, -, rfl, -, hl, -, hend⟩ := ending_of_told hs hn hp ht
  have ha : a ∈ step.actions := by
    rw [hl]
    exact List.mem_append_right _ List.mem_cons_self
  have hanswer : ∃ agent, a = .answer agent := by
    rcases ho with hreplied | ⟨m, now, ho⟩
    · cases hend with
      | answered => exact ⟨_, rfl⟩
      | moved hreply | removed hreply => exact absurd hreplied hreply
    · unfold Step.actions at ha
      rw [ho] at ha
      have ha : a ∈ if step.before.answers m then [Action.answer m.agent] else [] := ha
      split at ha
      · exact ⟨_, List.mem_singleton.1 ha⟩
      · cases ha
  obtain ⟨agent, rfl⟩ := hanswer
  obtain ⟨m, now, ho, -, hans⟩ := origin_of_mem_actions _ ha
  refine ⟨m, now, ?_, hans⟩
  rcases ho with ho | ho <;> rw [ho] <;> rfl

end Answers

/-! ### Requests and their keys -/

section Keys

variable {steps : List (Step τ)}

theorem correlation_of_entered? {step : Step τ} {r : Request} {key : ReplyKey}
    (h : step.entered? = some r) (hk : r.payload.key = some key) :
    step.operation.correlation? = some (r.agent, key) := by
  obtain ⟨handle, -, hr⟩ := Option.bind_eq_some_iff.1 h
  cases ho : step.operation with
  | submit | enqueue =>
    rw [ho] at hr
    cases hr
    exact congrArg (Option.map _) hk
  | _ =>
    rw [ho] at hr
    cases hr

/-- If the keys of the commands for each agent differ, agent and key tell which request it is. -/
theorem eq_of_key (hkeys : (correlations (steps.map Step.operation)).Nodup) {r q : Request}
    (hr : r ∈ entered steps) (hq : q ∈ entered steps) (ha : r.agent = q.agent) {key : ReplyKey}
    (hrk : r.payload.key = some key) (hqk : q.payload.key = some key) : r = q := by
  obtain ⟨step, hstep, hr⟩ := List.mem_filterMap.1 hr
  obtain ⟨other, hother, hq⟩ := List.mem_filterMap.1 hq
  unfold correlations at hkeys
  rw [List.filterMap_map] at hkeys
  have hp : steps.Pairwise Step.Apart := List.pairwise_filterMap.1 hkeys
  by_cases hs : step = other
  · subst hs
    exact Option.some.inj (hr.symm.trans hq)
  · refine absurd (congrArg (·, key) ha) ?_
    exact hp.forall hstep hother hs _ (correlation_of_entered? hr hrk) _
      (correlation_of_entered? hq hqk)

end Keys

section Runs

variable [Carrier τ] {settings : NetworkSettings} {carrier : τ} {start : Instant}
  {operations : List Operation} {past later steps : List (Step τ)} {step : Step τ} {s : Station τ}
  {m : Message} {now : Instant}

theorem balanced_of_run (h : run operations (new settings carrier start) = .ok (steps, s)) :
    ∃ l, Balanced l s ∧ l.fresh = entered steps ∧
      (entered steps).map Request.handle = accepted steps := by
  obtain ⟨l, hl, hfresh, hhandles, -⟩ := accounts_of_run (sound_new settings carrier start) h
  exact ⟨l, hl.balanced hfresh, hfresh, hhandles⟩

/-- A pending request was taken in, since the beginning of the run. -/
theorem origin_mem_entered (h : run operations (new settings carrier start) = .ok (steps, s))
    {q : Request} (hq : q ∈ s.requests) : q.origin ∈ entered steps := by
  obtain ⟨l, hl, hfresh, -⟩ := balanced_of_run h
  exact hfresh ▸ hl.origin_mem_fresh (List.mem_append_right _ hq)

omit [Carrier τ] in
theorem entered_append (l m : List (Step τ)) : entered (l ++ m) = entered l ++ entered m :=
  List.filterMap_append

/-- A request that is taken in is known by its ticket. -/
theorem eq_of_ticket (h : run operations (new settings carrier start) = .ok (steps, s))
    {r q : Request} (hr : r ∈ entered steps) (hq : q ∈ entered steps) (ht : r.ticket = q.ticket) :
    r = q := by
  obtain ⟨l, hl, hfresh, -⟩ := balanced_of_run h
  exact List.inj_on_of_nodup_map hl.tickets (hfresh ▸ hr) (hfresh ▸ hq) ht

/-- The reply that finishes a request is the reply to it. -/
theorem answers_of_finishes
    (h : run operations (new settings carrier start) = .ok (past ++ step :: later, s))
    (hm : step.operation.message? = some (m, now)) {reply : Reply} {q : Request} {found : Match}
    (hf : Finishes step.before m now reply q found step.after) :
    q.origin ∈ entered past ∧ step.Answers q.origin m reply now := by
  obtain ⟨hpast, -, -⟩ := run_split h
  have hs := (knows_of_run hpast).1
  have hq : q ∈ (step.before.queueOf m.agent).requests := Backlog.mem_requests.2 (.inl hf.flight)
  have hagent : q.agent = m.agent := hs.placed m.agent q.ident (List.mem_map_of_mem hq)
  obtain ⟨hphase, hkey⟩ := Bool.and_eq_true_iff.1 hf.brings.awaited
  have hflight : (step.before.queueOf q.origin.agent).inFlight = some q := by
    rw [show q.origin.agent = m.agent from hagent]
    exact hf.flight
  exact ⟨origin_mem_entered hpast (mem_requests_of_queueOf hq), hm, hf.brings.network_eq,
    hagent.symm, hf.brings.reply_eq, eq_of_beq hkey, q, hflight, eq_of_beq hphase, rfl⟩

/-- Who is told of a reply, or told anything when a message is routed, is told what the reply to the
request has brought about. -/
theorem finishes_of_outcome
    (h : run operations (new settings carrier start) = .ok (past ++ step :: later, s)) {r : Request}
    (hr : r ∈ entered (past ++ step :: later)) {o : Outcome}
    (ht : (r.ticket, o) ∈ outcomes step.effects)
    (ho : o.Replied ∨ ∃ m now, step.operation = .route m now) :
    ∃ m reply now q found, step.operation.message? = some (m, now) ∧
      Finishes step.before m now reply q found step.after ∧ q.origin = r ∧
        found.finished.outcome = o := by
  obtain ⟨hpast, hp, -⟩ := run_split h
  obtain ⟨hs, hn, -⟩ := knows_of_run hpast
  obtain ⟨m, now, hm, ha⟩ := answers_of_told hs hn hp ht ho
  obtain ⟨reply, q, found, ended, hf, htransfer, hended⟩ := finishes_of_step hs hp hm ha
  obtain ⟨hq, -⟩ := answers_of_finishes h hm hf
  refine ⟨m, reply, now, q, found, hm, hf, ?_⟩
  rw [(Transfer.effects step htransfer).1] at ht
  rcases List.mem_cons.1 ht with he | hmem
  · -- the request that is finished is the one that was in flight
    have hticket : q.origin.ticket = r.ticket :=
      ((congrArg Prod.fst he).trans (congrArg Ident.ticket hf.ident_eq)).symm
    have hmem : q.origin ∈ entered (past ++ step :: later) := by
      rw [entered_append]
      exact List.mem_append_left _ hq
    exact ⟨eq_of_ticket h hmem hr hticket, (congrArg Prod.snd he).symm⟩
  · obtain ⟨f, hfm, he⟩ := List.mem_map.1 hmem
    obtain ⟨-, rfl⟩ := Prod.mk.inj he
    obtain ⟨hreply, hroute⟩ := hended f hfm
    rcases ho with ho | ⟨m', now', ho⟩
    · exact absurd ho hreply
    · exact absurd ho (hroute m' now')

/-- Who is told of a reply, or told anything when a message is routed, has been answered. -/
theorem answers_of_outcome
    (h : run operations (new settings carrier start) = .ok (past ++ step :: later, s)) {r : Request}
    (hr : r ∈ entered (past ++ step :: later)) {o : Outcome}
    (ht : (r.ticket, o) ∈ outcomes step.effects)
    (ho : o.Replied ∨ ∃ m now, step.operation = .route m now) :
    ∃ m reply now, step.Answers r m reply now := by
  obtain ⟨m, reply, now, q, found, hm, hf, rfl, -⟩ := finishes_of_outcome h hr ht ho
  exact ⟨m, reply, now, (answers_of_finishes h hm hf).2⟩

omit [Carrier τ] in
/-- Who is told of a reply is told what the reply says. -/
theorem verdict_of_finishes {reply : Reply} {q : Request} {found : Match}
    (hf : Finishes step.before m now reply q found step.after)
    (ho : found.finished.outcome.Replied) : ∃ roundTrip,
      found.finished.outcome = Backlog.verdictOutcome q.attempts roundTrip reply.verdict := by
  obtain ⟨b, hb⟩ := hf.answer
  rw [Backlog.answer_eq hf.flight hf.brings.awaited] at hb
  split at hb
  · cases hb
    exact ho.elim
  · cases hb
    exact ⟨_, rfl⟩

/-- Who was told of a reply has been answered, and was told what the reply says. -/
theorem verdict_of_told (h : run operations (new settings carrier start) = .ok (steps, s))
    {r : Request} (hr : r ∈ entered steps) {o : Outcome} (ht : (r.ticket, o) ∈ outcomes s.log)
    (ho : o.Replied) : ∃ step ∈ steps, ∃ m reply now, step.Answers r m reply now ∧
      ∃ attempts roundTrip, o = Backlog.verdictOutcome attempts roundTrip reply.verdict := by
  have hlog : s.log = steps.flatMap Step.effects := log_of_run (sound_new settings carrier start) h
  have htold : .delivered r.ticket o ∈ steps.flatMap Step.effects :=
    hlog ▸ delivered_mem_of_outcomes ht
  obtain ⟨step, hstep, he⟩ := List.mem_flatMap.1 htold
  have ht : (r.ticket, o) ∈ outcomes step.effects := List.mem_filterMap.2 ⟨_, he, rfl⟩
  obtain ⟨past, later, rfl⟩ := List.append_of_mem hstep
  obtain ⟨m, reply, now, q, found, hm, hf, rfl, rfl⟩ := finishes_of_outcome h hr ht (.inl ho)
  exact ⟨step, hstep, m, reply, now, (answers_of_finishes h hm hf).2, q.attempts,
    verdict_of_finishes hf ho⟩

/-- A request that expects a reply ends well only with one. -/
theorem replied_of_success (h : run operations (new settings carrier start) = .ok (steps, s))
    {r : Request} (hr : r ∈ entered steps) (hreply : r.payload.expectsReply = true) {attempts : Nat}
    {roundTrip : Option Span} (ht : (r.ticket, .success attempts roundTrip) ∈ outcomes s.log) :
    (Outcome.success attempts roundTrip).Replied := by
  obtain ⟨l, hl, hfresh, -⟩ := balanced_of_run h
  refine Option.isSome_iff_ne_none.2 fun hnone => ?_
  rw [hl.expectsReply_of_oneWay (hfresh ▸ hr) ht hnone] at hreply
  cases hreply

/-- A message that answers nothing changes nothing but what is known about its sender. -/
theorem after_of_unanswered (hm : step.operation.message? = some (m, now))
    (ha : step.before.answers m = false)
    (hp : perform step.operation step.before = .ok step.response step.after) :
    step.after = step.before.unanswered m now := by
  cases ho : step.operation with
  | deliver m' now' =>
    rw [ho] at hm hp
    obtain ⟨rfl, rfl⟩ := Prod.mk.inj (Option.some.inj hm)
    obtain ⟨⟨⟩, hd, -⟩ := Act.bind_pure_eq_ok.1 hp
    obtain ⟨agent, s₁, hr, hpump⟩ := Act.bind_eq_ok.1 hd
    rw [route_of_answers_eq_false ha, EStateM.Result.ok.injEq] at hr
    obtain ⟨rfl, rfl⟩ := hr
    exact (Act.pure_eq_ok.1 hpump).2.symm
  | route m' now' =>
    rw [ho] at hm hp
    obtain ⟨rfl, rfl⟩ := Prod.mk.inj (Option.some.inj hm)
    obtain ⟨agent, hr, -⟩ := Act.bind_pure_eq_ok.1 hp
    rw [route_of_answers_eq_false ha, EStateM.Result.ok.injEq] at hr
    exact hr.2.symm
  | _ =>
    rw [ho] at hm
    cases hm

/-- A reply that is not the reply to a request is ignored. -/
theorem ignores_of_not_answers
    (h : run operations (new settings carrier start) = .ok (past ++ step :: later, s))
    (hm : step.operation.message? = some (m, now)) {reply : Reply} (hreply : m.reply = some reply)
    (hknown : step.before.agents.contains m.agent = true)
    (hno : ∀ r ∈ entered past, ¬ step.Answers r m reply now) :
    Ignores step.before m.agent step.after := by
  obtain ⟨hpast, hp, -⟩ := run_split h
  cases ha : step.before.answers m with
  | false =>
    rw [after_of_unanswered hm ha hp]
    exact ignores_unanswered hknown now
  | true =>
    obtain ⟨reply', q, found, -, hf, -⟩ := finishes_of_step (knows_of_run hpast).1 hp hm ha
    obtain rfl := Option.some.inj (hreply.symm.trans hf.brings.reply_eq)
    obtain ⟨hq, hanswers⟩ := answers_of_finishes h hm hf
    exact absurd hanswers (hno q.origin hq)

/-- A request whose submitter was told how it ended is answered no more. -/
theorem not_answers_of_told
    (h : run operations (new settings carrier start) = .ok (past ++ step :: later, s)) {r : Request}
    {o : Outcome} (ht : (r.ticket, o) ∈ outcomes (past.flatMap Step.effects)) {reply : Reply} :
    ¬ step.Answers r m reply now := by
  rintro ⟨-, -, -, -, -, q, hq, -, rfl⟩
  obtain ⟨hpast, -, -⟩ := run_split h
  obtain ⟨l, hl, -⟩ := balanced_of_run hpast
  have hlog : step.before.log = past.flatMap Step.effects :=
    log_of_run (sound_new settings carrier start) hpast
  rw [← hlog] at ht
  obtain ⟨g, hg, hticket, -⟩ := hl.exists_of_told ht
  -- its ticket is that of a request that is pending no longer
  have hnodup := hl.nodup
  rw [List.map_append] at hnodup
  have hpending : q ∈ step.before.requests :=
    mem_requests_of_queueOf (Backlog.mem_requests.2 (.inl hq))
  have hticket : g.ticket = q.ticket := hticket
  refine List.disjoint_of_nodup_append hnodup (List.mem_map_of_mem hg) ?_
  rw [hticket]
  exact List.mem_map_of_mem hpending

/-! ### Round-trip times -/

omit [Carrier τ] in
/-- A round-trip time is told by the reply to a first attempt. -/
theorem sampled_of_finishes (hs : step.before.Sound) {reply : Reply} {q : Request} {found : Match}
    (hf : Finishes step.before m now reply q found step.after) :
    step.after.estimator = step.before.estimator ∨
      q.attempts = 1 ∧ found.finished.ident = q.ident ∧ found.finished.outcome.attempts = 1 ∧
        ∃ t, q.sentAt = some t ∧
          step.before.estimator.sample q.trafficClass (now - t) = .ok step.after.estimator := by
  obtain ⟨b, hb⟩ := hf.answer
  have he := hf.estimator
  obtain ⟨t, ht⟩ := Option.isSome_iff_exists.1 ((hs.settled m.agent).inFlight q hf.flight).sentAt
  rw [Backlog.answer_eq hf.flight hf.brings.awaited] at hb
  split at hb
  · cases hb
    exact .inl he
  · by_cases hn : q.attempts = 1
    · rw [if_pos hn, ht] at hb
      cases hb
      refine .inr ⟨hn, rfl, ?_, t, ht, he⟩
      cases reply.verdict <;> exact hn
    · rw [if_neg hn] at hb
      cases hb
      exact .inl he

/-- Of a request that is answered at its first attempt, the link has taken one frame, and takes no
other one. -/
theorem taken_of_finishes
    (h : run operations (new settings carrier start) = .ok (past ++ step :: later, s)) {q : Request}
    (hq : q.handle ∈ accepted past) (hflight : (step.before.queueOf q.agent).inFlight = some q)
    (hattempts : q.attempts = 1) {t : Instant} (ht : q.sentAt = some t)
    (haway : q.ident ∉ step.after.idents) :
    taken (past ++ step :: later) q.handle = [t] ∧ t ∈ instants past := by
  obtain ⟨hpast, hp, hlater⟩ := run_split h
  obtain ⟨hs, hn, -⟩ := knows_of_run hpast
  obtain ⟨hs', ended, htransfer⟩ := perform_transfer hs hp
  obtain ⟨earlier, t', -, htaken, ht', hlt, -⟩ := (tracked_of_run hpast hq).flight q hflight rfl
  obtain rfl := Option.some.inj (ht.symm.trans ht')
  obtain rfl : earlier = [] := by
    rw [hattempts] at hlt
    exact List.eq_nil_of_length_eq_zero (Nat.lt_one_iff.1 hlt)
  have hticket : q.ident.ticket < step.after.tickets := by
    have hm : q.ident ∈ step.before.idents :=
      mem_idents_of_queueOf (List.mem_map_of_mem (Backlog.mem_requests.2 (.inl hflight)))
    rw [htransfer.tickets]
    exact Nat.lt_of_lt_of_le (hn.lt q.ident hm) (Nat.le_add_right ..)
  have hnone : taken later q.handle = [] := taken_of_gone hlater hs' haway hticket
  have hstep : taken (past ++ [step]) q.handle = [t] := by
    rw [taken_append, Step.takes_eq_none (x := q.handle) haway, htaken]
    rfl
  constructor
  · have happend : taken (past ++ [step] ++ later) q.handle =
        taken (past ++ [step]) q.handle ++ taken later q.handle := List.filterMap_append
    rw [List.append_cons, happend, hstep, hnone]
    rfl
  · refine mem_instants_of_taken (x := q.handle) ?_
    rw [htaken]
    exact List.mem_singleton_self t

/-- The estimates change only if a request of which only one frame is ever handed to the link is
answered, and then by the time between that frame and the reply. -/
theorem sampled_of_step
    (h : run operations (new settings carrier start) = .ok (past ++ step :: later, s))
    (horder : InOrder (past ++ step :: later)) :
    step.after.estimator = step.before.estimator ∨
      ∃ r ∈ entered (past ++ step :: later), ∃ m reply now t, step.Answers r m reply now ∧
        s.attemptsOf r.ticket = 1 ∧ taken (past ++ step :: later) r.handle = [t] ∧ t ≤ now ∧
          step.before.estimator.sample r.trafficClass (now - t) = .ok step.after.estimator := by
  obtain ⟨hpast, hp, hlater⟩ := run_split h
  obtain ⟨hs, hn, -⟩ := knows_of_run hpast
  by_cases hans : ∃ m now, step.operation.message? = some (m, now) ∧ step.before.answers m = true
  · obtain ⟨m, now, hm, ha⟩ := hans
    obtain ⟨reply, q, found, ended, hf, htransfer, -⟩ := finishes_of_step hs hp hm ha
    obtain ⟨hq, hanswers⟩ := answers_of_finishes h hm hf
    refine (sampled_of_finishes hs hf).imp_right ?_
    rintro ⟨hattempts, hident, hone, t, ht, hsample⟩
    have haway : q.ident ∉ step.after.idents :=
      not_mem_of_ended (htransfer.nodup hn) (hident ▸ List.mem_map_of_mem List.mem_cons_self)
    have hflight : (step.before.queueOf q.agent).inFlight = some q := by
      rw [← show m.agent = q.agent from hanswers.agent_eq]
      exact hf.flight
    obtain ⟨-, -, -, hhandles⟩ := balanced_of_run hpast
    have haccepted : q.handle ∈ accepted past := by
      have hmem : q.origin.handle ∈ (entered past).map Request.handle := List.mem_map_of_mem hq
      rwa [hhandles] at hmem
    obtain ⟨htaken, hinstant⟩ := taken_of_finishes h haccepted hflight hattempts ht haway
    refine ⟨q.origin, ?_, m, reply, now, t, hanswers, ?_, htaken, ?_, hsample⟩
    · rw [entered_append]
      exact List.mem_append_left _ hq
    · -- its submitter was told of one attempt
      obtain ⟨l, hl, -⟩ := balanced_of_run h
      have hlog : s.log = (past ++ step :: later).flatMap Step.effects :=
        log_of_run (sound_new settings carrier start) h
      refine (hl.attemptsOf_of_told ?_).trans hone
      rw [hlog, List.flatMap_append, List.flatMap_cons, outcomes_append, outcomes_append,
        (Transfer.effects step htransfer).1]
      refine List.mem_append_right _ (List.mem_append_left _ (List.mem_cons.2 (.inl ?_)))
      exact Prod.ext (congrArg Ident.ticket hident).symm rfl
    · have htime : step.operation.time? = some now := by
        cases ho : step.operation <;> rw [ho] at hm <;> cases hm <;> rfl
      rw [List.append_cons] at horder
      exact horder.of_append.le htime t (by
        unfold instants
        rw [List.filterMap_append]
        exact List.mem_append_left _ hinstant)
  · refine .inl ((perform_moves hp).estimator fun agent ha => hans ?_)
    obtain ⟨m, now, ho, -, hans⟩ := origin_of_mem_actions _ ha
    refine ⟨m, now, ?_, hans⟩
    rcases ho with ho | ho <;> rw [ho] <;> rfl

end Runs

/-! ### Every message -/

/-- What the replies of a run do. -/
structure RepliesMatched (steps : List (Step τ)) (s : Station τ) : Prop where
  /-- who is told of a reply, or told anything when a message is routed, has been answered -/
  answered : ∀ step ∈ steps, ∀ r ∈ entered steps, ∀ o : Outcome,
    (r.ticket, o) ∈ outcomes step.effects → (o.Replied ∨ ∃ m now, step.operation = .route m now) →
      ∃ m reply now, step.Answers r m reply now
  /-- any other reply is ignored -/
  ignored : ∀ step ∈ steps, ∀ m now reply, step.operation.message? = some (m, now) →
    m.reply = some reply → step.before.agents.contains m.agent = true →
      (∀ r ∈ entered steps, ¬ step.Answers r m reply now) →
        Ignores step.before m.agent step.after
  /-- so is any copy of the reply to a request that has ended -/
  copies : ∀ past step later, steps = past ++ step :: later → ∀ r ∈ entered steps,
    (∃ o, (r.ticket, o) ∈ outcomes (past.flatMap Step.effects)) → ∀ m now reply,
      step.operation.message? = some (m, now) → m.reply = some reply → m.agent = r.agent →
        r.payload.key = some reply.key → step.before.agents.contains m.agent = true →
          Ignores step.before m.agent step.after
  /-- a round-trip time is that of a request of which only one frame is ever handed to the link -/
  sampled : ∀ step ∈ steps, step.after.estimator = step.before.estimator ∨
    ∃ r ∈ entered steps, ∃ m reply now t, step.Answers r m reply now ∧
      s.attemptsOf r.ticket = 1 ∧ taken steps r.handle = [t] ∧ t ≤ now ∧
        step.before.estimator.sample r.trafficClass (now - t) = .ok step.after.estimator

section Runs

variable [Carrier τ] {settings : NetworkSettings} {carrier : τ} {start : Instant}
  {operations : List Operation} {steps : List (Step τ)} {s : Station τ}

/-- Whatever a station is asked to do from its beginning on, at instants that do not decrease, if
the keys of the commands for each agent differ: a reply ends the request that it is the reply to,
and does nothing else but tell that its sender is there; and each round-trip time is that of the
only frame of a request. -/
theorem replies_matched (h : run operations (new settings carrier start) = .ok (steps, s))
    (htimes : (operations.filterMap Operation.time?).Pairwise (· ≤ ·))
    (hkeys : (correlations operations).Nodup) : RepliesMatched steps s where
  answered step hm r hr o ht ho := by
    obtain ⟨past, later, rfl⟩ := List.append_of_mem hm
    exact answers_of_outcome h hr ht ho
  ignored step hm m now reply hmessage hreply hknown hno := by
    obtain ⟨past, later, rfl⟩ := List.append_of_mem hm
    refine ignores_of_not_answers h hmessage hreply hknown fun r hr => hno r ?_
    rw [entered_append]
    exact List.mem_append_left _ hr
  copies past step later he r hr htold m now reply hmessage hreply hagent hkey hknown := by
    subst he
    obtain ⟨o, ht⟩ := htold
    refine ignores_of_not_answers h hmessage hreply hknown fun q hq hanswers => ?_
    have hq : q ∈ entered (past ++ step :: later) := by
      rw [entered_append]
      exact List.mem_append_left _ hq
    -- the only request of this agent with this key has ended
    rw [← operations_of_run h] at hkeys
    have hsame : q = r := eq_of_key hkeys hq hr (hanswers.agent_eq.symm.trans hagent)
      hanswers.key_eq hkey
    exact not_answers_of_told h ht (hsame ▸ hanswers)
  sampled step hm := by
    obtain ⟨past, later, rfl⟩ := List.append_of_mem hm
    refine sampled_of_step h ?_
    unfold InOrder instants
    rw [← operations_of_run h, List.filterMap_map] at htimes
    exact htimes

end Runs

/-- A reply with the key of a command but of another agent, the reply itself, and a copy of it. -/
def repeatedReply : List Operation :=
  [.route (.heartbeat "alpha" 1) 0, .route (.heartbeat "alpha" 2) 5,
    .submit 1 1 (.expecting [7] 3) .normal 0 10,
    .route (.accepted "alpha" 2 3) 20, .route (.accepted "alpha" 1 3) 50,
    .route (.accepted "alpha" 1 3) 60]

theorem replies_matched_repeatedReply :
    ∃ steps s, run repeatedReply (new { id := "alpha" } (Pipe.new "up" 4) 0) = .ok (steps, s) ∧
      (repeatedReply.filterMap Operation.time?).Pairwise (· ≤ ·) ∧
        (correlations repeatedReply).Nodup ∧ s.tally.acked = 1 ∧ s.tally.unmatchedReplies = 2 ∧
          RepliesMatched steps s := by
  have hrun : (run repeatedReply (new { id := "alpha" } (Pipe.new "up" 4) 0)).toOption.map
      (fun r => (r.2.tally.acked, r.2.tally.unmatchedReplies)) = some (1, 2) := by decide +kernel
  obtain ⟨steps, s, h, hread⟩ := exists_run_of_map hrun
  obtain ⟨hacked, hunmatched⟩ := Prod.mk.inj hread
  have htimes : (repeatedReply.filterMap Operation.time?).Pairwise (· ≤ ·) := by decide
  have hkeys : (correlations repeatedReply).Nodup := by decide
  exact ⟨steps, s, h, htimes, hkeys, hacked, hunmatched, replies_matched h htimes hkeys⟩

end Station

end GroundControl
