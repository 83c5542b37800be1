import GroundControl.Proofs.Pump.Rounds
import GroundControl.Proofs.Station.Acts

/-!
# The moves of a station

Whatever a station is asked to do, only a few things can happen to a request: it is taken in, it is
answered, the requests of its agent are moved, it is withdrawn, or its agent is removed.  Everything
else a station does leaves the requests alone.

* `Station.queueOf`, the backlog of an agent, empty for an agent without one; `Station.requests`,
  the pending requests of all agents;
* `Message.Brings`, with `answers_iff`: a message brings the reply to a request in flight;
* `Quiet`, a change that leaves the requests alone;
* `Action`, `Move`, what can happen to a request; `Moves`, one after the other;
* `Station.actions`, what an operation does to the requests, with `origin_of_mem_actions`.
-/

namespace GroundControl

/-- The pending requests of an agent. -/
def Agent.requests (a : Agent) : List Request := (a.backlog.map Backlog.requests).getD []

/-- The finished requests that were counted. -/
def Tally.ended (t : Tally) : Nat := t.acked + t.failed + t.cancelled

/-- What is neither the end of a request nor told to its submitter. -/
def Effect.Idle : Effect → Prop
  | .delivered .. => False
  | .published (.finished ..) => False
  | _ => True

/-- A message of an agent brings the reply to its request. -/
structure Message.Brings (m : Message) (network : NetworkId) (agent : AgentId) (r : Request)
    (reply : Reply) : Prop where
  network_eq : m.network = network
  agent_eq : m.agent = agent
  reply_eq : m.reply = some reply
  awaited : r.awaits reply.key = true

namespace Station

variable {τ : Type}

/-- The backlog of an agent, empty for an agent without one. -/
def queueOf (s : Station τ) (agent : AgentId) : Backlog :=
  (s.backlogOf agent).getD (.new agent s.settings.queueDepth)

/-- The pending requests of all agents. -/
def requests (s : Station τ) : List Request := s.agents.entries.flatMap fun e => e.2.requests

theorem queueOf_of_backlogOf {s : Station τ} {agent : AgentId} {b : Backlog}
    (h : s.backlogOf agent = some b) : s.queueOf agent = b := by
  unfold queueOf
  rw [h]
  rfl

theorem queueOf_of_backlogOf_eq_none {s : Station τ} {agent : AgentId}
    (h : s.backlogOf agent = none) : s.queueOf agent = .new agent s.settings.queueDepth := by
  unfold queueOf
  rw [h]
  rfl

theorem queueOf_of_get? {s : Station τ} {agent : AgentId} {a : Agent}
    (h : s.agents.get? agent = some a) :
    s.queueOf agent = a.backlog.getD (.new agent s.settings.queueDepth) := by
  unfold queueOf backlogOf
  rw [h]
  rfl

/-- An agent that is not registered has no requests. -/
theorem queueOf_of_get?_eq_none {s : Station τ} {agent : AgentId}
    (h : s.agents.get? agent = none) : s.queueOf agent = .new agent s.settings.queueDepth :=
  queueOf_of_backlogOf_eq_none (Option.bind_eq_none_iff.2 fun a ha => by
    rw [h] at ha
    cases ha)

theorem length_requests_agent (a : Agent) : a.requests.length = a.pendingLen := by
  unfold Agent.requests Agent.pendingLen
  cases a.backlog with
  | none => rfl
  | some b => exact b.length_requests

/-- The pending requests are as many as the queues say. -/
theorem length_requests (s : Station τ) : s.requests.length = s.queueDepth := by
  unfold requests queueDepth Table.values
  induction s.agents.entries with
  | nil => rfl
  | cons e l ih =>
    rw [List.flatMap_cons, List.length_append, List.map_cons, total_cons, ih,
      length_requests_agent]

theorem backlogOf_of_flight {s : Station τ} {agent : AgentId} {r : Request}
    (h : (s.queueOf agent).inFlight = some r) : s.backlogOf agent = some (s.queueOf agent) := by
  unfold queueOf at h ⊢
  cases hb : s.backlogOf agent with
  | some b => rfl
  | none =>
    rw [hb] at h
    cases h

/-- A message answers a request exactly if it brings the reply to the request in flight of its
sender. -/
theorem answers_iff {s : Station τ} {agent : AgentId} {r : Request}
    (h : (s.queueOf agent).inFlight = some r) {m : Message} (hm : m.agent = agent) :
    s.answers m = true ↔ ∃ reply, m.Brings s.id agent r reply := by
  have hb := backlogOf_of_flight h
  unfold answers
  rw [Bool.and_eq_true, beq_iff_eq, Option.any_eq_true, hm]
  constructor
  · rintro ⟨hn, reply, hr, ha⟩
    obtain ⟨b, q, hq, hf, hk⟩ := awaits_eq_true_iff.1 ha
    obtain rfl := Option.some.inj (hb.symm.trans hq)
    obtain rfl := Option.some.inj (h.symm.trans hf)
    exact ⟨reply, hn, hm, hr, hk⟩
  · rintro ⟨reply, hn, -, hr, hk⟩
    exact ⟨hn, reply, hr, awaits_eq_true_iff.2 ⟨_, r, hb, h, hk⟩⟩

/-! ### Replacing a backlog -/

theorem queueOf_setBacklog {s : Station τ} {agent : AgentId} {b : Backlog} {a : Agent}
    (h : s.agents.get? agent = some a) (other : AgentId) :
    (s.setBacklog agent b).queueOf other = if other = agent then b else s.queueOf other := by
  unfold queueOf backlogOf setBacklog
  dsimp only
  rw [Table.get?_modify]
  split
  · rename_i ho
    rw [ho, h]
    rfl
  · rfl

/-- The backlog of an agent depends on the agents and the settings alone. -/
theorem queueOf_congr {s s' : Station τ} (hs : s'.settings = s.settings)
    (ha : s'.agents = s.agents) (agent : AgentId) : s'.queueOf agent = s.queueOf agent := by
  unfold queueOf backlogOf
  rw [hs, ha]

/-- The backlogs of a station that differs in one backlog. -/
theorem queueOf_of_setBacklog {s s' : Station τ} {agent : AgentId} {b : Backlog} {a : Agent}
    (h : s.agents.get? agent = some a) (hs : s'.settings = s.settings)
    (ha : s'.agents = (s.setBacklog agent b).agents) (other : AgentId) :
    s'.queueOf other = if other = agent then b else s.queueOf other :=
  (queueOf_congr (s := s.setBacklog agent b) hs ha other).trans (queueOf_setBacklog h other)

theorem requests_perm_of_get? {s : Station τ} {agent : AgentId} {a : Agent}
    (h : s.agents.get? agent = some a) :
    s.requests.Perm (a.requests ++
      (s.agents.erase agent).entries.flatMap fun e => e.2.requests) :=
  (Table.entries_perm_of_get? h).flatMap_right _

/-- Replacing a backlog replaces its requests. -/
theorem requests_setBacklog {s : Station τ} {agent : AgentId} {a : Agent}
    (h : s.agents.get? agent = some a) (b : Backlog) :
    (s.setBacklog agent b).requests.Perm (b.requests ++
      (s.agents.erase agent).entries.flatMap fun e => e.2.requests) :=
  (Table.entries_modify_perm (fun a : Agent => { a with backlog := some b }) h).flatMap_right
    fun e : AgentId × Agent => e.2.requests

theorem requests_queueOf {s : Station τ} {agent : AgentId} {a : Agent}
    (h : s.agents.get? agent = some a) : a.requests = (s.queueOf agent).requests := by
  rw [queueOf_of_get? h]
  unfold Agent.requests
  cases a.backlog with
  | none => rfl
  | some b => rfl

/-! ### Changes that leave the requests alone -/

/-- A change that leaves the requests alone. -/
structure Quiet (s s' : Station τ) : Prop where
  settings : s'.settings = s.settings
  estimator : s'.estimator = s.estimator
  unthrottled : s.throttle = none → s'.throttle = none
  queue : ∀ agent, s'.queueOf agent = s.queueOf agent
  requests : s'.requests.Perm s.requests
  pending : s'.pending = s.pending
  tickets : s'.tickets = s.tickets
  refusals : s'.refusals = s.refusals
  ended : s'.tally.ended = s.tally.ended
  log : ∃ effects, s'.log = s.log ++ effects ∧ ∀ e ∈ effects, e.Idle

theorem Quiet.refl (s : Station τ) : Quiet s s where
  settings := rfl
  estimator := rfl
  unthrottled := fun h => h
  queue _ := rfl
  requests := .refl _
  pending := rfl
  tickets := rfl
  refusals := rfl
  ended := rfl
  log := ⟨[], (List.append_nil _).symm, List.forall_mem_nil _⟩

theorem Quiet.trans {s t u : Station τ} (h : Quiet s t) (h' : Quiet t u) : Quiet s u where
  settings := h'.settings.trans h.settings
  estimator := h'.estimator.trans h.estimator
  unthrottled := fun hs => h'.unthrottled (h.unthrottled hs)
  queue agent := (h'.queue agent).trans (h.queue agent)
  requests := h'.requests.trans h.requests
  pending := h'.pending.trans h.pending
  tickets := h'.tickets.trans h.tickets
  refusals := h'.refusals.trans h.refusals
  ended := h'.ended.trans h.ended
  log := by
    obtain ⟨l, hl, hi⟩ := h.log
    obtain ⟨m, hm, hj⟩ := h'.log
    refine ⟨l ++ m, ?_, ?_⟩
    · rw [hm, hl, List.append_assoc]
    · intro e he
      rcases List.mem_append.1 he with he | he
      · exact hi e he
      · exact hj e he

/-- What changes neither a backlog nor what the station knows about requests is quiet. -/
theorem Quiet.of_backlogs {s s' : Station τ} (hs : s'.settings = s.settings)
    (he : s'.estimator = s.estimator) (ht : s.throttle = none → s'.throttle = none)
    (hb : ∀ agent, s'.backlogOf agent = s.backlogOf agent) (hq : s'.requests.Perm s.requests)
    (hp : s'.pending = s.pending) (hn : s'.tickets = s.tickets) (hr : s'.refusals = s.refusals)
    (hd : s'.tally.ended = s.tally.ended)
    (hl : ∃ effects, s'.log = s.log ++ effects ∧ ∀ e ∈ effects, e.Idle) : Quiet s s' where
  settings := hs
  estimator := he
  unthrottled := ht
  queue agent := by
    unfold queueOf
    rw [hb, hs]
  requests := hq
  pending := hp
  tickets := hn
  refusals := hr
  ended := hd
  log := hl

theorem Quiet.of_agents {s s' : Station τ} (hs : s'.settings = s.settings)
    (he : s'.estimator = s.estimator) (ht : s.throttle = none → s'.throttle = none)
    (ha : s'.agents = s.agents) (hp : s'.pending = s.pending) (hn : s'.tickets = s.tickets)
    (hr : s'.refusals = s.refusals) (hd : s'.tally.ended = s.tally.ended)
    (hl : ∃ effects, s'.log = s.log ++ effects ∧ ∀ e ∈ effects, e.Idle) : Quiet s s' := by
  refine .of_backlogs hs he ht ?_ (.of_eq ?_) hp hn hr hd hl
  · intro agent
    unfold backlogOf
    rw [ha]
  · unfold Station.requests
    rw [ha]

theorem idle_nil (l : List Effect) : ∃ effects, l = l ++ effects ∧ ∀ e ∈ effects, e.Idle :=
  ⟨[], (List.append_nil l).symm, List.forall_mem_nil _⟩

theorem idle_append (l : List Effect) {effects : List Effect} (h : ∀ e ∈ effects, e.Idle) :
    ∃ effects', l ++ effects = l ++ effects' ∧ ∀ e ∈ effects', e.Idle :=
  ⟨effects, rfl, h⟩

theorem quiet_emit (s : Station τ) {e : Effect} (h : e.Idle) : Quiet s (s.emit e) :=
  .of_agents rfl rfl (fun h => h) rfl rfl rfl rfl rfl
    (idle_append s.log (List.forall_mem_singleton.2 h))

theorem quiet_announce (s : Station τ) (change : PresenceChange) : Quiet s (s.announce change) :=
  (quiet_emit s (e := .measured (.agentsOnline s.id) (.level s.watch.onlineCount)) trivial).trans
    (quiet_emit _ (e := .published (.presence s.id change.agent change.source change.target))
      trivial)

theorem quiet_foldl_announce (changes : List PresenceChange) (s : Station τ) :
    Quiet s (changes.foldl announce s) := by
  induction changes generalizing s with
  | nil => exact .refl s
  | cons change rest ih => exact (quiet_announce s change).trans (ih _)

theorem quiet_watch (s : Station τ) (watch : Watch) : Quiet s { s with watch } :=
  .of_agents rfl rfl (fun h => h) rfl rfl rfl rfl rfl (idle_nil s.log)

theorem quiet_swept [Walk] (s : Station τ) (now : Instant) : Quiet s (s.swept now) :=
  (quiet_watch s _).trans (quiet_foldl_announce _ _)

theorem agents_swept [Walk] (s : Station τ) (now : Instant) : (s.swept now).agents = s.agents := by
  rw [swept_eq]

theorem quiet_adoptEpoch (s : Station τ) (epoch : Nat) : Quiet s (s.adoptEpoch epoch) :=
  .of_agents rfl rfl (fun h => h) rfl rfl rfl rfl rfl (idle_nil s.log)

theorem quiet_expireResults (s : Station τ) (now : Instant) : Quiet s (s.expireResults now) :=
  .of_agents rfl rfl (fun h => h) rfl rfl rfl rfl rfl (idle_nil s.log)

theorem quiet_unmatched (s : Station τ) : Quiet s s.unmatched :=
  .of_agents rfl rfl (fun h => h) rfl rfl rfl rfl rfl (idle_nil s.log)

theorem quiet_dropCapped (s : Station τ) : Quiet s s.dropCapped :=
  .of_agents rfl rfl (fun h => h) rfl rfl rfl rfl rfl
    (idle_append s.log (List.forall_mem_singleton.2 trivial))

theorem quiet_register (s : Station τ) (agent : AgentId) : Quiet s (s.register agent) := by
  have hq := backlogOf_register s agent
  by_cases h : s.agents.contains agent = true
  · unfold register
    rw [if_pos h]
    exact .refl s
  · have hn : s.agents.get? agent = none := by simpa [Table.contains] using h
    unfold register at hq ⊢
    rw [if_neg h] at hq ⊢
    have hr := (Table.entries_insert_perm s.agents agent ⟨.none, none⟩).flatMap_right
      fun e : AgentId × Agent => e.2.requests
    rw [Table.erase_of_get?_eq_none hn] at hr
    exact .of_backlogs rfl rfl (fun h => h) hq hr rfl rfl rfl rfl
      (idle_append s.log (List.forall_mem_singleton.2 trivial))

theorem quiet_modify (s : Station τ) (agent : AgentId) (capabilities : Capabilities) :
    Quiet s { s with agents := s.agents.modify agent fun a => { a with capabilities } } := by
  refine .of_backlogs rfl rfl (fun h => h) ?_ ?_ rfl rfl rfl rfl (idle_nil s.log)
  · intro other
    unfold backlogOf
    dsimp only
    rw [Table.get?_modify]
    split
    · cases s.agents.get? other <;> rfl
    · rfl
  · cases ha : s.agents.get? agent with
    | none =>
      unfold Station.requests Table.modify
      rw [ha]
    | some a =>
      have hp := (Table.entries_modify_perm (fun a : Agent => { a with capabilities })
        ha).flatMap_right
        fun e : AgentId × Agent => e.2.requests
      exact hp.trans (requests_perm_of_get? ha).symm

theorem quiet_counted (s : Station τ) (m : Message) : Quiet s (s.counted m) :=
  .of_agents rfl rfl (fun h => h) rfl rfl rfl rfl rfl
    (idle_append s.log (List.forall_mem_singleton.2 trivial))

theorem quiet_flagged (s : Station τ) (m : Message) : Quiet s (s.flagged m) := by
  unfold flagged
  cases m.capabilities with
  | none => exact .refl s
  | some capabilities => exact quiet_modify s m.agent capabilities

theorem quiet_observed (s : Station τ) (m : Message) (now : Instant) :
    Quiet s (s.observed m now) := by
  unfold observed
  cases (s.watch.observe m.agent now m.kind.signal).1 with
  | none => exact quiet_watch s _
  | some change => exact (quiet_watch s _).trans (quiet_announce _ change)

theorem quiet_hear (s : Station τ) (m : Message) (now : Instant) : Quiet s (s.hear m now) := by
  rw [hear_eq]
  exact ((quiet_counted s m).trans (quiet_flagged _ m)).trans (quiet_observed _ m now)

theorem quiet_heard (s : Station τ) (m : Message) (now : Instant) : Quiet s (s.heard m now) :=
  (quiet_register s m.agent).trans (quiet_hear _ m now)

/-- A message that answers no request is quiet. -/
theorem quiet_unanswered (s : Station τ) (m : Message) (now : Instant) :
    Quiet s (s.unanswered m now) := by
  unfold unanswered
  split
  · exact quiet_emit s trivial
  · split
    · exact quiet_dropCapped s
    · split
      · exact quiet_heard s m now
      · exact (quiet_heard s m now).trans (quiet_unmatched _)

/-- Giving an agent without a backlog an empty one is quiet. -/
theorem quiet_setBacklog {s : Station τ} {agent : AgentId} {a : Agent}
    (h : s.agents.get? agent = some a) : Quiet s (s.setBacklog agent (s.queueOf agent)) where
  settings := rfl
  estimator := rfl
  unthrottled := fun h => h
  queue other := by
    rw [queueOf_setBacklog h]
    split
    · rename_i ho
      rw [ho]
    · rfl
  requests := by
    refine (requests_setBacklog h _).trans ?_
    rw [← requests_queueOf h]
    exact (requests_perm_of_get? h).symm
  pending := rfl
  tickets := rfl
  refusals := rfl
  ended := rfl
  log := idle_nil s.log

/-! ### Broadcasts -/

theorem quiet_rateLimited (s : Station τ) : Quiet s (rateLimited s).2 :=
  .of_agents rfl rfl (fun h => h) rfl rfl rfl rfl rfl (idle_nil s.log)

section Broadcast

variable [Carrier τ]

theorem quiet_transmitAll (s : Station τ) (bulletin : Bulletin) :
    Quiet s (transmitAll bulletin s).2 := by
  unfold transmitAll
  dsimp only
  cases Carrier.send s.carrier ⟨s.id, .everyone, bulletin.body, none, s.epoch⟩ with
  | mk answer carrier =>
    cases answer with
    | error e =>
      exact .of_agents rfl rfl (fun h => h) rfl rfl rfl rfl rfl
        (idle_append s.log (List.forall_mem_singleton.2 trivial))
    | ok _ =>
      refine .of_agents rfl rfl (fun h => h) rfl rfl rfl rfl rfl
        ⟨[.sent _ _, .measured _ _], List.append_assoc _ _ _, ?_⟩
      simp [Effect.Idle]

theorem quiet_tryBroadcast {s s' : Station τ} {bulletin : Bulletin} {deadline now : Instant}
    {attempt : Attempt Unit} (h : tryBroadcast bulletin deadline now s = .ok attempt s') :
    Quiet s s' := by
  obtain ⟨throttle, ht, hs⟩ := tryBroadcast_cases h
  have hq : Quiet s { s with throttle } :=
    .of_agents rfl rfl ht rfl rfl rfl rfl rfl (idle_nil s.log)
  rcases hs with rfl | rfl | rfl
  · exact hq.trans (quiet_transmitAll _ bulletin)
  · exact hq.trans (quiet_rateLimited _)
  · exact hq

theorem quiet_broadcastRounds {s s' : Station τ} {wake : Instant → Instant} {bulletin : Bulletin}
    {deadline now : Instant} {n : Nat} {answer : Except DispatchError Unit × Instant}
    (h : broadcastRounds wake bulletin deadline n now s = .ok answer s') : Quiet s s' := by
  induction n generalizing s now with
  | zero =>
    cases h
    exact quiet_rateLimited s
  | succ n ih =>
    unfold broadcastRounds at h
    obtain ⟨attempt, s₁, ht, h⟩ := Act.bind_eq_ok.1 h
    have hq := quiet_tryBroadcast ht
    cases attempt with
    | done answer =>
      cases h
      exact hq
    | wait ready => exact hq.trans (ih h)

theorem quiet_correction {s s' : Station τ} {wake : Instant → Instant} {bulletin : Bulletin}
    {skipIfIdle : Bool} {deadline now : Instant} {answer : Except DispatchError Bool × Instant}
    (h : correction wake bulletin skipIfIdle deadline now s = .ok answer s') : Quiet s s' := by
  unfold correction at h
  obtain ⟨s₀, s₁, hg, h⟩ := Act.bind_eq_ok.1 h
  cases hg
  split at h
  · obtain ⟨answer, s₂, hb, h⟩ := Act.bind_eq_ok.1 h
    cases h
    exact quiet_broadcastRounds hb
  · cases h
    exact .refl s

end Broadcast

/-! ### Moves -/

/-- What can happen to a request. -/
inductive Action
  /-- a request is taken in -/
  | enter (handle : Handle)
  /-- a reply of an agent finishes its request in flight -/
  | answer (agent : AgentId)
  /-- the requests of an agent are moved -/
  | pump (agent : AgentId)
  | withdraw (request : RequestId)
  /-- an agent is removed -/
  | remove (agent : AgentId)
  deriving DecidableEq

/-- The station after a request is taken in. -/
def admitted (s : Station τ) (r : Request) (b : Backlog) : Station τ :=
  { s.setBacklog r.agent b with
    pending := s.pending.insert r.id r.agent
    tickets := s.tickets + 1 }

/-- The station after an agent is removed. -/
def removed (s : Station τ) (agent : AgentId) (a : Agent) (now : Instant) : Station τ :=
  ({ s with agents := s.agents.erase agent } : Station τ).evicted agent a now

/-- What happens to a request at `now`. -/
inductive Move [Carrier τ] (now : Instant) : Action → Station τ → Station τ → Prop
  | enter {s : Station τ} {a : Agent} {r : Request} {b : Backlog} (id : RequestId)
      (agent : AgentId) (payload : Payload) (urgency : Urgency) (maxAttempts : Nat)
      (hr : r = .new id s.id agent payload urgency maxAttempts s.tickets)
      (ha : s.agents.get? agent = some a) (hb : (s.queueOf agent).submit r = some b) :
      Move now (.enter r.handle) s (s.admitted r b)
  | answer {s : Station τ} {agent : AgentId} {key : ReplyKey} {verdict : Verdict} {b b' : Backlog}
      {found : Match} {estimator : Estimator TrafficClass} (hb : s.backlogOf agent = some b)
      (ha : b.answer key verdict now = (some found, b'))
      (he : Sampled s.estimator found.sample estimator) :
      Move now (.answer agent) s (s.answered agent b' found estimator now)
  | pump {s : Station τ} {agent : AgentId} {b : Backlog} {p : Pass τ}
      (hb : s.backlogOf agent = some b)
      (hp : Pass.run (s.passContext agent now) (s.firstPass b now) = (none, p)) :
      Move now (.pump agent) s (s.pumped agent p now)
  /-- an agent without a backlog has no requests to move -/
  | idle {s : Station τ} {agent : AgentId} (hb : s.backlogOf agent = none) :
      Move now (.pump agent) s s
  | withdraw {s : Station τ} {request : RequestId} {agent : AgentId} {b : Backlog}
      (hp : s.pending.get? request = some agent) (hb : s.backlogOf agent = some b) :
      Move now (.withdraw request) s (s.setBacklog agent (b.withdraw request).2)
  /-- the request is not pending -/
  | gone {s : Station τ} {request : RequestId} : Move now (.withdraw request) s s
  | remove {s : Station τ} {agent : AgentId} {a : Agent} (ha : s.agents.get? agent = some a) :
      Move now (.remove agent) s (s.removed agent a now)
  /-- the agent is not registered -/
  | unknown {s : Station τ} {agent : AgentId} (ha : s.agents.get? agent = none) :
      Move now (.remove agent) s s

/-- What happens to requests at `now`, one thing after the other, and quiet changes in between. -/
inductive Moves [Carrier τ] (now : Instant) : List Action → Station τ → Station τ → Prop
  | nil {s : Station τ} : Moves now [] s s
  | quiet {l : List Action} {s s₁ s' : Station τ} (h : Quiet s s₁) (hs : Moves now l s₁ s') :
      Moves now l s s'
  | cons {a : Action} {l : List Action} {s s₁ s' : Station τ} (h : Move now a s s₁)
      (hs : Moves now l s₁ s') : Moves now (a :: l) s s'

section Moves

variable [Carrier τ] {now : Instant}

theorem Moves.of_quiet {s s' : Station τ} (h : Quiet s s') : Moves now [] s s' := .quiet h .nil

/-- What an operation does to the requests. -/
def actions (s : Station τ) : Operation → Result → List Action
  | .deliver m _, _ => if s.answers m then [.answer m.agent, .pump m.agent] else []
  | .route m _, _ => if s.answers m then [.answer m.agent] else []
  | .submit _ agent _ _ _ _, .submitted (.ok handle) => [.enter handle, .pump agent]
  | .enqueue .., .submitted (.ok handle) => [.enter handle]
  | .pump agent _, _ => [.pump agent]
  | .pumpAll _ _, _ | .tick _ _, _ => s.busyAgents.map .pump
  | .cancel request, _ => [.withdraw request]
  | .deregister agent _, _ => [.remove agent]
  | .shutdown _ _, _ => (Walk.entries s.agents).map fun e => .remove e.1
  | _, _ => []

/-- What an operation is if an action is part of it. -/
def Action.Origin (s : Station τ) (operation : Operation) (response : Result) : Action → Prop
  | .enter handle => response.handle? = some handle
  | .answer agent => ∃ m now, (operation = .deliver m now ∨ operation = .route m now) ∧
      m.agent = agent ∧ s.answers m = true
  | .pump _ => True
  | .withdraw request => operation = .cancel request
  | .remove agent =>
      ∃ now, operation = .deregister agent now ∨ ∃ walk, operation = .shutdown walk now

omit [Carrier τ] in
theorem origin_of_mem_actions {s : Station τ} {operation : Operation} {response : Result} :
    ∀ a ∈ s.actions operation response, a.Origin s operation response := by
  cases operation with
  | deliver m now =>
    show ∀ a ∈ if s.answers m then [Action.answer m.agent, .pump m.agent] else [],
      a.Origin s (.deliver m now) response
    cases hm : s.answers m with
    | false => exact List.forall_mem_nil _
    | true =>
      refine List.forall_mem_cons.2 ⟨⟨m, now, .inl rfl, rfl, hm⟩, ?_⟩
      exact List.forall_mem_singleton.2 trivial
  | route m now =>
    show ∀ a ∈ if s.answers m then [Action.answer m.agent] else [],
      a.Origin s (.route m now) response
    cases hm : s.answers m with
    | false => exact List.forall_mem_nil _
    | true => exact List.forall_mem_singleton.2 ⟨m, now, .inr rfl, rfl, hm⟩
  | submit request agent payload urgency maxAttempts now =>
    cases response with
    | submitted result =>
      cases result with
      | error e => exact List.forall_mem_nil _
      | ok handle => exact List.forall_mem_cons.2 ⟨rfl, List.forall_mem_singleton.2 trivial⟩
    | _ => exact List.forall_mem_nil _
  | enqueue request agent payload urgency maxAttempts =>
    cases response with
    | submitted result =>
      cases result with
      | error e => exact List.forall_mem_nil _
      | ok handle => exact List.forall_mem_singleton.2 rfl
    | _ => exact List.forall_mem_nil _
  | pump agent now => exact List.forall_mem_singleton.2 trivial
  | pumpAll walk now | tick walk now => exact List.forall_mem_map.2 fun _ _ => trivial
  | cancel request => exact List.forall_mem_singleton.2 rfl
  | deregister agent now => exact List.forall_mem_singleton.2 ⟨now, .inl rfl⟩
  | shutdown walk now => exact List.forall_mem_map.2 fun _ _ => ⟨now, .inr ⟨walk, rfl⟩⟩
  | sweep | broadcast | correction | adoptEpoch => exact List.forall_mem_nil _

end Moves

end Station

end GroundControl
