import GroundControl.Proofs.Station.Transfer

/-!
# Every step of a lifecycle is allowed

The lifecycle of a request refuses steps that make no sense, and whoever asks for one is not told.
No station ever asks for one, not even in an operation that meets a fault half-way.

* `Pass.refusals_of_fault`: a pump that meets a fault has had no step refused;
* `Station.Unrefused`: no lifecycle step was ever refused; `Station.Lawful`, a station between two
  operations;
* `Station.Ends`, how an act may leave a station: lawful, or after a fault unrefused; `ends_bind`
  and one lemma for each act, up to `ends_perform`;
* `Station.Rested`, where the requests are between two operations; `lifecycle_obeyed`, for every
  run.
-/

namespace GroundControl

namespace Pass

variable {τ : Type}

/-- A pump that meets a fault has had no step refused. -/
theorem refusals_of_fault [Carrier τ] {ctx : PassContext} {n : Nat} {p q : Pass τ} {fault : Fault}
    (hp : p.Sound) (h : rounds ctx n p = (some fault, q)) : q.backlog.refusals = [] := by
  induction n generalizing p with
  | zero => cases h
  | succ n ih =>
    have hs := sound_round ctx hp
    have hc := round_case ctx hp.settled
    unfold rounds at h
    cases hr : round ctx p with
    | next p₁ =>
      rw [hr] at h hs
      exact ih hs.1 h
    | stop p₁ =>
      rw [hr] at h
      cases h
    | fault f p₁ =>
      rw [hr] at h hc
      cases h
      cases hc with
      | fault _ _ _ _ hq => exact hq.trans hp.settled.refusals

end Pass

namespace Station

variable {τ : Type}

/-- No lifecycle step was ever refused, neither in a backlog nor in one that is gone. -/
structure Unrefused (s : Station τ) : Prop where
  gone : s.refusals = []
  backlogs : ∀ agent, (s.queueOf agent).refusals = []

/-- A station between two operations. -/
structure Lawful (s : Station τ) : Prop where
  sound : s.Sound
  gone : s.refusals = []

theorem Lawful.unrefused {s : Station τ} (h : s.Lawful) : s.Unrefused :=
  ⟨h.gone, fun agent => (h.sound.settled agent).refusals⟩

theorem lawful_new (settings : NetworkSettings) (carrier : τ) (now : Instant) :
    (new settings carrier now).Lawful :=
  ⟨sound_new settings carrier now, rfl⟩

/-- Only the backlogs and what is left of old ones count. -/
theorem Lawful.of_agents {s s' : Station τ} (h : s.Lawful) (hs : s'.settings = s.settings)
    (ha : s'.agents = s.agents) (hr : s'.refusals = s.refusals) : s'.Lawful :=
  ⟨h.sound.of_queueOf (queueOf_congr hs ha), hr.trans h.gone⟩

theorem Lawful.of_quiet {s s' : Station τ} (h : s.Lawful) (hq : Quiet s s') : s'.Lawful :=
  ⟨h.sound.of_queueOf hq.queue, hq.refusals.trans h.gone⟩

/-- The requests of an agent that is removed have had no step refused. -/
theorem refusals_dissolved {a : Agent} (ha : ∀ b, a.backlog = some b → b.Settled) :
    (dissolved a).2 = [] := by
  unfold dissolved
  cases hb : a.backlog with
  | none => rfl
  | some b => exact (ha b hb).dissolve.1

/-- The backlogs of a lawful station are settled. -/
theorem Lawful.settled {s : Station τ} (h : s.Lawful) {agent : AgentId} {a : Agent}
    (ha : s.agents.get? agent = some a) : ∀ b, a.backlog = some b → b.Settled := by
  intro b hb
  have hq := h.sound.settled agent
  rw [queueOf_of_get? ha, hb] at hq
  exact hq

theorem Move.lawful [Carrier τ] {now : Instant} {a : Action} {s s' : Station τ}
    (hm : Move now a s s') (h : s.Lawful) : s'.Lawful where
  sound := (hm.transfer h.sound).1
  gone := by
    cases hm with
    | @remove _ agent a ha =>
      show s.refusals ++ (dissolved a).2 = []
      rw [h.gone, refusals_dissolved (h.settled ha)]
      rfl
    | _ => exact h.gone

theorem Moves.lawful [Carrier τ] {now : Instant} {l : List Action} {s s' : Station τ}
    (hm : Moves now l s s') (h : s.Lawful) : s'.Lawful := by
  induction hm with
  | nil => exact h
  | quiet hq _ ih => exact ih (h.of_quiet hq)
  | cons hm _ ih => exact ih (hm.lawful h)

theorem lawful_enqueue [Carrier τ] (now : Instant) {s : Station τ} (h : s.Lawful)
    (request : RequestId) (agent : AgentId) (payload : Payload) (urgency : Urgency)
    (maxAttempts : Nat) :
    (enqueue request agent payload urgency maxAttempts s).2.Lawful := by
  cases he : enqueue request agent payload urgency maxAttempts s with
  | mk result s' =>
    have hm := move_enqueue now he
    cases result with
    | error e => exact h.of_quiet hm
    | ok handle => exact hm.1.lawful h

/-! ### How an act leaves a station -/

/-- How an act may leave a station: lawful, or after a fault unrefused. -/
def Ends {α : Type} : EStateM.Result Fault (Station τ) α → Prop
  | .ok _ s => s.Lawful
  | .error _ s => s.Unrefused

section Acts

variable {α β : Type}

theorem ends_bind {x : Act τ α} {f : α → Act τ β} {s : Station τ} (hx : Ends (x s))
    (hf : ∀ a s', x s = .ok a s' → s'.Lawful → Ends (f a s')) : Ends ((x >>= f) s) := by
  show Ends (EStateM.bind x f s)
  unfold EStateM.bind
  cases hr : x s with
  | ok a s' =>
    rw [hr] at hx
    exact hf a s' hr hx
  | error fault s' =>
    rw [hr] at hx
    exact hx

theorem ends_set {s t : Station τ} (h : t.Lawful) : Ends ((set t : Act τ PUnit) s) := h

theorem ends_modify {f : Station τ → Station τ} {s : Station τ} (h : (f s).Lawful) :
    Ends ((modify f : Act τ PUnit) s) := h

theorem ends_forM {f : α → Act τ Unit} {l : List α}
    (hf : ∀ a ∈ l, ∀ s : Station τ, s.Lawful → Ends (f a s)) {s : Station τ} (h : s.Lawful) :
    Ends (l.forM f s) := by
  induction l generalizing s with
  | nil => exact h
  | cons a rest ih =>
    obtain ⟨ha, hrest⟩ := List.forall_mem_cons.1 hf
    exact ends_bind (ha s h) fun _ s' _ hs' => ih hrest hs'

/-- An act of which only the answer is changed. -/
theorem ends_map {x : Act τ α} {s : Station τ} (hx : Ends (x s)) (f : α → β) :
    Ends ((x >>= fun a => pure (f a)) s) :=
  ends_bind hx fun _ _ _ hs' => hs'

/-! ### Bookings and replies -/

theorem ends_conclude {s : Station τ} (h : s.Lawful) (f : Finished) (now : Instant) :
    Ends (conclude f now s) := by
  unfold conclude
  dsimp only
  split
  · apply Lawful.unrefused
    exact h.of_agents rfl rfl rfl
  · exact h.of_agents rfl rfl rfl

theorem ends_concludeAll {s : Station τ} (h : s.Lawful) (finished : List Finished)
    (now : Instant) : Ends (concludeAll finished now s) :=
  ends_forM (fun f _ _ hs => ends_conclude hs f now) h

theorem ends_settle {s : Station τ} (h : s.Lawful) (found : Match) (now : Instant) :
    Ends (settle found now s) := by
  have hc : ∀ t : Station τ, t.Lawful →
      Ends ((conclude found.finished now >>= fun _ => pure true : Act τ Bool) t) :=
    fun t ht => ends_map (ends_conclude ht found.finished now) _
  unfold settle
  cases found.sample with
  | none => exact hc s h
  | some x =>
    refine ends_bind ?_ fun _ s' _ hs' => hc s' hs'
    dsimp only [sample]
    split
    · exact h.unrefused
    · exact h.of_agents rfl rfl rfl

theorem ends_matchReply {s : Station τ} (h : s.Lawful) (agent : AgentId) (reply : Reply)
    (now : Instant) : Ends (matchReply agent reply now s) := by
  cases hw : s.awaits agent reply.key with
  | false =>
    rw [matchReply_of_awaits_eq_false hw]
    exact h.of_quiet (quiet_unmatched s)
  | true =>
    obtain ⟨b, r, hb, hr, ha⟩ := awaits_eq_true_iff.1 hw
    obtain ⟨found, b', hans⟩ := exists_answer reply.verdict now hr ha
    rw [matchReply_of_answer hb hans]
    -- the backlog with its request answered is that of the balance of an answer
    have hs := (transfer_answered h.sound s.estimator hb hans).1
    apply ends_settle
    exact ⟨hs.of_queueOf (queueOf_congr rfl rfl), h.gone⟩

theorem ends_route {s : Station τ} (h : s.Lawful) (m : Message) (now : Instant) :
    Ends (route m now s) := by
  by_cases hn : m.network = s.id
  · cases ha : s.admits m.agent with
    | false =>
      rw [route_of_capped hn ha]
      exact h.of_quiet (quiet_dropCapped s)
    | true =>
      rw [route_of_admits hn ha]
      have hs := h.of_quiet (quiet_heard s m now)
      cases m.reply with
      | none => exact hs
      | some reply => exact ends_map (ends_matchReply hs m.agent reply now) _
  · rw [route_of_foreign hn]
    exact h.of_quiet (quiet_emit s trivial)

/-! ### Pumps -/

section Pumps

variable [Carrier τ]

theorem ends_pump {s : Station τ} (h : s.Lawful) (agent : AgentId) (now : Instant) :
    Ends (pump agent now s) := by
  cases hb : s.backlogOf agent with
  | none =>
    rw [pump_of_backlogOf_eq_none hb]
    exact h
  | some b =>
    obtain ⟨a, ha⟩ := exists_of_backlogOf hb
    have hset := h.sound.settled agent
    rw [queueOf_of_backlogOf hb] at hset
    have hfirst := (sound_firstPass (s := s) hset now).1
    cases hp : Pass.run (s.passContext agent now) (s.firstPass b now) with
    | mk fault p =>
      rw [pump_of_backlogOf_eq_some hb hp]
      cases fault with
      | none =>
        have hs := (transfer_pumped h.sound hb hp).1
        apply ends_concludeAll
        exact ⟨hs.of_queueOf (queueOf_congr rfl rfl), h.gone⟩
      | some fault =>
        refine ⟨h.gone, fun other => ?_⟩
        have hsettings : (s.book agent p).settings = s.settings := rfl
        have hagents : (s.book agent p).agents = (s.setBacklog agent p.backlog).agents := rfl
        rw [queueOf_of_setBacklog ha hsettings hagents]
        split
        · exact Pass.refusals_of_fault hfirst hp
        · exact (h.sound.settled other).refusals

theorem ends_pumpAll [Walk] {s : Station τ} (h : s.Lawful) (now : Instant) :
    Ends (pumpAll now s) := by
  have hpumps : Ends (s.busyAgents.forM (pump · now) s) :=
    ends_forM (fun agent _ _ hs => ends_pump hs agent now) h
  show Ends ((s.busyAgents.forM (pump · now) >>= fun _ => (do
    modify (·.expireResults now)
    modify fun s => s.level (.queueDepth s.id) s.queueDepth : Act τ Unit)) s)
  exact ends_bind hpumps fun _ s' _ hs' => hs'.of_agents rfl rfl rfl

theorem ends_deliverInbound {s : Station τ} (h : s.Lawful) (m : Message) (now : Instant) :
    Ends (deliverInbound m now s) := by
  refine ends_bind (ends_route h m now) fun found s' _ hs' => ?_
  cases found with
  | none => exact hs'
  | some agent => exact ends_pump hs' agent now

theorem ends_submit {s : Station τ} (h : s.Lawful) (request : RequestId) (agent : AgentId)
    (payload : Payload) (urgency : Urgency) (maxAttempts : Nat) (now : Instant) :
    Ends (submit request agent payload urgency maxAttempts now s) := by
  refine ends_bind ?_ fun result s' _ hs' => ?_
  · exact lawful_enqueue now h request agent payload urgency maxAttempts
  · cases result with
    | error e => exact hs'
    | ok handle => exact ends_map (ends_pump hs' agent now) _

theorem ends_tick [Walk] {s : Station τ} (h : s.Lawful) (now : Instant) : Ends (tick now s) := by
  rw [tick_eq]
  exact ends_pumpAll (h.of_quiet (quiet_swept s now)) now

end Pumps

/-! ### Broadcasts -/

section Broadcasts

variable [Carrier τ]

theorem ends_tryBroadcast {s : Station τ} (h : s.Lawful) (bulletin : Bulletin)
    (deadline now : Instant) : Ends (tryBroadcast bulletin deadline now s) := by
  have htransmit : ∀ s : Station τ, s.Lawful →
      Ends ((modifyGet (transmitAll bulletin) : Act τ (Except DispatchError Unit)) s) :=
    fun s hs => hs.of_quiet (quiet_transmitAll s bulletin)
  unfold tryBroadcast
  rw [Act.get_bind]
  cases s.throttle with
  | none => exact ends_map (htransmit s h) _
  | some bucket =>
    -- with a bucket there, the claim changes it and nothing else
    have hb : Lawful { s with throttle := some (bucket.claim 1 deadline now).2 } :=
      h.of_agents rfl rfl rfl
    dsimp only
    refine ends_bind (ends_set hb) fun _ s' _ hs' => ?_
    cases (bucket.claim 1 deadline now).1 with
    | error fault => exact hs'.unrefused
    | ok claim =>
      cases claim with
      | granted => exact ends_map (htransmit s' hs') _
      | denied => exact hs'.of_quiet (quiet_rateLimited s')
      | wait ready => exact hs'

theorem ends_broadcastRounds {s : Station τ} (h : s.Lawful) (wake : Instant → Instant)
    (bulletin : Bulletin) (deadline now : Instant) (n : Nat) :
    Ends (broadcastRounds wake bulletin deadline n now s) := by
  induction n generalizing s now with
  | zero => exact h.of_quiet (quiet_rateLimited s)
  | succ n ih =>
    unfold broadcastRounds
    refine ends_bind (ends_tryBroadcast h bulletin deadline now) fun attempt s' _ hs' => ?_
    cases attempt with
    | done answer => exact hs'
    | wait ready => exact ih hs' (wake ready)

theorem ends_correction {s : Station τ} (h : s.Lawful) (wake : Instant → Instant)
    (bulletin : Bulletin) (skipIfIdle : Bool) (deadline now : Instant) :
    Ends (correction wake bulletin skipIfIdle deadline now s) := by
  unfold correction
  rw [Act.get_bind]
  split
  · exact ends_map (ends_broadcastRounds h wake bulletin deadline now _) _
  · exact h

end Broadcasts

/-! ### Removals -/

theorem ends_evict {s : Station τ} (h : s.Lawful) (agent : AgentId) {a : Agent}
    (ha : ∀ b, a.backlog = some b → b.Settled) (now : Instant) : Ends (evict agent a now s) := by
  unfold evict
  cases hb : a.backlog with
  | none => exact h.of_agents rfl rfl rfl
  | some b =>
    have hr : b.dissolve.2.refusals = [] := (ha b hb).dissolve.1
    have hs : Lawful (({ s with refusals := s.refusals ++ b.dissolve.2.refusals } :
        Station τ).deliver b.dissolve.1) := by
      refine h.of_agents rfl rfl ?_
      show s.refusals ++ b.dissolve.2.refusals = s.refusals
      rw [hr, List.append_nil]
    dsimp only
    refine ends_bind (ends_modify hs) fun _ s₁ _ hs₁ => ?_
    refine ends_bind (ends_concludeAll hs₁ b.dissolve.1 now) fun _ s₂ _ hs₂ => ?_
    exact hs₂.of_agents rfl rfl rfl

theorem ends_deregister {s : Station τ} (h : s.Lawful) (agent : AgentId) (now : Instant) :
    Ends (deregister agent now s) := by
  cases ha : s.agents.get? agent with
  | none =>
    rw [deregister_of_unknown ha]
    exact h
  | some a =>
    have hs : Lawful { s with agents := s.agents.erase agent } :=
      ⟨(transfer_removed h.sound now ha).1.of_queueOf (queueOf_congr rfl rfl), h.gone⟩
    unfold deregister
    rw [Act.get_bind, ha]
    exact ends_bind (ends_set hs) fun _ s' _ hs' =>
      ends_map (ends_evict hs' agent (h.settled ha) now) _

theorem ends_shutdown [Walk] {s : Station τ} (h : s.Lawful) (now : Instant) :
    Ends (shutdown now s) := by
  have hs : Lawful { s with agents := ∅ } :=
    ⟨⟨fun agent => Backlog.settled_new agent s.settings.queueDepth,
      fun _ => List.forall_mem_nil _⟩, h.gone⟩
  have hevict : Ends ((Walk.entries s.agents).forM (fun e => evict e.1 e.2 now)
      { s with agents := ∅ }) :=
    ends_forM (fun e he _ hs => ends_evict hs e.1 (h.settled (Walk.mem_entries_iff.1 he)) now) hs
  show Ends (((Walk.entries s.agents).forM (fun e => evict e.1 e.2 now) >>= fun _ =>
    (modify fun s => s.level (.queueDepth s.id) 0 : Act τ Unit)) { s with agents := ∅ })
  exact ends_bind hevict fun _ s' _ hs' => hs'.of_agents rfl rfl rfl

/-- However an operation ends, no lifecycle step was refused in it. -/
theorem ends_perform [Carrier τ] {s : Station τ} (h : s.Lawful) (operation : Operation) :
    Ends (perform operation s) := by
  cases operation with
  | deliver m now => exact ends_map (ends_deliverInbound h m now) _
  | route m now => exact ends_map (ends_route h m now) _
  | submit request agent payload urgency maxAttempts now =>
    exact ends_map (ends_submit h request agent payload urgency maxAttempts now) _
  | enqueue request agent payload urgency maxAttempts =>
    exact lawful_enqueue 0 h request agent payload urgency maxAttempts
  | pump agent now => exact ends_map (ends_pump h agent now) _
  | pumpAll walk now => exact ends_map (ends_pumpAll h now) _
  | sweep walk now => exact h.of_quiet (quiet_swept s now)
  | tick walk now => exact ends_map (ends_tick h now) _
  | broadcast wake bulletin deadline now =>
    exact ends_map (ends_broadcastRounds h wake bulletin deadline now _) _
  | correction wake bulletin skipIfIdle deadline now =>
    exact ends_map (ends_correction h wake bulletin skipIfIdle deadline now) _
  | cancel request =>
    have hm : Moves 0 [.withdraw request] s (cancel request s).2 := moves_cancel request
    exact hm.lawful h
  | deregister agent now => exact ends_map (ends_deregister h agent now) _
  | shutdown walk now => exact ends_map (ends_shutdown h now) _
  | adoptEpoch epoch => exact h.of_quiet (quiet_adoptEpoch s epoch)

end Acts

/-! ### The lifecycle along a run -/

/-- The station an operation leaves, whether or not it meets a fault. -/
def left [Carrier τ] (s : Station τ) (operation : Operation) : Station τ :=
  match perform operation s with
  | .ok _ s' | .error _ s' => s'

/-- The requests of a station are where they should be between two operations. -/
structure Rested (s : Station τ) : Prop where
  waiting : ∀ agent, ∀ r ∈ (s.queueOf agent).waiting, r.phase = .queued ∧ r.deadline = none
  inFlight : ∀ agent r, (s.queueOf agent).inFlight = some r →
    r.payload.expectsReply = true ∧ r.phase = .awaitingAck ∧
      r.sentAt.isSome = true ∧ r.deadline.isSome = true

theorem Lawful.rested {s : Station τ} (h : s.Lawful) : s.Rested where
  waiting agent r hr := by
    have hw := (h.sound.settled agent).waiting r hr
    exact ⟨hw.phase, hw.deadline⟩
  inFlight agent r hr := by
    have hf := (h.sound.settled agent).inFlight r hr
    exact ⟨hf.expects, hf.phase, hf.sentAt, hf.deadline⟩

section Run

variable [Carrier τ]

theorem lawful_of_run {operations : List Operation} {s last : Station τ} {steps : List (Step τ)}
    (h : run operations s = .ok (steps, last)) (hs : s.Lawful) : last.Lawful := by
  induction operations generalizing s steps with
  | nil =>
    cases h
    exact hs
  | cons operation rest ih =>
    obtain ⟨response, after, others, hp, hr, rfl⟩ := run_cons_eq_ok.1 h
    have he := ends_perform hs operation
    rw [hp] at he
    exact ih hr he

theorem Lawful.unrefused_left {s : Station τ} (h : s.Lawful) (operation : Operation) :
    (s.left operation).Unrefused := by
  have he := ends_perform h operation
  unfold left
  cases hp : perform operation s with
  | ok response s' =>
    rw [hp] at he
    exact Lawful.unrefused he
  | error fault s' =>
    rw [hp] at he
    exact he

/-- After any operations no lifecycle step was refused, nor is one refused in any operation that
follows, even if it meets a fault; and every request is where it should be. -/
theorem lifecycle_obeyed {operations : List Operation} {settings : NetworkSettings} {carrier : τ}
    {start : Instant} {steps : List (Step τ)} {s : Station τ}
    (h : run operations (new settings carrier start) = .ok (steps, s)) :
    s.Unrefused ∧ s.Rested ∧ ∀ operation, (s.left operation).Unrefused := by
  have hs := lawful_of_run h (lawful_new settings carrier start)
  exact ⟨hs.unrefused, hs.rested, hs.unrefused_left⟩

end Run

/-- A link that takes one frame and refuses the next ones, a timeout and a withdrawal. -/
def saturatedLink : List Operation :=
  [.route (.heartbeat "alpha" 1) 0,
    .submit 1 1 (.expecting [7] 3) .normal 3 10,
    .submit 2 1 (.oneWay [8]) .urgent 1 20,
    .submit 3 1 (.oneWay [9]) .normal 2 25,
    .pump 1 90000000000,
    .cancel 3,
    .pump 1 90000000010]

theorem lifecycle_obeyed_saturatedLink :
    ∃ steps s, run saturatedLink (new { id := "alpha" } (Pipe.new "up" 1) 0) = .ok (steps, s) ∧
      (s.queueOf 1).waiting.map (fun r => (r.id, r.attempts)) = [(1, 2)] ∧
        s.Unrefused ∧ s.Rested ∧ ∀ operation, (s.left operation).Unrefused := by
  have hrun : (run saturatedLink (new { id := "alpha" } (Pipe.new "up" 1) 0)).toOption.map
      (fun r => (r.2.queueOf 1).waiting.map fun r => (r.id, r.attempts)) = some [(1, 2)] := by
    decide +kernel
  cases h : run saturatedLink (new { id := "alpha" } (Pipe.new "up" 1) 0) with
  | error fault =>
    rw [h] at hrun
    cases hrun
  | ok r =>
    obtain ⟨steps, s⟩ := r
    rw [h] at hrun
    exact ⟨steps, s, rfl, Option.some.inj hrun, lifecycle_obeyed h⟩

end Station

end GroundControl
