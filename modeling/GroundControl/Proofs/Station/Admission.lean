import GroundControl.Proofs.Station.Reception

/-!
# Admission

Who is registered is heard, whatever the number of agents; who is not is heard as long as there is
room.  What is dropped leaves a count and nothing else.  Every message for the network is counted as
heard or as dropped for lack of room, and every reply that is heard finishes a request or is counted
as one that answers nothing.

* `size_attended_le`: nobody registers beyond the limit;
* `Step.addressed`, `Step.brings`, `Step.answered?`: a message for the network comes in, a message
  that is heard brings a reply, and the request that the reply finishes; `counted_of_step` and
  `unmatched_of_step`, the counters after a step;
* `Entries`, what the counters say about the past, and `Entries.next`; `answered_of_run` and
  `nodup_answered`, the requests that replies finish in a run;
* `Admission` and `admission_controlled`, for every run.
-/

namespace GroundControl

variable {τ : Type}

/-- Whether a message for a network comes in. -/
def Step.addressed (network : NetworkId) (step : Step τ) : Bool :=
  step.operation.message?.any fun x => x.1.network == network

/-- Whether a message is heard that brings a reply. -/
def Step.brings (step : Step τ) : Bool :=
  step.operation.message?.any fun x => step.before.heeds x.1 && x.1.reply.isSome

/-- The request that is finished by the reply of a message. -/
def Step.answered? (step : Step τ) : Option Request :=
  step.operation.message?.bind fun x =>
    if step.before.answers x.1 then (step.before.queueOf x.1.agent).inFlight else none

namespace Station

/-! ### The registered agents -/

section Agents

variable {s : Station τ} {m : Message} {now : Instant} {n : Nat}

theorem size_register (s : Station τ) (agent : AgentId) :
    (s.register agent).agents.size =
      if s.agents.contains agent then s.agents.size else s.agents.size + 1 := by
  unfold register
  split
  · rfl
  · rename_i h
    have hnone : s.agents.get? agent = none := by simpa [Table.contains] using h
    show (s.agents.insert agent ⟨.none, none⟩).entries.length = _
    rw [(Table.entries_insert_perm ..).length_eq, Table.erase_of_get?_eq_none hnone]
    rfl

theorem size_heard (s : Station τ) (m : Message) (now : Instant) :
    (s.heard m now).agents.size =
      if s.agents.contains m.agent then s.agents.size else s.agents.size + 1 := by
  have hkeys : (s.heard m now).agents.keys = (s.register m.agent).agents.keys := by
    unfold heard
    rw [agents_hear]
    cases m.capabilities with
    | none => rfl
    | some capabilities => exact keys_modify ..
  rw [← Table.length_keys, hkeys, Table.length_keys, size_register]

/-- Nobody registers beyond the limit. -/
theorem size_received_le (hn : s.settings.maxAgents = some n) (h : s.agents.size ≤ n) (m : Message)
    (now : Instant) : (s.received m now).agents.size ≤ n := by
  by_cases hnetwork : m.network = s.id
  · cases ha : s.admits m.agent with
    | false =>
      rw [received_of_capped hnetwork ha]
      exact h
    | true =>
      have hheard : (s.heard m now).agents.size ≤ n := by
        rw [size_heard]
        unfold admits at ha
        rw [hn] at ha
        split
        · exact h
        · rename_i hc
          rw [Bool.eq_false_iff.2 hc, Bool.false_or] at ha
          exact of_decide_eq_true ha
      rw [received_of_admits hnetwork ha]
      split <;> exact hheard
  · rw [received_of_foreign hnetwork]
    exact h

theorem size_parted_le (s : Station τ) (l : List AgentId) :
    (s.parted l).agents.size ≤ s.agents.size := by
  show (l.foldl (fun t agent => t.erase agent) s.agents).size ≤ _
  generalize s.agents = t
  induction l generalizing t with
  | nil => exact Nat.le_refl _
  | cons agent rest ih => exact Nat.le_trans (ih (t.erase agent)) (List.length_filter_le ..)

theorem size_attended_le (hn : s.settings.maxAgents = some n) (h : s.agents.size ≤ n)
    (operation : Operation) : (s.attended operation).agents.size ≤ n := by
  cases operation with
  | deliver m now | route m now => exact size_received_le hn h m now
  | sweep walk now | tick walk now =>
    show (s.swept now).agents.size ≤ n
    rw [agents_swept]
    exact h
  | deregister | shutdown => exact Nat.le_trans (size_parted_le s _) h
  | _ => exact h

end Agents

/-! ### The counters of messages -/

section Counters

variable {s : Station τ} {m : Message} {now : Instant}

theorem tally_heard (s : Station τ) (m : Message) (now : Instant) :
    (s.heard m now).tally = { s.tally with inbound := s.tally.inbound.record m.kind } := by
  rw [heard_eq]

/-- Who is answered is heard. -/
theorem heeds_of_answers (h : s.answers m = true) : s.heeds m = true ∧ m.reply.isSome = true := by
  obtain ⟨reply, b, r, found, b', hn, hm, hb, -⟩ := route_of_answers h 0
  unfold heeds
  rw [hn, beq_self_eq_true, admits_of_backlogOf hb, hm]
  exact ⟨rfl, rfl⟩

/-- A message for the network is counted once. -/
theorem counted_received (s : Station τ) (m : Message) (now : Instant) :
    (s.received m now).tally.inbound.total + (s.received m now).tally.droppedAgentCap =
      s.tally.inbound.total + s.tally.droppedAgentCap + if m.network == s.id then 1 else 0 := by
  by_cases hn : m.network = s.id
  · rw [hn, beq_self_eq_true, if_pos rfl]
    cases ha : s.admits m.agent with
    | false =>
      rw [received_of_capped hn ha]
      rfl
    | true =>
      have hheard : (s.heard m now).tally.inbound.total + (s.heard m now).tally.droppedAgentCap =
          s.tally.inbound.total + s.tally.droppedAgentCap + 1 := by
        rw [tally_heard]
        dsimp only
        rw [InboundTally.total_record, Nat.add_right_comm]
      rw [received_of_admits hn ha]
      split <;> exact hheard
  · rw [received_of_foreign hn, beq_false_of_ne hn]
    rfl

/-- A reply that is heard answers a request, or is counted. -/
theorem unmatched_received (s : Station τ) (m : Message) (now : Instant) :
    (s.received m now).tally.unmatchedReplies + (if s.answers m then 1 else 0) =
      s.tally.unmatchedReplies + if s.heeds m && m.reply.isSome then 1 else 0 := by
  have hheard : (s.heard m now).tally.unmatchedReplies = s.tally.unmatchedReplies := by
    rw [tally_heard]
  cases hans : s.answers m with
  | true =>
    obtain ⟨hheeds, hreply⟩ := heeds_of_answers hans
    unfold received
    rw [hans, hheeds, hreply, if_pos rfl, hheard]
    rfl
  | false =>
    unfold heeds
    by_cases hn : m.network = s.id
    · rw [hn, beq_self_eq_true, Bool.true_and]
      cases ha : s.admits m.agent with
      | false =>
        rw [received_of_capped hn ha]
        rfl
      | true =>
        rw [received_of_admits hn ha, hans]
        cases m.reply with
        | none => exact hheard
        | some reply => exact congrArg (· + 1) hheard
    · rw [received_of_foreign hn, beq_false_of_ne hn]
      rfl

/-- Only messages move their counters. -/
theorem arrivals_attended {operation : Operation} (h : operation.message? = none) :
    (s.attended operation).tally.arrivals = s.tally.arrivals := by
  cases operation with
  | deliver | route => cases h
  | sweep walk now | tick walk now =>
    show (s.swept now).tally.arrivals = _
    rw [swept_eq]
  | _ => rfl

end Counters

/-! ### One step -/

section Steps

variable {s : Station τ} {step : Step τ} {m : Message} {now : Instant}

/-- Whether an agent is admitted. -/
theorem admits_iff {agent : AgentId} :
    s.admits agent = true ↔ s.agents.contains agent = true ∨
      ∀ n, s.settings.maxAgents = some n → s.agents.size < n := by
  unfold admits
  rw [Bool.or_eq_true, Option.all_eq_true]
  simp only [decide_eq_true_eq]

theorem attended_of_message {operation : Operation} (h : operation.message? = some (m, now)) :
    s.attended operation = s.received m now := by
  cases operation with
  | deliver | route =>
    cases h
    rfl
  | _ => cases h

variable [Carrier τ]

theorem arrivals_of_step
    (hp : perform step.operation step.before = .ok step.response step.after) :
    step.after.tally.arrivals = (step.before.attended step.operation).tally.arrivals :=
  congrArg Reception.arrivals (perform_reception hp)

/-- A message for the network is counted once, as one that is heard or as one that is dropped. -/
theorem counted_of_step
    (hp : perform step.operation step.before = .ok step.response step.after) :
    step.after.tally.inbound.total + step.after.tally.droppedAgentCap =
      step.before.tally.inbound.total + step.before.tally.droppedAgentCap +
        if step.addressed step.before.id then 1 else 0 := by
  have hcount : ∀ t u : Station τ, t.tally.arrivals = u.tally.arrivals →
      t.tally.inbound.total + t.tally.droppedAgentCap =
        u.tally.inbound.total + u.tally.droppedAgentCap := by
    intro t u h
    have hsum := congrArg (fun a : Tally => a.inbound.total + a.droppedAgentCap) h
    exact hsum
  rw [hcount _ _ (arrivals_of_step hp)]
  unfold Step.addressed
  cases hm : step.operation.message? with
  | none => exact hcount _ _ (arrivals_attended hm)
  | some x =>
    rw [attended_of_message hm]
    exact counted_received ..

/-- A reply that is heard finishes a request, or is counted as one that answers nothing. -/
theorem unmatched_of_step
    (hp : perform step.operation step.before = .ok step.response step.after) :
    step.after.tally.unmatchedReplies + step.answered?.toList.length =
      step.before.tally.unmatchedReplies + if step.brings then 1 else 0 := by
  have hcount : ∀ t u : Station τ, t.tally.arrivals = u.tally.arrivals →
      t.tally.unmatchedReplies = u.tally.unmatchedReplies := by
    intro t u h
    have hfield := congrArg Tally.unmatchedReplies h
    exact hfield
  rw [hcount _ _ (arrivals_of_step hp)]
  unfold Step.brings Step.answered?
  cases hm : step.operation.message? with
  | none => exact hcount _ _ (arrivals_attended hm)
  | some x =>
    have hone : (if step.before.answers x.1 then (step.before.queueOf x.1.agent).inFlight
        else none).toList.length = if step.before.answers x.1 then 1 else 0 := by
      cases ha : step.before.answers x.1 with
      | false => rfl
      | true =>
        obtain ⟨reply, b, r, found, b', -, -, hb, hr, -⟩ := route_of_answers ha x.2
        rw [if_pos rfl, if_pos rfl, queueOf_of_backlogOf hb, hr]
        rfl
    rw [attended_of_message hm]
    dsimp only [Option.bind_some, Option.any_some]
    rw [hone]
    exact unmatched_received ..

/-- A message of the network whose sender is admitted is heard, and not dropped. -/
theorem heard_of_step (hs : step.before.Sound)
    (hp : perform step.operation step.before = .ok step.response step.after)
    (hm : step.operation.message? = some (m, now)) (hn : m.network = step.before.id)
    (ha : step.before.admits m.agent = true) :
    step.after.tally.inbound = step.before.tally.inbound.record m.kind ∧
      step.after.tally.droppedAgentCap = step.before.tally.droppedAgentCap ∧
        .measured (.inbound step.before.id m.kind) .count ∈ step.effects ∧
          ∀ network reason change, .measured (.dropped network reason) change ∉ step.effects := by
  have harrivals : step.after.tally.arrivals.inbound = step.before.tally.inbound.record m.kind ∧
      step.after.tally.arrivals.droppedAgentCap = step.before.tally.droppedAgentCap := by
    have hheard : (step.before.heard m now).tally.inbound =
          step.before.tally.inbound.record m.kind ∧
        (step.before.heard m now).tally.droppedAgentCap =
          step.before.tally.droppedAgentCap := by
      rw [tally_heard]
      exact ⟨rfl, rfl⟩
    rw [arrivals_of_step hp, attended_of_message hm, received_of_admits hn ha]
    split <;> exact hheard
  have hentry : step.before.entry m = .measured (.inbound step.before.id m.kind) .count := by
    unfold entry
    rw [if_neg (not_not_intro hn), if_pos ha]
  have heffects := effects_of_step hs hp
  rw [hm] at heffects
  refine ⟨harrivals.1, harrivals.2, ?_, fun network reason change hdropped => ?_⟩
  · have hmem : step.before.entry m ∈ step.effects.filter Effect.receives := by
      rw [heffects]
      exact List.mem_append_left _ List.mem_cons_self
    exact hentry ▸ (List.mem_filter.1 hmem).1
  · have hmem := List.mem_filter.2 ⟨hdropped, (rfl : Effect.receives _ = true)⟩
    rw [heffects] at hmem
    rcases List.mem_append.1 hmem with hmem | hmem
    · have he := (List.mem_singleton.1 hmem).trans hentry
      cases he
    · obtain ⟨c, -, hc⟩ := List.mem_flatMap.1 hmem
      rcases List.mem_cons.1 hc with he | hc
      · cases he
      · cases List.mem_singleton.1 hc

/-- A message for another network is counted as such, and that is all. -/
theorem after_of_foreign (hp : perform step.operation step.before = .ok step.response step.after)
    (hm : step.operation.message? = some (m, now)) (hn : m.network ≠ step.before.id) :
    step.after = step.before.count (.dropped step.before.id .wrongNetwork) := by
  have ha : step.before.answers m = false := by
    unfold answers
    rw [beq_false_of_ne hn]
    rfl
  rw [after_of_unanswered hm ha hp]
  unfold unanswered
  rw [if_pos hn]

/-- A message of an agent for which there is no room is counted as such, and that is all. -/
theorem after_of_capped (hp : perform step.operation step.before = .ok step.response step.after)
    (hm : step.operation.message? = some (m, now)) (hn : m.network = step.before.id)
    (hadmits : step.before.admits m.agent = false) : step.after = step.before.dropCapped := by
  have ha : step.before.answers m = false := Bool.eq_false_iff.2 fun ha => by
    have hheeds := (heeds_of_answers ha).1
    unfold heeds at hheeds
    rw [hadmits, Bool.and_false] at hheeds
    cases hheeds
  rw [after_of_unanswered hm ha hp]
  unfold unanswered
  rw [if_neg (not_not_intro hn), if_pos hadmits]

/-- What becomes of the request that is finished by a reply. -/
theorem finishes_of_answered? (hs : step.before.Sound)
    (hp : perform step.operation step.before = .ok step.response step.after) {q : Request}
    (h : step.answered? = some q) :
    ∃ m now reply found ended, step.operation.message? = some (m, now) ∧
      Finishes step.before m now reply q found step.after ∧
        Transfer step.before [] (found.finished :: ended) step.after := by
  obtain ⟨⟨m, now⟩, hm, hq⟩ := Option.bind_eq_some_iff.1 h
  cases ha : step.before.answers m with
  | false =>
    rw [ha] at hq
    cases hq
  | true =>
    rw [ha] at hq
    obtain ⟨reply, q', found, ended, hf, ht, -⟩ := finishes_of_step hs hp hm ha
    obtain rfl := Option.some.inj (hf.flight.symm.trans hq)
    exact ⟨m, now, reply, found, ended, hm, hf, ht⟩

end Steps

/-! ### A run -/

/-- What the counters of messages and the registered agents say about the past. -/
structure Entries (past : List (Step τ)) (s : Station τ) : Prop where
  sound : s.Sound
  capped : ∀ n, s.settings.maxAgents = some n → s.agents.size ≤ n
  counted : s.tally.inbound.total + s.tally.droppedAgentCap = past.countP (Step.addressed s.id)
  replies : s.tally.unmatchedReplies + (past.filterMap Step.answered?).length =
    past.countP Step.brings
  /-- who is answered is told how its request ended -/
  told : ((past.filterMap Step.answered?).map Request.ticket).Sublist
    ((outcomes (past.flatMap Step.effects)).map Prod.fst)

theorem entries_new (settings : NetworkSettings) (carrier : τ) (start : Instant) :
    Entries [] (new settings carrier start) :=
  ⟨sound_new settings carrier start, fun n _ => Nat.zero_le n, rfl, rfl, .slnil⟩

/-- One more step. -/
theorem Entries.next [Carrier τ] {past : List (Step τ)} {step : Step τ}
    (h : Entries past step.before)
    (hp : perform step.operation step.before = .ok step.response step.after) :
    Entries (past ++ [step]) step.after := by
  obtain ⟨hs, ended, ht⟩ := perform_transfer h.sound hp
  have hid : step.after.id = step.before.id := congrArg NetworkSettings.id ht.settings
  refine ⟨hs, fun n hn => ?_, ?_, ?_, ?_⟩
  · have hkeys : step.after.agents.keys = (step.before.attended step.operation).agents.keys :=
      congrArg Reception.agents (perform_reception hp)
    rw [← Table.length_keys, hkeys, Table.length_keys]
    rw [ht.settings] at hn
    exact size_attended_le hn (h.capped n hn) step.operation
  · rw [counted_of_step hp, h.counted, hid, List.countP_append, List.countP_singleton]
  · rw [filterMap_concat, List.length_append, ← Nat.add_assoc, Nat.add_right_comm,
      unmatched_of_step hp, Nat.add_right_comm, h.replies, List.countP_append,
      List.countP_singleton]
  · rw [filterMap_concat, List.map_append, List.flatMap_append, outcomes_append, List.map_append]
    refine h.told.append ?_
    rw [List.flatMap_singleton]
    cases hq : step.answered? with
    | none => exact List.nil_sublist _
    | some q =>
      obtain ⟨m, now, reply, found, others, -, hf, htransfer⟩ :=
        finishes_of_answered? h.sound hp hq
      rw [(Transfer.effects step htransfer).1, List.map_cons, List.map_cons]
      have hticket : found.finished.ticket = q.ticket := congrArg Ident.ticket hf.ident_eq
      rw [hticket]
      exact (List.nil_sublist _).cons_cons _

section Run

variable [Carrier τ] {settings : NetworkSettings} {carrier : τ} {start : Instant}
  {operations : List Operation} {steps : List (Step τ)} {s : Station τ} {step : Step τ}

theorem entries_of_run (h : run operations (new settings carrier start) = .ok (steps, s)) :
    Entries steps s :=
  run_induction h (entries_new settings carrier start) fun _ _ _ hpast hp => hpast.next hp

/-- A step of a run with what came before it. -/
theorem exists_past (h : run operations (new settings carrier start) = .ok (steps, s))
    (hstep : step ∈ steps) :
    ∃ past later, steps = past ++ step :: later ∧ step.before.Sound ∧ step.before.Numbered ∧
      perform step.operation step.before = .ok step.response step.after := by
  obtain ⟨past, later, rfl⟩ := List.append_of_mem hstep
  obtain ⟨hpast, hp, -⟩ := run_split h
  obtain ⟨hs, hn, -⟩ := knows_of_run hpast
  exact ⟨past, later, rfl, hs, hn, hp⟩

/-- The request that a reply finishes was pending and is so no longer, and its submitter is told. -/
theorem answered_of_run (h : run operations (new settings carrier start) = .ok (steps, s))
    (hstep : step ∈ steps) {q : Request} (hq : step.answered? = some q) :
    (∃ m reply now, step.Answers q.origin m reply now) ∧ q ∈ step.before.requests ∧
      q.ident ∉ step.after.idents ∧ ∃ o, (q.ticket, o) ∈ outcomes step.effects := by
  obtain ⟨past, later, rfl, hs, hnumbered, hp⟩ := exists_past h hstep
  obtain ⟨m, now, reply, found, ended, hm, hf, ht⟩ := finishes_of_answered? hs hp hq
  have hended : q.ident ∈ (found.finished :: ended).map Finished.ident :=
    hf.ident_eq ▸ List.mem_cons_self
  have hticket : found.finished.ticket = q.ticket := congrArg Ident.ticket hf.ident_eq
  refine ⟨⟨m, reply, now, (answers_of_finishes h hm hf).2⟩,
    mem_requests_of_queueOf (Backlog.mem_requests.2 (.inl hf.flight)),
    not_mem_of_ended (ht.nodup hnumbered) hended, found.finished.outcome, ?_⟩
  rw [(Transfer.effects step ht).1]
  exact List.mem_cons.2 (.inl (Prod.ext hticket.symm rfl))

/-- No request is finished by two replies, as each submitter is told once. -/
theorem nodup_answered (h : run operations (new settings carrier start) = .ok (steps, s)) :
    ((steps.filterMap Step.answered?).map Request.ticket).Nodup := by
  have hlog : s.log = steps.flatMap Step.effects :=
    log_of_run (sound_new settings carrier start) h
  obtain ⟨-, ended, ht⟩ := run_transfer (sound_new settings carrier start) h
  have hnodup := ht.nodup (numbered_new settings carrier start)
  obtain ⟨effects, hl, ho, -⟩ := ht.log
  have he : effects = steps.flatMap Step.effects := hl.symm.trans hlog
  rw [List.map_append, List.map_map] at hnodup
  refine (entries_of_run h).told.nodup ?_
  rw [← he, ho, List.map_map]
  exact hnodup.of_append_left

/-- Whoever is told of a reply has submitted the request that a message has finished. -/
theorem answered?_of_replied (hs : step.before.Sound) (hn : step.before.Numbered)
    (hp : perform step.operation step.before = .ok step.response step.after) {ticket : Ticket}
    {o : Outcome} (ho : (ticket, o) ∈ outcomes step.effects) (hreplied : o.Replied) :
    ∃ q, step.answered? = some q ∧ q.ticket = ticket := by
  obtain ⟨m, now, hm, ha⟩ := answers_of_told hs hn hp ho (.inl hreplied)
  obtain ⟨reply, q, found, ended, hf, ht, hended⟩ := finishes_of_step hs hp hm ha
  refine ⟨q, ?_, ?_⟩
  · unfold Step.answered?
    rw [hm, Option.bind_some, if_pos ha]
    exact hf.flight
  · rw [(Transfer.effects step ht).1] at ho
    rcases List.mem_cons.1 ho with he | hmem
    · exact ((congrArg Prod.fst he).trans (congrArg Ident.ticket hf.ident_eq)).symm
    · -- the others that end with it were withdrawn or overdue
      obtain ⟨f, hfm, he⟩ := List.mem_map.1 hmem
      obtain ⟨-, rfl⟩ := Prod.mk.inj he
      exact absurd hreplied (hended f hfm).1

/-- How messages are admitted in a run. -/
structure Admission (steps : List (Step τ)) (s : Station τ) : Prop where
  /-- the registered agents are never more than allowed -/
  capped : ∀ n, s.settings.maxAgents = some n → s.report.agents ≤ n
  /-- a message of an agent that is registered, or for which there is room, is heard -/
  heard : ∀ step ∈ steps, ∀ m now, step.operation.message? = some (m, now) →
    m.network = step.before.id →
      (step.before.agents.contains m.agent = true ∨
        ∀ n, step.before.settings.maxAgents = some n → step.before.agents.size < n) →
      step.after.tally.inbound = step.before.tally.inbound.record m.kind ∧
        step.after.tally.droppedAgentCap = step.before.tally.droppedAgentCap ∧
          .measured (.inbound step.before.id m.kind) .count ∈ step.effects ∧
            ∀ network reason change, .measured (.dropped network reason) change ∉ step.effects
  /-- a message for another network leaves a measurement and nothing else -/
  foreign : ∀ step ∈ steps, ∀ m now, step.operation.message? = some (m, now) →
    m.network ≠ step.before.id →
      step.after = { step.before with
        log := step.before.log ++ [.measured (.dropped step.before.id .wrongNetwork) .count] }
  /-- a message of an agent for which there is no room leaves the counts of it -/
  refused : ∀ step ∈ steps, ∀ m now, step.operation.message? = some (m, now) →
    m.network = step.before.id → step.before.agents.contains m.agent = false →
      ∀ n, step.before.settings.maxAgents = some n → n ≤ step.before.agents.size →
        step.after = { step.before with
          tally := { step.before.tally with
            droppedAgentCap := step.before.tally.droppedAgentCap + 1 }
          log := step.before.log ++ [.measured (.dropped step.before.id .agentCap) .count] }
  /-- every message for the network is counted once -/
  counted : s.tally.inbound.total + s.tally.droppedAgentCap = steps.countP (Step.addressed s.id)
  /-- and so is every reply that is heard, or it finishes a request -/
  replies : s.tally.unmatchedReplies + (steps.filterMap Step.answered?).length =
    steps.countP Step.brings
  /-- which is then pending no longer, and its submitter is told -/
  answered : ∀ step ∈ steps, ∀ q, step.answered? = some q →
    (∃ m reply now, step.Answers q.origin m reply now) ∧ q ∈ step.before.requests ∧
      q.ident ∉ step.after.idents ∧ ∃ o, (q.ticket, o) ∈ outcomes step.effects
  /-- no request is finished by two replies -/
  distinct : ((steps.filterMap Step.answered?).map Request.ticket).Nodup
  /-- whoever is told of a reply is among those finished by one -/
  replied : ∀ step ∈ steps, ∀ ticket (o : Outcome), (ticket, o) ∈ outcomes step.effects →
    o.Replied → ∃ q, step.answered? = some q ∧ q.ticket = ticket

/-- Whatever is asked of a station from its beginning on: messages are admitted as long as there is
room for their senders, and all of them and of the replies they bring are accounted for. -/
theorem admission_controlled (h : run operations (new settings carrier start) = .ok (steps, s)) :
    Admission steps s := by
  have hentries := entries_of_run h
  refine ⟨hentries.capped, ?_, ?_, ?_, hentries.counted, hentries.replies,
    fun step hstep q => answered_of_run h hstep, nodup_answered h, ?_⟩
  · intro step hstep m now hm hn ha
    obtain ⟨past, later, -, hs, -, hp⟩ := exists_past h hstep
    exact heard_of_step hs hp hm hn (admits_iff.2 ha)
  · intro step hstep m now hm hn
    obtain ⟨past, later, -, -, -, hp⟩ := exists_past h hstep
    exact after_of_foreign hp hm hn
  · intro step hstep m now hm hn hunseen n hmax hfull
    obtain ⟨past, later, -, -, -, hp⟩ := exists_past h hstep
    refine after_of_capped hp hm hn (Bool.eq_false_iff.2 fun hadmits => ?_)
    rcases admits_iff.1 hadmits with hseen | hroom
    · rw [hunseen] at hseen
      cases hseen
    · exact Nat.not_lt.2 hfull (hroom n hmax)
  · intro step hstep ticket o ho hreplied
    obtain ⟨past, later, -, hs, hn, hp⟩ := exists_past h hstep
    exact answered?_of_replied hs hn hp ho hreplied

end Run

/-- With room for one agent: its command is answered twice, and the same reply comes from an agent
that is not admitted and for another network. -/
def crowded : List Operation :=
  [.route (.heartbeat "alpha" 1) 0,
    .submit 1 1 (.expecting [7] 3) .normal 0 10,
    .deliver (.accepted "alpha" 2 3) 20,
    .deliver (.accepted "beta" 1 3) 30,
    .deliver (.accepted "alpha" 1 3) 40,
    .route (.accepted "alpha" 1 3) 50]

theorem admission_controlled_crowded :
    ∃ steps s, run crowded (new { id := "alpha", maxAgents := some 1 } (Pipe.new "up" 4) 0) =
        .ok (steps, s) ∧
      s.report.agents = 1 ∧ s.tally.inbound.total = 3 ∧ s.tally.droppedAgentCap = 1 ∧
        s.tally.unmatchedReplies = 1 ∧ (steps.filterMap Step.answered?).map Request.id = [1] ∧
          Admission steps s := by
  have hrun : (run crowded (new { id := "alpha", maxAgents := some 1 }
      (Pipe.new "up" 4) 0)).toOption.map (fun r => (r.2.agents.size, r.2.tally.inbound.total,
        r.2.tally.droppedAgentCap, r.2.tally.unmatchedReplies,
        (r.1.filterMap Step.answered?).map Request.id)) = some (1, 3, 1, 1, [1]) := by
    decide +kernel
  obtain ⟨steps, s, h, hread⟩ := exists_run_of_map hrun
  obtain ⟨hagents, hread⟩ := Prod.mk.inj hread
  obtain ⟨hinbound, hread⟩ := Prod.mk.inj hread
  obtain ⟨hcapped, hread⟩ := Prod.mk.inj hread
  obtain ⟨hunmatched, hanswered⟩ := Prod.mk.inj hread
  exact ⟨steps, s, h, hagents, hinbound, hcapped, hunmatched, hanswered, admission_controlled h⟩

end Station

end GroundControl
