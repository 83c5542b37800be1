import GroundControl.Proofs.Station.EventLog
import GroundControl.Proofs.Station.Replies

/-!
# Who comes and who goes

Messages that come in, sweeps and removals are all that changes who is there, the counters of
messages, and what is measured and told about either.  Whatever else a station does is done behind
the reception and leaves it alone.

* `Effect.receives`, the effects that have to do with it; `Station.reception`, all a station keeps
  about it;
* `reception_of_log`, and one lemma for each act behind the reception, up to `reception_pumpAll`,
  `reception_enqueue` and `reception_broadcastRounds`;
* `Station.received`, `Station.parted`: the station after a message, and after agents have left;
* `Station.attended`, the station after what an operation has to do with the reception, and
  `perform_reception`: all operations do just that to it.
-/

namespace GroundControl

variable {τ : Type}

/-- Whether an effect measures the messages that came in or the agents that are there, or tells of
their presence. -/
def Effect.receives : Effect → Bool
  | .measured (.inbound ..) _ | .measured (.dropped ..) _ | .measured (.agentsOnline ..) _
  | .published (.presence ..) => true
  | _ => false

/-- The counters of messages that came in. -/
def Tally.arrivals (t : Tally) : Tally :=
  { inbound := t.inbound
    unmatchedReplies := t.unmatchedReplies
    droppedAgentCap := t.droppedAgentCap }

@[simp] theorem Tally.arrivals_recordFinished (t : Tally) (phase : Phase) :
    (t.recordFinished phase).arrivals = t.arrivals := by
  cases phase <;> rfl

/-- What a station keeps about the messages that come in and the agents that are there. -/
structure Reception where
  settings : NetworkSettings
  /-- the registered agents -/
  agents : List AgentId
  watch : Watch
  /-- the counters of messages -/
  arrivals : Tally
  /-- what was measured and told, the earliest first -/
  effects : List Effect

namespace Station

/-- What a station keeps about the messages that come in and the agents that are there. -/
def reception (s : Station τ) : Reception :=
  ⟨s.settings, s.agents.keys, s.watch, s.tally.arrivals, s.log.filter Effect.receives⟩

/-! ### Behind the reception -/

section Acts

variable {s s' : Station τ} {now : Instant}

theorem reception_of_log {effects : List Effect} (hs : s'.settings = s.settings)
    (ha : s'.agents.keys = s.agents.keys) (hw : s'.watch = s.watch)
    (ht : s'.tally.arrivals = s.tally.arrivals) (hl : s'.log = s.log ++ effects)
    (he : ∀ e ∈ effects, e.receives = false) : s'.reception = s.reception := by
  have hnone : effects.filter Effect.receives = [] :=
    List.filter_eq_nil_iff.2 fun e hm => by rw [he e hm]; exact Bool.false_ne_true
  unfold reception
  rw [hs, ha, hw, ht, hl, List.filter_append, hnone, List.append_nil]

theorem reception_emit (s : Station τ) {e : Effect} (h : e.receives = false) :
    (s.emit e).reception = s.reception :=
  reception_of_log rfl rfl rfl rfl rfl (List.forall_mem_singleton.2 h)

/-- Changing what is known about an agent registers nobody. -/
theorem keys_modify (t : Table AgentId Agent) (agent : AgentId) (f : Agent → Agent) :
    (t.modify agent f).keys = t.keys :=
  Table.keys_congr fun other => contains_modify t agent other f

theorem reception_setBacklog (s : Station τ) (agent : AgentId) (b : Backlog) :
    (s.setBacklog agent b).reception = s.reception :=
  reception_of_log rfl (keys_modify ..) rfl rfl (List.append_nil _).symm (List.forall_mem_nil _)

theorem reception_deliver (s : Station τ) (l : List Finished) :
    (s.deliver l).reception = s.reception := by
  refine reception_of_log rfl rfl rfl rfl rfl fun e he => ?_
  obtain ⟨f, -, rfl⟩ := List.mem_map.1 he
  rfl

theorem arrivals_concluded (s : Station τ) (l : List Finished) (now : Instant) :
    (s.concluded l now).tally.arrivals = s.tally.arrivals := by
  show (l.foldl (fun t f => t.recordFinished f.phase) s.tally).arrivals = _
  generalize s.tally = t
  induction l generalizing t with
  | nil => rfl
  | cons f rest ih =>
    exact (ih (t.recordFinished f.phase)).trans (Tally.arrivals_recordFinished _ _)

theorem reception_concluded (s : Station τ) (l : List Finished) (now : Instant) :
    (s.concluded l now).reception = s.reception := by
  refine reception_of_log rfl rfl rfl (arrivals_concluded s l now) rfl fun e he => ?_
  obtain ⟨f, -, hf⟩ := List.mem_flatMap.1 he
  rcases List.mem_cons.1 hf with rfl | hf
  · rfl
  · rw [List.mem_singleton.1 hf]
    rfl

theorem reception_sampled (s : Station τ) (measured : Option (TrafficClass × Span))
    (estimator : Estimator TrafficClass) :
    (s.sampled measured estimator).reception = s.reception := by
  refine reception_of_log rfl rfl rfl rfl rfl fun e he => ?_
  obtain ⟨x, -, rfl⟩ := List.mem_map.1 he
  rfl

theorem reception_answered (s : Station τ) (agent : AgentId) (b : Backlog) (found : Match)
    (estimator : Estimator TrafficClass) (now : Instant) :
    (s.answered agent b found estimator now).reception = s.reception := by
  unfold answered
  rw [reception_concluded, reception_sampled, reception_deliver, reception_setBacklog]

theorem reception_pumped (s : Station τ) (agent : AgentId) (p : Pass τ) (now : Instant) :
    (s.pumped agent p now).reception = s.reception := by
  have hretried : ((s.book agent p).retried p.retries).reception = (s.book agent p).reception := by
    refine reception_of_log rfl rfl rfl rfl rfl fun e he => ?_
    rw [List.eq_of_mem_replicate he]
    rfl
  unfold pumped
  rw [reception_concluded, hretried]
  unfold book
  rw [reception_deliver, reception_setBacklog]
  refine reception_of_log rfl rfl rfl rfl rfl fun e he => ?_
  obtain ⟨f, -, rfl⟩ := List.mem_map.1 he
  rfl

theorem reception_evicted (s : Station τ) (agent : AgentId) (a : Agent) (now : Instant) :
    (s.evicted agent a now).reception =
      { s.reception with watch := s.watch.forget agent } := by
  have hforgotten : ∀ t : Station τ,
      (t.forgotten agent).reception = { t.reception with watch := t.watch.forget agent } :=
    fun t => reception_emit { t with watch := t.watch.forget agent } rfl
  have hends : (({ s with refusals := s.refusals ++ (dissolved a).2 }.deliver
      (dissolved a).1).concluded (dissolved a).1 now).reception = s.reception :=
    (reception_concluded ..).trans (reception_deliver ..)
  unfold evicted
  rw [hforgotten, hends]
  rfl

theorem reception_enqueue {request : RequestId} {agent : AgentId} {payload : Payload}
    {urgency : Urgency} {maxAttempts : Nat} {result : Except DispatchError Handle}
    (h : enqueue request agent payload urgency maxAttempts s = (result, s')) :
    s'.reception = s.reception := by
  unfold enqueue at h
  split at h
  · cases h
    rfl
  · dsimp only at h
    split at h
    · cases h
      exact reception_setBacklog ..
    · rename_i b _
      cases h
      exact reception_setBacklog s agent b

theorem reception_cancel (s : Station τ) (request : RequestId) :
    (cancel request s).2.reception = s.reception := by
  unfold cancel
  split
  · rfl
  · split
    · rfl
    · exact reception_setBacklog ..

variable [Carrier τ]

theorem reception_pump {agent : AgentId} (h : pump agent now s = .ok () s') :
    s'.reception = s.reception := by
  rcases pump_eq_ok.1 h with ⟨-, rfl⟩ | ⟨b, p, -, -, -, rfl⟩
  · rfl
  · exact reception_pumped s agent p now

theorem reception_forM_pump {l : List AgentId} (h : l.forM (pump · now) s = .ok () s') :
    s'.reception = s.reception := by
  induction l generalizing s with
  | nil =>
    obtain rfl := Act.forM_nil_eq_ok.1 h
    rfl
  | cons agent rest ih =>
    obtain ⟨s₁, hp, hr⟩ := Act.forM_cons_eq_ok.1 h
    exact (ih hr).trans (reception_pump hp)

theorem reception_pumpAll [Walk] (h : pumpAll now s = .ok () s') : s'.reception = s.reception := by
  obtain ⟨s₁, hf, rfl⟩ := pumpAll_eq_ok.1 h
  have hexpired : (s₁.expireResults now).reception = s₁.reception := rfl
  exact (reception_emit _ rfl).trans (hexpired.trans (reception_forM_pump hf))

theorem reception_submit {request : RequestId} {agent : AgentId} {payload : Payload}
    {urgency : Urgency} {maxAttempts : Nat} {result : Except DispatchError Handle}
    (h : submit request agent payload urgency maxAttempts now s = .ok result s') :
    s'.reception = s.reception := by
  obtain ⟨s₁, he, hp⟩ := submit_eq_ok.1 h
  rcases hp with ⟨-, rfl⟩ | ⟨-, hp⟩
  · exact reception_enqueue he
  · exact (reception_pump hp).trans (reception_enqueue he)

theorem reception_transmitAll (s : Station τ) (bulletin : Bulletin) :
    (transmitAll bulletin s).2.reception = s.reception := by
  unfold transmitAll
  dsimp only
  split
  · exact reception_of_log rfl rfl rfl rfl rfl (List.forall_mem_singleton.2 rfl)
  · refine reception_of_log rfl rfl rfl rfl (List.append_assoc ..) ?_
    exact List.forall_mem_cons.2 ⟨rfl, List.forall_mem_singleton.2 rfl⟩

theorem reception_tryBroadcast {bulletin : Bulletin} {deadline : Instant} {attempt : Attempt Unit}
    (h : tryBroadcast bulletin deadline now s = .ok attempt s') : s'.reception = s.reception := by
  obtain ⟨throttle, -, hs⟩ := tryBroadcast_cases h
  rcases hs with rfl | rfl | rfl
  · exact reception_transmitAll { s with throttle } bulletin
  · rfl
  · rfl

theorem reception_broadcastRounds {wake : Instant → Instant} {bulletin : Bulletin}
    {deadline : Instant} {n : Nat} {answer : Except DispatchError Unit × Instant}
    (h : broadcastRounds wake bulletin deadline n now s = .ok answer s') :
    s'.reception = s.reception := by
  induction n generalizing s now with
  | zero =>
    cases h
    rfl
  | succ n ih =>
    unfold broadcastRounds at h
    obtain ⟨attempt, s₁, ht, h⟩ := Act.bind_eq_ok.1 h
    have hr := reception_tryBroadcast ht
    cases attempt with
    | done answer =>
      cases h
      exact hr
    | wait ready => exact (ih h).trans hr

theorem reception_correction {wake : Instant → Instant} {bulletin : Bulletin} {skipIfIdle : Bool}
    {deadline : Instant} {answer : Except DispatchError Bool × Instant}
    (h : correction wake bulletin skipIfIdle deadline now s = .ok answer s') :
    s'.reception = s.reception := by
  unfold correction at h
  rw [Act.get_bind] at h
  split at h
  · obtain ⟨answer, s₂, hb, h⟩ := Act.bind_eq_ok.1 h
    cases h
    exact reception_broadcastRounds hb
  · cases h
    rfl

end Acts

/-! ### At the reception -/

/-- The station after a message, without what its reply brings about. -/
def received (s : Station τ) (m : Message) (now : Instant) : Station τ :=
  if s.answers m then s.heard m now else s.unanswered m now

/-- The station after agents have left, without what becomes of their requests. -/
def parted (s : Station τ) (l : List AgentId) : Station τ :=
  { s with
    agents := l.foldl (fun t agent => t.erase agent) s.agents
    watch := l.foldl Watch.forget s.watch }

/-- The station after what an operation has to do with the reception. -/
def attended (s : Station τ) (operation : Operation) : Station τ :=
  match operation with
  | .deliver m now | .route m now => s.received m now
  | .sweep _ now | .tick _ now => s.swept now
  | .deregister .. | .shutdown .. => s.parted ((s.partings operation).map Prod.fst)
  | _ => s

section Operations

variable {s s' : Station τ} {now : Instant}

theorem reception_route {m : Message} {found : Option AgentId}
    (h : route m now s = .ok found s') : s'.reception = (s.received m now).reception := by
  unfold received
  cases ha : s.answers m with
  | false =>
    rw [route_of_answers_eq_false ha, EStateM.Result.ok.injEq] at h
    obtain ⟨-, rfl⟩ := h
    rfl
  | true =>
    obtain ⟨reply, b, r, found', b', -, -, -, -, -, -, hr⟩ := route_of_answers ha now
    obtain ⟨-, estimator, -, -, rfl⟩ := (hr found s').1 h
    exact reception_answered ..

theorem reception_forM_evict {l : List (AgentId × Agent)}
    (h : l.forM (fun e => evict e.1 e.2 now) s = .ok () s') :
    s'.reception = { s.reception with watch := (l.map Prod.fst).foldl Watch.forget s.watch } := by
  induction l generalizing s with
  | nil =>
    obtain rfl := Act.forM_nil_eq_ok.1 h
    rfl
  | cons e rest ih =>
    obtain ⟨s₁, he, hr⟩ := Act.forM_cons_eq_ok.1 h
    obtain ⟨-, rfl⟩ := evict_eq_ok.1 he
    have hw : (s.evicted e.1 e.2 now).watch = s.watch.forget e.1 := rfl
    rw [ih hr, reception_evicted, hw]
    rfl

theorem reception_deregister {agent : AgentId} {result : Except DispatchError Unit}
    (h : deregister agent now s = .ok result s') :
    s'.reception = (s.attended (.deregister agent now)).reception := by
  have hpartings : s.partings (.deregister agent now) =
      (s.agents.get? agent).toList.map fun a => (agent, a) := rfl
  unfold attended
  dsimp only
  rw [hpartings]
  cases ha : s.agents.get? agent with
  | none =>
    rw [deregister_of_unknown ha, EStateM.Result.ok.injEq] at h
    obtain ⟨-, rfl⟩ := h
    rfl
  | some a =>
    obtain ⟨-, -, rfl⟩ := (deregister_of_known ha).1 h
    exact reception_evicted { s with agents := s.agents.erase agent } agent a now

theorem reception_shutdown {walk : Walk} (h : shutdown now s = .ok () s') :
    s'.reception = (s.attended (.shutdown walk now)).reception := by
  obtain ⟨s₁, hf, rfl⟩ := shutdown_eq_ok.1 h
  have hnone : ((Walk.entries s.agents).map Prod.fst).foldl
      (fun t agent => t.erase agent) s.agents = ∅ :=
    List.foldl_map.trans (Table.foldl_erase_of_perm (Walk.entries_perm s.agents))
  have hlevel : (s₁.level (.queueDepth s₁.id) 0).reception = s₁.reception := reception_emit s₁ rfl
  rw [hlevel, reception_forM_evict hf]
  unfold attended parted partings
  dsimp only
  rw [hnone]
  rfl

variable [Carrier τ]

/-- Whatever an operation does to the reception, it does at once. -/
theorem perform_reception {operation : Operation} {response : Result}
    (h : perform operation s = .ok response s') :
    s'.reception = (s.attended operation).reception := by
  cases operation with
  | deliver m now =>
    obtain ⟨⟨⟩, hd, rfl⟩ := Act.bind_pure_eq_ok.1 h
    obtain ⟨found, s₁, hr, hp⟩ := Act.bind_eq_ok.1 hd
    cases found with
    | none =>
      cases hp
      exact reception_route hr
    | some agent => exact (reception_pump hp).trans (reception_route hr)
  | route m now =>
    obtain ⟨found, hr, rfl⟩ := Act.bind_pure_eq_ok.1 h
    exact reception_route hr
  | submit request agent payload urgency maxAttempts now =>
    obtain ⟨result, hs, rfl⟩ := Act.bind_pure_eq_ok.1 h
    exact reception_submit hs
  | enqueue request agent payload urgency maxAttempts =>
    obtain ⟨result, he, rfl⟩ := Act.bind_pure_eq_ok.1 h
    exact reception_enqueue (Act.modifyGet_eq_ok.1 he)
  | pump agent now =>
    obtain ⟨⟨⟩, hp, rfl⟩ := Act.bind_pure_eq_ok.1 h
    exact reception_pump hp
  | pumpAll walk now =>
    obtain ⟨⟨⟩, hp, rfl⟩ := Act.bind_pure_eq_ok.1 h
    exact reception_pumpAll hp
  | sweep walk now =>
    obtain ⟨changes, hs, rfl⟩ := Act.bind_pure_eq_ok.1 h
    cases hs
    rfl
  | tick walk now =>
    obtain ⟨⟨⟩, ht, rfl⟩ := Act.bind_pure_eq_ok.1 h
    rw [tick_eq] at ht
    exact reception_pumpAll ht
  | broadcast wake bulletin deadline now =>
    obtain ⟨answer, hb, rfl⟩ := Act.bind_pure_eq_ok.1 h
    exact reception_broadcastRounds hb
  | correction wake bulletin skipIfIdle deadline now =>
    obtain ⟨answer, hb, rfl⟩ := Act.bind_pure_eq_ok.1 h
    exact reception_correction hb
  | cancel request =>
    obtain ⟨found, hc, rfl⟩ := Act.bind_pure_eq_ok.1 h
    cases hc
    exact reception_cancel s request
  | deregister agent now =>
    obtain ⟨result, hd, rfl⟩ := Act.bind_pure_eq_ok.1 h
    exact reception_deregister hd
  | shutdown walk now =>
    obtain ⟨⟨⟩, hs, rfl⟩ := Act.bind_pure_eq_ok.1 h
    exact reception_shutdown hs
  | adoptEpoch epoch =>
    cases h
    rfl

end Operations

/-! ### What is measured and told -/

/-- What is measured of a message. -/
def entry (s : Station τ) (m : Message) : Effect :=
  .measured (if m.network ≠ s.id then .dropped s.id .wrongNetwork
    else if s.admits m.agent then .inbound s.id m.kind else .dropped s.id .agentCap) .count

/-- Whether a message is heard: it is for this network and from an agent that is admitted. -/
def heeds (s : Station τ) (m : Message) : Bool := m.network == s.id && s.admits m.agent

/-- The changes of presence that an operation finds. -/
def changes (s : Station τ) : Operation → List PresenceChange
  | .deliver m now | .route m now =>
      if s.heeds m then (s.watch.observe m.agent now m.kind.signal).1.toList else []
  | .sweep _ now | .tick _ now => (s.watch.sweep now).1
  | _ => []

section Effects

variable {s s' : Station τ} {m : Message} {now : Instant}

/-- Everything in the tidings has to do with the reception. -/
theorem filter_tidings (network : NetworkId) (online : Nat) (l : List PresenceChange) :
    (l.flatMap (tidings network online)).filter Effect.receives =
      l.flatMap (tidings network online) := by
  refine List.filter_eq_self.2 fun e he => ?_
  obtain ⟨c, -, hc⟩ := List.mem_flatMap.1 he
  rcases List.mem_cons.1 hc with rfl | hc
  · rfl
  · rw [List.mem_singleton.1 hc]
    rfl

theorem effects_observed (s : Station τ) (m : Message) (now : Instant) :
    (s.observed m now).reception.effects = s.reception.effects ++
      (s.watch.observe m.agent now m.kind.signal).1.toList.flatMap
        (tidings s.id (s.observed m now).watch.onlineCount) := by
  rw [watch_observed]
  unfold observed
  cases (s.watch.observe m.agent now m.kind.signal).1 with
  | none => exact (List.append_nil _).symm
  | some c =>
    show List.filter _ (announce _ c).log = _
    rw [announce_eq, List.filter_append]
    rfl

theorem reception_flagged (s : Station τ) (m : Message) :
    (s.flagged m).reception = s.reception := by
  unfold flagged
  split
  · rfl
  · exact reception_of_log rfl (keys_modify ..) rfl rfl (List.append_nil _).symm
      (List.forall_mem_nil _)

theorem effects_register (s : Station τ) (agent : AgentId) :
    (s.register agent).reception.effects = s.reception.effects := by
  unfold register
  split
  · rfl
  · show List.filter _ (s.log ++ [_]) = _
    rw [List.filter_append]
    exact List.append_nil _

theorem effects_heard (s : Station τ) (m : Message) (now : Instant) :
    (s.heard m now).reception.effects = s.reception.effects ++
      (.measured (.inbound s.id m.kind) .count ::
        (s.watch.observe m.agent now m.kind.signal).1.toList.flatMap
          (tidings s.id (s.heard m now).watch.onlineCount)) := by
  have hid : (s.register m.agent).id = s.id :=
    congrArg NetworkSettings.id (quiet_register s m.agent).settings
  have hflagged : (((s.register m.agent).counted m).flagged m).reception =
      ((s.register m.agent).counted m).reception := reception_flagged _ m
  have hwatch : (((s.register m.agent).counted m).flagged m).watch = s.watch :=
    (congrArg Reception.watch hflagged).trans (watch_register s m.agent)
  have hnetwork : (((s.register m.agent).counted m).flagged m).id = s.id :=
    (congrArg (fun r : Reception => r.settings.id) hflagged).trans hid
  have hcounted : ((s.register m.agent).counted m).reception.effects =
      s.reception.effects ++ [.measured (.inbound s.id m.kind) .count] := by
    show List.filter _ ((s.register m.agent).log ++
      [.measured (.inbound (s.register m.agent).id _) _]) = _
    rw [List.filter_append, hid]
    exact congrArg (· ++ _) (effects_register s m.agent)
  unfold heard
  rw [hear_eq, effects_observed, hwatch, hnetwork, hflagged, hcounted, List.append_assoc]
  rfl

/-- A message that is not for this network is counted as such. -/
theorem received_of_foreign (h : m.network ≠ s.id) (now : Instant) :
    s.received m now = s.count (.dropped s.id .wrongNetwork) := by
  have ha : s.answers m = false := by
    unfold answers
    rw [beq_false_of_ne h]
    rfl
  unfold received unanswered
  rw [ha, if_neg Bool.false_ne_true, if_pos h]

/-- A message of an agent for which there is no room is counted as such. -/
theorem received_of_capped (hn : m.network = s.id) (h : s.admits m.agent = false)
    (now : Instant) : s.received m now = s.dropCapped := by
  have ha : s.answers m = false := by
    refine Bool.eq_false_iff.2 fun ha => ?_
    obtain ⟨reply, b, r, found, b', -, -, hb, -⟩ := route_of_answers ha now
    rw [admits_of_backlogOf hb] at h
    cases h
  unfold received unanswered
  rw [ha, if_neg Bool.false_ne_true, if_neg (not_not_intro hn), if_pos h]

/-- Any other message is heard, and a reply it brings may answer nothing. -/
theorem received_of_admits (hn : m.network = s.id) (h : s.admits m.agent = true)
    (now : Instant) : s.received m now =
      if m.reply.isSome && !s.answers m then (s.heard m now).unmatched else s.heard m now := by
  unfold received unanswered
  rw [if_neg (not_not_intro hn), h, if_neg Bool.true_eq_false.mp]
  cases s.answers m <;> cases m.reply <;> rfl

/-- What an operation measures and tells at the reception: the message that came in, and then the
changes of presence, each with the number of agents online when all is done. -/
theorem effects_attended (s : Station τ) (operation : Operation) :
    (s.attended operation).reception.effects = s.reception.effects ++
      ((operation.message?.toList.map fun x => s.entry x.1) ++
        (s.changes operation).flatMap
          (tidings s.id (s.attended operation).watch.onlineCount)) := by
  have hmessage : ∀ m now, (s.received m now).reception.effects = s.reception.effects ++
      (s.entry m :: (if s.heeds m then (s.watch.observe m.agent now m.kind.signal).1.toList
        else []).flatMap (tidings s.id (s.received m now).watch.onlineCount)) := by
    intro m now
    unfold entry heeds
    by_cases hn : m.network = s.id
    · rw [if_neg (not_not_intro hn), hn, beq_self_eq_true, Bool.true_and]
      cases ha : s.admits m.agent with
      | false =>
        rw [received_of_capped hn ha]
        exact List.filter_append ..
      | true =>
        have heffects := effects_heard s m now
        rw [received_of_admits hn ha]
        split <;> exact heffects
    · rw [received_of_foreign hn, if_pos hn, beq_false_of_ne hn]
      exact List.filter_append ..
  have hswept : ∀ (walk : Walk) now, (s.swept now).reception.effects = s.reception.effects ++
      (s.watch.sweep now).1.flatMap (tidings s.id (s.swept now).watch.onlineCount) := by
    intro walk now
    show List.filter _ (s.swept now).log = _
    rw [swept_eq, List.filter_append, filter_tidings]
    rfl
  cases operation with
  | deliver m now | route m now => exact hmessage m now
  | sweep walk now | tick walk now => exact hswept walk now
  | _ => exact (List.append_nil _).symm

end Effects

section Steps

variable [Carrier τ] {step : Step τ}

/-- What a step measures and tells at the reception. -/
theorem effects_of_step (hs : step.before.Sound)
    (hp : perform step.operation step.before = .ok step.response step.after) :
    step.effects.filter Effect.receives =
      (step.operation.message?.toList.map fun x => step.before.entry x.1) ++
        (step.before.changes step.operation).flatMap
          (tidings step.before.id step.after.watch.onlineCount) := by
  have hr := perform_reception hp
  have hw : step.after.watch = (step.before.attended step.operation).watch :=
    congrArg Reception.watch hr
  have hlog : step.after.reception.effects =
      step.before.reception.effects ++ step.effects.filter Effect.receives := by
    show List.filter _ step.after.log = _
    rw [log_of_perform hs hp]
    exact List.filter_append ..
  rw [hr, effects_attended, List.append_cancel_left_eq] at hlog
  rw [hw, hlog]

end Steps

end Station

end GroundControl
