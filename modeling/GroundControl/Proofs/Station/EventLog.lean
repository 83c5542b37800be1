import GroundControl.Proofs.Station.Chronicle

/-!
# The events as a log

Whatever is asked of a station from its beginning on, its events are a faithful log: they tell of
each agent round after round how it registers, how its presence changes, how its requests end and
how it leaves; and who replays them knows which agents are registered and the presence of each.

* `farewell`, what is told of an agent that is removed; `Station.partings`, the agents an operation
  removes; `about_farewells`;
* `perform_recounts`, for every operation, and `run_recounts`;
* `FaithfulLog`, `events_faithful`.
-/

namespace GroundControl

namespace Station

variable {τ : Type}

/-! ### Removing agents -/

/-- What is told when an agent is removed: the ends of its pending requests, and then that it has
left. -/
def farewell (network : NetworkId) (e : AgentId × Agent) : List Event :=
  (e.2.requests.map fun r => .finished network r.agent r.id (.failed .agentGone)
    (.failure .agentGone r.attempts none)) ++ [.evicted network e.1]

theorem dissolved_eq {s : Station τ} (hs : s.Sound) {e : AgentId × Agent}
    (he : s.agents.get? e.1 = some e.2) : (dissolved e.2).1 = e.2.requests.map Request.endGone := by
  have hset := hs.settled e.1
  rw [queueOf_of_get? he] at hset
  unfold dissolved Agent.requests
  cases hb : e.2.backlog with
  | none => rfl
  | some b =>
    rw [hb, Option.getD_some] at hset
    dsimp only
    rw [Backlog.dissolve_eq hset]
    rfl

theorem agent_of_mem_requests {s : Station τ} (hs : s.Sound) {e : AgentId × Agent}
    (he : s.agents.get? e.1 = some e.2) {r : Request} (hr : r ∈ e.2.requests) :
    r.agent = e.1 := by
  rw [requests_queueOf he] at hr
  exact hs.placed e.1 r.ident (List.mem_map_of_mem hr)

/-- What is told of agents that are removed one after the other. -/
theorem log_forM_evict {l : List (AgentId × Agent)} {s s' : Station τ} {now : Instant}
    (hl : ∀ e ∈ l, (dissolved e.2).1 = e.2.requests.map Request.endGone)
    (h : l.forM (fun e => evict e.1 e.2 now) s = .ok () s') :
    s'.settings = s.settings ∧ s'.agents = s.agents ∧
      s'.roll = l.foldl (fun t e => t.erase e.1) s.roll ∧
        ∃ effects, s'.log = s.log ++ effects ∧
          published effects = l.flatMap (farewell s.id) := by
  induction l generalizing s with
  | nil =>
    obtain rfl := Act.forM_nil_eq_ok.1 h
    exact ⟨rfl, rfl, rfl, [], (List.append_nil _).symm, rfl⟩
  | cons e rest ih =>
    obtain ⟨hd, hrest⟩ := List.forall_mem_cons.1 hl
    obtain ⟨s₁, he, hr⟩ := Act.forM_cons_eq_ok.1 h
    obtain ⟨-, rfl⟩ := evict_eq_ok.1 he
    obtain ⟨hs, ha, hroll, effects, hlog, hp⟩ := ih hrest hr
    have hforget : (s.evicted e.1 e.2 now).roll = s.roll.erase e.1 := by
      refine Table.ext_get? fun agent => ?_
      show ((s.watch.sightings.erase e.1).mapVal _).get? agent = _
      unfold roll
      rw [Table.get?_mapVal, Table.get?_erase, Table.get?_erase, Table.get?_mapVal]
      split <;> rfl
    refine ⟨hs, ha, ?_, _, (hlog.trans (congrArg (· ++ effects) (log_evicted ..))).trans
      (List.append_assoc ..), ?_⟩
    · rw [hroll, hforget, List.foldl_cons]
    · unfold partingEffects
      rw [published_append, hp, published_append, published_append, published_delivered,
        published_notices, hd, List.map_map, List.flatMap_cons]
      rfl

/-- Agents that are removed one after the other. -/
theorem chronicle_farewells {network : NetworkId} {roll : Table AgentId Presence}
    {l : List (AgentId × Agent)} (hd : (l.map Prod.fst).Nodup)
    (h : ∀ e ∈ l, roll.contains e.1 = true ∧ ∀ r ∈ e.2.requests, r.agent = e.1) :
    Chronicle network roll (l.flatMap (farewell network))
      (l.foldl (fun t e => t.erase e.1) roll) := by
  induction l generalizing roll with
  | nil => exact .nil
  | cons e rest ih =>
    obtain ⟨he, hd⟩ := List.nodup_cons.1 hd
    obtain ⟨⟨hc, hr⟩, hrest⟩ := List.forall_mem_cons.1 h
    have hends : Chronicle network roll
        ((e.2.requests.map Request.endGone).map fun f => f.event network) roll := by
      refine .of_finished fun f hf => ?_
      obtain ⟨r, hm, rfl⟩ := List.mem_map.1 hf
      show roll.contains r.agent = true
      rw [hr r hm, hc]
    rw [List.map_map] at hends
    refine (hends.append (.evict hc .nil)).append (ih hd fun d hm => ⟨?_, (hrest d hm).2⟩)
    have hother : d.1 ≠ e.1 := fun heq => he (heq ▸ List.mem_map_of_mem hm)
    unfold Table.contains
    rw [Table.get?_erase, if_neg hother]
    exact (hrest d hm).1

/-- Whatever a farewell tells is about its agent. -/
theorem agent_of_mem_farewell {network : NetworkId} {e : AgentId × Agent}
    (h : ∀ r ∈ e.2.requests, r.agent = e.1) {event : Event}
    (he : event ∈ farewell network e) : event.agent = e.1 := by
  rcases List.mem_append.1 he with he | he
  · obtain ⟨r, hr, rfl⟩ := List.mem_map.1 he
    exact h r hr
  · rw [List.mem_singleton.1 he]
    rfl

/-- What is told of one of the agents that are removed. -/
theorem about_farewells {network : NetworkId} {l : List (AgentId × Agent)}
    (hd : (l.map Prod.fst).Nodup) (hl : ∀ e ∈ l, ∀ r ∈ e.2.requests, r.agent = e.1)
    {e : AgentId × Agent} (he : e ∈ l) :
    about e.1 (l.flatMap (farewell network)) = farewell network e := by
  induction l with
  | nil => cases he
  | cons d rest ih =>
    obtain ⟨hnot, hd⟩ := List.nodup_cons.1 hd
    obtain ⟨hfirst, hrest⟩ := List.forall_mem_cons.1 hl
    rw [List.flatMap_cons, about_append]
    rcases List.mem_cons.1 he with rfl | hm
    · have hself : about e.1 (farewell network e) = farewell network e :=
        List.filter_eq_self.2 fun event hevent =>
          decide_eq_true (agent_of_mem_farewell hfirst hevent)
      have hothers : about e.1 (rest.flatMap (farewell network)) = [] := by
        refine List.filter_eq_nil_iff.2 fun event hevent => ?_
        obtain ⟨d, hm, hevent⟩ := List.mem_flatMap.1 hevent
        rw [decide_eq_true_eq, agent_of_mem_farewell (hrest d hm) hevent]
        exact fun heq => hnot (heq ▸ List.mem_map_of_mem hm)
      rw [hself, hothers, List.append_nil]
    · have hother : about e.1 (farewell network d) = [] := by
        refine List.filter_eq_nil_iff.2 fun event hevent => ?_
        rw [decide_eq_true_eq, agent_of_mem_farewell hfirst hevent]
        exact fun heq => hnot (heq ▸ List.mem_map_of_mem hm)
      rw [hother, List.nil_append]
      exact ih hd hrest hm

/-- The agents an operation removes, with what is known about them. -/
def partings (s : Station τ) : Operation → List (AgentId × Agent)
  | .deregister agent _ => (s.agents.get? agent).toList.map fun a => (agent, a)
  | .shutdown _ _ => Walk.entries s.agents
  | _ => []

/-- What is told of agents that are removed together. -/
theorem recounts_forM_evict {s s' : Station τ} (hs : s.Sound) (hm : s.Manned)
    {l : List (AgentId × Agent)} (hl : ∀ e ∈ l, s.agents.get? e.1 = some e.2)
    (hd : (l.map Prod.fst).Nodup) {now : Instant}
    (h : l.forM (fun e => evict e.1 e.2 now)
      { s with agents := l.foldl (fun t e => t.erase e.1) s.agents } = .ok () s') :
    Recounts s (l.map Prod.fst) s' ∧ ∃ effects, s'.log = s.log ++ effects ∧
      published effects = l.flatMap (farewell s.id) := by
  obtain ⟨hset, hagents, hroll, effects, hlog, hp⟩ :=
    log_forM_evict (fun e he => dissolved_eq hs (hl e he)) h
  have hroll : s'.roll = l.foldl (fun t e => t.erase e.1) s.roll := hroll
  have hp : published effects = l.flatMap (farewell s.id) := hp
  refine ⟨⟨hset, fun agent => ?_, effects, hlog, ?_, ?_⟩, effects, hlog, hp⟩
  · rw [hagents, hroll]
    have hheard := hm.heard agent
    unfold Table.contains at hheard ⊢
    rw [Table.get?_foldl_erase, Table.get?_foldl_erase]
    split
    · rfl
    · exact hheard
  · rw [hp, hroll]
    refine chronicle_farewells hd fun e he => ⟨?_, fun r => agent_of_mem_requests hs (hl e he)⟩
    rw [hm.heard]
    unfold Table.contains
    rw [hl e he]
    rfl
  · rw [hp, List.filterMap_flatMap, List.map_eq_flatMap]
    refine congrArg (l.flatMap ·) (funext fun e => ?_)
    unfold farewell
    rw [List.filterMap_append, List.filterMap_map]
    have hnone : e.2.requests.filterMap
        (Event.leaver? ∘ fun r => .finished s.id r.agent r.id (.failed .agentGone)
          (.failure .agentGone r.attempts none)) = [] :=
      List.filterMap_eq_nil_iff.2 fun r _ => rfl
    rw [hnone]
    rfl

section Operations

variable {s s' : Station τ} {now : Instant}

theorem recounts_deregister (hs : s.Sound) (hm : s.Manned) {agent : AgentId}
    {result : Except DispatchError Unit} (h : deregister agent now s = .ok result s') :
    Recounts s ((s.partings (.deregister agent now)).map Prod.fst) s' ∧
      ∃ effects, s'.log = s.log ++ effects ∧
        published effects = (s.partings (.deregister agent now)).flatMap (farewell s.id) := by
  cases ha : s.agents.get? agent with
  | none =>
    rw [deregister_of_unknown ha, EStateM.Result.ok.injEq] at h
    obtain ⟨-, rfl⟩ := h
    have hnone : s.partings (.deregister agent now) = [] := by
      show (s.agents.get? agent).toList.map (agent, ·) = _
      rw [ha]
      rfl
    rw [hnone]
    exact ⟨.refl hm, [], (List.append_nil _).symm, rfl⟩
  | some a =>
    obtain ⟨-, hg, rfl⟩ := (deregister_of_known ha).1 h
    have hone : s.partings (.deregister agent now) = [(agent, a)] := by
      show (s.agents.get? agent).toList.map (agent, ·) = _
      rw [ha]
      rfl
    rw [hone]
    exact recounts_forM_evict hs hm (List.forall_mem_singleton.2 ha) (List.nodup_singleton agent)
      (Act.forM_cons_eq_ok.2 ⟨_, evict_eq_ok.2 ⟨hg, rfl⟩, Act.forM_nil_eq_ok.2 rfl⟩)

theorem recounts_shutdown [Walk] (hs : s.Sound) (hm : s.Manned)
    (h : shutdown now s = .ok () s') :
    Recounts s ((Walk.entries s.agents).map Prod.fst) s' ∧
      ∃ effects, s'.log = s.log ++ effects ∧
        published effects = (Walk.entries s.agents).flatMap (farewell s.id) := by
  obtain ⟨s₁, hf, rfl⟩ := shutdown_eq_ok.1 h
  rw [← Table.foldl_erase_of_perm (Walk.entries_perm s.agents)] at hf
  obtain ⟨ht, effects, hlog, hp⟩ := recounts_forM_evict hs hm
    (fun e he => Walk.mem_entries_iff.1 he) (Walk.nodup_entries s.agents) hf
  have hlevel : Recounts s₁ [] (s₁.level (.queueDepth s₁.id) 0) :=
    .of_untold (ht.manned hm) rfl rfl (fun _ => rfl) rfl rfl
  refine ⟨?_, effects ++ [.measured (.queueDepth s₁.id) (.level 0)], ?_, ?_⟩
  · have := ht.trans hlevel
    rwa [List.append_nil] at this
  · show s₁.log ++ _ = _
    rw [hlog, List.append_assoc]
  · rw [published_append, hp]
    exact List.append_nil _

theorem recounts_enqueue (hm : s.Manned) {request : RequestId} {agent : AgentId} {payload : Payload}
    {urgency : Urgency} {maxAttempts : Nat} {result : Except DispatchError Handle}
    (h : enqueue request agent payload urgency maxAttempts s = (result, s')) :
    Recounts s [] s' := by
  unfold enqueue at h
  split at h
  · cases h
    exact .refl hm
  · dsimp only at h
    split at h
    · cases h
      exact .of_untold hm rfl rfl (fun other => contains_setBacklog s agent other _)
        (List.append_nil _).symm rfl
    · cases h
      exact .of_untold hm rfl rfl (fun other => contains_setBacklog s agent other _)
        (List.append_nil _).symm rfl

theorem recounts_cancel (hm : s.Manned) (request : RequestId) :
    Recounts s [] (cancel request s).2 := by
  unfold cancel
  split
  · exact .refl hm
  · split
    · exact .refl hm
    · exact .of_untold hm rfl rfl (fun other => contains_setBacklog s _ other _)
        (List.append_nil _).symm rfl

theorem recounts_answered (hs : s.Sound) (hm : s.Manned) {agent : AgentId} {b b' : Backlog}
    {key : ReplyKey} {verdict : Verdict} {found : Match} (estimator : Estimator TrafficClass)
    (hb : s.backlogOf agent = some b) (ha : b.answer key verdict now = (some found, b')) :
    Recounts s [] (s.answered agent b' found estimator now) := by
  refine .of_ended hm (([found.finished].map fun f => .delivered f.ticket f.outcome) ++
      (found.sample.toList.map fun x => .measured (.roundTrip s.id x.1) (.time x.2)) ++
        [found.finished].flatMap (notices s.id)) [found.finished] rfl rfl
    (fun other => contains_setBacklog s agent other b') ?_ ?_
    ((transfer_answered hs estimator hb ha).2.registered hs)
  · simp only [← List.append_assoc]
    rfl
  · have hsample : published (found.sample.toList.map fun x =>
        .measured (.roundTrip s.id x.1) (.time x.2)) = [] := by
      refine published_eq_nil fun e he => ?_
      obtain ⟨x, -, rfl⟩ := List.mem_map.1 he
      rfl
    rw [published_append, published_append, published_delivered, hsample, published_notices]
    rfl

theorem recounts_route (hs : s.Sound) (hm : s.Manned) {m : Message} {found : Option AgentId}
    (h : route m now s = .ok found s') : Recounts s [] s' := by
  cases ha : s.answers m with
  | false =>
    rw [route_of_answers_eq_false ha, EStateM.Result.ok.injEq] at h
    obtain ⟨-, rfl⟩ := h
    exact recounts_unanswered hm m now
  | true =>
    obtain ⟨reply, b, r, found', b', -, -, hb, -, -, hans, hr⟩ := route_of_answers ha now
    obtain ⟨-, estimator, -, -, rfl⟩ := (hr found s').1 h
    have hheard := recounts_heard hm m now
    exact hheard.trans (recounts_answered (hs.of_queueOf (quiet_heard s m now).queue)
      (hheard.manned hm) estimator ((backlogOf_heard s m now m.agent).trans hb) hans)

section Carrying

variable [Carrier τ]

theorem recounts_pump (hs : s.Sound) (hm : s.Manned) {agent : AgentId}
    (h : pump agent now s = .ok () s') : Recounts s [] s' := by
  rcases pump_eq_ok.1 h with ⟨-, rfl⟩ | ⟨b, p, hb, hp, -, rfl⟩
  · exact .refl hm
  · refine .of_ended hm ((p.frames.map fun f => .sent f.1 f.2) ++
        (p.finished.map fun f => .delivered f.ticket f.outcome) ++
          List.replicate p.retries (.measured (.retries s.id) .count) ++
            p.finished.flatMap (notices s.id)) p.finished rfl rfl
      (fun other => contains_setBacklog s agent other p.backlog) ?_ ?_
      ((transfer_pumped hs hb hp).2.registered hs)
    · simp only [← List.append_assoc]
      rfl
    · have hsent : published (p.frames.map fun f => .sent f.1 f.2) = [] := by
        refine published_eq_nil fun e he => ?_
        obtain ⟨f, -, rfl⟩ := List.mem_map.1 he
        rfl
      have hretries : published
          (List.replicate p.retries (.measured (.retries s.id) .count)) = [] := by
        refine published_eq_nil fun e he => ?_
        rw [List.eq_of_mem_replicate he]
        rfl
      rw [published_append, published_append, published_append, hsent, published_delivered,
        hretries, published_notices]
      rfl

theorem sound_pump (hs : s.Sound) {agent : AgentId} (h : pump agent now s = .ok () s') :
    s'.Sound :=
  ((moves_pump h).transfer hs).1

theorem recounts_forM_pump (hs : s.Sound) (hm : s.Manned) {l : List AgentId}
    (h : l.forM (pump · now) s = .ok () s') : Recounts s [] s' := by
  induction l generalizing s with
  | nil =>
    obtain rfl := Act.forM_nil_eq_ok.1 h
    exact .refl hm
  | cons agent rest ih =>
    obtain ⟨s₁, hp, hr⟩ := Act.forM_cons_eq_ok.1 h
    have ht := recounts_pump hs hm hp
    exact ht.trans (ih (sound_pump hs hp) (ht.manned hm) hr)

theorem recounts_pumpAll [Walk] (hs : s.Sound) (hm : s.Manned)
    (h : pumpAll now s = .ok () s') : Recounts s [] s' := by
  obtain ⟨s₁, hf, rfl⟩ := pumpAll_eq_ok.1 h
  have ht := recounts_forM_pump hs hm hf
  exact ht.trans (.of_untold (ht.manned hm) rfl rfl (fun _ => rfl) rfl rfl)

theorem recounts_deliverInbound (hs : s.Sound) (hm : s.Manned) {m : Message}
    (h : deliverInbound m now s = .ok () s') : Recounts s [] s' := by
  obtain ⟨found, s₁, hr, hp⟩ := Act.bind_eq_ok.1 h
  have ht := recounts_route hs hm hr
  cases found with
  | none =>
    cases hp
    exact ht
  | some agent =>
    exact ht.trans (recounts_pump ((moves_route hr).1.transfer hs).1 (ht.manned hm) hp)

theorem recounts_submit (hs : s.Sound) (hm : s.Manned) {request : RequestId} {agent : AgentId}
    {payload : Payload} {urgency : Urgency} {maxAttempts : Nat}
    {result : Except DispatchError Handle}
    (h : submit request agent payload urgency maxAttempts now s = .ok result s') :
    Recounts s [] s' := by
  obtain ⟨s₁, he, hp⟩ := submit_eq_ok.1 h
  have ht := recounts_enqueue hm he
  rcases hp with ⟨-, rfl⟩ | ⟨-, hp⟩
  · exact ht
  · have hc : Course now _ s s₁ := course_enqueue he
    exact ht.trans (recounts_pump (hc.moves.transfer hs).1 (ht.manned hm) hp)

theorem recounts_transmitAll (hm : s.Manned) (bulletin : Bulletin) :
    Recounts s [] (transmitAll bulletin s).2 := by
  unfold transmitAll
  dsimp only
  split
  · exact .of_untold hm rfl rfl (fun _ => rfl) rfl rfl
  · exact .of_untold hm rfl rfl (fun _ => rfl) (List.append_assoc ..) rfl

theorem recounts_tryBroadcast (hm : s.Manned) {bulletin : Bulletin} {deadline : Instant}
    {attempt : Attempt Unit} (h : tryBroadcast bulletin deadline now s = .ok attempt s') :
    Recounts s [] s' := by
  obtain ⟨throttle, -, hs⟩ := tryBroadcast_cases h
  have ht : Recounts s [] { s with throttle } :=
    .of_untold hm rfl rfl (fun _ => rfl) (List.append_nil _).symm rfl
  rcases hs with rfl | rfl | rfl
  · exact ht.trans (recounts_transmitAll (ht.manned hm) bulletin)
  · exact .of_untold hm rfl rfl (fun _ => rfl) (List.append_nil _).symm rfl
  · exact ht

theorem recounts_broadcastRounds (hm : s.Manned) {wake : Instant → Instant} {bulletin : Bulletin}
    {deadline : Instant} {n : Nat} {answer : Except DispatchError Unit × Instant}
    (h : broadcastRounds wake bulletin deadline n now s = .ok answer s') : Recounts s [] s' := by
  induction n generalizing s now with
  | zero =>
    cases h
    exact .of_untold hm rfl rfl (fun _ => rfl) (List.append_nil _).symm rfl
  | succ n ih =>
    unfold broadcastRounds at h
    obtain ⟨attempt, s₁, ht, h⟩ := Act.bind_eq_ok.1 h
    have htells := recounts_tryBroadcast hm ht
    cases attempt with
    | done answer =>
      cases h
      exact htells
    | wait ready => exact htells.trans (ih (htells.manned hm) h)

theorem recounts_correction (hm : s.Manned) {wake : Instant → Instant} {bulletin : Bulletin}
    {skipIfIdle : Bool} {deadline : Instant} {answer : Except DispatchError Bool × Instant}
    (h : correction wake bulletin skipIfIdle deadline now s = .ok answer s') :
    Recounts s [] s' := by
  unfold correction at h
  rw [Act.get_bind] at h
  split at h
  · obtain ⟨answer, s₂, hb, h⟩ := Act.bind_eq_ok.1 h
    cases h
    exact recounts_broadcastRounds hm hb
  · cases h
    exact .refl hm

/-- What every operation tells of the agents. -/
theorem perform_recounts (hs : s.Sound) (hm : s.Manned) {operation : Operation} {response : Result}
    (h : perform operation s = .ok response s') :
    Recounts s ((s.partings operation).map Prod.fst) s' := by
  cases operation with
  | deliver m now =>
    obtain ⟨⟨⟩, hd, rfl⟩ := Act.bind_pure_eq_ok.1 h
    exact recounts_deliverInbound hs hm hd
  | route m now =>
    obtain ⟨found, hr, rfl⟩ := Act.bind_pure_eq_ok.1 h
    exact recounts_route hs hm hr
  | submit request agent payload urgency maxAttempts now =>
    obtain ⟨result, hsub, rfl⟩ := Act.bind_pure_eq_ok.1 h
    exact recounts_submit hs hm hsub
  | enqueue request agent payload urgency maxAttempts =>
    obtain ⟨result, he, rfl⟩ := Act.bind_pure_eq_ok.1 h
    exact recounts_enqueue hm (Act.modifyGet_eq_ok.1 he)
  | pump agent now =>
    obtain ⟨⟨⟩, hp, rfl⟩ := Act.bind_pure_eq_ok.1 h
    exact recounts_pump hs hm hp
  | pumpAll walk now =>
    obtain ⟨⟨⟩, hp, rfl⟩ := Act.bind_pure_eq_ok.1 h
    exact recounts_pumpAll hs hm hp
  | sweep walk now =>
    obtain ⟨changes, hsw, rfl⟩ := Act.bind_pure_eq_ok.1 h
    cases hsw
    exact recounts_swept hm now
  | tick walk now =>
    obtain ⟨⟨⟩, ht, rfl⟩ := Act.bind_pure_eq_ok.1 h
    rw [tick_eq] at ht
    have hswept := recounts_swept hm now
    exact hswept.trans (recounts_pumpAll (hs.of_queueOf (quiet_swept s now).queue)
      (hswept.manned hm) ht)
  | broadcast wake bulletin deadline now =>
    obtain ⟨answer, hb, rfl⟩ := Act.bind_pure_eq_ok.1 h
    exact recounts_broadcastRounds hm hb
  | correction wake bulletin skipIfIdle deadline now =>
    obtain ⟨answer, hb, rfl⟩ := Act.bind_pure_eq_ok.1 h
    exact recounts_correction hm hb
  | cancel request =>
    obtain ⟨found, hc, rfl⟩ := Act.bind_pure_eq_ok.1 h
    cases hc
    exact recounts_cancel hm request
  | deregister agent now =>
    obtain ⟨result, hd, rfl⟩ := Act.bind_pure_eq_ok.1 h
    exact (recounts_deregister hs hm hd).1
  | shutdown walk now =>
    obtain ⟨⟨⟩, hsh, rfl⟩ := Act.bind_pure_eq_ok.1 h
    exact (recounts_shutdown hs hm hsh).1
  | adoptEpoch epoch =>
    cases h
    exact .of_untold hm rfl rfl (fun _ => rfl) (List.append_nil _).symm rfl

end Carrying

end Operations

/-! ### The events of a run -/

/-- The events subscribers were told of in a run. -/
def told (steps : List (Step τ)) : List Event := published (steps.flatMap Step.effects)

section Run

variable [Carrier τ]

/-- What a run tells of the agents. -/
theorem run_recounts {operations : List Operation} {s last : Station τ} {steps : List (Step τ)}
    (hs : s.Sound) (hm : s.Manned) (h : run operations s = .ok (steps, last)) :
    Recounts s (steps.flatMap fun step => (step.before.partings step.operation).map Prod.fst)
      last := by
  induction operations generalizing s steps with
  | nil =>
    cases h
    exact .refl hm
  | cons operation rest ih =>
    obtain ⟨response, after, others, hp, hr, rfl⟩ := run_cons_eq_ok.1 h
    have ht := perform_recounts hs hm hp
    exact ht.trans (ih (perform_transfer hs hp).1 (ht.manned hm) hr)

/-- What an operation tells that removes agents. -/
theorem published_of_partings {s s' : Station τ} (hs : s.Sound) (hm : s.Manned)
    {operation : Operation} {response : Result} (h : perform operation s = .ok response s')
    (hp : s.partings operation ≠ []) :
    ∃ effects, s'.log = s.log ++ effects ∧
      published effects = (s.partings operation).flatMap (farewell s.id) := by
  cases operation with
  | deregister agent now =>
    obtain ⟨result, hd, rfl⟩ := Act.bind_pure_eq_ok.1 h
    exact (recounts_deregister hs hm hd).2
  | shutdown walk now =>
    obtain ⟨⟨⟩, hsh, rfl⟩ := Act.bind_pure_eq_ok.1 h
    exact (recounts_shutdown hs hm hsh).2
  | _ => exact absurd rfl hp

omit [Carrier τ] in
/-- The agents an operation removes are registered, and each is removed once. -/
theorem partings_registered (s : Station τ) (operation : Operation) :
    (∀ e ∈ s.partings operation, s.agents.get? e.1 = some e.2) ∧
      ((s.partings operation).map Prod.fst).Nodup := by
  cases operation with
  | deregister agent now =>
    show (∀ e ∈ (s.agents.get? agent).toList.map (agent, ·), _) ∧
      (((s.agents.get? agent).toList.map (agent, ·)).map Prod.fst).Nodup
    cases ha : s.agents.get? agent with
    | none => exact ⟨List.forall_mem_nil _, List.nodup_nil⟩
    | some a => exact ⟨List.forall_mem_singleton.2 ha, List.nodup_singleton agent⟩
  | shutdown walk now =>
    exact ⟨fun e he => Walk.mem_entries_iff.1 he, Walk.nodup_entries s.agents⟩
  | _ => exact ⟨List.forall_mem_nil _, List.nodup_nil⟩

/-- An agent that leaves was registered, and its farewell is all that is told of it. -/
theorem farewell_of_evicted {step : Step τ} (hs : step.before.Sound) (hm : step.before.Manned)
    (h : perform step.operation step.before = .ok step.response step.after) {agent : AgentId}
    {network : NetworkId} (he : .evicted network agent ∈ published step.effects) :
    ∃ a, step.before.agents.get? agent = some a ∧
      about agent (published step.effects) = farewell step.before.id (agent, a) := by
  obtain ⟨-, -, effects, hlog, -, hleavers⟩ := perform_recounts hs hm h
  -- who leaves is among those the operation removes
  have hmem : agent ∈ (step.before.partings step.operation).map Prod.fst := by
    rw [← hleavers, ← Step.effects_of_log hlog]
    exact List.mem_filterMap.2 ⟨_, he, rfl⟩
  obtain ⟨e, hparting, rfl⟩ := List.mem_map.1 hmem
  obtain ⟨hregistered, hd⟩ := step.before.partings_registered step.operation
  obtain ⟨effects', hlog', hp⟩ := published_of_partings hs hm h (List.ne_nil_of_mem hparting)
  rw [Step.effects_of_log hlog', hp]
  exact ⟨e.2, hregistered e hparting, about_farewells hd
    (fun d hd r => agent_of_mem_requests hs (hregistered d hd)) hparting⟩

/-- The events of a run tell which agents are registered, how each of them is doing, and what became
of the requests of those that have left. -/
structure FaithfulLog (steps : List (Step τ)) (s : Station τ) : Prop where
  /-- nobody is spoken of who is not registered, and who registers is heard at once -/
  chronicle : Chronicle s.id ∅ (told steps) (replay (told steps))
  /-- of each agent the events tell round after round -/
  story : ∀ agent, Story s.id agent none (about agent (told steps))
    ((s.agents.get? agent).map fun _ => s.presenceOf agent)
  /-- who leaves takes its pending requests with it, and that is all that is told of it then -/
  farewell : ∀ step ∈ steps, ∀ agent, .evicted s.id agent ∈ published step.effects →
    ∃ a, step.before.agents.get? agent = some a ∧
      about agent (published step.effects) = farewell s.id (agent, a)
  /-- the events give the registered agents, with the presence of each -/
  replayed : replay (told steps) = s.agents.mapKeyed fun agent _ => s.presenceOf agent
  unknown : ∀ agent, s.presenceOf agent = .unknown ↔ s.agents.get? agent = none
  agents : (replay (told steps)).size = s.report.agents
  agentsOnline : (replay (told steps)).values.countP (· == .online) = s.report.agentsOnline
  anyOnline : (replay (told steps)).values.any (· == .online) = s.watch.anyOnline

/-- Whatever is asked of a station from its beginning on: its events are a faithful log. -/
theorem events_faithful {settings : NetworkSettings} {carrier : τ} {start : Instant}
    {operations : List Operation} {steps : List (Step τ)} {s : Station τ}
    (h : run operations (new settings carrier start) = .ok (steps, s)) : FaithfulLog steps s := by
  have hsound : (new settings carrier start).Sound := sound_new settings carrier start
  have hmanned := manned_new settings carrier start
  have ht := run_recounts hsound hmanned h
  have hm := ht.manned hmanned
  have hid : s.id = (new settings carrier start).id := congrArg NetworkSettings.id ht.settings
  have hlog : s.log = steps.flatMap Step.effects := log_of_run hsound h
  have hchronicle : Chronicle s.id ∅ (told steps) s.roll := by
    obtain ⟨effects, hl, hc, -⟩ := ht.log
    have he : effects = steps.flatMap Step.effects := hl.symm.trans hlog
    rw [hid]
    unfold told
    rw [← he]
    exact hc
  have hreplay : replay (told steps) = s.roll := hchronicle.replay
  have hvalues : s.roll.values = s.watch.sightings.values.map (·.presence) := by
    unfold roll Table.mapVal Table.values
    rw [List.map_map, List.map_map]
    rfl
  refine ⟨?_, ?_, ?_, ?_, ?_, ?_, ?_, ?_⟩
  · rw [hreplay]
    exact hchronicle
  · intro agent
    have hs := hchronicle.story agent
    rw [hm.roll_eq, Table.get?_mapKeyed] at hs
    exact hs
  · intro step hstep agent he
    obtain ⟨past, later, hsplit⟩ := List.append_of_mem hstep
    rw [hsplit] at h
    obtain ⟨hpast, hperform, -⟩ := run_split h
    have hbefore := run_recounts hsound hmanned hpast
    have hstepId : step.before.id = s.id :=
      (congrArg NetworkSettings.id hbefore.settings).trans hid.symm
    rw [← hstepId]
    exact farewell_of_evicted (run_transfer hsound hpast).1 (hbefore.manned hmanned) hperform he
  · rw [hreplay]
    exact hm.roll_eq
  · intro agent
    rw [hm.presenceOf_eq_unknown_iff]
    unfold Table.contains
    rw [Option.isSome_eq_false_iff, Option.isNone_iff_eq_none]
  · rw [hreplay, hm.roll_eq, Table.size_mapKeyed]
    rfl
  · rw [hreplay, hvalues, List.countP_map]
    rfl
  · rw [hreplay, hvalues, List.any_map]
    rfl

end Run

/-- An agent falls silent with two requests pending, is heard again, is removed, and comes back. -/
def comings : List Operation :=
  [.route (.heartbeat "alpha" 1) 0,
    .submit 1 1 (.expecting [7] 3) .normal 0 10,
    .submit 2 1 (.oneWay [8]) .normal 0 20,
    .sweep .ascending 100000000000,
    .route (.lowPower "alpha" 1) 5,
    .deregister 1 100000000001,
    .route (.heartbeat "alpha" 1) 100000000002]

theorem events_faithful_comings :
    ∃ steps s, run comings (new { id := "alpha" } (Pipe.new "up" 4) 0) = .ok (steps, s) ∧
      told steps =
        [.registered "alpha" 1, .presence "alpha" 1 .unknown .online,
          .presence "alpha" 1 .online .offline, .presence "alpha" 1 .offline .sleeping,
          .finished "alpha" 1 1 (.failed .agentGone) (.failure .agentGone 1 none),
          .finished "alpha" 1 2 (.failed .agentGone) (.failure .agentGone 0 none),
          .evicted "alpha" 1,
          .registered "alpha" 1, .presence "alpha" 1 .unknown .online] ∧
      FaithfulLog steps s := by
  have hrun : (run comings (new { id := "alpha" } (Pipe.new "up" 4) 0)).toOption.map
      (fun r => told r.1) = some
        [.registered "alpha" 1, .presence "alpha" 1 .unknown .online,
          .presence "alpha" 1 .online .offline, .presence "alpha" 1 .offline .sleeping,
          .finished "alpha" 1 1 (.failed .agentGone) (.failure .agentGone 1 none),
          .finished "alpha" 1 2 (.failed .agentGone) (.failure .agentGone 0 none),
          .evicted "alpha" 1,
          .registered "alpha" 1, .presence "alpha" 1 .unknown .online] := by decide +kernel
  obtain ⟨steps, s, hr, ht⟩ := exists_run_of_map hrun
  exact ⟨steps, s, hr, ht, events_faithful hr⟩

end Station

end GroundControl
