import GroundControl.Proofs.Station.Transfer

/-!
# The backlog of one agent

What the moves of a station make of the backlog of one agent: moves about other agents leave it as
it is, and a request in flight stays in flight until it is answered, overdue, withdrawn or removed.

* `Change`, what an action makes of a backlog, and `Move.change`;
* `Action.Avoids`, `Ordered`: an operation moves the requests of an agent once at most, and it does
  so at the end, `ordered_actions`;
* `Action.Spares`: an action does not end the wait of a request in flight;
* `Moves.flight`: a request in flight stays in flight as long as it is spared;
* `run_of_flight`: a pump does not touch a request in flight that is not overdue.
-/

namespace GroundControl

/-! ### Pumping with a request in flight -/

namespace Pass

variable {τ : Type} [Carrier τ]

/-- Nothing is handed to the link while a request is in flight. -/
theorem rounds_of_flight {ctx : PassContext} {p : Pass τ} (h : p.backlog.inFlight.isSome = true)
    (n : Nat) : rounds ctx n p = (none, p) := by
  cases n with
  | zero => rfl
  | succ n =>
    obtain ⟨r, hr⟩ := Option.isSome_iff_exists.1 h
    have hn : p.backlog.nextClass = none := by
      unfold Backlog.nextClass
      rw [hr]
    unfold rounds round
    rw [hn]

end Pass

namespace Station

variable {τ : Type}

/-- A pump of a backlog with a request in flight that is not overdue ends the withdrawn requests,
and that is all. -/
theorem run_of_flight [Carrier τ] {s : Station τ} {b : Backlog} (hb : b.Settled) {now : Instant}
    {r : Request} (hr : b.inFlight = some r) (hc : r.cancelRequested = false)
    (ho : r.overdue now = false) (ctx : PassContext) :
    Pass.run ctx (s.firstPass b now) = (none, s.firstPass b now) ∧
      (s.firstPass b now).backlog = b.kept := by
  have hrev : b.review now = (b.withdrawn.map Request.endCancelled, b.kept) :=
    Backlog.review_of_not_overdue hb fun q hq _ => by
      obtain rfl := Option.some.inj (hr.symm.trans hq)
      exact ho
  have hk : (s.firstPass b now).backlog = b.kept := congrArg Prod.snd hrev
  refine ⟨Pass.rounds_of_flight ?_ _, hk⟩
  rw [hk, Backlog.kept_inFlight hr hc]
  rfl

theorem queueOf_pumped {s : Station τ} {agent : AgentId} {b : Backlog}
    (hb : s.backlogOf agent = some b) (p : Pass τ) (now : Instant) :
    (s.pumped agent p now).queueOf agent = p.backlog := by
  obtain ⟨a, hg⟩ := exists_of_backlogOf hb
  have hq : ∀ other, (s.pumped agent p now).queueOf other =
      if other = agent then p.backlog else s.queueOf other := queueOf_of_setBacklog hg rfl rfl
  rw [hq, if_pos rfl]

/-- The agents that are pumped by a pass over all of them are those with pending requests. -/
theorem mem_busyAgents [Walk] {s : Station τ} {agent : AgentId} :
    agent ∈ s.busyAgents ↔ (s.queueOf agent).pendingLen ≠ 0 := by
  have hlen : ∀ a, s.agents.get? agent = some a →
      a.pendingLen = (s.queueOf agent).pendingLen := by
    intro a ha
    rw [← length_requests_agent, ← Backlog.length_requests, requests_queueOf ha]
  unfold busyAgents
  constructor
  · intro h
    obtain ⟨e, he, rfl⟩ := List.mem_map.1 h
    obtain ⟨hm, hp⟩ := List.mem_filter.1 he
    rw [← hlen e.2 (Walk.mem_entries_iff.1 hm)]
    exact of_decide_eq_true hp
  · intro h
    cases ha : s.agents.get? agent with
    | none =>
      rw [queueOf_of_get?_eq_none ha] at h
      exact absurd rfl h
    | some a =>
      refine List.mem_map.2 ⟨(agent, a), List.mem_filter.2 ⟨Walk.mem_entries_iff.2 ha, ?_⟩, rfl⟩
      exact decide_eq_true (hlen a ha ▸ h)

/-! ### What an action makes of a backlog -/

/-- The agent an action is about, if that is plain from the action. -/
def Action.agent? : Action → Option AgentId
  | .enter handle => some handle.agent
  | .answer agent | .pump agent | .remove agent => some agent
  | .withdraw _ => none

/-- What an action at `now` makes of the backlog of an agent. -/
inductive Change [Carrier τ] (now : Instant) (s : Station τ) (agent : AgentId) :
    Action → Backlog → Prop
  | same {a : Action} (h : a.agent? ≠ some agent) : Change now s agent a (s.queueOf agent)
  | enter {r : Request} {b : Backlog} (id : RequestId) (payload : Payload) (urgency : Urgency)
      (maxAttempts : Nat)
      (hr : r = .new id s.id agent payload urgency maxAttempts s.tickets)
      (hb : (s.queueOf agent).submit r = some b) : Change now s agent (.enter r.handle) b
  | answer {key : ReplyKey} {verdict : Verdict} {found : Match} {b : Backlog}
      (h : (s.queueOf agent).answer key verdict now = (some found, b)) :
      Change now s agent (.answer agent) b
  | pump {p : Pass τ}
      (h : Pass.run (s.passContext agent now) (s.firstPass (s.queueOf agent) now) = (none, p)) :
      Change now s agent (.pump agent) p.backlog
  | withdraw {request : RequestId} :
      Change now s agent (.withdraw request) ((s.queueOf agent).withdraw request).2
  | remove : Change now s agent (.remove agent) (.new agent s.settings.queueDepth)

theorem change_of_replaced [Carrier τ] {now : Instant} {s s' : Station τ} {a : Action}
    {target : AgentId} {b : Backlog} (ha : a.agent? = some target)
    (hq : ∀ other, s'.queueOf other = if other = target then b else s.queueOf other)
    (hc : Change now s target a b) (agent : AgentId) : Change now s agent a (s'.queueOf agent) := by
  rw [hq]
  split
  · rename_i ht
    rw [ht]
    exact hc
  · rename_i ht
    exact .same fun he => ht (Option.some.inj (ha.symm.trans he)).symm

/-- What a move makes of the backlog of any agent. -/
theorem Move.change [Carrier τ] {now : Instant} {s s' : Station τ} {a : Action}
    (h : Move now a s s') (agent : AgentId) : Change now s agent a (s'.queueOf agent) := by
  cases h with
  | @enter _ a r b id target payload urgency maxAttempts hr ha hb =>
    subst hr
    refine change_of_replaced rfl ?_ (.enter id payload urgency maxAttempts rfl hb) agent
    exact queueOf_of_setBacklog ha rfl rfl
  | @answer _ target key verdict b b' found estimator hb ha he =>
    obtain ⟨x, hx⟩ := exists_of_backlogOf hb
    rw [← queueOf_of_backlogOf hb] at ha
    refine change_of_replaced rfl ?_ (.answer ha) agent
    exact queueOf_of_setBacklog hx rfl rfl
  | @pump _ target b p hb hp =>
    obtain ⟨x, hx⟩ := exists_of_backlogOf hb
    rw [← queueOf_of_backlogOf hb] at hp
    refine change_of_replaced rfl ?_ (.pump hp) agent
    exact queueOf_of_setBacklog hx rfl rfl
  | @idle _ target hb =>
    by_cases ht : target = agent
    · subst ht
      -- a pump finds nothing to do in the empty backlog
      have hq := queueOf_of_backlogOf_eq_none hb
      have hp : Pass.run (s.passContext target now) (s.firstPass (s.queueOf target) now) =
          (none, s.firstPass (s.queueOf target) now) := by
        rw [hq]
        rfl
      have hb : (s.firstPass (s.queueOf target) now).backlog = s.queueOf target := by
        rw [hq]
        rfl
      exact hb ▸ .pump hp
    · exact .same fun he => ht (Option.some.inj he)
  | @withdraw _ request target b hp hb =>
    obtain ⟨x, hx⟩ := exists_of_backlogOf hb
    rw [queueOf_setBacklog hx]
    split
    · rename_i ht
      rw [ht, ← queueOf_of_backlogOf hb]
      exact .withdraw
    · exact .same nofun
  | gone => exact .same nofun
  | @remove _ target a ha =>
    exact change_of_replaced rfl (queueOf_removed a now) .remove agent
  | @unknown _ target ha =>
    by_cases ht : target = agent
    · subst ht
      rw [queueOf_of_get?_eq_none ha]
      exact .remove
    · exact .same fun he => ht (Option.some.inj he)

/-- Only a pump of its agent pumps a backlog, and it goes through with a pass. -/
theorem Change.of_pump [Carrier τ] {now : Instant} {s : Station τ} {agent target : AgentId}
    {b : Backlog} (h : Change now s agent (.pump target) b) :
    (target ≠ agent ∧ b = s.queueOf agent) ∨
      ∃ p, target = agent ∧ b = p.backlog ∧
        Pass.run (s.passContext agent now) (s.firstPass (s.queueOf agent) now) = (none, p) := by
  cases h with
  | same h => exact .inl ⟨fun he => h (congrArg some he), rfl⟩
  | pump h => exact .inr ⟨_, rfl, rfl, h⟩

/-! ### Actions about other agents -/

/-- An action is about an agent, and not about the given one. -/
def Action.Avoids (agent : AgentId) (a : Action) : Prop :=
  ∃ other, a.agent? = some other ∧ other ≠ agent

theorem Change.of_avoids [Carrier τ] {now : Instant} {s : Station τ} {agent : AgentId}
    {a : Action} {b : Backlog} (h : Change now s agent a b) (ha : a.Avoids agent) :
    b = s.queueOf agent := by
  obtain ⟨other, ho, hne⟩ := ha
  cases h with
  | same => rfl
  | enter id payload urgency maxAttempts hr =>
    subst hr
    exact absurd (Option.some.inj ho).symm hne
  | answer | pump | remove => exact absurd (Option.some.inj ho).symm hne
  | withdraw => cases ho

/-- The backlog of an agent stays as it is as long as nothing is about that agent. -/
theorem Moves.queueOf_of_avoids [Carrier τ] {now : Instant} {l : List Action} {s s' : Station τ}
    (h : Moves now l s s') {agent : AgentId} (hl : ∀ a ∈ l, a.Avoids agent) :
    s'.queueOf agent = s.queueOf agent := by
  induction h with
  | nil => rfl
  | quiet hq _ ih => exact (ih hl).trans (hq.queue agent)
  | cons hm _ ih =>
    obtain ⟨ha, hrest⟩ := List.forall_mem_cons.1 hl
    exact (ih hrest).trans ((hm.change agent).of_avoids ha)

/-- The agent whose requests an action moves, if it moves any. -/
def Action.pumped? : Action → Option AgentId
  | .pump agent => some agent
  | _ => none

theorem mem_pumped {l : List Action} {agent : AgentId} :
    agent ∈ l.filterMap Action.pumped? ↔ .pump agent ∈ l := by
  constructor
  · intro h
    obtain ⟨a, ha, hp⟩ := List.mem_filterMap.1 h
    cases a with
    | pump => exact Option.some.inj hp ▸ ha
    | enter | answer | withdraw | remove => cases hp
  · exact fun h => List.mem_filterMap.2 ⟨_, h, rfl⟩

/-- What comes after the pump of an agent are pumps of other agents. -/
def Ordered (l : List Action) : Prop :=
  l.Pairwise fun a b => ∀ agent, a = .pump agent → ∃ other, b = .pump other ∧ other ≠ agent

theorem avoids_of_pump {agent : AgentId} {a : Action}
    (h : ∃ other, a = .pump other ∧ other ≠ agent) : a.Avoids agent := by
  obtain ⟨other, rfl, hne⟩ := h
  exact ⟨other, rfl, hne⟩

theorem ordered_map_pump {l : List AgentId} (h : l.Nodup) : Ordered (l.map .pump) := by
  refine List.pairwise_map.2 (h.imp fun hne agent ha => ⟨_, rfl, ?_⟩)
  rw [← Action.pump.inj ha]
  exact hne.symm

/-- What comes before the pump of an agent does not pump it; what comes after it pumps others. -/
theorem Ordered.around {before after : List Action} {agent : AgentId}
    (h : Ordered (before ++ .pump agent :: after)) :
    .pump agent ∉ before ∧ ∀ a ∈ after, ∃ other, a = .pump other ∧ other ≠ agent := by
  obtain ⟨-, hafter, hbefore⟩ := List.pairwise_append.1 h
  refine ⟨fun hb => ?_, fun a ha => (List.pairwise_cons.1 hafter).1 a ha agent rfl⟩
  obtain ⟨other, ho, hne⟩ := hbefore _ hb _ List.mem_cons_self agent rfl
  exact hne (Action.pump.inj ho).symm

theorem nodup_busyAgents [Walk] (s : Station τ) : s.busyAgents.Nodup :=
  (Walk.nodup_entries s.agents).sublist (List.filter_sublist.map Prod.fst)

/-- An operation moves the requests of an agent once at most, and it does so at the end. -/
theorem ordered_actions (s : Station τ) (operation : Operation) (response : Result) :
    Ordered (s.actions operation response) := by
  have hpair : ∀ {a b : Action}, (∀ agent, a ≠ .pump agent) → Ordered [a, b] := fun ha =>
    List.pairwise_pair.2 fun agent he => absurd he (ha agent)
  have hsingle : ∀ a : Action, Ordered [a] := fun a => List.pairwise_singleton _ a
  cases operation with
  | deliver m now =>
    show Ordered (if s.answers m then [.answer m.agent, .pump m.agent] else [])
    split
    · exact hpair nofun
    · exact .nil
  | route m now =>
    show Ordered (if s.answers m then [.answer m.agent] else [])
    split
    · exact hsingle _
    · exact .nil
  | submit request agent payload urgency maxAttempts now =>
    cases response with
    | submitted result =>
      cases result with
      | error e => exact .nil
      | ok handle => exact hpair nofun
    | _ => exact .nil
  | enqueue request agent payload urgency maxAttempts =>
    cases response with
    | submitted result =>
      cases result with
      | error e => exact .nil
      | ok handle => exact hsingle _
    | _ => exact .nil
  | pumpAll walk now | tick walk now => exact ordered_map_pump s.nodup_busyAgents
  | shutdown walk now =>
    refine List.pairwise_map.2 (List.pairwise_of_forall fun _ _ => ?_)
    exact nofun
  | pump | cancel | deregister => exact hsingle _
  | sweep | broadcast | correction | adoptEpoch => exact .nil

/-! ### A request in flight -/

/-- An action at `now` does not end the wait of a request of an agent. -/
def Action.Spares (agent : AgentId) (r : Request) (now : Instant) : Action → Prop
  | .enter _ => True
  | .answer other | .remove other => other ≠ agent
  | .pump other => other = agent → r.overdue now = false
  | .withdraw request => request ≠ r.id

theorem Change.flight [Carrier τ] {now : Instant} {s : Station τ} {agent : AgentId} {a : Action}
    {b : Backlog} (h : Change now s agent a b) (hs : (s.queueOf agent).Settled) {r : Request}
    (hr : (s.queueOf agent).inFlight = some r) (hc : r.cancelRequested = false)
    (ha : a.Spares agent r now) : b.inFlight = some r := by
  cases h with
  | same h => exact hr
  | enter id payload urgency maxAttempts hn hb =>
    obtain ⟨-, rfl⟩ := Backlog.submit_eq_some_iff.1 hb
    exact hr
  | answer h => exact absurd rfl ha
  | pump h =>
    obtain ⟨hrun, hk⟩ := run_of_flight (s := s) hs hr hc (ha rfl) (s.passContext agent now)
    rw [hrun] at h
    cases h
    rw [hk]
    exact Backlog.kept_inFlight hr hc
  | @withdraw request =>
    have hf : (s.queueOf agent).inFlight.filter (fun q => q.id = request) = none := by
      rw [hr]
      have hne : ¬ r.id = request := fun he => ha he.symm
      simp [Option.filter, hne]
    unfold Backlog.withdraw
    rw [hf]
    exact hr
  | remove => exact absurd rfl ha

/-- A request in flight stays in flight as long as it is spared. -/
theorem Moves.flight [Carrier τ] {now : Instant} {l : List Action} {s s' : Station τ}
    (h : Moves now l s s') (hs : s.Sound) {agent : AgentId} {r : Request}
    (hr : (s.queueOf agent).inFlight = some r) (hc : r.cancelRequested = false)
    (hl : ∀ a ∈ l, a.Spares agent r now) : (s'.queueOf agent).inFlight = some r := by
  induction h with
  | nil => exact hr
  | quiet hq _ ih => exact ih (hs.of_queueOf hq.queue) (hq.queue agent ▸ hr) hl
  | cons hm _ ih =>
    obtain ⟨ha, hrest⟩ := List.forall_mem_cons.1 hl
    exact ih (hm.transfer hs).1 ((hm.change agent).flight (hs.settled agent) hr hc ha) hrest

end Station

end GroundControl
