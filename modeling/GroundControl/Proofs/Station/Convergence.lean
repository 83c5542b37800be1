import GroundControl.Proofs.Station.Alone

/-!
# Requests end without answers

The requests of an agent that does not answer end all the same: if nothing throttles them, as many
pumps as they have attempts left, and two more, are enough, provided that the longest time to allow
for a reply passes between one pump and the next, and that the clock can tell at each of them how
long to keep a result.  It does not matter what the link says.

The deadlines of the agent's own replies need no such provision: all but the last pump are followed
by one that comes later than any deadline they set, and the last one has no attempt to make.

* `Operation.pumpTime?`, `pumpTimes`: when an agent is pumped;
* `Station.Room`: a pump at an instant meets no fault; `exists_perform`;
* `Undisturbed`: a run leaves an agent alone;
* `Moves.spends`: a pump that finds the reply overdue uses up an attempt;
* `drained_of_spaced`, `drained`: in the end no request is left;
* `fate_of_run`: how a request that is not left has ended;
* `terminal_convergence`.
-/

namespace GroundControl

/-- When an operation pumps an agent, alone or with all others. -/
def Operation.pumpTime? (agent : AgentId) : Operation → Option Instant
  | .pump target now => if target = agent then some now else none
  | .pumpAll _ now | .tick _ now => some now
  | _ => none

/-- When an agent is pumped. -/
def pumpTimes (agent : AgentId) (operations : List Operation) : List Instant :=
  operations.filterMap (Operation.pumpTime? agent)

theorem pumpTimes_cons (agent : AgentId) (operation : Operation) (rest : List Operation) :
    pumpTimes agent (operation :: rest) =
      (operation.pumpTime? agent).toList ++ pumpTimes agent rest := by
  unfold pumpTimes
  rw [List.filterMap_cons]
  cases operation.pumpTime? agent <;> rfl

/-- Where an operation pumps other agents besides the given one, the clock has room for the
deadlines of their replies. -/
def Operation.HasRoom {τ : Type} (agent : AgentId) (s : Station τ) : Operation → Prop
  | .pumpAll _ now | .tick _ now => ∀ e ∈ s.agents.entries, e.1 ≠ agent →
      ∀ r ∈ e.2.requests, r.payload.expectsReply = true →
        now + s.settings.maxTimeout < Instant.horizon
  | _ => True

instance {τ : Type} (agent : AgentId) (s : Station τ) :
    (operation : Operation) → Decidable (operation.HasRoom agent s)
  | .pumpAll _ now | .tick _ now =>
      inferInstanceAs (Decidable (∀ e ∈ s.agents.entries, e.1 ≠ agent →
      ∀ r ∈ e.2.requests, r.payload.expectsReply = true →
        now + s.settings.maxTimeout < Instant.horizon))
  | .deliver .. | .route .. | .submit .. | .enqueue .. | .pump .. | .sweep .. | .broadcast ..
  | .correction .. | .cancel _ | .deregister .. | .shutdown .. | .adoptEpoch _ => .isTrue trivial

namespace NetworkSettings

/-- In accepted settings the initial time to allow is within the bounds. -/
theorem initialTimeout_of_validate {settings : NetworkSettings}
    (h : settings.validate = .ok ()) :
    settings.minTimeout ≤ settings.initialTimeout ∧
      settings.initialTimeout ≤ settings.maxTimeout := by
  have hd : decide (settings.initialTimeout < settings.minTimeout ∨
      settings.maxTimeout < settings.initialTimeout) = false :=
    (validate_eq_ok_iff settings).1 h (_, .timeoutOrder) (List.mem_of_getElem? (i := 5) rfl)
  obtain ⟨hmin, hmax⟩ := not_or.1 (of_decide_eq_false hd)
  exact ⟨Nat.le_of_not_lt hmin, Nat.le_of_not_lt hmax⟩

/-- Settings that are accepted have their bounds in order. -/
theorem bounds_of_validate {settings : NetworkSettings} (h : settings.validate = .ok ()) :
    settings.minTimeout ≤ settings.maxTimeout :=
  Nat.le_trans (initialTimeout_of_validate h).1 (initialTimeout_of_validate h).2

end NetworkSettings

namespace Station

variable {τ : Type} [Carrier τ]

/-! ### Pumps without faults -/

/-- The clock has room for a pump of an agent: for the deadlines of the replies that its waiting
requests expect, and for the time up to which a result is kept. -/
structure Room (agent : AgentId) (now : Instant) (s : Station τ) : Prop where
  bounds : s.settings.minTimeout ≤ s.settings.maxTimeout
  deadline : ∀ r ∈ ((s.queueOf agent).review now).2.waiting, r.payload.expectsReply = true →
    now + s.settings.maxTimeout < Instant.horizon
  grace : now + s.settings.resultGrace < Instant.horizon

section Faults

variable {s s' : Station τ} {now : Instant} {agent : AgentId}

omit [Carrier τ] in
theorem Room.of_queueOf (h : s.Room agent now) (hs : s'.settings = s.settings)
    (hq : s'.queueOf agent = s.queueOf agent) : s'.Room agent now where
  bounds := hs.symm ▸ h.bounds
  deadline := by
    rw [hq, hs]
    exact h.deadline
  grace := hs.symm ▸ h.grace

omit [Carrier τ] in
/-- What waits after a review was pending before it. -/
theorem Sound.room (hs : s.Sound) (hb : s.settings.minTimeout ≤ s.settings.maxTimeout)
    (hd : ∀ r ∈ (s.queueOf agent).requests, r.payload.expectsReply = true →
      now + s.settings.maxTimeout < Instant.horizon)
    (hg : now + s.settings.resultGrace < Instant.horizon) : s.Room agent now where
  bounds := hb
  deadline q hq he := by
    obtain ⟨r, hr, hrq⟩ := Backlog.later_review (hs.settled agent) [] now q
      (Backlog.mem_requests.2 (.inr hq))
    exact hd r hr (hrq.payload ▸ he)
  grace := hg

omit [Carrier τ] in
theorem Tuned.inRange (ht : s.Tuned) (hr : s.Room agent now) :
    ∀ r ∈ ((s.queueOf agent).review now).2.waiting, (s.passContext agent now).InRange r :=
  fun r hm =>
    { bounds := by
        show s.estimator.minTimeout ≤ s.estimator.maxTimeout
        rw [ht.minTimeout, ht.maxTimeout]
        exact hr.bounds
      horizon := hr.deadline r hm }

theorem exists_pump (hs : s.Sound) (ht : s.Tuned) (hr : s.Room agent now) :
    ∃ s', pump agent now s = .ok () s' := by
  cases hb : s.backlogOf agent with
  | none => exact ⟨s, pump_eq_ok.2 (.inl ⟨hb, rfl⟩)⟩
  | some b =>
    have hq := queueOf_of_backlogOf hb
    obtain ⟨p, hp⟩ := Pass.rounds_of_inRange (p := s.firstPass b now) (hq ▸ ht.inRange hr)
      (s.firstPass b now).backlog.waiting.length
      (sound_firstPass (s := s) (hq ▸ hs.settled agent) now).1
    exact ⟨_, pump_eq_ok.2 (.inr ⟨b, p, hb, hp, .inr hr.grace, rfl⟩)⟩

theorem exists_forM_pump (hs : s.Sound) (ht : s.Tuned) {agents : List AgentId}
    (hn : agents.Nodup) (hr : ∀ agent ∈ agents, s.Room agent now) :
    ∃ s', agents.forM (pump · now) s = .ok () s' := by
  induction agents generalizing s with
  | nil => exact ⟨s, Act.forM_nil_eq_ok.2 rfl⟩
  | cons agent rest ih =>
    obtain ⟨hfresh, hn⟩ := List.nodup_cons.1 hn
    obtain ⟨hfirst, hrest⟩ := List.forall_mem_cons.1 hr
    obtain ⟨s₁, hp⟩ := exists_pump hs ht hfirst
    have hm := moves_pump hp
    obtain ⟨hs₁, ended, htr⟩ := hm.transfer hs
    -- a pump leaves the requests of the other agents where they are
    have hr₁ : ∀ other ∈ rest, s₁.Room other now := fun other ho =>
      (hrest other ho).of_queueOf htr.settings <| hm.queueOf_of_avoids <|
        List.forall_mem_singleton.2 ⟨agent, rfl, fun he => hfresh (he ▸ ho)⟩
    obtain ⟨s', hl⟩ := ih hs₁ (hm.tuned hs ht) hn hr₁
    exact ⟨s', Act.forM_cons_eq_ok.2 ⟨s₁, hp, hl⟩⟩

theorem exists_pumpAll [Walk] (hs : s.Sound) (ht : s.Tuned) (hr : ∀ agent, s.Room agent now) :
    ∃ s', pumpAll now s = .ok () s' := by
  obtain ⟨s₁, hf⟩ := exists_forM_pump hs ht (nodup_busyAgents s) fun agent _ => hr agent
  exact ⟨_, pumpAll_eq_ok.2 ⟨s₁, hf, rfl⟩⟩

/-- An operation that pumps an agent meets no fault. -/
theorem exists_perform (hs : s.Sound) (ht : s.Tuned) {operation : Operation}
    (ho : operation.pumpTime? agent = some now) (hr : s.Room agent now)
    (hothers : operation.HasRoom agent s) :
    ∃ response s', perform operation s = .ok response s' := by
  have hall : (∀ e ∈ s.agents.entries, e.1 ≠ agent → ∀ r ∈ e.2.requests,
      r.payload.expectsReply = true → now + s.settings.maxTimeout < Instant.horizon) →
        ∀ other, s.Room other now := by
    intro hroom other
    by_cases he : other = agent
    · exact he ▸ hr
    · refine hs.room hr.bounds (fun r hm => ?_) hr.grace
      cases ha : s.agents.get? other with
      | none =>
        rw [queueOf_of_get?_eq_none ha] at hm
        cases hm
      | some a =>
        rw [← requests_queueOf ha] at hm
        exact hroom (other, a) (Table.mem_entries_iff.2 ha) he r hm
  cases operation with
  | pump target time =>
    obtain ⟨rfl, rfl⟩ : target = agent ∧ time = now := by
      simpa [Operation.pumpTime?] using ho
    obtain ⟨s', hp⟩ := exists_pump hs ht hr
    exact ⟨.done, s', Act.bind_pure_eq_ok.2 ⟨(), hp, rfl⟩⟩
  | pumpAll walk time =>
    cases ho
    obtain ⟨s', hp⟩ := exists_pumpAll hs ht (hall hothers)
    exact ⟨.done, s', Act.bind_pure_eq_ok.2 ⟨(), hp, rfl⟩⟩
  | tick walk time =>
    cases ho
    have hq := quiet_swept s now
    obtain ⟨s', hp⟩ := exists_pumpAll (hs.of_queueOf hq.queue) (ht.of_quiet hq)
      fun other => (hall hothers other).of_queueOf hq.settings (hq.queue other)
    exact ⟨.done, s', Act.bind_pure_eq_ok.2 ⟨(), hp, rfl⟩⟩
  | _ => cases ho

end Faults

/-! ### Runs that leave an agent alone -/

/-- A run leaves an agent alone: each operation does, and but for the pumps of the agent, each one
goes through.  Of a pump of the agent only what it does for other agents is assumed to find room on
the clock. -/
def Undisturbed (agent : AgentId) : List Operation → Station τ → Prop
  | [], _ => True
  | operation :: rest, s =>
      operation.Leaves agent s ∧ operation.HasRoom agent s ∧
        match perform operation s with
        | .ok _ s' => Undisturbed agent rest s'
        | .error _ _ => (operation.pumpTime? agent).isSome = true

instance decidableUndisturbed (agent : AgentId) : (operations : List Operation) →
    (s : Station τ) → Decidable (Undisturbed agent operations s)
  | [], _ => .isTrue trivial
  | operation :: rest, s =>
      have : Decidable (match perform operation s with
          | .ok _ s' => Undisturbed agent rest s'
          | .error _ _ => (operation.pumpTime? agent).isSome = true) :=
        match perform operation s with
        | .ok _ s' => decidableUndisturbed agent rest s'
        | .error _ _ => inferInstance
      inferInstanceAs (Decidable (_ ∧ _ ∧ _))

section Runs

variable {settings : NetworkSettings} {ids : List RequestId} {agent : AgentId}
  {s s' : Station τ} {operation : Operation} {response : Result} {now last : Instant}

theorem Undisturbed.rest {rest : List Operation} (h : Undisturbed agent (operation :: rest) s)
    (hp : perform operation s = .ok response s') : Undisturbed agent rest s' := by
  have hr := h.2.2
  rwa [hp] at hr

/-- The next operation of such a run goes through. -/
theorem Undisturbed.next {rest : List Operation} (h : Undisturbed agent (operation :: rest) s)
    (ha : Alone settings ids agent s)
    (hroom : ∀ t, operation.pumpTime? agent = some t → s.Room agent t) :
    ∃ response s', perform operation s = .ok response s' := by
  -- pumps of the agent go through by themselves, all else by assumption
  cases ht : operation.pumpTime? agent with
  | some t => exact exists_perform ha.sound ha.tuned ht (hroom t ht) h.2.1
  | none =>
    cases hp : perform operation s with
    | ok response s' => exact ⟨response, s', rfl⟩
    | error fault s' =>
      have hr := h.2.2
      rw [hp, ht] at hr
      cases hr

omit [Carrier τ] in
/-- An operation that leaves an agent alone pumps it at its pump time only. -/
theorem pumpTime_of_mem_actions (hl : operation.Leaves agent s)
    (hm : .pump agent ∈ s.actions operation response) :
    operation.pumpTime? agent = some (operation.time?.getD 0) := by
  cases operation with
  | deliver m time =>
    have hm : .pump agent ∈ if s.answers m then [Action.answer m.agent, .pump m.agent] else [] :=
      hm
    split at hm
    · rename_i hans
      have ha : agent = m.agent := by simpa using hm
      rw [hl ha.symm] at hans
      cases hans
    · cases hm
  | route m time =>
    have hm : .pump agent ∈ if s.answers m then [Action.answer m.agent] else [] := hm
    split at hm
    · simp at hm
    · cases hm
  | submit request target payload urgency maxAttempts time =>
    cases response with
    | submitted result =>
      cases result with
      | error e => cases hm
      | ok handle =>
        have ha : agent = target := by simpa [actions] using hm
        exact absurd ha.symm hl
    | _ => cases hm
  | enqueue request target payload urgency maxAttempts =>
    cases response with
    | submitted result =>
      cases result with
      | error e => cases hm
      | ok handle => simp [actions] at hm
    | _ => cases hm
  | pump target time =>
    obtain rfl := Action.pump.inj (List.mem_singleton.1 hm)
    exact if_pos rfl
  | pumpAll walk time | tick walk time => rfl
  | cancel request => simp [actions] at hm
  | deregister target time => simp [actions] at hm
  | shutdown walk time => exact hl.elim
  | sweep | broadcast | correction | adoptEpoch => cases hm

/-- The deadline of the agent after an operation that does not pump it too late. -/
theorem Alone.due (h : Alone settings ids agent s) (hl : operation.Leaves agent s)
    (hp : Station.perform operation s = .ok response s')
    (ht : ∀ t, operation.pumpTime? agent = some t → t + settings.maxTimeout ≤ last)
    (hd : (s.queueOf agent).Due last) : (s'.queueOf agent).Due last := by
  refine (perform_moves hp).due h.sound (fun hm => ?_) hd
  rw [h.settings]
  exact ht _ (pumpTime_of_mem_actions hl hm)

theorem Alone.due_of_pump (h : Alone settings ids agent s) (hl : operation.Leaves agent s)
    (hp : Station.perform operation s = .ok response s')
    (ht : operation.pumpTime? agent = some now)
    (hd : (s.queueOf agent).Due (now + settings.maxTimeout)) :
    (s'.queueOf agent).Due (now + settings.maxTimeout) := by
  refine h.due hl hp (fun t he => ?_) hd
  obtain rfl := Option.some.inj (ht.symm.trans he)
  exact Nat.le_refl _

/-! ### Progress -/

/-- Pumps, of which one is that of the agent, use up an attempt or leave no request, if the reply to
the request in flight is overdue. -/
theorem Moves.spends {l : List Action} (h : Moves now l s s') (ha : Alone settings ids agent s)
    (hl : ∀ a ∈ l, ∃ target, a = .pump target) (hm : .pump agent ∈ l)
    (hd : (s.queueOf agent).Due last) (hlast : last < now) :
    (s'.queueOf agent).requests = [] ∨
      (s'.queueOf agent).attemptsLeft < (s.queueOf agent).attemptsLeft := by
  induction h with
  | nil => cases hm
  | @quiet _ s s₁ _ hq _ ih =>
    have hqueue := hq.queue agent
    have ha₁ : Alone settings ids agent s₁ := ha.step (ha.sound.of_queueOf hq.queue)
      (ha.tuned.of_quiet hq) (.of_quiet hq) (.of_queueOf hqueue (List.forall_mem_nil _))
    rw [← hqueue] at hd ⊢
    exact ih ha₁ hl hm hd
  | @cons _ l s s₁ s' hmove hrest' ih =>
    obtain ⟨⟨target, rfl⟩, hrest⟩ := List.forall_mem_cons.1 hl
    obtain ⟨ended, ht, hdesc⟩ := hmove.descends ha.sound ha.numbered ha.marked trivial nofun
    have hs₁ := (hmove.transfer ha.sound).1
    have ha₁ := ha.step hs₁ (hmove.tuned ha.sound ha.tuned) ht hdesc
    rcases (hmove.change agent).of_pump with ⟨hne, hb⟩ | ⟨p, rfl, hb, hrun⟩
    · have hm : .pump agent ∈ l := by
        rcases List.mem_cons.1 hm with he | hm
        · exact absurd (Action.pump.inj he).symm hne
        · exact hm
      rw [← hb] at hd ⊢
      exact ih ha₁ hrest hm hd
    · -- the pumps that follow give no attempt back
      have hleaves : ∀ a ∈ l, a.Leaves target := fun a hm => by
        obtain ⟨other, rfl⟩ := hrest a hm
        trivial
      have hwithdraw : ∀ request, .withdraw request ∈ l → request ∈ ids := fun request hm => by
        obtain ⟨other, he⟩ := hrest _ hm
        cases he
      obtain ⟨ended', -, hdesc'⟩ := hrest'.descends hs₁ ha₁.numbered ha₁.marked hleaves hwithdraw
      have hspend := spends_of_run (ha.sound.settled target) hd hlast ha.unthrottled hrun
      rw [← hb] at hspend
      rcases hspend with hnil | hlt
      · exact .inl (hdesc'.nil hnil)
      · exact .inr (Nat.lt_of_le_of_lt hdesc'.attemptsLeft hlt)

/-- A pump of the agent uses up an attempt or leaves no request, if the reply to the request in
flight is overdue. -/
theorem Alone.spends (h : Alone settings ids agent s) (hl : operation.Leaves agent s)
    (hw : ∀ request, operation.withdrawal? = some request → request ∈ ids)
    (hp : Station.perform operation s = .ok response s')
    (ht : operation.pumpTime? agent = some now) (hd : (s.queueOf agent).Due last)
    (hlast : last < now) :
    (s'.queueOf agent).requests = [] ∨
      (s'.queueOf agent).attemptsLeft < (s.queueOf agent).attemptsLeft := by
  have hm := perform_moves hp
  have hall : ∀ (walk : Walk), ∀ target ∈ s.busyAgents, ∃ other,
      Action.pump target = .pump other := fun _ target _ => ⟨target, rfl⟩
  by_cases hnil : (s.queueOf agent).requests = []
  · obtain ⟨-, ended, -, hdesc⟩ := h.perform hl hw hp
    exact .inl (hdesc.nil hnil)
  · have hbusy : ∀ (walk : Walk), agent ∈ s.busyAgents := fun _ => mem_busyAgents.2 <| by
      rw [← Backlog.length_requests]
      exact fun h0 => hnil (List.length_eq_zero_iff.1 h0)
    cases operation with
    | pump target time =>
      obtain ⟨rfl, rfl⟩ : target = agent ∧ time = now := by
        simpa [Operation.pumpTime?] using ht
      refine hm.spends h ?_ (List.mem_singleton.2 rfl) hd hlast
      exact List.forall_mem_singleton.2 ⟨target, rfl⟩
    | pumpAll walk time =>
      cases ht
      exact hm.spends h (List.forall_mem_map.2 (hall walk))
        (List.mem_map_of_mem (hbusy walk)) hd hlast
    | tick walk time =>
      cases ht
      exact hm.spends h (List.forall_mem_map.2 (hall walk))
        (List.mem_map_of_mem (hbusy walk)) hd hlast
    | _ => cases ht

/-! ### Many pumps -/

variable {operations : List Operation}

omit [Carrier τ] in
/-- What the first operation withdraws, and what the others do. -/
theorem withdrawals_cons_subset {rest : List Operation}
    (hw : withdrawals (operation :: rest) ⊆ ids) :
    (∀ request, operation.withdrawal? = some request → request ∈ ids) ∧
      withdrawals rest ⊆ ids := by
  refine ⟨fun request ho => hw ?_, fun request hm => hw ?_⟩
  · exact List.mem_filterMap.2 ⟨operation, List.mem_cons_self, ho⟩
  · obtain ⟨other, hm, ho⟩ := List.mem_filterMap.1 hm
    exact List.mem_filterMap.2 ⟨other, List.mem_cons_of_mem _ hm, ho⟩

omit [Carrier τ] in
/-- Without attempts left no request waits. -/
theorem waiting_review_eq_nil {b : Backlog} (hb : b.Settled)
    (h : b.requests = [] ∨ b.attemptsLeft = 0) (now : Instant) :
    (b.review now).2.waiting = [] := by
  refine List.eq_nil_iff_forall_not_mem.2 fun r hr => ?_
  have hm := Backlog.mem_requests.2 (.inr hr)
  rcases h with hnil | hzero
  · obtain ⟨q, hq, -⟩ := Backlog.later_review hb [] now r hm
    rw [hnil] at hq
    cases hq
  · have hpos := ((hb.review now).1.waiting r hr).attemptsLeft_pos
    have hreview := Backlog.attemptsLeft_review hb now
    obtain ⟨l, m, hl⟩ := List.append_of_mem hm
    have hle : r.attemptsLeft ≤ (b.review now).2.attemptsLeft := by
      unfold Backlog.attemptsLeft
      rw [hl, total_append, total_cons]
      omega
    omega

omit [Carrier τ] in
/-- The clock has room for a pump of the agent if it can tell how long to keep a result, then and at
the pumps that follow. -/
theorem Alone.room {rest : List Operation} (h : Alone settings ids agent s)
    (hb : settings.minTimeout ≤ settings.maxTimeout)
    (hspaced : (pumpTimes agent (operation :: rest)).IsChain
      fun t t' => t + settings.maxTimeout < t')
    (hg : ∀ t ∈ pumpTimes agent (operation :: rest), t + settings.resultGrace < Instant.horizon)
    (hn : (s.queueOf agent).requests = [] ∨
      (s.queueOf agent).attemptsLeft < (pumpTimes agent (operation :: rest)).length) :
    ∀ t, operation.pumpTime? agent = some t → s.Room agent t := by
  intro t ht
  rw [pumpTimes_cons, ht] at hspaced hg hn
  obtain ⟨hfirst, hlater⟩ := List.forall_mem_cons.1 hg
  rw [← h.settings] at hb hspaced hfirst hlater
  refine ⟨hb, fun r hr _ => ?_, hfirst⟩
  cases hp : pumpTimes agent rest with
  | nil =>
    rw [hp] at hn
    rw [waiting_review_eq_nil (h.sound.settled agent) (hn.imp_right Nat.lt_one_iff.1)] at hr
    cases hr
  | cons t' others =>
    -- the pump that follows comes later than the deadline
    rw [hp] at hspaced hlater
    have hnext : t + s.settings.maxTimeout < t' := (List.isChain_cons_cons.1 hspaced).1
    exact Nat.lt_trans hnext (Nat.lt_of_le_of_lt (Nat.le_add_right ..)
      (hlater t' List.mem_cons_self))

/-- The next operation of a run that leaves an agent alone, and what it makes of the agent. -/
theorem Alone.next {rest : List Operation} (h : Alone settings ids agent s)
    (hw : withdrawals (operation :: rest) ⊆ ids)
    (hroom : ∀ t, operation.pumpTime? agent = some t → s.Room agent t)
    (hu : Undisturbed agent (operation :: rest) s) :
    ∃ response s', Station.perform operation s = .ok response s' ∧ Undisturbed agent rest s' ∧
      Alone settings ids agent s' ∧ ∃ ended, Descends ids agent s ended s' := by
  obtain ⟨response, s', hp⟩ := hu.next h hroom
  obtain ⟨h', ended, -, hdesc⟩ := h.perform hu.1 (withdrawals_cons_subset hw).1 hp
  exact ⟨response, s', hp, hu.rest hp, h', ended, hdesc⟩

/-- What a run comes to after its first operation. -/
theorem exists_run_cons {rest : List Operation} {P : Station τ → Prop}
    (hp : Station.perform operation s = .ok response s')
    (h : ∃ steps last, run rest s' = .ok (steps, last) ∧ P last) :
    ∃ steps last, run (operation :: rest) s = .ok (steps, last) ∧ P last := by
  obtain ⟨steps, last, hr, hlast⟩ := h
  exact ⟨_, last, run_cons_eq_ok.2 ⟨response, s', steps, hp, hr, rfl⟩, hlast⟩

/-- Every pump later than the longest time to allow after the one before uses up an attempt, so a
pump more than there are attempts left leaves no request. -/
theorem drained_of_spaced {before : Instant} (h : Alone settings ids agent s)
    (hb : settings.minTimeout ≤ settings.maxTimeout)
    (hd : (s.queueOf agent).Due (before + settings.maxTimeout))
    (hspaced : (before :: pumpTimes agent operations).IsChain
      fun t t' => t + settings.maxTimeout < t')
    (hw : withdrawals operations ⊆ ids)
    (hg : ∀ t ∈ pumpTimes agent operations, t + settings.resultGrace < Instant.horizon)
    (hu : Undisturbed agent operations s)
    (hn : (s.queueOf agent).requests = [] ∨
      (s.queueOf agent).attemptsLeft < (pumpTimes agent operations).length) :
    ∃ steps last, run operations s = .ok (steps, last) ∧ (last.queueOf agent).requests = [] := by
  induction operations generalizing s before with
  | nil => exact ⟨[], s, rfl, hn.resolve_right (Nat.not_lt_zero _)⟩
  | cons operation rest ih =>
    obtain ⟨hw₁, hw'⟩ := withdrawals_cons_subset hw
    obtain ⟨response, s', hp, hu', h', ended, hdesc⟩ :=
      h.next hw (h.room hb hspaced.of_cons hg hn) hu
    rw [pumpTimes_cons] at hspaced hg hn
    have hg' := fun t ht => hg t (List.mem_append_right _ ht)
    refine exists_run_cons (P := fun last => (last.queueOf agent).requests = []) hp ?_
    -- only a pump of the agent moves its deadline and uses its attempts up
    cases ht : operation.pumpTime? agent with
    | none =>
      rw [ht] at hspaced hn
      have hd' : (s'.queueOf agent).Due (before + settings.maxTimeout) :=
        h.due hu.1 hp (fun t he => absurd (ht.symm.trans he) nofun) hd
      refine ih h' hd' hspaced hw' hg' hu' (hn.imp hdesc.nil fun hlt => ?_)
      exact Nat.lt_of_le_of_lt hdesc.attemptsLeft hlt
    | some now =>
      rw [ht] at hspaced hn
      obtain ⟨hlater, hchain⟩ := List.isChain_cons_cons.1 hspaced
      have hlast : before + settings.maxTimeout ≤ now + settings.maxTimeout :=
        Nat.le_trans (Nat.le_of_lt hlater) (Nat.le_add_right ..)
      have hd' := h.due_of_pump hu.1 hp ht (hd.mono hlast)
      refine ih h' hd' hchain hw' hg' hu' ?_
      rcases hn with hnil | hlt
      · exact .inl (hdesc.nil hnil)
      · refine (h.spends hu.1 hw₁ hp ht hd hlater).imp_right fun hspent => ?_
        have hlt : (s.queueOf agent).attemptsLeft < (pumpTimes agent rest).length + 1 := hlt
        omega

/-- Two pumps more than there are attempts left leave no request. -/
theorem drained (h : Alone settings ids agent s)
    (hb : settings.minTimeout ≤ settings.maxTimeout)
    (hd : ∀ t ∈ (pumpTimes agent operations).head?,
      (s.queueOf agent).Due (t + settings.maxTimeout))
    (hspaced : (pumpTimes agent operations).IsChain fun t t' => t + settings.maxTimeout < t')
    (hw : withdrawals operations ⊆ ids)
    (hg : ∀ t ∈ pumpTimes agent operations, t + settings.resultGrace < Instant.horizon)
    (hu : Undisturbed agent operations s)
    (hn : (s.queueOf agent).attemptsLeft + 2 ≤ (pumpTimes agent operations).length) :
    ∃ steps last, run operations s = .ok (steps, last) ∧ (last.queueOf agent).requests = [] := by
  induction operations generalizing s with
  | nil => exact absurd hn (Nat.not_succ_le_zero _)
  | cons operation rest ih =>
    have hw' := (withdrawals_cons_subset hw).2
    have henough : (s.queueOf agent).attemptsLeft <
        (pumpTimes agent (operation :: rest)).length := by omega
    obtain ⟨response, s', hp, hu', h', ended, hdesc⟩ :=
      h.next hw (h.room hb hspaced hg (.inr henough)) hu
    have hle := hdesc.attemptsLeft
    rw [pumpTimes_cons] at hd hspaced hg hn
    have hg' := fun t ht => hg t (List.mem_append_right _ ht)
    refine exists_run_cons (P := fun last => (last.queueOf agent).requests = []) hp ?_
    cases ht : operation.pumpTime? agent with
    | none =>
      rw [ht] at hd hspaced hn
      refine ih h' (fun t hm => ?_) hspaced hw' hg' hu'
        (Nat.le_trans (Nat.add_le_add_right hle 2) hn)
      exact h.due hu.1 hp (fun t he => absurd (ht.symm.trans he) nofun) (hd t hm)
    | some now =>
      -- the first pump need not find the reply overdue, but from then on each one does
      rw [ht] at hd hspaced hn
      have hd' := h.due_of_pump hu.1 hp ht (hd now rfl)
      refine drained_of_spaced h' hb hd' hspaced hw' hg' hu' (.inr ?_)
      have hn : (s.queueOf agent).attemptsLeft + 2 ≤ (pumpTimes agent rest).length + 1 := hn
      omega

/-- In a run that leaves an agent alone, a request of the agent is pending at the end, or a step has
told of its end. -/
theorem fate_of_undisturbed {steps : List (Step τ)} {last : Station τ}
    (h : Alone settings ids agent s) (hw : withdrawals operations ⊆ ids)
    (hu : Undisturbed agent operations s) (hr : run operations s = .ok (steps, last))
    {r : Request} (hm : r ∈ (s.queueOf agent).requests) :
    (∃ q ∈ (last.queueOf agent).requests, r.Later ids q) ∨
      ∃ step ∈ steps, Tells ids settings.id r step := by
  induction operations generalizing s steps r with
  | nil =>
    cases hr
    exact .inl ⟨r, hm, .refl ids r⟩
  | cons operation rest ih =>
    obtain ⟨response, s', others, hp, hrest, rfl⟩ := run_cons_eq_ok.1 hr
    obtain ⟨hw₁, hw'⟩ := withdrawals_cons_subset hw
    have h' := (h.perform hu.1 hw₁ hp).1
    rcases h.fate hu.1 hw₁ hp hm with ⟨q, hq, hrq⟩ | htold
    · rcases ih h' hw' (hu.rest hp) hrest hq with ⟨x, hx, hqx⟩ | ⟨step, hstep, htold⟩
      · exact .inl ⟨x, hx, hrq.trans hqx⟩
      · exact .inr ⟨step, List.mem_cons_of_mem _ hstep, htold.of_later hrq⟩
    · exact .inr ⟨_, List.mem_cons_self, htold⟩

end Runs

/-! ### Convergence -/

/-- From a station that is reached under accepted settings, a run that leaves an agent alone and
pumps it often enough ends all its requests, if nothing throttles them.  The pumps come later than
the longest time to allow one after the other, the first of them not before what was asked for
earlier, and all of them while the clock can tell how long to keep a result. -/
theorem terminal_convergence {settings : NetworkSettings} {carrier : τ} {start : Instant}
    {history operations : List Operation} {past : List (Step τ)} {s : Station τ} (agent : AgentId)
    (hvalid : settings.validate = .ok ())
    (hhistory : run history (new settings carrier start) = .ok (past, s))
    (hfree : settings.rateLimit = none ∨
      ∀ r ∈ (s.queueOf agent).requests, r.trafficClass.isBulk = false)
    (hfirst : ∀ t ∈ (pumpTimes agent operations).head?,
      ∀ operation ∈ history, ∀ earlier, operation.time? = some earlier → earlier ≤ t)
    (hspaced : (pumpTimes agent operations).IsChain fun t t' => t + settings.maxTimeout < t')
    (hgrace : ∀ t ∈ pumpTimes agent operations, t + settings.resultGrace < Instant.horizon)
    (hcalm : Undisturbed agent operations s)
    (henough : (s.queueOf agent).attemptsLeft + 2 ≤ (pumpTimes agent operations).length) :
    ∃ steps last, run operations s = .ok (steps, last) ∧ (last.queueOf agent).requests = [] ∧
      ∀ r ∈ (s.queueOf agent).requests, ∃ step ∈ steps,
        Tells (withdrawals (history ++ operations)) s.id r step := by
  obtain ⟨-, _, htransfer⟩ := run_transfer (sound_new settings carrier start) hhistory
  have hsettings : s.settings = settings := htransfer.settings
  have hid : s.id = settings.id := congrArg NetworkSettings.id hsettings
  have hids : withdrawals history ⊆ withdrawals (history ++ operations) ∧
      withdrawals operations ⊆ withdrawals (history ++ operations) := by
    unfold withdrawals
    rw [List.filterMap_append]
    exact ⟨List.subset_append_left .., List.subset_append_right ..⟩
  have hstanding : ∀ t ∈ (pumpTimes agent operations).head?,
      Standing t (withdrawals (history ++ operations)) s := fun t ht =>
    standing_of_run (standing_new settings carrier start t _) (hfirst t ht) hids.1 hhistory
  obtain ⟨first, hhead⟩ : ∃ t, t ∈ (pumpTimes agent operations).head? := by
    cases hp : pumpTimes agent operations with
    | nil =>
      rw [hp] at henough
      exact absurd henough (Nat.not_succ_le_zero _)
    | cons t rest => exact ⟨t, rfl⟩
  -- what stands at the first pump is the invariant of the history
  have hs := hstanding first hhead
  have halone : Alone settings (withdrawals (history ++ operations)) agent s :=
    ⟨hsettings, hs.sound, hs.numbered, hs.tuned, hs.marked agent, hsettings ▸ hfree⟩
  have hdue : ∀ t ∈ (pumpTimes agent operations).head?,
      (s.queueOf agent).Due (t + settings.maxTimeout) := fun t ht =>
    hsettings ▸ (hstanding t ht).due agent
  obtain ⟨steps, last, hr, hnil⟩ := drained halone (NetworkSettings.bounds_of_validate hvalid)
    hdue hspaced hids.2 hgrace hcalm henough
  refine ⟨steps, last, hr, hnil, fun r hm => ?_⟩
  rcases fate_of_undisturbed halone hids.2 hcalm hr hm with ⟨q, hq, -⟩ | htold
  · rw [hnil] at hq
    cases hq
  · rw [hid]
    exact htold

/-! ### A silent agent -/

/-- An agent with one request in flight and another one waiting. -/
def silentHistory : List Operation :=
  [.route (.heartbeat "alpha" 1) 0,
    .submit 1 1 (.expecting [7] 3) .normal 2 10,
    .submit 2 1 (.oneWay [8]) .normal 1 20]

/-- Four pumps of the agent, while another message of it comes and a request is withdrawn. -/
def fourPumps : List Operation :=
  [.pump 1 30, .tick .ascending 4000000000, .route (.heartbeat "alpha" 1) 5000000000, .cancel 2,
    .pumpAll .ascending 8000000000, .tick .ascending 12000000000]

theorem terminal_convergence_silentAgent :
    ∃ past s steps last,
      run silentHistory (new { id := "alpha" } (Pipe.new "up" 4) 0) = .ok (past, s) ∧
        (s.queueOf 1).attemptsLeft = 2 ∧ run fourPumps s = .ok (steps, last) ∧
          (last.queueOf 1).requests = [] ∧
            ∀ r ∈ (s.queueOf 1).requests, ∃ step ∈ steps, Tells [2] "alpha" r step := by
  have hrun : (run silentHistory (new { id := "alpha" } (Pipe.new "up" 4) 0)).toOption.any
      (fun r => (r.2.queueOf 1).attemptsLeft == 2 && r.2.id == "alpha" &&
        decide (Undisturbed 1 fourPumps r.2)) = true := by
    decide +kernel
  cases h : run silentHistory (new { id := "alpha" } (Pipe.new "up" 4) 0) with
  | error fault =>
    rw [h] at hrun
    cases hrun
  | ok r =>
    obtain ⟨past, s⟩ := r
    rw [h] at hrun
    obtain ⟨hrun, hcalm⟩ := Bool.and_eq_true_iff.1 hrun
    obtain ⟨hleft, hid⟩ := Bool.and_eq_true_iff.1 hrun
    have hleft : (s.queueOf 1).attemptsLeft = 2 := eq_of_beq hleft
    have hid : s.id = "alpha" := eq_of_beq hid
    have htimes : pumpTimes 1 fourPumps = [30, 4000000000, 8000000000, 12000000000] := rfl
    obtain ⟨steps, last, hr, hnil, htold⟩ := terminal_convergence 1 rfl h (.inl rfl)
      (by rw [htimes]; decide) (by rw [htimes]; decide) (by rw [htimes]; decide)
      (of_decide_eq_true hcalm) (by rw [hleft, htimes]; decide)
    exact ⟨past, s, steps, last, rfl, hleft, hr, hnil, hid ▸ htold⟩

end Station

end GroundControl
