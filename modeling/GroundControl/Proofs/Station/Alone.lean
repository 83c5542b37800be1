import GroundControl.Proofs.Station.Standing

/-!
# An agent that is left alone

As long as nothing is submitted to an agent, none of its replies comes and it is not removed, its
requests only make their attempts and end: no request is added, and each one that ends does so in
one of the ways of a request without an answer.

* `Operation.Leaves`: an operation leaves an agent alone; `Action.Leaves`, for its actions;
* `Station.Descends`: after a change, the requests of an agent are those from before, and some have
  ended; `Moves.descends`;
* `Alone`, what holds at a station during a run that leaves an agent alone, and `Alone.perform`;
* `Alone.fate`: after such an operation a request is still pending, or the end of it is told.
-/

namespace GroundControl

/-- An operation submits nothing to an agent, brings no reply to one of its requests, and does not
remove it. -/
def Operation.Leaves {τ : Type} (agent : AgentId) (s : Station τ) : Operation → Prop
  | .submit _ target _ _ _ _ | .enqueue _ target _ _ _ => target ≠ agent
  | .deliver m _ | .route m _ => m.agent = agent → s.answers m = false
  | .deregister target _ => target ≠ agent
  | .shutdown .. => False
  | _ => True

instance {τ : Type} (agent : AgentId) (s : Station τ) :
    (operation : Operation) → Decidable (operation.Leaves agent s)
  | .submit _ target _ _ _ _ | .enqueue _ target _ _ _ =>
    inferInstanceAs (Decidable (target ≠ agent))
  | .deliver m _ | .route m _ =>
      inferInstanceAs (Decidable (m.agent = agent → s.answers m = false))
  | .deregister target _ => inferInstanceAs (Decidable (target ≠ agent))
  | .shutdown .. => .isFalse id
  | .pump .. | .pumpAll .. | .sweep .. | .tick .. | .broadcast .. | .correction .. | .cancel _
  | .adoptEpoch _ => .isTrue trivial

namespace Station

variable {τ : Type}

/-- An action adds no request to those of an agent and takes none out by a reply or a removal. -/
def Action.Leaves (agent : AgentId) : Action → Prop
  | .enter handle => handle.agent ≠ agent
  | .answer other | .remove other => other ≠ agent
  | .pump _ | .withdraw _ => True

section Leaves

variable [Carrier τ] {s s' : Station τ} {agent : AgentId}

/-- The actions of an operation that leaves an agent alone do so. -/
theorem leaves_of_mem_actions {operation : Operation} {response : Result}
    (hl : operation.Leaves agent s) (hp : perform operation s = .ok response s') :
    ∀ a ∈ s.actions operation response, a.Leaves agent := by
  intro a ha
  have ho := origin_of_mem_actions a ha
  cases a with
  | enter handle =>
    have hsub := submission_of_handle hp ho
    cases operation with
    | submit request target payload urgency maxAttempts now =>
      cases hsub
      exact hl
    | enqueue request target payload urgency maxAttempts =>
      cases hsub
      exact hl
    | _ => cases hsub
  | answer other =>
    obtain ⟨m, now, ho, rfl, hans⟩ := ho
    intro he
    rcases ho with rfl | rfl
    · exact Bool.false_ne_true ((hl he).symm.trans hans)
    · exact Bool.false_ne_true ((hl he).symm.trans hans)
  | remove other =>
    obtain ⟨now, rfl | ⟨walk, rfl⟩⟩ := ho
    · exact hl
    · exact hl.elim
  | pump | withdraw => trivial

end Leaves

/-! ### The requests of an agent -/

/-- After a change the requests of an agent are those from before, some attempts later, and those of
them that have ended did so without an answer. -/
structure Descends (ids : List RequestId) (agent : AgentId) (s : Station τ)
    (ended : List Finished) (s' : Station τ) : Prop where
  pending : ∀ q ∈ (s'.queueOf agent).requests, ∃ r ∈ (s.queueOf agent).requests, r.Later ids q
  ended : ∀ f ∈ ended, f.agent = agent →
    ∃ r ∈ (s.queueOf agent).requests, f.ident = r.ident ∧ r.Ends ids f.outcome
  attemptsLeft : (s'.queueOf agent).attemptsLeft ≤ (s.queueOf agent).attemptsLeft

variable {s s' t u : Station τ} {agent : AgentId} {ids : List RequestId} {ended : List Finished}

/-- A change in which no request of an agent ends and its backlog stays as it is. -/
theorem Descends.of_queueOf (hq : s'.queueOf agent = s.queueOf agent)
    (he : ∀ f ∈ ended, f.agent ≠ agent) : Descends ids agent s ended s' where
  pending q hm := ⟨q, hq ▸ hm, .refl ids q⟩
  ended f hf ha := absurd ha (he f hf)
  attemptsLeft := Nat.le_of_eq (by rw [hq])

theorem Descends.trans {ended' : List Finished} (h : Descends ids agent s ended t)
    (h' : Descends ids agent t ended' u) : Descends ids agent s (ended ++ ended') u where
  pending q hq := by
    obtain ⟨x, hx, hxq⟩ := h'.pending q hq
    obtain ⟨r, hr, hrx⟩ := h.pending x hx
    exact ⟨r, hr, hrx.trans hxq⟩
  ended f hf ha := by
    rcases List.mem_append.1 hf with hf | hf
    · exact h.ended f hf ha
    · obtain ⟨x, hx, hi, he⟩ := h'.ended f hf ha
      obtain ⟨r, hr, hrx⟩ := h.pending x hx
      exact ⟨r, hr, hi.trans hrx.ident, hrx.ends he⟩
  attemptsLeft := Nat.le_trans h'.attemptsLeft h.attemptsLeft

/-- An agent without requests has none afterwards. -/
theorem Descends.nil (h : Descends ids agent s ended s') (hn : (s.queueOf agent).requests = []) :
    (s'.queueOf agent).requests = [] := by
  refine List.eq_nil_iff_forall_not_mem.2 fun q hq => ?_
  obtain ⟨r, hr, -⟩ := h.pending q hq
  rw [hn] at hr
  cases hr

/-- No request of an agent ends in a change after which all of them are still pending. -/
theorem Transfer.spares {fresh : List Ident} (h : Transfer s fresh ended s') (hs : s.Sound)
    (hn : s.Numbered) (hfresh : ∀ i ∈ fresh, i.agent ≠ agent)
    (hq : (s'.queueOf agent).idents = (s.queueOf agent).idents) :
    ∀ f ∈ ended, f.agent ≠ agent := by
  intro f hf ha
  have hm : f.ident ∈ ended.map Finished.ident := List.mem_map_of_mem hf
  rcases List.mem_append.1 (h.balance.mem_iff.2 (List.mem_append_left _ hm)) with hi | hi
  · have hi : f.ident ∈ (s.queueOf f.agent).idents := hs.mem_queueOf hi
    rw [ha, ← hq] at hi
    exact not_mem_of_ended (h.nodup hn) hm (mem_idents_of_queueOf hi)
  · exact hfresh f.ident hi ha

section Moves

variable [Carrier τ] {now : Instant}

/-- The requests of an agent that is pumped. -/
theorem descends_pumped {b : Backlog} {p : Pass τ} (hs : s.Sound)
    (hm : (s.queueOf agent).Marked ids) (hb : s.backlogOf agent = some b)
    (hp : Pass.run (s.passContext agent now) (s.firstPass b now) = (none, p)) :
    Descends ids agent s p.finished (s.pumped agent p now) := by
  have hq := queueOf_of_backlogOf hb
  obtain ⟨x, hx⟩ := exists_of_backlogOf hb
  have hqueue : ∀ other, (s.pumped agent p now).queueOf other =
      if other = agent then p.backlog else s.queueOf other := queueOf_of_setBacklog hx rfl rfl
  have hafter := (hqueue agent).trans (if_pos rfl)
  obtain ⟨hd, hle⟩ := run_firstPass (hq ▸ hs.settled agent) (hq ▸ hm) hp
  refine ⟨?_, ?_, ?_⟩
  · rw [hafter, hq]
    exact hd.pending
  · rw [hq]
    exact fun f hf _ => hd.ended f hf
  · rw [hafter, hq]
    exact hle

/-- The requests of an agent in one move. -/
theorem Move.descends {a : Action} (h : Move now a s s') (hs : s.Sound) (hn : s.Numbered)
    (hm : (s.queueOf agent).Marked ids) (ha : a.Leaves agent)
    (hw : ∀ request, a = .withdraw request → request ∈ ids) :
    ∃ ended, Transfer s a.fresh ended s' ∧ Descends ids agent s ended s' := by
  by_cases hpump : a = .pump agent
  · subst hpump
    cases h with
    | @pump _ _ b p hb hp =>
      exact ⟨p.finished, (transfer_pumped hs hb hp).2, descends_pumped hs hm hb hp⟩
    | idle hb => exact ⟨[], .of_quiet (.refl s), .of_queueOf rfl (List.forall_mem_nil _)⟩
  · -- but for its pump, which requests of the agent end can be read off its backlog
    obtain ⟨-, ended, ht⟩ := h.transfer hs
    have hfresh : ∀ i ∈ a.fresh, i.agent ≠ agent := by
      cases a with
      | enter handle => exact List.forall_mem_singleton.2 ha
      | _ => exact List.forall_mem_nil _
    refine ⟨ended, ht, ?_⟩
    have hc := h.change agent
    generalize hb : s'.queueOf agent = b at hc
    cases hc with
    | same => exact .of_queueOf hb (ht.spares hs hn hfresh (by rw [hb]))
    | @withdraw request =>
      have hspares := ht.spares hs hn hfresh (by rw [hb, Backlog.idents_withdraw])
      refine ⟨?_, fun f hf he => absurd he (hspares f hf), ?_⟩
      · rw [hb]
        exact Backlog.later_withdraw _ (hw request rfl)
      · exact Nat.le_of_eq (by rw [hb, Backlog.attemptsLeft_withdraw])
    | enter id payload urgency maxAttempts hr =>
      rw [hr] at ha
      exact absurd rfl ha
    | answer => exact absurd rfl ha
    | pump => exact absurd rfl hpump
    | remove => exact absurd rfl ha

theorem Moves.descends {l : List Action} (h : Moves now l s s') (hs : s.Sound) (hn : s.Numbered)
    (hm : (s.queueOf agent).Marked ids) (hl : ∀ a ∈ l, a.Leaves agent)
    (hw : ∀ request, .withdraw request ∈ l → request ∈ ids) :
    ∃ ended, Transfer s (l.flatMap Action.fresh) ended s' ∧ Descends ids agent s ended s' := by
  induction h with
  | nil => exact ⟨[], .of_quiet (.refl _), .of_queueOf rfl (List.forall_mem_nil _)⟩
  | @quiet _ s s₁ _ hq _ ih =>
    have ht := Transfer.of_quiet hq
    have hqueue := hq.queue agent
    obtain ⟨ended, ht', hd⟩ := ih (hs.of_queueOf hq.queue) (ht.keeps_numbered hn)
      (hqueue.symm ▸ hm) hl hw
    have hd₁ : Descends ids agent s [] s₁ := .of_queueOf hqueue (List.forall_mem_nil _)
    exact ⟨ended, ht.trans ht', hd₁.trans hd⟩
  | cons hmove _ ih =>
    obtain ⟨ha, hrest⟩ := List.forall_mem_cons.1 hl
    have hs₁ := (hmove.transfer hs).1
    obtain ⟨ended, ht, hd⟩ := hmove.descends hs hn hm ha fun request he =>
      hw request (he ▸ List.mem_cons_self)
    obtain ⟨ended', ht', hd'⟩ := ih hs₁ (ht.keeps_numbered hn) (hm.of_later hd.pending) hrest
      fun request hr => hw request (List.mem_cons_of_mem _ hr)
    exact ⟨ended ++ ended', ht.trans ht', hd.trans hd'⟩

end Moves

/-! ### A station that leaves an agent alone -/

/-- What holds at a station during a run that leaves an agent alone and withdraws requests with the
numbers `ids` only, if the requests of the agent are not throttled. -/
structure Alone (settings : NetworkSettings) (ids : List RequestId) (agent : AgentId)
    (s : Station τ) : Prop where
  settings : s.settings = settings
  sound : s.Sound
  numbered : s.Numbered
  tuned : s.Tuned
  marked : (s.queueOf agent).Marked ids
  free : s.settings.rateLimit = none ∨
    ∀ r ∈ (s.queueOf agent).requests, r.trafficClass.isBulk = false

variable {settings : NetworkSettings} {fresh : List Ident}

theorem Alone.step (h : Alone settings ids agent s) (hs : s'.Sound) (htuned : s'.Tuned)
    (ht : Transfer s fresh ended s') (hd : Descends ids agent s ended s') :
    Alone settings ids agent s' where
  settings := ht.settings.trans h.settings
  sound := hs
  numbered := ht.keeps_numbered h.numbered
  tuned := htuned
  marked := h.marked.of_later hd.pending
  free := by
    rw [ht.settings]
    refine h.free.imp_right fun hbulk q hq => ?_
    obtain ⟨r, hr, hrq⟩ := hd.pending q hq
    have hc : q.trafficClass = r.trafficClass := congrArg Payload.trafficClass hrq.payload
    rw [hc]
    exact hbulk r hr

/-- Nothing throttles the requests of the agent. -/
theorem Alone.unthrottled (h : Alone settings ids agent s) :
    s.throttle = none ∨ ∀ r ∈ (s.queueOf agent).requests, r.trafficClass.isBulk = false :=
  h.free.imp_left h.tuned.throttle

/-- A request is told from the others of its agent by its identity. -/
theorem Numbered.eq_of_ident (h : s.Numbered) {r q : Request}
    (hr : r ∈ (s.queueOf agent).requests) (hq : q ∈ (s.queueOf agent).requests)
    (hi : q.ident = r.ident) : q = r := by
  have hn := h.queue agent
  unfold Backlog.idents at hn
  rw [List.map_map] at hn
  exact List.inj_on_of_nodup_map hn hq hr (congrArg Ident.ticket hi)

/-- How a step tells of the end of a request of an agent. -/
def Tells (ids : List RequestId) (network : NetworkId) (r : Request) (step : Step τ) : Prop :=
  ∃ outcome, r.Ends ids outcome ∧ .delivered r.ticket outcome ∈ step.effects ∧
    .published (.finished network r.agent r.id outcome.phase outcome) ∈ step.effects

/-- What tells of the end of a request tells of it as it was before. -/
theorem Tells.of_later {network : NetworkId} {r q : Request} {step : Step τ}
    (h : Tells ids network q step) (hq : r.Later ids q) : Tells ids network r step := by
  obtain ⟨outcome, he, hd, hp⟩ := h
  have hid : q.id = r.id := congrArg Ident.request hq.ident
  have hagent : q.agent = r.agent := congrArg Ident.agent hq.ident
  have hticket : q.ticket = r.ticket := congrArg Ident.ticket hq.ident
  rw [hticket] at hd
  rw [hagent, hid] at hp
  exact ⟨outcome, hq.ends he, hd, hp⟩

/-- A step tells of the end of each request that ends in it. -/
theorem tells_of_ended (step : Step τ) (h : Transfer step.before fresh ended step.after)
    {f : Finished} (hf : f ∈ ended) {r : Request} (hi : f.ident = r.ident)
    (he : r.Ends ids f.outcome) : Tells ids step.before.id r step := by
  obtain ⟨effects, hl, htells⟩ := h.tells
  obtain ⟨hd, hp⟩ := htells f hf
  have hticket : f.ticket = r.ticket := congrArg Ident.ticket hi
  have hagent : f.agent = r.agent := congrArg Ident.agent hi
  have hrequest : f.request = r.id := congrArg Ident.request hi
  have hphase : f.phase = f.outcome.phase := h.fits f hf
  have hevent : f.event step.before.id =
      .finished step.before.id r.agent r.id f.outcome.phase f.outcome := by
    rw [← hagent, ← hrequest, ← hphase]
    rfl
  refine ⟨f.outcome, he, ?_, ?_⟩
  · rw [Step.effects_of_log hl, ← hticket]
    exact hd
  · rw [Step.effects_of_log hl, ← hevent]
    exact hp

section Operations

variable [Carrier τ] {operation : Operation} {response : Result}

/-- An operation that leaves an agent alone. -/
theorem Alone.perform (h : Alone settings ids agent s) (hl : operation.Leaves agent s)
    (hw : ∀ request, operation.withdrawal? = some request → request ∈ ids)
    (hp : Station.perform operation s = .ok response s') :
    Alone settings ids agent s' ∧
      ∃ ended, Transfer s (response.handle?.toList.map Handle.ident) ended s' ∧
        Descends ids agent s ended s' := by
  have hm := perform_moves hp
  obtain ⟨ended, ht, hd⟩ := hm.descends h.sound h.numbered h.marked (leaves_of_mem_actions hl hp) <|
    fun request hr => by
      obtain rfl : operation = .cancel request := origin_of_mem_actions _ hr
      exact hw request rfl
  refine ⟨h.step (perform_transfer h.sound hp).1 (hm.tuned h.sound h.tuned) ht hd, ended, ?_, hd⟩
  rwa [fresh_actions operation hp] at ht

/-- After such an operation a request of the agent is pending, or the operation has told of its
end. -/
theorem Alone.fate (h : Alone settings ids agent s) (hl : operation.Leaves agent s)
    (hw : ∀ request, operation.withdrawal? = some request → request ∈ ids)
    (hp : Station.perform operation s = .ok response s') {r : Request}
    (hr : r ∈ (s.queueOf agent).requests) :
    (∃ q ∈ (s'.queueOf agent).requests, r.Later ids q) ∨
      Tells ids settings.id r ⟨s, operation, response, s'⟩ := by
  obtain ⟨h', ended, ht, hd⟩ := h.perform hl hw hp
  have hm : r.ident ∈ (s.queueOf agent).idents := List.mem_map_of_mem hr
  have ha : r.agent = agent := h.sound.placed agent r.ident hm
  have hm := ht.balance.mem_iff.1 (List.mem_append_left _ (mem_idents_of_queueOf hm))
  -- by the balance the request is among those that end or those that stay
  rcases List.mem_append.1 hm with hm | hm
  · obtain ⟨f, hf, hi⟩ := List.mem_map.1 hm
    have hfa : f.agent = agent := (congrArg Ident.agent hi).trans ha
    obtain ⟨x, hx, hfx, he⟩ := hd.ended f hf hfa
    obtain rfl := h.numbered.eq_of_ident hr hx (hfx.symm.trans hi)
    have hid : s.id = settings.id := congrArg NetworkSettings.id h.settings
    exact .inr (hid ▸ tells_of_ended ⟨s, operation, response, s'⟩ ht hf hi he)
  · have hstays := h'.sound.mem_queueOf hm
    have hra : r.ident.agent = agent := ha
    rw [hra] at hstays
    obtain ⟨q, hq, hqi⟩ := List.mem_map.1 hstays
    obtain ⟨x, hx, hxq⟩ := hd.pending q hq
    obtain rfl := h.numbered.eq_of_ident hr hx (hxq.ident.symm.trans hqi)
    exact .inl ⟨q, hq, hxq⟩

end Operations

end Station

end GroundControl
