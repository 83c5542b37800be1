import GroundControl.Proofs.Pump.Landing
import GroundControl.Proofs.RoundTrip.Ranges
import GroundControl.Proofs.Station.Convergence

/-!
# Stations that meet no fault

A station meets a fault when it has to tell a time beyond the horizon, or a span beyond the longest
one.  As long as the clock stays far enough below the horizon for the deadlines and the keeping of
results, and nothing is throttled, no operation meets one.

* `Estimate.Within`, `Estimator.Within`: the measured times are bounded, so that estimates can be
  told; `exists_sample`;
* `NetworkSettings.InRange`: the times that may have to be told at an instant can be told;
* `Operation.Until`, an operation asked for in time;
* `Station.Timely`, the invariant; `Timely.perform`;
* `Timely.exists_perform`, `exists_run`: nothing meets a fault;
* `not_deregistered`: a station that cannot tell how long to keep a result meets a fault when it has
  to end a request;
* `not_pumped`, `not_submitted`: one that cannot tell how long to wait for a reply meets a fault
  when the link takes the request;
* `Station.NeverFaults`; `Station.Hosts`, a brief stay of an agent, and `told_of_hosts`.
-/

namespace GroundControl

namespace Estimate

/-- Neither the smoothed time nor its variation is longer than `bound`. -/
structure Within (bound : Span) (e : Estimate) : Prop where
  smoothed : e.smoothed ≤ bound
  variation : e.variation ≤ bound

variable {bound measured : Span}

theorem within_first (h : measured ≤ bound) : (first measured).Within bound :=
  ⟨h, Nat.le_trans (Nat.div_le_self measured 2) h⟩

/-- A measured time within the bound can be taken in, and leaves the estimate within it. -/
theorem Within.exists_refine {e : Estimate} (h : e.Within bound) (hm : measured ≤ bound)
    (hb : bound * 7 ≤ Span.longest) :
    ∃ e', e.refine measured = .ok e' ∧ e'.Within bound := by
  have hr : e.Ranges 0 bound :=
    ⟨Nat.zero_le _, h.smoothed, Nat.le_trans h.variation (Nat.le_max_right ..)⟩
  obtain ⟨e', he, hr', -⟩ := hr.exists_refine (Nat.zero_le _) hm (Nat.mul_comm .. ▸ hb)
  have hwidth : max (bound / 2) (bound - 8 * (0 / 8)) ≤ bound :=
    Nat.max_le.2 ⟨Nat.div_le_self bound 2, Nat.sub_le ..⟩
  exact ⟨e', he, hr'.below, Nat.le_trans hr'.variation hwidth⟩

end Estimate

namespace Estimator

variable {κ : Type} [DecidableEq κ] {bound measured : Span} {t : Estimator κ}

/-- All estimates are within `bound`. -/
def Within (bound : Span) (t : Estimator κ) : Prop :=
  ∀ key e, t.estimate? key = some e → e.Within bound

theorem exists_sample (h : t.Within bound) (hm : measured ≤ bound)
    (hb : bound * 7 ≤ Span.longest) (key : κ) :
    ∃ t', t.sample key measured = .ok t' ∧ t'.Within bound := by
  have hrecord : ∀ e : Estimate, e.Within bound →
      ({ t with estimates := record key e t.estimates } : Estimator κ).Within bound := by
    intro e he other d hd
    rw [estimate?_record] at hd
    split at hd
    · exact Option.some.inj hd ▸ he
    · exact h other d hd
  unfold sample
  cases hk : t.estimate? key with
  | none => exact ⟨_, rfl, hrecord _ (Estimate.within_first hm)⟩
  | some e =>
    obtain ⟨e', he, hw⟩ := (h key e hk).exists_refine hm hb
    dsimp only
    rw [he]
    exact ⟨_, rfl, hrecord e' hw⟩

theorem Within.of_sample (h : t.Within bound) (hm : measured ≤ bound)
    (hb : bound * 7 ≤ Span.longest) {key : κ} {t' : Estimator κ}
    (hs : t.sample key measured = .ok t') : t'.Within bound := by
  obtain ⟨t'', hs', hw⟩ := exists_sample h hm hb key
  rw [hs] at hs'
  exact Except.ok.inj hs' ▸ hw

end Estimator

/-- No round trip takes longer than the clock has run. -/
theorem Backlog.sample_of_answer {b b' : Backlog} {key : ReplyKey} {verdict : Verdict}
    {now : Instant} {found : Match} (h : b.answer key verdict now = (some found, b'))
    {c : TrafficClass} {measured : Span} (hs : found.sample = some (c, measured)) :
    measured ≤ now := by
  cases hf : b.inFlight.filter (·.awaits key) with
  | none =>
    unfold Backlog.answer at h
    rw [hf] at h
    cases h
  | some r =>
    obtain ⟨hr, hk⟩ := Option.filter_eq_some_iff.1 hf
    rw [answer_eq hr hk] at h
    split at h
    · cases h
      cases hs
    · cases h
      dsimp only at hs
      split at hs
      · obtain ⟨d, hd, he⟩ := Option.map_eq_some_iff.1 hs
        obtain ⟨sent, -, rfl⟩ := Option.map_eq_some_iff.1 hd
        cases he
        exact Nat.sub_le now sent
      · cases hs

/-- Accepted settings let agents register. -/
theorem NetworkSettings.maxAgents_of_validate {settings : NetworkSettings}
    (h : settings.validate = .ok ()) : settings.maxAgents ≠ some 0 :=
  of_decide_eq_false <|
    (validate_eq_ok_iff settings).1 h (_, .zero .maxAgents) (List.mem_of_getElem? (i := 1) rfl)

/-- Accepted settings have room for a request. -/
theorem NetworkSettings.queueDepth_of_validate {settings : NetworkSettings}
    (h : settings.validate = .ok ()) : settings.queueDepth ≠ 0 :=
  of_decide_eq_false <|
    (validate_eq_ok_iff settings).1 h (_, .zero .queueDepth) (List.mem_of_getElem? (i := 2) rfl)

/-- Accepted settings leave time between two regular passes. -/
theorem NetworkSettings.tickInterval_of_validate {settings : NetworkSettings}
    (h : settings.validate = .ok ()) : settings.tickInterval ≠ 0 :=
  of_decide_eq_false <|
    (validate_eq_ok_iff settings).1 h (_, .zero .tickInterval) (List.mem_of_getElem? (i := 7) rfl)

/-- The bounds of the time to allow are in order, and neither a deadline set at `now` nor the time
up to which a result is kept is beyond the horizon. -/
structure NetworkSettings.InRange (settings : NetworkSettings) (now : Instant) : Prop where
  bounds : settings.minTimeout ≤ settings.maxTimeout
  deadline : now + settings.maxTimeout < Instant.horizon
  grace : now + settings.resultGrace < Instant.horizon

theorem NetworkSettings.InRange.mono {settings : NetworkSettings} {now last : Instant}
    (h : settings.InRange last) (hl : now ≤ last) : settings.InRange now :=
  ⟨h.bounds, Nat.lt_of_le_of_lt (Nat.add_le_add_right hl _) h.deadline,
    Nat.lt_of_le_of_lt (Nat.add_le_add_right hl _) h.grace⟩

/-- A round that hands over a request whose reply could not be waited for meets a fault. -/
theorem Pass.fault_of_taken {τ : Type} [Carrier τ] {ctx : PassContext} {p : Pass τ} {r : Request}
    {rest : List Request} {throttle : Option (Bucket Float)} {base : Span} {carrier : τ}
    (h : Handed ctx p r rest throttle base (.ok ()) carrier) (hw : r.Waiting)
    (hr : r.payload.expectsReply = true)
    (hd : ¬ ctx.now + backoff base p.backlog.timeouts ctx.maxTimeout < Instant.horizon) :
    ∃ fault q, round ctx p = .fault fault q := by
  unfold round Backlog.nextClass
  rw [h.idle, h.head]
  dsimp only [List.head?_cons, Option.map_some]
  rw [h.paid]
  dsimp only
  rw [launch_eq_launched h.idle h.head hw]
  show ∃ fault q, transmit ctx (p.handing r rest throttle) r.launch = .fault fault q
  unfold transmit handing
  dsimp only
  rw [Request.trafficClass_launch, h.allowed, frameOf_launch]
  dsimp only
  rw [h.sent]
  dsimp only
  have ht : (launched p.backlog r rest).timeouts = p.backlog.timeouts := rfl
  rw [transmitted_launched _ _ h.idle, ht, if_pos hr, Instant.after, if_neg hd]
  exact ⟨_, _, rfl⟩

/-- An operation that depends on the time is asked for at `last` at the latest. -/
def Operation.Until (last : Instant) (operation : Operation) : Prop :=
  ∀ now, operation.time? = some now → now ≤ last

namespace Station

variable {τ : Type}

/-- A station without a throttle that can tell all times it needs up to `last`. -/
structure Timely (last : Instant) (s : Station τ) : Prop where
  sound : s.Sound
  tuned : s.Tuned
  inRange : s.settings.InRange last
  rateLimit : s.settings.rateLimit = none
  within : s.estimator.Within last

section Timely

variable {last now : Instant} {s s' : Station τ}

theorem timely_new {settings : NetworkSettings} (hi : settings.InRange last)
    (hr : settings.rateLimit = none) (carrier : τ) (start : Instant) :
    Timely last (new settings carrier start) :=
  ⟨sound_new settings carrier start, tuned_new settings carrier start, hi, hr, nofun⟩

theorem Timely.throttle (h : s.Timely last) : s.throttle = none := h.tuned.throttle h.rateLimit

theorem Timely.of_quiet (h : s.Timely last) (hq : Quiet s s') : s'.Timely last where
  sound := h.sound.of_queueOf hq.queue
  tuned := h.tuned.of_quiet hq
  inRange := hq.settings.symm ▸ h.inRange
  rateLimit := hq.settings.symm ▸ h.rateLimit
  within := hq.estimator.symm ▸ h.within

theorem within_of_sampled {e e' : Estimator TrafficClass} (hw : e.Within last)
    (hb : last * 7 ≤ Span.longest) {sample : Option (TrafficClass × Span)}
    (hs : ∀ c measured, sample = some (c, measured) → measured ≤ last)
    (h : Sampled e sample e') : e'.Within last := by
  cases sample with
  | none =>
    have he : e' = e := h
    rwa [he]
  | some x => exact hw.of_sample (hs x.1 x.2 rfl) hb h

theorem exists_sampled {e : Estimator TrafficClass} (hw : e.Within last)
    (hb : last * 7 ≤ Span.longest) {sample : Option (TrafficClass × Span)}
    (hs : ∀ c measured, sample = some (c, measured) → measured ≤ last) :
    ∃ e', Sampled e sample e' := by
  cases sample with
  | none => exact ⟨e, rfl⟩
  | some x =>
    obtain ⟨e', he, -⟩ := Estimator.exists_sample hw (hs x.1 x.2 rfl) hb x.1
    exact ⟨e', he⟩

variable [Carrier τ]

theorem Timely.move {a : Action} (h : s.Timely last) (hm : Move now a s s') (hl : now ≤ last)
    (hb : last * 7 ≤ Span.longest) : s'.Timely last := by
  obtain ⟨hs, ended, ht⟩ := hm.transfer h.sound
  refine ⟨hs, hm.tuned h.sound h.tuned, ht.settings ▸ h.inRange, ht.settings ▸ h.rateLimit, ?_⟩
  cases hm with
  | answer hbacklog ha he =>
    exact within_of_sampled h.within hb
      (fun c measured hm => Nat.le_trans (Backlog.sample_of_answer ha hm) hl) he
  | enter | pump | idle | withdraw | gone | remove | unknown => exact h.within

theorem Timely.moves {l : List Action} (h : s.Timely last) (hm : Moves now l s s')
    (hl : now ≤ last) (hb : last * 7 ≤ Span.longest) : s'.Timely last := by
  induction hm with
  | nil => exact h
  | quiet hq _ ih => exact ih (h.of_quiet hq)
  | cons hm _ ih => exact ih (h.move hm hl hb)

theorem Timely.perform {operation : Operation} {response : Result} (h : s.Timely last)
    (hl : operation.Until last) (hb : last * 7 ≤ Span.longest)
    (hp : Station.perform operation s = .ok response s') : s'.Timely last := by
  refine h.moves (perform_moves hp) ?_ hb
  cases ht : operation.time? with
  | none => exact Nat.zero_le last
  | some now => exact hl now ht

/-! ### Nothing meets a fault -/

omit [Carrier τ] in
theorem Timely.room (h : s.Timely last) (hl : now ≤ last) (agent : AgentId) : s.Room agent now :=
  have hi := h.inRange.mono hl
  h.sound.room hi.bounds (fun _ _ _ => hi.deadline) hi.grace

theorem Timely.exists_pump (h : s.Timely last) (hl : now ≤ last) (agent : AgentId) :
    ∃ s', pump agent now s = .ok () s' :=
  Station.exists_pump h.sound h.tuned (h.room hl agent)

theorem Timely.exists_pumpAll [Walk] (h : s.Timely last) (hl : now ≤ last) :
    ∃ s', pumpAll now s = .ok () s' :=
  Station.exists_pumpAll h.sound h.tuned (h.room hl)

omit [Carrier τ] in
theorem Timely.exists_route (h : s.Timely last) (hl : now ≤ last) (hb : last * 7 ≤ Span.longest)
    (m : Message) : ∃ found s', route m now s = .ok found s' := by
  cases ha : s.answers m with
  | false => exact ⟨none, _, route_of_answers_eq_false ha now⟩
  | true =>
    obtain ⟨reply, b, r, found, b', -, -, -, -, -, hans, hr⟩ := route_of_answers ha now
    obtain ⟨estimator, he⟩ := exists_sampled h.within hb fun c measured hm =>
      Nat.le_trans (Backlog.sample_of_answer hans hm) hl
    exact ⟨_, _, (hr _ _).2 ⟨rfl, estimator, he, (h.inRange.mono hl).grace, rfl⟩⟩

theorem Timely.exists_deliverInbound (h : s.Timely last) (hl : now ≤ last)
    (hb : last * 7 ≤ Span.longest) (m : Message) : ∃ s', deliverInbound m now s = .ok () s' := by
  obtain ⟨found, s₁, hr⟩ := h.exists_route hl hb m
  cases found with
  | none => exact ⟨s₁, Act.bind_eq_ok.2 ⟨_, _, hr, rfl⟩⟩
  | some agent =>
    obtain ⟨s', hp⟩ := (h.moves (course_route hr).1.moves hl hb).exists_pump hl agent
    exact ⟨s', Act.bind_eq_ok.2 ⟨_, _, hr, hp⟩⟩

theorem Timely.exists_submit (h : s.Timely last) (hl : now ≤ last) (hb : last * 7 ≤ Span.longest)
    (request : RequestId) (agent : AgentId) (payload : Payload) (urgency : Urgency)
    (maxAttempts : Nat) :
    ∃ result s', submit request agent payload urgency maxAttempts now s = .ok result s' := by
  cases he : enqueue request agent payload urgency maxAttempts s with
  | mk result s₁ =>
    have hm : Course now _ s s₁ := course_enqueue he
    cases result with
    | error e => exact ⟨.error e, s₁, submit_eq_ok.2 ⟨s₁, he, .inl ⟨rfl, rfl⟩⟩⟩
    | ok handle =>
      obtain ⟨s', hp⟩ := (h.moves hm.moves hl hb).exists_pump hl agent
      exact ⟨.ok handle, s', submit_eq_ok.2 ⟨s₁, he, .inr ⟨rfl, hp⟩⟩⟩

omit [Carrier τ] in
theorem Timely.exists_deregister (h : s.Timely last) (hl : now ≤ last) (agent : AgentId) :
    ∃ result s', deregister agent now s = .ok result s' := by
  cases ha : s.agents.get? agent with
  | none => exact ⟨_, _, deregister_of_unknown ha now⟩
  | some a =>
    exact ⟨_, _, (deregister_of_known ha).2 ⟨rfl, .inr (h.inRange.mono hl).grace, rfl⟩⟩

omit [Carrier τ] in
theorem exists_forM_evict (hg : now + s.settings.resultGrace < Instant.horizon)
    (l : List (AgentId × Agent)) : ∃ s', l.forM (fun e => evict e.1 e.2 now) s = .ok () s' := by
  induction l generalizing s with
  | nil => exact ⟨s, Act.forM_nil_eq_ok.2 rfl⟩
  | cons e rest ih =>
    have he : evict e.1 e.2 now s = .ok () (s.evicted e.1 e.2 now) :=
      evict_eq_ok.2 ⟨.inr hg, rfl⟩
    obtain ⟨s', hr⟩ := ih (s := s.evicted e.1 e.2 now) hg
    exact ⟨s', Act.forM_cons_eq_ok.2 ⟨_, he, hr⟩⟩

omit [Carrier τ] in
theorem Timely.exists_shutdown [Walk] (h : s.Timely last) (hl : now ≤ last) :
    ∃ s', shutdown now s = .ok () s' := by
  obtain ⟨s₁, hf⟩ := exists_forM_evict (s := { s with agents := ∅ }) (h.inRange.mono hl).grace
    (Walk.entries s.agents)
  exact ⟨_, shutdown_eq_ok.2 ⟨s₁, hf, rfl⟩⟩

/-- No operation that is asked for in time meets a fault. -/
theorem Timely.exists_perform (h : s.Timely last) (hb : last * 7 ≤ Span.longest)
    {operation : Operation} (hl : operation.Until last) :
    ∃ response s', Station.perform operation s = .ok response s' := by
  cases operation with
  | deliver m now =>
    obtain ⟨s', hp⟩ := h.exists_deliverInbound (hl now rfl) hb m
    exact ⟨_, s', Act.bind_pure_eq_ok.2 ⟨(), hp, rfl⟩⟩
  | route m now =>
    obtain ⟨found, s', hp⟩ := h.exists_route (hl now rfl) hb m
    exact ⟨_, s', Act.bind_pure_eq_ok.2 ⟨found, hp, rfl⟩⟩
  | submit request agent payload urgency maxAttempts now =>
    obtain ⟨result, s', hp⟩ :=
      h.exists_submit (hl now rfl) hb request agent payload urgency maxAttempts
    exact ⟨_, s', Act.bind_pure_eq_ok.2 ⟨result, hp, rfl⟩⟩
  | pump agent now =>
    obtain ⟨s', hp⟩ := h.exists_pump (hl now rfl) agent
    exact ⟨_, s', Act.bind_pure_eq_ok.2 ⟨(), hp, rfl⟩⟩
  | pumpAll walk now =>
    obtain ⟨s', hp⟩ := h.exists_pumpAll (hl now rfl)
    exact ⟨_, s', Act.bind_pure_eq_ok.2 ⟨(), hp, rfl⟩⟩
  | tick walk now =>
    obtain ⟨s', hp⟩ := (h.of_quiet (quiet_swept s now)).exists_pumpAll (hl now rfl)
    exact ⟨_, s', Act.bind_pure_eq_ok.2 ⟨(), hp, rfl⟩⟩
  | broadcast wake bulletin deadline now =>
    have hp := broadcast_of_throttle_eq_none h.throttle wake bulletin deadline now
    exact ⟨_, _, Act.bind_pure_eq_ok.2 ⟨_, hp, rfl⟩⟩
  | correction wake bulletin skipIfIdle deadline now =>
    have hp := broadcast_of_throttle_eq_none h.throttle wake bulletin deadline now
    have hc : ∃ answer s', correction wake bulletin skipIfIdle deadline now s = .ok answer s' := by
      unfold correction
      rw [Act.get_bind]
      split
      · exact ⟨_, _, Act.bind_eq_ok.2 ⟨_, _, hp, rfl⟩⟩
      · exact ⟨_, _, rfl⟩
    obtain ⟨answer, s', hc⟩ := hc
    exact ⟨_, s', Act.bind_pure_eq_ok.2 ⟨answer, hc, rfl⟩⟩
  | deregister agent now =>
    obtain ⟨result, s', hp⟩ := h.exists_deregister (hl now rfl) agent
    exact ⟨_, s', Act.bind_pure_eq_ok.2 ⟨result, hp, rfl⟩⟩
  | shutdown walk now =>
    obtain ⟨s', hp⟩ := h.exists_shutdown (hl now rfl)
    exact ⟨_, s', Act.bind_pure_eq_ok.2 ⟨(), hp, rfl⟩⟩
  | enqueue | sweep | cancel | adoptEpoch => exact ⟨_, _, rfl⟩

theorem Timely.tryBroadcast_ne_error (h : s.Timely last) (bulletin : Bulletin)
    (deadline : Instant) (fault : Fault) :
    tryBroadcast bulletin deadline now s ≠ .error fault s' := by
  unfold tryBroadcast
  rw [Act.get_bind, h.throttle]
  exact nofun

theorem Timely.exists_run (h : s.Timely last) (hb : last * 7 ≤ Span.longest)
    {operations : List Operation} (hl : ∀ operation ∈ operations, operation.Until last) :
    ∃ steps s', run operations s = .ok (steps, s') := by
  induction operations generalizing s with
  | nil => exact ⟨[], s, rfl⟩
  | cons operation rest ih =>
    obtain ⟨hfirst, hrest⟩ := List.forall_mem_cons.1 hl
    obtain ⟨response, after, hp⟩ := h.exists_perform hb hfirst
    obtain ⟨steps, s', hr⟩ := ih (h.perform hfirst hb hp) hrest
    exact ⟨_, s', run_cons_eq_ok.2 ⟨response, after, steps, hp, hr, rfl⟩⟩

/-- No operation meets a fault, whichever are carried out one after the other up to `last`. -/
def NeverFaults (last : Instant) (s : Station τ) : Prop :=
  ∀ operations : List Operation, (∀ operation ∈ operations, operation.Until last) →
    ∃ steps s', run operations s = .ok (steps, s')

theorem Timely.neverFaults (h : s.Timely last) (hb : last * 7 ≤ Span.longest) :
    s.NeverFaults last := fun _ hl => h.exists_run hb hl

end Timely

/-! ### Times that cannot be told -/

section Untold

variable {now : Instant} {s s' : Station τ} {agent : AgentId}

/-- A pump that cannot tell how long to keep a result ends no request. -/
theorem transfer_of_pump_unkept [Carrier τ] (hs : s.Sound)
    (hg : ¬ now + s.settings.resultGrace < Instant.horizon) (h : pump agent now s = .ok () s') :
    s'.Sound ∧ Transfer s [] [] s' := by
  rcases pump_eq_ok.1 h with ⟨-, rfl⟩ | ⟨b, p, hb, hp, hf, rfl⟩
  · exact ⟨hs, .of_quiet (.refl s')⟩
  · have ht := transfer_pumped hs hb hp
    rwa [hf.resolve_right hg] at ht

/-- A request for an agent without a backlog is the only one that a pump then finds. -/
theorem pump_of_submit [Carrier τ] {a : Agent} (ha : s.agents.get? agent = some a)
    (hb : a.backlog = none) (hd : s.settings.queueDepth ≠ 0) {request : RequestId}
    {payload : Payload} {urgency : Urgency} {maxAttempts : Nat}
    {result : Except DispatchError Handle}
    (h : submit request agent payload urgency maxAttempts now s = .ok result s') :
    ∃ r b, r = .new request s.id agent payload urgency
        (if maxAttempts = 0 then s.settings.attempts else maxAttempts) s.tickets ∧
      b = { Backlog.new agent s.settings.queueDepth with waiting := [r] } ∧
        (s.queueOf agent).submit r = some b ∧ pump agent now (s.admitted r b) = .ok () s' := by
  have hq : s.queueOf agent = .new agent s.settings.queueDepth := by
    rw [queueOf_of_get? ha, hb]
    rfl
  have hroom : (s.queueOf agent).pendingLen < (s.queueOf agent).depth := by
    rw [hq]
    exact Nat.pos_of_ne_zero hd
  obtain ⟨s₁, he, hp⟩ := submit_eq_ok.1 h
  have hcases := enqueue_cases he
  cases result with
  | ok handle =>
    obtain ⟨a', r, b, rfl, -, hb', -, rfl⟩ := hcases
    refine ⟨_, b, rfl, ?_, hb', (hp.resolve_left fun hf => Bool.noConfusion hf.1).2⟩
    rw [(Backlog.submit_eq_some_iff.1 hb').2, hq]
    cases urgency <;> rfl
  | error e =>
    unfold enqueue at he
    rw [ha] at he
    dsimp only at he
    rw [← queueOf_of_get? ha, Backlog.submit_eq_some_iff.2 ⟨hroom, rfl⟩] at he
    cases he

/-- A request that is taken in stays pending as long as its result could not be kept. -/
theorem pending_of_submit_unkept [Carrier τ] (hs : s.Sound)
    (hg : ¬ now + s.settings.resultGrace < Instant.horizon) {a : Agent}
    (ha : s.agents.get? agent = some a) (hb : a.backlog = none) (hd : s.settings.queueDepth ≠ 0)
    {request : RequestId} {payload : Payload} {urgency : Urgency} {maxAttempts : Nat}
    {result : Except DispatchError Handle}
    (h : submit request agent payload urgency maxAttempts now s = .ok result s') :
    s'.Sound ∧ s'.settings = s.settings ∧ ∃ i ∈ s'.idents, i.agent = agent := by
  obtain ⟨r, b, rfl, -, hb', hpump⟩ := pump_of_submit ha hb hd h
  obtain ⟨hs₁, ht₁⟩ := transfer_admitted hs ha (Request.new_waiting ..) rfl hb'
  obtain ⟨hs', ht⟩ := transfer_of_pump_unkept hs₁ (ht₁.settings ▸ hg) hpump
  have hall := ht₁.trans ht
  refine ⟨hs', hall.settings, ⟨request, agent, s.tickets⟩, ?_, rfl⟩
  exact hall.balance.mem_iff.1 (List.mem_append_right _ List.mem_cons_self)

/-- The agent of a pending request cannot be removed without a fault if the result could not be
kept. -/
theorem not_deregistered (hs : s.Sound) (hg : ¬ now + s.settings.resultGrace < Instant.horizon)
    {i : Ident} (hi : i ∈ s.idents) {result : Except DispatchError Unit} :
    deregister i.agent now s ≠ .ok result s' := by
  intro h
  have hq := hs.mem_queueOf hi
  cases ha : s.agents.get? i.agent with
  | none =>
    rw [queueOf_of_get?_eq_none ha] at hq
    cases hq
  | some a =>
    obtain ⟨-, hf, -⟩ := (deregister_of_known ha).1 h
    have hd := idents_dissolved a
    rw [hf.resolve_right hg] at hd
    have hq : i ∈ a.requests.map Request.ident := by
      rw [requests_queueOf ha]
      exact hq
    rw [← hd] at hq
    cases hq

/-- A pump that hands over a request whose reply could not be waited for meets a fault. -/
theorem not_pumped [Carrier τ] (hs : s.Sound) {b : Backlog} {r : Request} {rest : List Request}
    {base : Span} (hb : s.backlogOf agent = some b) (hf : b.inFlight = none)
    (hw : b.waiting = r :: rest) (hc : r.cancelRequested = false) (ht : s.throttle = none)
    (hr : r.payload.expectsReply = true) (hbase : s.estimator.timeout r.trafficClass = .ok base)
    (hn : ¬ now + backoff base b.timeouts s.settings.maxTimeout < Instant.horizon)
    (hsend : (Carrier.send s.carrier ((s.passContext agent now).frame r)).1 = .ok ()) :
    pump agent now s ≠ .ok () s' := by
  intro h
  have hsettled : b.Settled := queueOf_of_backlogOf hb ▸ hs.settled agent
  rcases pump_eq_ok.1 h with ⟨hnone, -⟩ | ⟨b', p, hb', hrun, -, -⟩
  · cases hnone.symm.trans hb
  · obtain rfl := Option.some.inj (hb'.symm.trans hb)
    -- the request is still the first one after the review
    have hfree : ∀ q, b'.inFlight = some q → q.cancelRequested = false →
        q.overdue now = false := by
      intro q hq
      rw [hf] at hq
      cases hq
    have hreview : (b'.review now).2 = b'.kept :=
      congrArg Prod.snd (Backlog.review_of_not_overdue hsettled hfree)
    have hidle : (s.firstPass b' now).backlog.inFlight = none := by
      show (b'.review now).2.inFlight = none
      rw [hreview, Backlog.kept, hf]
      rfl
    have hhead : (s.firstPass b' now).backlog.waiting =
        r :: rest.filter fun r => !r.cancelRequested := by
      show (b'.review now).2.waiting = _
      rw [hreview, Backlog.kept, hw, List.filter_cons_of_pos (by rw [hc]; rfl)]
    have htimeouts : (s.firstPass b' now).backlog.timeouts = b'.timeouts := by
      show (b'.review now).2.timeouts = _
      rw [hreview, Backlog.kept]
    obtain ⟨fault, q, hround⟩ : ∃ fault q,
        Pass.round (s.passContext agent now) (s.firstPass b' now) = .fault fault q :=
      Pass.fault_of_taken
        ⟨hidle, hhead, Pass.pay_of_throttle_eq_none ht _ now, hbase, Prod.ext hsend rfl⟩
        (hsettled.waiting r (hw ▸ List.mem_cons_self)) hr (htimeouts.symm ▸ hn)
    rw [Pass.run, hhead, List.length_cons, Pass.rounds, hround] at hrun
    cases hrun

theorem backlogOf_admitted {r : Request} {a : Agent} (ha : s.agents.get? r.agent = some a)
    (b : Backlog) : (s.admitted r b).backlogOf r.agent = some b := by
  show (Table.get? (s.agents.modify r.agent _) r.agent).bind _ = some b
  rw [Table.get?_modify, if_pos rfl, ha]
  rfl

/-- A request whose reply could not be waited for is not taken in without a fault. -/
theorem not_submitted [Carrier τ] (hs : s.Sound) {a : Agent} (ha : s.agents.get? agent = some a)
    (hb : a.backlog = none) (hd : s.settings.queueDepth ≠ 0) (ht : s.throttle = none)
    {payload : Payload} (hp : payload.expectsReply = true) {base : Span}
    (hbase : s.estimator.timeout payload.trafficClass = .ok base)
    (hn : ¬ now + backoff base 0 s.settings.maxTimeout < Instant.horizon)
    (hsend : (Carrier.send s.carrier
      ⟨s.id, .agent agent, payload.body, payload.key, s.epoch⟩).1 = .ok ())
    {request : RequestId} {urgency : Urgency} {maxAttempts : Nat}
    {result : Except DispatchError Handle} :
    submit request agent payload urgency maxAttempts now s ≠ .ok result s' := by
  intro h
  obtain ⟨r, b, rfl, rfl, hb', hpump⟩ := pump_of_submit ha hb hd h
  exact not_pumped (transfer_admitted hs ha (Request.new_waiting ..) rfl hb').1
    (backlogOf_admitted ha _) rfl rfl rfl ht hp hbase hn hsend hpump

/-- A sign of life registers an agent at a new station, if agents may register at all. -/
theorem deliver_heartbeat [Carrier τ] {settings : NetworkSettings}
    (hm : settings.maxAgents ≠ some 0) (carrier : τ) (start : Instant) (agent : AgentId)
    (now : Instant) :
    deliverInbound (.heartbeat settings.id agent) now (new settings carrier start) =
      .ok () ((new settings carrier start).heard (.heartbeat settings.id agent) now) := by
  have hadmits : (new settings carrier start).admits agent = true := by
    show (settings.maxAgents.all fun n => decide (0 < n)) = true
    cases hmax : settings.maxAgents with
    | none => rfl
    | some n =>
      rw [hmax] at hm
      exact decide_eq_true (Nat.pos_of_ne_zero fun h0 => hm (congrArg some h0))
  exact Act.bind_eq_ok.2 ⟨none, _, route_of_admits rfl hadmits now, rfl⟩

/-- Its agent is then known and has no backlog. -/
theorem get?_heartbeat (settings : NetworkSettings) (carrier : τ) (start : Instant)
    (agent : AgentId) (now : Instant) :
    ((new settings carrier start).heard (.heartbeat settings.id agent) now).agents.get? agent =
      some ⟨.none, none⟩ := by
  show ((Station.register _ agent).hear (.heartbeat settings.id agent) now).agents.get? agent = _
  rw [agents_hear]
  exact (Table.get?_insert ..).trans (if_pos rfl)

end Untold

/-! ### A brief stay -/

section BriefStay

variable [Carrier τ] {settings : NetworkSettings} {carrier : τ} {start now last : Instant}
  {agent : AgentId} {payload : Payload}

/-- An agent is heard, gets a request, and is removed. -/
def briefStay (network : NetworkId) (agent : AgentId) (payload : Payload) (now : Instant) :
    List Operation :=
  [.deliver (.heartbeat network agent) now, .submit 1 agent payload .normal 1 now,
    .deregister agent now]

theorem until_briefStay (network : NetworkId) (agent : AgentId) (payload : Payload)
    (now : Instant) :
    ∀ operation ∈ briefStay network agent payload now, operation.Until now := by
  intro operation ho time ht
  simp only [briefStay, List.mem_cons, List.not_mem_nil, or_false] at ho
  rcases ho with rfl | rfl | rfl <;> exact Nat.le_of_eq (Option.some.inj ht).symm

/-- The link takes a frame by which an agent of the network is asked for a reply. -/
def Asks (carrier : τ) (network : NetworkId) : Prop :=
  ∃ agent body key, (Carrier.send carrier ⟨network, .agent agent, body, some key, 0⟩).1 = .ok ()

omit [Carrier τ] in
/-- Before any round trip has been measured, the time to allow is the initial one. -/
theorem exists_timeout_new (hv : settings.validate = .ok ()) (carrier : τ) (start : Instant)
    (c : TrafficClass) :
    ∃ base, (new settings carrier start).estimator.timeout c = .ok base ∧
      settings.initialTimeout ≤ base := by
  have hb := NetworkSettings.bounds_of_validate hv
  obtain ⟨-, hmax⟩ := NetworkSettings.initialTimeout_of_validate hv
  exact ⟨_, Span.clamp_eq_ok hb, Nat.le_min.2 ⟨Nat.le_max_left .., hmax⟩⟩

/-- An agent that is heard at `now` can get a request and be removed without a fault. -/
def Hosts (s : Station τ) (agent : AgentId) (payload : Payload) (now : Instant) : Prop :=
  ∃ result s₁ result' s₂,
    submit 1 agent payload .normal 1 now (s.heard (.heartbeat s.id agent) now) = .ok result s₁ ∧
      deregister agent now s₁ = .ok result' s₂

/-- A new station can end a request only if it can tell how long to keep the result. -/
theorem Hosts.grace (h : (new settings carrier start).Hosts agent payload now)
    (hv : settings.validate = .ok ()) : now + settings.resultGrace < Instant.horizon := by
  obtain ⟨result, s₁, result', s₂, hsubmit, hderegister⟩ := h
  have hdepth := NetworkSettings.queueDepth_of_validate hv
  have hget := get?_heartbeat settings carrier start agent now
  have hq := quiet_heard (new settings carrier start) (.heartbeat settings.id agent) now
  have hsound := (sound_new settings carrier start).of_queueOf hq.queue
  have hsettings := hq.settings
  by_contra hg
  obtain ⟨hs, he, i, hi, rfl⟩ :=
    pending_of_submit_unkept hsound (hsettings ▸ hg) hget rfl (hsettings ▸ hdepth) hsubmit
  refine not_deregistered hs ?_ hi hderegister
  rw [he, hsettings]
  exact hg

/-- A new station can hand over a request only if it can tell how long to wait for the reply. -/
theorem Hosts.initialTimeout (h : (new settings carrier start).Hosts agent payload now)
    (hv : settings.validate = .ok ()) (hr : settings.rateLimit = none)
    (hp : payload.expectsReply = true)
    (hsend : (Carrier.send carrier
      ⟨settings.id, .agent agent, payload.body, payload.key, 0⟩).1 = .ok ()) :
    now + settings.initialTimeout < Instant.horizon := by
  obtain ⟨result, s₁, -, -, hsubmit, -⟩ := h
  have hdepth := NetworkSettings.queueDepth_of_validate hv
  have hget := get?_heartbeat settings carrier start agent now
  have hq := quiet_heard (new settings carrier start) (.heartbeat settings.id agent) now
  have hsound := (sound_new settings carrier start).of_queueOf hq.queue
  have hsettings := hq.settings
  obtain ⟨base, hbase, hle⟩ := exists_timeout_new hv carrier start payload.trafficClass
  by_contra hd
  refine not_submitted hsound hget rfl (hsettings ▸ hdepth)
    (hq.unthrottled ((tuned_new settings carrier start).throttle hr)) hp
    (hq.estimator ▸ hbase) (fun htold => hd ?_) ?_ hsubmit
  · -- the time to allow is not cut below the initial one
    rw [hsettings] at htold
    have hmax := (NetworkSettings.initialTimeout_of_validate hv).2
    have hlong := Nat.lt_of_le_of_lt (Nat.le_add_left _ now) htold
    refine Nat.lt_of_le_of_lt (Nat.add_le_add_left (le_backoff 0 hle hmax ?_) now) htold
    exact Nat.lt_trans hlong (by decide)
  · rw [heard_eq]
    exact hsend

/-- A new station that hosts any agent can tell how long to keep a result, and how long to wait for
a reply if the link takes a request for one. -/
theorem told_of_hosts (h : ∀ agent payload, (new settings carrier start).Hosts agent payload now)
    (hv : settings.validate = .ok ()) (hr : settings.rateLimit = none) :
    now + settings.resultGrace < Instant.horizon ∧
      (Asks carrier settings.id → now + settings.initialTimeout < Instant.horizon) := by
  refine ⟨(h 1 (.oneWay [])).grace hv, ?_⟩
  rintro ⟨agent, body, key, hsend⟩
  exact (h agent (.expecting body key)).initialTimeout hv hr rfl hsend

/-- A station that never meets a fault hosts any agent. -/
theorem NeverFaults.hosts (h : (new settings carrier start).NeverFaults last)
    (hm : settings.maxAgents ≠ some 0) (agent : AgentId) (payload : Payload) :
    (new settings carrier start).Hosts agent payload last := by
  obtain ⟨steps, s', hrun⟩ :=
    h (briefStay settings.id agent payload last) (until_briefStay _ _ _ _)
  obtain ⟨_, s₁, _, hdeliver, hrun, -⟩ := run_cons_eq_ok.1 hrun
  obtain ⟨_, s₂, _, hsubmit, hrun, -⟩ := run_cons_eq_ok.1 hrun
  obtain ⟨_, s₃, _, hderegister, -, -⟩ := run_cons_eq_ok.1 hrun
  obtain ⟨_, hdeliver, -⟩ := Act.bind_pure_eq_ok.1 hdeliver
  obtain ⟨result, hsubmit, -⟩ := Act.bind_pure_eq_ok.1 hsubmit
  obtain ⟨result', hderegister, -⟩ := Act.bind_pure_eq_ok.1 hderegister
  cases hdeliver.symm.trans (deliver_heartbeat hm carrier start agent last)
  exact ⟨result, s₂, result', s₃, hsubmit, hderegister⟩

end BriefStay

end Station

end GroundControl
