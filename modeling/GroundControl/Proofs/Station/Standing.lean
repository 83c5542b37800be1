import GroundControl.Proofs.Pump.Progress
import GroundControl.Proofs.RoundTrip.Ranges
import GroundControl.Proofs.Station.Queues

/-!
# What stands at every station that is reached

Invariants of the runs from a fresh station: the estimator keeps the bounds of the settings, only
requests that somebody withdrew are marked as withdrawn, and no reply is waited for longer than the
longest time to allow after the last operation.

* `withdrawals`, the numbers of the requests that are withdrawn;
* `run_firstPass`, `due_of_run`, `spends_of_run`: what the pump of a backlog makes of its requests;
* `Tuned`: the estimator and the throttle are those of the settings;
* `Change.marked`, `Change.due`: what an action makes of the marks and the deadline of a backlog;
* `Standing`, all of them together; `Standing.perform`, `standing_of_run`.
-/

namespace GroundControl

/-- The number of the request an operation withdraws. -/
def Operation.withdrawal? : Operation → Option RequestId
  | .cancel request => some request
  | _ => none

/-- The numbers of the requests that are withdrawn. -/
def withdrawals (operations : List Operation) : List RequestId :=
  operations.filterMap Operation.withdrawal?

namespace Station

variable {τ : Type}

theorem Sampled.bounds {e e' : Estimator TrafficClass} {measured : Option (TrafficClass × Span)}
    (h : Sampled e measured e') : e'.minTimeout = e.minTimeout ∧ e'.maxTimeout = e.maxTimeout := by
  cases measured with
  | none =>
    have he : e' = e := h
    rw [he]
    exact ⟨rfl, rfl⟩
  | some x => exact Estimator.bounds_of_sample h

/-! ### The pump of a backlog -/

section Pump

variable [Carrier τ] {s : Station τ} {b : Backlog} {p : Pass τ} {ctx : PassContext}
  {now : Instant} {ids : List RequestId}

omit [Carrier τ] in
theorem descends_firstPass (hb : b.Settled) (hm : b.Marked ids) :
    (s.firstPass b now).Descends ids b :=
  ⟨Backlog.later_review hb ids now, Backlog.ends_review hb hm now⟩

/-- What the pump of a backlog makes of its requests. -/
theorem run_firstPass (hb : b.Settled) (hm : b.Marked ids)
    (h : Pass.run ctx (s.firstPass b now) = (none, p)) :
    p.Descends ids b ∧ p.backlog.attemptsLeft ≤ b.attemptsLeft := by
  have hs := (sound_firstPass (s := s) hb now).1
  refine ⟨Pass.descends_rounds hs (descends_firstPass hb hm) h, ?_⟩
  exact Nat.le_trans (Pass.attemptsLeft_rounds hs h) (Backlog.attemptsLeft_review hb now)

theorem due_of_run {last : Instant} (hb : b.Settled) (hd : b.Due last)
    (hl : ctx.now + ctx.maxTimeout ≤ last)
    (h : Pass.run ctx (s.firstPass b now) = (none, p)) : p.backlog.Due last :=
  Pass.due_rounds (sound_firstPass (s := s) hb now).1 hl (hd.review hb now) h

omit [Carrier τ] in
theorem not_blocked_firstPass {last : Instant} (hb : b.Settled) (hd : b.Due last)
    (hl : last < now)
    (hfree : s.throttle = none ∨ ∀ r ∈ b.requests, r.trafficClass.isBulk = false)
    (hw : (s.firstPass b now).backlog.waiting ≠ []) (time : Instant) :
    ¬ (s.firstPass b now).Blocked time := by
  have hidle : (s.firstPass b now).backlog.inFlight = none := Backlog.idle_review hb hd hl
  -- nothing is in flight, something is waiting, and it can be paid for
  rintro (hf | hnil | ⟨r, hr, hpay⟩)
  · rw [hidle] at hf
    cases hf
  · exact hw hnil
  · have hpaid : ((s.firstPass b now).pay r.trafficClass time).1 = true := by
      rcases hfree with hn | hbulk
      · have hn : (s.firstPass b now).throttle = none := hn
        rw [Pass.pay_of_throttle_eq_none hn]
      · obtain ⟨x, hx, hxr⟩ := Backlog.later_review hb [] now r (Backlog.mem_requests.2 (.inr hr))
        have hc : r.trafficClass = x.trafficClass := congrArg Payload.trafficClass hxr.payload
        unfold Pass.pay
        rw [hc, hbulk x hx, if_neg Bool.false_ne_true]
    rw [hpay] at hpaid
    cases hpaid

/-- A pump that finds the reply overdue uses up an attempt or leaves no request, if nothing is
throttled. -/
theorem spends_of_run {last : Instant} (hb : b.Settled) (hd : b.Due last) (hl : last < now)
    (hfree : s.throttle = none ∨ ∀ r ∈ b.requests, r.trafficClass.isBulk = false)
    (h : Pass.run ctx (s.firstPass b now) = (none, p)) :
    p.backlog.requests = [] ∨ p.backlog.attemptsLeft < b.attemptsLeft := by
  unfold Pass.run at h
  cases hw : (s.firstPass b now).backlog.waiting with
  | nil =>
    have hidle : (s.firstPass b now).backlog.inFlight = none := Backlog.idle_review hb hd hl
    rw [hw] at h
    cases h
    refine .inl ?_
    unfold Backlog.requests
    rw [hidle, hw]
    rfl
  | cons r rest =>
    have hn : (s.firstPass b now).backlog.waiting ≠ [] := by
      rw [hw]
      exact List.cons_ne_nil r rest
    rw [hw] at h
    have hlt := Pass.spends_rounds (sound_firstPass (s := s) hb now).1
      (not_blocked_firstPass hb hd hl hfree hn ctx.now) h
    exact .inr (Nat.lt_of_lt_of_le hlt (Backlog.attemptsLeft_review hb now))

end Pump

/-! ### The settings of a station -/

/-- The estimator has the bounds of the settings, and nothing is throttled unless the settings say
so. -/
structure Tuned (s : Station τ) : Prop where
  minTimeout : s.estimator.minTimeout = s.settings.minTimeout
  maxTimeout : s.estimator.maxTimeout = s.settings.maxTimeout
  throttle : s.settings.rateLimit = none → s.throttle = none

theorem tuned_new (settings : NetworkSettings) (carrier : τ) (now : Instant) :
    (new settings carrier now).Tuned where
  minTimeout := rfl
  maxTimeout := rfl
  throttle h := by
    have h : settings.rateLimit = none := h
    show settings.rateLimit.map _ = none
    rw [h]
    rfl

theorem Tuned.of_quiet {s s' : Station τ} (h : s.Tuned) (hq : Quiet s s') : s'.Tuned where
  minTimeout := by rw [hq.estimator, hq.settings, h.minTimeout]
  maxTimeout := by rw [hq.estimator, hq.settings, h.maxTimeout]
  throttle hr := hq.unthrottled (h.throttle (hq.settings ▸ hr))

theorem Move.tuned [Carrier τ] {now : Instant} {a : Action} {s s' : Station τ}
    (h : Move now a s s') (hs : s.Sound) (ht : s.Tuned) : s'.Tuned := by
  cases h with
  | answer hb ha he =>
    obtain ⟨hmin, hmax⟩ := he.bounds
    exact ⟨hmin.trans ht.minTimeout, hmax.trans ht.maxTimeout, ht.throttle⟩
  | @pump _ agent b p hb hp =>
    refine ⟨ht.minTimeout, ht.maxTimeout, fun hr => ?_⟩
    have hset := queueOf_of_backlogOf hb ▸ hs.settled agent
    exact Pass.throttle_rounds (sound_firstPass (s := s) hset now).1 (ht.throttle hr) hp
  | enter | idle | withdraw | gone | remove | unknown =>
    exact ⟨ht.minTimeout, ht.maxTimeout, ht.throttle⟩

theorem Moves.tuned [Carrier τ] {now : Instant} {l : List Action} {s s' : Station τ}
    (h : Moves now l s s') (hs : s.Sound) (ht : s.Tuned) : s'.Tuned := by
  induction h with
  | nil => exact ht
  | quiet hq _ ih => exact ih (hs.of_queueOf hq.queue) (ht.of_quiet hq)
  | cons hm _ ih => exact ih (hm.transfer hs).1 (hm.tuned hs ht)

/-! ### Marks and deadlines -/

section Changes

variable [Carrier τ] {now : Instant} {s s' : Station τ} {agent : AgentId} {a : Action}
  {b : Backlog} {ids : List RequestId}

theorem Change.marked (h : Change now s agent a b) (hs : (s.queueOf agent).Settled)
    (hm : (s.queueOf agent).Marked ids)
    (hw : ∀ request, a = .withdraw request → request ∈ ids) : b.Marked ids := by
  cases h with
  | same h => exact hm
  | @enter r b id payload urgency maxAttempts hr hb =>
    intro q hq hc
    rcases List.mem_cons.1 ((Backlog.requests_submit_perm hb).mem_iff.1 hq) with rfl | hq
    · rw [hr] at hc
      cases hc
    · exact hm q hq hc
  | answer h =>
    obtain ⟨rfl, -⟩ := Backlog.backlog_of_answer h
    exact fun q hq => hm q (Backlog.mem_requests.2 (.inr hq))
  | pump h => exact hm.of_later (run_firstPass hs hm h).1.pending
  | withdraw => exact hm.of_later (Backlog.later_withdraw _ (hw _ rfl))
  | remove => exact fun q hq => absurd hq List.not_mem_nil

/-- No action sets a deadline later than the longest time to allow. -/
theorem Change.due {last : Instant} (h : Change now s agent a b) (hs : (s.queueOf agent).Settled)
    (hl : a = .pump agent → now + s.settings.maxTimeout ≤ last)
    (hd : (s.queueOf agent).Due last) : b.Due last := by
  cases h with
  | same h => exact hd
  | enter id payload urgency maxAttempts hr hb =>
    obtain ⟨-, rfl⟩ := Backlog.submit_eq_some_iff.1 hb
    exact hd
  | answer h =>
    obtain ⟨rfl, -⟩ := Backlog.backlog_of_answer h
    exact Backlog.due_of_idle rfl last
  | pump h => exact due_of_run hs hd (hl rfl) h
  | withdraw => exact hd.withdraw _
  | remove => exact Backlog.due_of_idle rfl last

/-- The deadline of a backlog in a change in which it is not pumped too late. -/
theorem Moves.due {l : List Action} {last : Instant} (h : Moves now l s s') (hs : s.Sound)
    (hl : .pump agent ∈ l → now + s.settings.maxTimeout ≤ last)
    (hd : (s.queueOf agent).Due last) : (s'.queueOf agent).Due last := by
  induction h with
  | nil => exact hd
  | quiet hq _ ih =>
    refine ih (hs.of_queueOf hq.queue) ?_ ((hq.queue agent).symm ▸ hd)
    rw [hq.settings]
    exact hl
  | cons hm _ ih =>
    obtain ⟨hs₁, ended, ht⟩ := hm.transfer hs
    refine ih hs₁ ?_ ((hm.change agent).due (hs.settled agent) (fun ha => hl ?_) hd)
    · rw [ht.settings]
      exact fun hr => hl (List.mem_cons_of_mem _ hr)
    · exact ha ▸ List.mem_cons_self

end Changes

/-! ### The invariant -/

/-- What holds at a station after operations not later than `last` that withdrew requests with the
numbers `ids` only. -/
structure Standing (last : Instant) (ids : List RequestId) (s : Station τ) : Prop where
  sound : s.Sound
  numbered : s.Numbered
  tuned : s.Tuned
  marked : ∀ agent, (s.queueOf agent).Marked ids
  due : ∀ agent, (s.queueOf agent).Due (last + s.settings.maxTimeout)

theorem standing_new (settings : NetworkSettings) (carrier : τ) (now last : Instant)
    (ids : List RequestId) : Standing last ids (new settings carrier now) where
  sound := sound_new settings carrier now
  numbered := numbered_new settings carrier now
  tuned := tuned_new settings carrier now
  marked _ _ hr := absurd hr List.not_mem_nil
  due _ := Backlog.due_of_idle rfl _

section Operations

variable [Carrier τ] {last now : Instant} {ids : List RequestId} {s s' : Station τ}

omit [Carrier τ] in
theorem Standing.of_quiet (h : Standing last ids s) (hq : Quiet s s') : Standing last ids s' where
  sound := h.sound.of_queueOf hq.queue
  numbered := (Transfer.of_quiet hq).keeps_numbered h.numbered
  tuned := h.tuned.of_quiet hq
  marked agent := by
    rw [hq.queue]
    exact h.marked agent
  due agent := by
    rw [hq.queue, hq.settings]
    exact h.due agent

theorem Standing.move {a : Action} (h : Standing last ids s) (hm : Move now a s s')
    (hl : now ≤ last) (hw : ∀ request, a = .withdraw request → request ∈ ids) :
    Standing last ids s' := by
  obtain ⟨hs, ended, ht⟩ := hm.transfer h.sound
  refine ⟨hs, ht.keeps_numbered h.numbered, hm.tuned h.sound h.tuned, ?_, ?_⟩
  · exact fun agent => (hm.change agent).marked (h.sound.settled agent) (h.marked agent) hw
  · intro agent
    rw [ht.settings]
    exact (hm.change agent).due (h.sound.settled agent) (fun _ => Nat.add_le_add_right hl _)
      (h.due agent)

theorem Standing.moves {l : List Action} (h : Standing last ids s) (hm : Moves now l s s')
    (hl : now ≤ last) (hw : ∀ request, .withdraw request ∈ l → request ∈ ids) :
    Standing last ids s' := by
  induction hm with
  | nil => exact h
  | quiet hq _ ih => exact ih (h.of_quiet hq) hw
  | cons hm _ ih =>
    refine ih (h.move hm hl fun request ha => hw request ?_)
      fun request ha => hw request (List.mem_cons_of_mem _ ha)
    exact ha ▸ List.mem_cons_self

theorem Standing.perform {operation : Operation} {response : Result} (h : Standing last ids s)
    (hl : ∀ now, operation.time? = some now → now ≤ last)
    (hw : ∀ request, operation.withdrawal? = some request → request ∈ ids)
    (hp : Station.perform operation s = .ok response s') : Standing last ids s' := by
  refine h.moves (perform_moves hp) ?_ ?_
  · cases ht : operation.time? with
    | none => exact Nat.zero_le last
    | some now => exact hl now ht
  · intro request hm
    obtain rfl : operation = .cancel request := origin_of_mem_actions _ hm
    exact hw request rfl

/-- A run keeps what stands, if it is over at `last` and withdraws no other requests. -/
theorem standing_of_run {operations : List Operation} {steps : List (Step τ)}
    (h : Standing last ids s)
    (hl : ∀ operation ∈ operations, ∀ now, operation.time? = some now → now ≤ last)
    (hw : withdrawals operations ⊆ ids) (hr : run operations s = .ok (steps, s')) :
    Standing last ids s' := by
  induction operations generalizing s steps with
  | nil =>
    cases hr
    exact h
  | cons operation rest ih =>
    obtain ⟨response, after, others, hp, hrun, rfl⟩ := run_cons_eq_ok.1 hr
    obtain ⟨hfirst, hrest⟩ := List.forall_mem_cons.1 hl
    refine ih (h.perform hfirst (fun request ho => hw ?_) hp) hrest (fun request hm => hw ?_) hrun
    · exact List.mem_filterMap.2 ⟨operation, List.mem_cons_self, ho⟩
    · obtain ⟨other, hm, ho⟩ := List.mem_filterMap.1 hm
      exact List.mem_filterMap.2 ⟨other, List.mem_cons_of_mem _ hm, ho⟩

end Operations

end Station

end GroundControl
