import GroundControl.Proofs.Backlog.Conservation

/-!
# The lifecycle of the requests in a backlog

Between the operations of a station a backlog is settled: every waiting request is queued and may
still be attempted, the request in flight waits for its reply, and no lifecycle step was ever
refused.  In a settled backlog every lifecycle step is allowed, so each operation has a plain
result.

* `Request.Waiting`, `Request.Flying`, `Backlog.Settled`;
* `Request.ended`, the record of a request that ends in a given phase; `Finished.Fits`: the phase is
  the one that goes with the outcome;
* `dropCancelled_eq`, `expire_eq`, `answer_eq`, `dissolve_eq`, `review_cases`: the results;
* `Settled.submit`, `Settled.review`, `Settled.answer`, `Settled.withdraw`, `Settled.dissolve`.
-/

namespace GroundControl

/-- The phase of a finished request is the one that goes with its outcome. -/
def Finished.Fits (f : Finished) : Prop := f.phase = f.outcome.phase

theorem Outcome.isTerminal_phase (outcome : Outcome) : outcome.phase.isTerminal = true := by
  cases outcome with
  | success => rfl
  | failure cause => cases cause <;> rfl

namespace Request

/-- A queued request that may still be attempted. -/
structure Waiting (r : Request) : Prop where
  phase : r.phase = .queued
  deadline : r.deadline = none
  attempts : r.attempts < r.maxAttempts

/-- A transmitted request that waits for its reply. -/
structure Flying (r : Request) : Prop where
  phase : r.phase = .awaitingAck
  expects : r.payload.expectsReply = true
  sentAt : r.sentAt.isSome = true
  deadline : r.deadline.isSome = true
  attempts : r.attempts ≤ r.maxAttempts

/-- The record of a request that ends in a phase. -/
def ended (r : Request) (phase : Phase) (outcome : Outcome) : Finished :=
  ⟨r.id, r.agent, r.trafficClass, phase, outcome, r.ticket⟩

/-- How a withdrawn request ends. -/
def endCancelled (r : Request) : Finished :=
  r.ended .cancelled (.failure .cancelled r.attempts none)

/-- How a request ends whose agent is removed. -/
def endGone (r : Request) : Finished :=
  r.ended (.failed .agentGone) (.failure .agentGone r.attempts none)

/-- How a request ends whose last attempt was not answered in time. -/
def endTimeout (r : Request) : Finished :=
  r.ended (.failed .timeout) (.failure .timeout r.attempts none)

/-- The request waiting for its turn again. -/
def queuedAgain (r : Request) : Request := { r with phase := .queued, deadline := none }

theorem advance_of_canBecome {r : Request} {target : Phase}
    (h : r.phase.canBecome target = true) :
    r.advance target = ({ r with phase := target }, []) := by
  have ha : r.phase.advance target = .ok target := Phase.advance_eq_ok_iff.2 ⟨h, rfl⟩
  unfold advance
  rw [ha]

theorem finish_of_canBecome {r : Request} {target : Phase} (outcome : Outcome)
    (h : r.phase.canBecome target = true) :
    r.finish target outcome = (r.ended target outcome, []) := by
  unfold finish
  rw [advance_of_canBecome h]
  rfl

theorem new_waiting (id : RequestId) (network : NetworkId) (agent : AgentId) (payload : Payload)
    (urgency : Urgency) (maxAttempts : Nat) (ticket : Ticket) :
    (new id network agent payload urgency maxAttempts ticket).Waiting where
  phase := rfl
  deadline := rfl
  attempts := by
    show 0 < max maxAttempts 1
    omega

theorem queuedAgain_waiting {r : Request} (ha : r.attemptsRemain = true) :
    r.queuedAgain.Waiting :=
  ⟨rfl, rfl, of_decide_eq_true ha⟩

theorem Waiting.withdrawn {r : Request} (h : r.Waiting) :
    ({ r with cancelRequested := true } : Request).Waiting :=
  ⟨h.phase, h.deadline, h.attempts⟩

theorem Flying.withdrawn {r : Request} (h : r.Flying) :
    ({ r with cancelRequested := true } : Request).Flying :=
  ⟨h.phase, h.expects, h.sentAt, h.deadline, h.attempts⟩

theorem Waiting.canBecome {r : Request} (h : r.Waiting) :
    r.phase.canBecome .cancelled = true ∧ r.phase.canBecome (.failed .agentGone) = true ∧
      r.phase.canBecome .sent = true := by
  rw [h.phase]
  decide

theorem phase_of_awaits {r : Request} {key : ReplyKey} (h : r.awaits key = true) :
    r.phase = .awaitingAck := by
  unfold awaits at h
  exact eq_of_beq (Bool.and_eq_true_iff.1 h).1

theorem phase_of_overdue {r : Request} {now : Instant} (h : r.overdue now = true) :
    r.phase = .awaitingAck := by
  unfold overdue at h
  exact eq_of_beq (Bool.and_eq_true_iff.1 h).1

theorem canBecome_of_awaitingAck {r : Request} (h : r.phase = .awaitingAck) (verdict : Verdict) :
    r.phase.canBecome .cancelled = true ∧ r.phase.canBecome (.failed .agentGone) = true ∧
      r.phase.canBecome .timedOut = true ∧
        r.phase.canBecome (Backlog.verdictPhase verdict) = true := by
  rw [h]
  cases verdict <;> exact ⟨rfl, rfl, rfl, rfl⟩

theorem Flying.canBecome {r : Request} (h : r.Flying) (verdict : Verdict) :
    r.phase.canBecome .cancelled = true ∧ r.phase.canBecome (.failed .agentGone) = true ∧
      r.phase.canBecome .timedOut = true ∧
        r.phase.canBecome (Backlog.verdictPhase verdict) = true :=
  canBecome_of_awaitingAck h.phase verdict

end Request

namespace Backlog

/-- A backlog between two operations. -/
structure Settled (b : Backlog) : Prop where
  waiting : ∀ r ∈ b.waiting, r.Waiting
  inFlight : ∀ r, b.inFlight = some r → r.Flying
  refusals : b.refusals = []

theorem mem_requests {b : Backlog} {r : Request} :
    r ∈ b.requests ↔ b.inFlight = some r ∨ r ∈ b.waiting := by
  unfold requests
  rw [List.mem_append, Option.mem_toList]

theorem length_requests (b : Backlog) : b.requests.length = b.pendingLen := by
  unfold requests pendingLen
  rw [List.length_append, Nat.add_comm]

theorem settled_new (agent : AgentId) (depth : Nat) : (new agent depth).Settled where
  waiting := List.forall_mem_nil _
  inFlight _ h := absurd h (Option.some_ne_none _).symm
  refusals := rfl

theorem Settled.canBecome {b : Backlog} (h : b.Settled) {r : Request} (hr : r ∈ b.requests) :
    r.phase.canBecome .cancelled = true ∧ r.phase.canBecome (.failed .agentGone) = true := by
  rcases mem_requests.1 hr with hf | hw
  · have hc := (h.inFlight r hf).canBecome .accepted
    exact ⟨hc.1, hc.2.1⟩
  · have hc := (h.waiting r hw).canBecome
    exact ⟨hc.1, hc.2.1⟩

/-! ### Allowed steps -/

@[simp] theorem note_nil (b : Backlog) : b.note [] = b := by
  unfold note
  rw [List.append_nil]

theorem close_of_canBecome {b : Backlog} {r : Request} {target : Phase} (outcome : Outcome)
    (h : r.phase.canBecome target = true) :
    b.close r target outcome = (r.ended target outcome, b) := by
  unfold close
  rw [Request.finish_of_canBecome outcome h]
  simp

theorem closeAll_eq {close : Backlog → Request → Finished × Backlog} {f : Request → Finished}
    {l : List Request} (h : ∀ b, ∀ r ∈ l, close b r = (f r, b)) (b : Backlog) :
    closeAll close b l = (l.map f, b) := by
  induction l with
  | nil => rfl
  | cons r rest ih =>
    unfold closeAll
    rw [h b r List.mem_cons_self]
    dsimp only
    rw [ih fun b q hq => h b q (List.mem_cons_of_mem r hq)]
    rfl

theorem retry_of_canBecome {b : Backlog} {r : Request} (h : r.phase.canBecome .queued = true) :
    b.retry r = { b with waiting := requeue { r with phase := .queued } b.waiting } := by
  unfold retry
  rw [Request.advance_of_canBecome h]
  simp

/-! ### The results of the operations -/

/-- The backlog without the withdrawn requests. -/
def kept (b : Backlog) : Backlog :=
  { b with
    inFlight := b.inFlight.filter fun r => !r.cancelRequested
    waiting := b.waiting.filter fun r => !r.cancelRequested }

/-- The withdrawn requests. -/
def withdrawn (b : Backlog) : List Request := b.requests.filter (·.cancelRequested)

theorem Settled.kept {b : Backlog} (h : b.Settled) : b.kept.Settled where
  waiting r hr := h.waiting r (List.mem_filter.1 hr).1
  inFlight r hr := h.inFlight r (Option.filter_eq_some_iff.1 hr).1
  refusals := h.refusals

theorem dropCancelled_of_canBecome {b : Backlog}
    (h : ∀ r ∈ b.requests, r.phase.canBecome .cancelled = true) :
    b.dropCancelled = (b.withdrawn.map Request.endCancelled, b.kept) := by
  have hw : b.withdrawn =
      b.inFlight.toList.filter (·.cancelRequested) ++ b.waiting.filter (·.cancelRequested) := by
    unfold withdrawn requests
    rw [List.filter_append]
  unfold dropCancelled
  dsimp only
  rw [← hw]
  refine closeAll_eq (fun b' r hr => ?_) _
  exact close_of_canBecome _ (h r (List.mem_filter.1 hr).1)

theorem dropCancelled_eq {b : Backlog} (h : b.Settled) :
    b.dropCancelled = (b.withdrawn.map Request.endCancelled, b.kept) :=
  dropCancelled_of_canBecome fun _ hr => (h.canBecome hr).1

/-- The backlog after the timeout of the request in flight, without that request. -/
def afterTimeout (b : Backlog) : Backlog :=
  { b with inFlight := none, timeouts := min (b.timeouts + 1) maxTimeouts }

theorem expire_of_canBecome {b : Backlog} {r : Request} (hr : r.phase.canBecome .timedOut = true) :
    b.expire r =
      if r.attemptsRemain then
        (none, { b.afterTimeout with waiting := requeue r.queuedAgain b.waiting })
      else (some r.endTimeout, b.afterTimeout) := by
  unfold expire
  rw [Request.advance_of_canBecome hr]
  dsimp only
  rw [note_nil]
  cases ha : r.attemptsRemain with
  | true =>
    -- the number of attempts does not depend on the phase
    have ha' : Request.attemptsRemain { r with phase := .timedOut, deadline := none } = true := ha
    rw [if_pos ha', if_pos rfl, retry_of_canBecome rfl]
    rfl
  | false =>
    have ha' : ¬ Request.attemptsRemain { r with phase := .timedOut, deadline := none } = true := by
      intro hc
      exact Bool.false_ne_true (ha.symm.trans hc)
    rw [if_neg ha', if_neg Bool.false_ne_true, close_of_canBecome _ rfl]
    rfl

theorem expire_eq {b : Backlog} {r : Request} (hr : r.Flying) :
    b.expire r =
      if r.attemptsRemain then
        (none, { b.afterTimeout with waiting := requeue r.queuedAgain b.waiting })
      else (some r.endTimeout, b.afterTimeout) :=
  expire_of_canBecome (hr.canBecome .accepted).2.2.1

theorem answer_eq {b : Backlog} {key : ReplyKey} {verdict : Verdict} {now : Instant} {r : Request}
    (hr : b.inFlight = some r) (ha : r.awaits key = true) :
    b.answer key verdict now =
      if r.cancelRequested then
        (some ⟨r.endCancelled, none⟩, { b with inFlight := none, timeouts := 0 })
      else
        (some ⟨r.ended (verdictPhase verdict)
            (verdictOutcome r.attempts (r.sentAt.map now.since) verdict),
          if r.attempts = 1 then (r.sentAt.map now.since).map (r.trafficClass, ·) else none⟩,
          { b with inFlight := none, timeouts := 0 }) := by
  have hf : b.inFlight.filter (·.awaits key) = some r :=
    Option.filter_eq_some_iff.2 ⟨hr, ha⟩
  have hc := Request.canBecome_of_awaitingAck (Request.phase_of_awaits ha) verdict
  unfold answer
  rw [hf]
  dsimp only
  split
  · unfold closeCancelled
    rw [close_of_canBecome _ hc.1]
    rfl
  · rw [close_of_canBecome _ hc.2.2.2]

theorem dissolve_of_canBecome {b : Backlog}
    (h : ∀ r ∈ b.requests, r.phase.canBecome (.failed .agentGone) = true) :
    b.dissolve =
      (b.requests.map Request.endGone, { b with inFlight := none, waiting := [] }) := by
  unfold dissolve
  refine closeAll_eq (fun b' r hr => ?_) _
  exact close_of_canBecome _ (h r hr)

theorem dissolve_eq {b : Backlog} (h : b.Settled) :
    b.dissolve =
      (b.requests.map Request.endGone, { b with inFlight := none, waiting := [] }) :=
  dissolve_of_canBecome fun _ hr => (h.canBecome hr).2

/-! ### The results of a review -/

theorem kept_inFlight {b : Backlog} {r : Request} (hr : b.inFlight = some r)
    (hc : r.cancelRequested = false) : b.kept.inFlight = some r := by
  unfold kept
  rw [hr]
  simp [Option.filter, hc]

theorem requests_kept (b : Backlog) :
    b.kept.requests = b.requests.filter fun r => !r.cancelRequested := by
  unfold kept requests
  rw [List.filter_append]
  congr 1
  cases b.inFlight with
  | none => rfl
  | some r => cases hc : r.cancelRequested <;> simp [Option.filter, hc]

theorem kept_subset (b : Backlog) : ∀ q ∈ b.kept.requests, q ∈ b.requests := by
  intro q hq
  rw [requests_kept] at hq
  exact (List.mem_filter.1 hq).1

/-- A review ends the withdrawn requests, and times out the request in flight if it is overdue. -/
theorem review_cases {b : Backlog} (hb : b.Settled) (now : Instant) :
    (∀ r, b.kept.inFlight = some r → r.overdue now = false) ∧
        b.review now = (b.withdrawn.map Request.endCancelled, b.kept) ∨
      ∃ r, b.kept.inFlight = some r ∧ r.overdue now = true ∧
        b.review now = (b.withdrawn.map Request.endCancelled ++ (b.kept.expire r).1.toList,
          (b.kept.expire r).2) := by
  unfold Backlog.review
  rw [dropCancelled_eq hb]
  dsimp only
  cases hf : b.kept.inFlight.filter (·.overdue now) with
  | none =>
    refine .inl ⟨fun r hr => ?_, rfl⟩
    rw [hr] at hf
    simpa [Option.filter] using hf
  | some r =>
    obtain ⟨hr, ho⟩ := Option.filter_eq_some_iff.1 hf
    exact .inr ⟨r, hr, ho, rfl⟩

theorem review_of_not_overdue {b : Backlog} (hb : b.Settled) {now : Instant}
    (h : ∀ r, b.inFlight = some r → r.cancelRequested = false → r.overdue now = false) :
    b.review now = (b.withdrawn.map Request.endCancelled, b.kept) := by
  rcases review_cases hb now with ⟨-, hr⟩ | ⟨r, hk, ho, -⟩
  · exact hr
  · obtain ⟨hr, hc⟩ := Option.filter_eq_some_iff.1 hk
    have hn := h r hr (by simpa using hc)
    rw [hn] at ho
    cases ho

theorem review_of_overdue {b : Backlog} (hb : b.Settled) {now : Instant} {r : Request}
    (hr : b.inFlight = some r) (hc : r.cancelRequested = false) (ho : r.overdue now = true) :
    b.review now = (b.withdrawn.map Request.endCancelled ++ (b.kept.expire r).1.toList,
      (b.kept.expire r).2) := by
  have hk := kept_inFlight hr hc
  rcases review_cases hb now with ⟨hn, -⟩ | ⟨q, hq, -, hrev⟩
  · rw [hn r hk] at ho
    cases ho
  · obtain rfl := Option.some.inj (hk.symm.trans hq)
    exact hrev

/-- What is pending after a timeout: the waiting requests, and the one in flight queued again. -/
theorem mem_expire {b : Backlog} {r q : Request} (hr : r.Flying)
    (hq : q ∈ (b.expire r).2.requests) : q = r.queuedAgain ∨ q ∈ b.waiting := by
  rw [expire_eq hr] at hq
  split at hq
  · rcases mem_requests.1 hq with hf | hw
    · cases hf
    · exact List.mem_cons.1 ((requeue_perm _ _).mem_iff.1 hw)
  · rcases mem_requests.1 hq with hf | hw
    · cases hf
    · exact .inr hw

/-! ### Settled backlogs stay settled -/

theorem Settled.enqueue {b : Backlog} (h : b.Settled) {r : Request} (hr : r.Waiting) :
    ({ b with waiting := Backlog.enqueue r b.waiting } : Backlog).Settled where
  waiting q hq := by
    rcases List.mem_cons.1 ((enqueue_perm r b.waiting).mem_iff.1 hq) with rfl | hm
    · exact hr
    · exact h.waiting q hm
  inFlight := h.inFlight
  refusals := h.refusals

theorem Settled.requeue {b : Backlog} (h : b.Settled) {r : Request} (hr : r.Waiting) :
    ({ b with waiting := Backlog.requeue r b.waiting } : Backlog).Settled where
  waiting q hq := by
    rcases List.mem_cons.1 ((requeue_perm r b.waiting).mem_iff.1 hq) with rfl | hm
    · exact hr
    · exact h.waiting q hm
  inFlight := h.inFlight
  refusals := h.refusals

theorem Settled.afterTimeout {b : Backlog} (h : b.Settled) : b.afterTimeout.Settled where
  waiting := h.waiting
  inFlight _ h := absurd h (Option.some_ne_none _).symm
  refusals := h.refusals

theorem Settled.submit {b b' : Backlog} (h : b.Settled) {r : Request} (hr : r.Waiting)
    (hs : b.submit r = some b') : b'.Settled := by
  obtain ⟨-, rfl⟩ := submit_eq_some_iff.1 hs
  exact h.enqueue hr

theorem Settled.expire {b : Backlog} (h : b.Settled) {r : Request} (hr : r.Flying) :
    (b.expire r).2.Settled ∧ ∀ f ∈ (b.expire r).1, f.Fits := by
  rw [expire_eq hr]
  split
  · rename_i ha
    refine ⟨h.afterTimeout.requeue (Request.queuedAgain_waiting ha), ?_⟩
    exact fun _ hf => absurd hf (Option.some_ne_none _).symm
  · refine ⟨h.afterTimeout, ?_⟩
    intro f hf
    cases hf
    rfl

theorem Settled.review {b : Backlog} (h : b.Settled) (now : Instant) :
    (b.review now).2.Settled ∧ ∀ f ∈ (b.review now).1, f.Fits := by
  have hd : ∀ f ∈ b.withdrawn.map Request.endCancelled, f.Fits := by
    intro f hf
    obtain ⟨r, -, rfl⟩ := List.mem_map.1 hf
    rfl
  rcases review_cases h now with ⟨-, hrev⟩ | ⟨r, hr, -, hrev⟩
  · rw [hrev]
    exact ⟨h.kept, hd⟩
  · have hr := h.kept.inFlight r hr
    rw [hrev]
    refine ⟨(h.kept.expire hr).1, ?_⟩
    intro f hm
    rcases List.mem_append.1 hm with hm | hm
    · exact hd f hm
    · exact (h.kept.expire hr).2 f (Option.mem_toList.1 hm)

/-- The request in flight is all that an answer takes out of the backlog. -/
theorem backlog_of_answer {b b' : Backlog} {key : ReplyKey} {verdict : Verdict}
    {now : Instant} {found : Match} (ha : b.answer key verdict now = (some found, b')) :
    b' = { b with inFlight := none, timeouts := 0 } ∧ found.finished.Fits := by
  cases hf : b.inFlight.filter (·.awaits key) with
  | none =>
    unfold Backlog.answer at ha
    rw [hf] at ha
    cases ha
  | some r =>
    obtain ⟨hr, hk⟩ := Option.filter_eq_some_iff.1 hf
    rw [answer_eq hr hk] at ha
    split at ha
    · cases ha
      exact ⟨rfl, rfl⟩
    · cases ha
      exact ⟨rfl, by cases verdict <;> rfl⟩

theorem Settled.answer {b b' : Backlog} (h : b.Settled) {key : ReplyKey} {verdict : Verdict}
    {now : Instant} {found : Match} (ha : b.answer key verdict now = (some found, b')) :
    b'.Settled ∧ found.finished.Fits := by
  obtain ⟨rfl, hf⟩ := backlog_of_answer ha
  exact ⟨⟨h.waiting, fun _ hq => absurd hq (Option.some_ne_none _).symm, h.refusals⟩, hf⟩

theorem markCancelled_waiting (id : RequestId) {l : List Request} (h : ∀ r ∈ l, r.Waiting) :
    ∀ r ∈ markCancelled id l, r.Waiting := by
  induction l with
  | nil => exact h
  | cons q rest ih =>
    have hq := h q List.mem_cons_self
    have hrest := fun r hr => h r (List.mem_cons_of_mem q hr)
    unfold markCancelled
    split
    · exact List.forall_mem_cons.2 ⟨hq.withdrawn, hrest⟩
    · exact List.forall_mem_cons.2 ⟨hq, ih hrest⟩

theorem Settled.withdraw {b : Backlog} (h : b.Settled) (id : RequestId) :
    (b.withdraw id).2.Settled := by
  unfold Backlog.withdraw
  cases hf : b.inFlight.filter fun r => r.id = id with
  | none => exact ⟨markCancelled_waiting id h.waiting, h.inFlight, h.refusals⟩
  | some r =>
    have hr := h.inFlight r (Option.filter_eq_some_iff.1 hf).1
    refine ⟨h.waiting, ?_, h.refusals⟩
    intro q hq
    cases hq
    exact hr.withdrawn

theorem Settled.dissolve {b : Backlog} (h : b.Settled) :
    b.dissolve.2.refusals = [] ∧ ∀ f ∈ b.dissolve.1, f.Fits := by
  rw [dissolve_eq h]
  refine ⟨h.refusals, ?_⟩
  intro f hf
  obtain ⟨r, -, rfl⟩ := List.mem_map.1 hf
  rfl

end Backlog

end GroundControl
