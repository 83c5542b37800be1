import GroundControl.Proofs.Backlog.Conservation

/-!
# Tickets in a backlog

A ticket tells whom the outcome of a request is for.  A backlog carries it along and never looks at
it: two backlogs that differ in the tickets only do the same.

* `Request.plain`, `Finished.plain`, `Match.plain`, `Backlog.plain`: without tickets;
* `plain_submit`, `plain_launch`, `plain_transmitted`, `plain_review`, `plain_answer`,
  `plain_withdraw`, `plain_dissolve`: what an operation does to a plain backlog is what it does to
  the backlog, made plain.
-/

namespace GroundControl

/-- The request without its ticket. -/
def Request.plain (r : Request) : Request := { r with ticket := 0 }

/-- The record of an ended request without its ticket. -/
def Finished.plain (f : Finished) : Finished := { f with ticket := 0 }

/-- The match of a reply without the ticket of its request. -/
def Match.plain (m : Match) : Match := { m with finished := m.finished.plain }

namespace Request

@[simp] theorem id_plain (r : Request) : r.plain.id = r.id := rfl

@[simp] theorem phase_plain (r : Request) : r.plain.phase = r.phase := rfl

@[simp] theorem urgency_plain (r : Request) : r.plain.urgency = r.urgency := rfl

@[simp] theorem cancelRequested_plain (r : Request) :
    r.plain.cancelRequested = r.cancelRequested := rfl

@[simp] theorem attemptsRemain_plain (r : Request) :
    r.plain.attemptsRemain = r.attemptsRemain := rfl

theorem advance_plain (r : Request) (target : Phase) :
    r.plain.advance target = Prod.map plain (fun refused => refused) (r.advance target) := by
  unfold advance
  rw [phase_plain]
  cases r.phase.advance target <;> rfl

theorem finish_plain (r : Request) (target : Phase) (outcome : Outcome) :
    r.plain.finish target outcome =
      Prod.map Finished.plain (fun refused => refused) (r.finish target outcome) := by
  unfold finish
  rw [advance_plain]
  rfl

end Request

namespace Backlog

/-- The backlog without tickets. -/
def plain (b : Backlog) : Backlog :=
  { b with
    waiting := b.waiting.map Request.plain
    inFlight := b.inFlight.map Request.plain }

/-! ### Questions -/

theorem requests_plain (b : Backlog) : b.plain.requests = b.requests.map Request.plain := by
  unfold requests plain
  rw [List.map_append]
  cases b.inFlight <;> rfl

theorem pendingLen_plain (b : Backlog) : b.plain.pendingLen = b.pendingLen := by
  unfold pendingLen plain
  rw [List.length_map]
  cases b.inFlight <;> rfl

theorem phaseOf_plain (b : Backlog) (id : RequestId) : b.plain.phaseOf id = b.phaseOf id := by
  unfold phaseOf
  rw [requests_plain, List.find?_map, Option.map_map]
  rfl

theorem nextClass_plain (b : Backlog) : b.plain.nextClass = b.nextClass := by
  unfold nextClass plain
  cases b.inFlight with
  | some r => rfl
  | none => cases b.waiting <;> rfl

theorem awaiting_plain (b : Backlog) : b.plain.awaiting = b.awaiting := by
  unfold awaiting plain
  cases b.inFlight <;> rfl

/-- The request in flight, looked at for something that is not its ticket. -/
theorem inFlight_filter_plain (b : Backlog) {P : Request → Bool}
    (h : ∀ r : Request, P r.plain = P r) :
    b.plain.inFlight.filter P = (b.inFlight.filter P).map Request.plain := by
  unfold plain
  cases b.inFlight with
  | none => rfl
  | some r =>
    show (some r.plain).filter P = _
    simp only [Option.filter, h]
    cases P r <;> rfl

/-- Some of the waiting requests, chosen by something that is not their tickets. -/
theorem filter_map_plain {P : Request → Bool} (h : ∀ r : Request, P r.plain = P r)
    (l : List Request) : (l.map Request.plain).filter P = (l.filter P).map Request.plain := by
  rw [List.filter_map]
  congr 1
  exact List.filter_congr fun r _ => h r

/-! ### Places -/

theorem insertBeforeNormal_plain (r : Request) (l : List Request) :
    insertBeforeNormal r.plain (l.map Request.plain) =
      (insertBeforeNormal r l).map Request.plain := by
  induction l with
  | nil => rfl
  | cons q rest ih =>
    rw [List.map_cons]
    unfold insertBeforeNormal
    rw [Request.urgency_plain, ih]
    split <;> rfl

theorem enqueue_plain (r : Request) (l : List Request) :
    enqueue r.plain (l.map Request.plain) = (enqueue r l).map Request.plain := by
  unfold enqueue
  rw [Request.urgency_plain]
  cases r.urgency with
  | urgent => exact insertBeforeNormal_plain r l
  | normal =>
    show l.map Request.plain ++ [r].map Request.plain = (l ++ [r]).map Request.plain
    rw [List.map_append]

theorem requeue_plain (r : Request) (l : List Request) :
    requeue r.plain (l.map Request.plain) = (requeue r l).map Request.plain := by
  unfold requeue
  rw [Request.urgency_plain]
  cases r.urgency with
  | urgent => rfl
  | normal => exact insertBeforeNormal_plain r l

/-! ### Operations -/

theorem plain_submit (b : Backlog) (r : Request) :
    b.plain.submit r.plain = (b.submit r).map plain := by
  unfold submit
  rw [pendingLen_plain]
  show (if b.depth ≤ b.pendingLen then none else _) = _
  split
  · rfl
  · show some { b.plain with waiting := enqueue r.plain (b.waiting.map Request.plain) } = _
    rw [enqueue_plain]
    rfl

theorem plain_launch (b : Backlog) :
    b.plain.launch = b.launch.map (Prod.map (fun launch => launch) plain) := by
  cases hf : b.inFlight with
  | some r =>
    have hf' : b.plain.inFlight = some r.plain := congrArg (Option.map Request.plain) hf
    unfold launch
    rw [hf, hf']
    rfl
  | none =>
    have hf' : b.plain.inFlight = none := congrArg (Option.map Request.plain) hf
    cases hw : b.waiting with
    | nil =>
      have hw' : b.plain.waiting = [] := congrArg (List.map Request.plain) hw
      unfold launch
      rw [hf, hf', hw, hw']
      rfl
    | cons r rest =>
      have hw' : b.plain.waiting = r.plain :: rest.map Request.plain :=
        congrArg (List.map Request.plain) hw
      rw [launch_eq hf hw, launch_eq hf' hw', Request.advance_plain]
      rfl

theorem plain_close (b : Backlog) (r : Request) (target : Phase) (outcome : Outcome) :
    b.plain.close r.plain target outcome =
      Prod.map Finished.plain plain (b.close r target outcome) := by
  unfold close
  rw [Request.finish_plain]
  rfl

theorem plain_retry (b : Backlog) (r : Request) : b.plain.retry r.plain = (b.retry r).plain := by
  unfold retry
  rw [Request.advance_plain]
  show Backlog.note { b.plain with
    waiting := requeue (r.advance .queued).1.plain (b.waiting.map Request.plain) } _ = _
  rw [requeue_plain]
  rfl

theorem plain_transmitted (b : Backlog) (now : Instant) (timeout : Span) :
    b.plain.transmitted now timeout =
      Prod.map (Except.map (Option.map Finished.plain)) plain (b.transmitted now timeout) := by
  obtain ⟨agent, depth, waiting, inFlight, timeouts, refusals⟩ := b
  cases inFlight with
  | none => rfl
  | some r =>
    unfold transmitted plain
    dsimp only [Option.map_some]
    by_cases hp : r.phase = .sent
    · have hp' : r.plain.phase = .sent := hp
      rw [if_neg (not_not_intro hp), if_neg (not_not_intro hp')]
      cases he : r.payload.expectsReply with
      | true =>
        have he' : r.plain.payload.expectsReply = true := he
        have ha := Request.advance_plain { r with sentAt := some now } .awaitingAck
        have ha : ({ r.plain with sentAt := some now } : Request).advance .awaitingAck = _ := ha
        rw [if_pos rfl, if_pos he', ha]
        cases now.after timeout <;> rfl
      | false =>
        have he' : r.plain.payload.expectsReply = false := he
        rw [if_neg Bool.false_ne_true, if_neg (Bool.eq_false_iff.1 he')]
        exact congrArg (fun x : Finished × Backlog => (Except.ok (some x.1), x.2))
          (plain_close ⟨agent, depth, waiting, none, timeouts, refusals⟩
            { r with sentAt := some now } .acked (.success r.attempts none))
    · have hp' : r.plain.phase ≠ .sent := hp
      rw [if_pos hp, if_pos hp']
      rfl

/-- Ending the requests of a list one after the other. -/
theorem plain_closeAll (close : Backlog → Request → Finished × Backlog)
    (h : ∀ b r, close b.plain r.plain = Prod.map Finished.plain plain (close b r)) (b : Backlog)
    (l : List Request) :
    closeAll close b.plain (l.map Request.plain) =
      Prod.map (List.map Finished.plain) plain (closeAll close b l) := by
  induction l generalizing b with
  | nil => rfl
  | cons r rest ih =>
    rw [List.map_cons]
    unfold closeAll
    rw [h]
    dsimp only [Prod.map]
    rw [ih]
    rfl

theorem plain_dropCancelled (b : Backlog) :
    b.plain.dropCancelled = Prod.map (List.map Finished.plain) plain b.dropCancelled := by
  have hf := inFlight_filter_plain b (P := fun r => !r.cancelRequested) fun _ => rfl
  have hw := filter_map_plain (P := fun r => !r.cancelRequested) (fun _ => rfl) b.waiting
  have hr : b.plain.inFlight.toList.filter (·.cancelRequested) ++
      b.plain.waiting.filter (·.cancelRequested) =
      (b.inFlight.toList.filter (·.cancelRequested) ++
        b.waiting.filter (·.cancelRequested)).map Request.plain := by
    have ht : b.plain.inFlight.toList = b.inFlight.toList.map Request.plain := by
      unfold plain
      cases b.inFlight <;> rfl
    rw [ht, List.map_append, filter_map_plain fun _ => rfl]
    exact congrArg _ (filter_map_plain (fun _ => rfl) b.waiting)
  unfold dropCancelled
  dsimp only
  rw [hr, ← plain_closeAll closeCancelled fun b r => plain_close b r _ _]
  congr 1
  unfold plain at hf ⊢
  dsimp only at hf ⊢
  rw [hf, hw]

theorem plain_expire (b : Backlog) (r : Request) :
    b.plain.expire r.plain = Prod.map (Option.map Finished.plain) plain (b.expire r) := by
  have ha := Request.advance_plain r .timedOut
  have hr : ({ (r.plain.advance .timedOut).1 with deadline := none } : Request) =
      Request.plain { (r.advance .timedOut).1 with deadline := none } := by
    rw [ha]
    rfl
  have hb : Backlog.note { b.plain with
      inFlight := none
      timeouts := min (b.plain.timeouts + 1) maxTimeouts } (r.plain.advance .timedOut).2 =
      plain (Backlog.note { b with
        inFlight := none
        timeouts := min (b.timeouts + 1) maxTimeouts } (r.advance .timedOut).2) := by
    rw [ha]
    rfl
  have hn : (r.plain.advance .timedOut).1.attempts = (r.advance .timedOut).1.attempts := by
    rw [ha]
    rfl
  unfold expire
  dsimp only
  rw [hr, hb, hn, Request.attemptsRemain_plain]
  split
  · rw [plain_retry]
    rfl
  · rw [plain_close]
    rfl

theorem plain_review (b : Backlog) (now : Instant) :
    b.plain.review now = Prod.map (List.map Finished.plain) plain (b.review now) := by
  unfold review
  rw [plain_dropCancelled]
  dsimp only [Prod.map]
  rw [inFlight_filter_plain _ fun _ => rfl]
  cases b.dropCancelled.2.inFlight.filter (·.overdue now) with
  | none => rfl
  | some r =>
    dsimp only [Option.map_some]
    rw [plain_expire]
    dsimp only [Prod.map]
    rw [List.map_append]
    cases (b.dropCancelled.2.expire r).1 <;> rfl

theorem plain_answer (b : Backlog) (key : ReplyKey) (verdict : Verdict) (now : Instant) :
    b.plain.answer key verdict now =
      Prod.map (Option.map Match.plain) plain (b.answer key verdict now) := by
  unfold answer
  rw [inFlight_filter_plain _ fun _ => rfl]
  cases b.inFlight.filter (·.awaits key) with
  | none => rfl
  | some r =>
    dsimp only [Option.map_some]
    rw [Request.cancelRequested_plain]
    have hb : ({ b.plain with inFlight := none, timeouts := 0 } : Backlog) =
        plain { b with inFlight := none, timeouts := 0 } := rfl
    rw [hb]
    split
    · unfold closeCancelled
      rw [plain_close]
      rfl
    · rw [plain_close]
      rfl

theorem markCancelled_plain (id : RequestId) (l : List Request) :
    markCancelled id (l.map Request.plain) = (markCancelled id l).map Request.plain := by
  induction l with
  | nil => rfl
  | cons r rest ih =>
    rw [List.map_cons]
    unfold markCancelled
    rw [Request.id_plain, ih]
    split <;> rfl

theorem plain_withdraw (b : Backlog) (id : RequestId) :
    b.plain.withdraw id = Prod.map (fun found => found) plain (b.withdraw id) := by
  unfold withdraw
  rw [inFlight_filter_plain _ fun _ => rfl]
  cases b.inFlight.filter fun r => r.id = id with
  | some r => rfl
  | none =>
    dsimp only [Option.map_none]
    have hw : b.plain.waiting = b.waiting.map Request.plain := rfl
    rw [hw, markCancelled_plain, List.any_map]
    rfl

theorem plain_dissolve (b : Backlog) :
    b.plain.dissolve = Prod.map (List.map Finished.plain) plain b.dissolve := by
  unfold dissolve
  rw [requests_plain, ← plain_closeAll closeGone fun b r => plain_close b r _ _]
  rfl

end Backlog

end GroundControl
