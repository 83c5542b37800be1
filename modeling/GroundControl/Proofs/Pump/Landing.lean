import Mathlib.Algebra.Group.Nat.Defs
import GroundControl.Proofs.Pump.Shipments

/-!
# What a pump leaves in flight

A pump leaves the request in flight alone, or hands over one request that waits for its reply from
then on.  It ends no request for want of a reply but the one that was in flight and is overdue.

* `backoff_eq`, `le_backoff`, the time to allow, as long as no clock is out of range;
* `Sending.isAwaited`: the link took a frame, and a reply to it is awaited;
* `Outcome.TimedOut`, `Outcome.Replied`: a request ended for want of a reply, or with one;
  `Outcome.Genuine`: it did not just disappear;
* `Request.tried`, a request and the attempts at it;
* `Backlog.expires`: a review times out the request in flight; `review_inFlight`, `review_timeouts`,
  `review_timedOut`, `end_of_review`, `tried_of_review`, `unmarked_of_review`; `flight_of_answer`,
  `not_oneWay_of_answer`;
* `Pass.Lands`, what the rounds of a pass leave in flight, and `lands_rounds`;
* `end_of_rounds`, `waiting_rounds`: how the rounds end requests, and what waits has waited.
-/

namespace GroundControl

/-! ### The time to allow -/

/-- The factor by which the time to allow grows with the timeouts in a row. -/
theorem factor_eq (timeouts : Nat) :
    (if timeouts < 32 then 1 <<< timeouts else 4294967295) = min (2 ^ timeouts) 4294967295 := by
  split
  · rename_i h
    have hp : 2 ^ timeouts ≤ 2 ^ 31 := Nat.pow_le_pow_right (by decide) (Nat.le_of_lt_succ h)
    rw [Nat.one_shiftLeft]
    omega
  · rename_i h
    have hp : 2 ^ 32 ≤ 2 ^ timeouts := Nat.pow_le_pow_right (by decide) (Nat.le_of_not_lt h)
    omega

/-- As long as it does not reach the longest span, the time to allow is exact. -/
theorem backoff_eq {base cap : Span} {timeouts : Nat}
    (h : backoff base timeouts cap < Span.longest) :
    backoff base timeouts cap = min cap (min (2 ^ timeouts) 4294967295 * base) := by
  unfold backoff Span.times at h ⊢
  rw [factor_eq, Nat.mul_comm] at h ⊢
  unfold Span at *
  omega

/-- The time to allow is not below the one without any timeout. -/
theorem le_backoff {lo base cap : Span} (timeouts : Nat) (hb : lo ≤ base) (hc : lo ≤ cap)
    (h : backoff base timeouts cap < Span.longest) : lo ≤ backoff base timeouts cap := by
  rw [backoff_eq h]
  have hf : 1 ≤ min (2 ^ timeouts) 4294967295 := Nat.le_min.2 ⟨Nat.one_le_two_pow, by decide⟩
  exact Nat.le_min.2 ⟨hc, Nat.le_trans hb (Nat.le_mul_of_pos_left base hf)⟩

/-- The factor does not depend on how far timeouts are counted, if they are counted far enough. -/
theorem factor_min (k : Nat) {limit : Nat} (h : 32 ≤ limit) :
    min (2 ^ min k limit) 4294967295 = min (2 ^ k) 4294967295 := by
  rcases Nat.le_total k limit with hk | hk
  · rw [Nat.min_eq_left hk]
  · have hlimit : 2 ^ 32 ≤ 2 ^ limit := Nat.pow_le_pow_right (by decide) h
    have hpow : 2 ^ limit ≤ 2 ^ k := Nat.pow_le_pow_right (by decide) hk
    rw [Nat.min_eq_right hk]
    omega

/-- The time an estimate allows is within the bounds. -/
theorem Estimator.mem_bounds_of_timeout {t : Estimator TrafficClass} {c : TrafficClass}
    {base : Span} (h : t.timeout c = .ok base) : t.minTimeout ≤ base ∧ base ≤ t.maxTimeout := by
  unfold timeout Span.clamp at h
  dsimp only at h
  split at h
  · rename_i hle
    obtain rfl := Except.ok.inj h
    exact ⟨Nat.le_min.2 ⟨Nat.le_max_right .., hle⟩, Nat.min_le_right ..⟩
  · cases h

/-! ### Reviews -/

/-- A request ended for want of a reply. -/
def Outcome.TimedOut : Outcome → Prop
  | .failure .timeout _ _ => True
  | _ => False

/-- A request ended with a reply. -/
def Outcome.Replied : Outcome → Prop
  | .success _ roundTrip => roundTrip.isSome = true
  | .failure .rejected _ _ => True
  | _ => False

/-- An outcome that a station gives: if it says that the agent is gone, it says nothing else. -/
def Outcome.Genuine : Outcome → Prop
  | .failure .agentGone _ detail => detail = none
  | _ => True

/-- What a submitter is told if its request disappears is not what a station gives. -/
theorem Outcome.Genuine.ne_abandoned {o : Outcome} (h : o.Genuine) (network : NetworkId) :
    o ≠ .abandoned network := by
  rintro rfl
  cases h

/-- A request and the number of attempts at it. -/
def Request.tried (r : Request) : Ident × Nat := (r.ident, r.attempts)

namespace Backlog

variable {b : Backlog} {now : Instant}

/-- Whether a review times out the request in flight: it is overdue and was not withdrawn. -/
def expires (b : Backlog) (now : Instant) : Bool :=
  b.inFlight.any fun r => !r.cancelRequested && r.overdue now

theorem expires_iff : b.expires now = true ↔
    ∃ r, b.inFlight = some r ∧ r.cancelRequested = false ∧ r.overdue now = true := by
  unfold expires
  rw [Option.any_eq_true]
  refine exists_congr fun r => and_congr_right fun _ => ?_
  rw [Bool.and_eq_true, Bool.not_eq_true']

/-- A review either times out the request in flight, or it only ends the withdrawn requests. -/
theorem review_of_expires (hb : b.Settled) (now : Instant) :
    (b.expires now = false ∧ b.review now = (b.withdrawn.map Request.endCancelled, b.kept)) ∨
      ∃ r, b.inFlight = some r ∧ r.Flying ∧ r.overdue now = true ∧ b.expires now = true ∧
        b.review now = (b.withdrawn.map Request.endCancelled ++ (b.kept.expire r).1.toList,
          (b.kept.expire r).2) := by
  cases he : b.expires now with
  | false =>
    refine .inl ⟨rfl, review_of_not_overdue hb fun r hr hc => ?_⟩
    refine Bool.eq_false_iff.2 fun ho => ?_
    rw [expires_iff.2 ⟨r, hr, hc, ho⟩] at he
    cases he
  | true =>
    obtain ⟨r, hr, hc, ho⟩ := expires_iff.1 he
    exact .inr ⟨r, hr, hb.inFlight r hr, ho, rfl, review_of_overdue hb hr hc ho⟩

theorem review_inFlight (hb : b.Settled) (now : Instant) :
    (b.review now).2.inFlight = if b.expires now then none else b.kept.inFlight := by
  rcases review_of_expires hb now with ⟨he, hr⟩ | ⟨r, -, hf, -, he, hr⟩
  · rw [hr, he]
    rfl
  · rw [hr, he, if_pos rfl]
    dsimp only
    rw [expire_eq hf]
    split <;> rfl

theorem review_timeouts (hb : b.Settled) (now : Instant) :
    (b.review now).2.timeouts =
      if b.expires now then min (b.timeouts + 1) maxTimeouts else b.timeouts := by
  rcases review_of_expires hb now with ⟨he, hr⟩ | ⟨r, -, hf, -, he, hr⟩
  · rw [hr, he]
    rfl
  · rw [hr, he, if_pos rfl]
    dsimp only
    rw [expire_eq hf]
    split <;> rfl

/-- The request that a review times out is the one in flight. -/
theorem review_timedOut (hb : b.Settled) {f : Finished} (hf : f ∈ (b.review now).1)
    (ht : f.outcome.TimedOut) :
    ∃ r, b.inFlight = some r ∧ b.expires now = true ∧ f.ident = r.ident := by
  have hw : f ∉ b.withdrawn.map Request.endCancelled := by
    intro hm
    obtain ⟨r, -, rfl⟩ := List.mem_map.1 hm
    exact ht
  rcases review_of_expires hb now with ⟨-, hr⟩ | ⟨r, hfl, hfly, -, he, hr⟩
  · rw [hr] at hf
    exact absurd hf hw
  · refine ⟨r, hfl, he, ?_⟩
    rw [hr] at hf
    have hm := (List.mem_append.1 hf).resolve_left hw
    rw [expire_eq hfly] at hm
    split at hm
    · cases hm
    · obtain rfl := List.mem_singleton.1 hm
      rfl

/-- A reply ends the request in flight, and not for want of a reply. -/
theorem flight_of_answer {b' : Backlog} {key : ReplyKey} {verdict : Verdict} {found : Match}
    (h : b.answer key verdict now = (some found, b')) :
    ∃ r, b.inFlight = some r ∧ r.awaits key = true ∧ found.finished.ident = r.ident ∧
      ¬ found.finished.outcome.TimedOut ∧ found.finished.outcome.Genuine := by
  cases hf : b.inFlight.filter (·.awaits key) with
  | none =>
    unfold answer at h
    rw [hf] at h
    cases h
  | some r =>
    obtain ⟨hr, hk⟩ := Option.filter_eq_some_iff.1 hf
    rw [answer_eq hr hk] at h
    refine ⟨r, hr, hk, ?_⟩
    split at h
    · cases h
      exact ⟨rfl, id, trivial⟩
    · cases h
      cases verdict <;> exact ⟨rfl, id, trivial⟩

/-- A request that is answered does not end without a reply. -/
theorem not_oneWay_of_answer (hb : b.Settled) {b' : Backlog} {key : ReplyKey} {verdict : Verdict}
    {found : Match} (h : b.answer key verdict now = (some found, b')) :
    ¬ found.finished.outcome.OneWay := by
  obtain ⟨r, hr, hk, -⟩ := flight_of_answer h
  obtain ⟨t, ht⟩ := Option.isSome_iff_exists.1 (hb.inFlight r hr).sentAt
  rw [answer_eq hr hk, ht] at h
  split at h
  · cases h
    exact id
  · cases h
    cases verdict with
    | accepted => exact Option.some_ne_none _
    | rejected reason => exact id

/-- A review ends requests as withdrawn, or for want of a reply. -/
theorem end_of_review (hb : b.Settled) {f : Finished} (hf : f ∈ (b.review now).1) :
    ∃ r : Request, f = r.endCancelled ∨ f = r.endTimeout := by
  have hw : f ∈ b.withdrawn.map Request.endCancelled → ∃ r : Request, f = r.endCancelled :=
    fun hm => (List.mem_map.1 hm).imp fun r hr => hr.2.symm
  rcases review_of_expires hb now with ⟨-, hr⟩ | ⟨r, -, hfly, -, -, hr⟩
  · rw [hr] at hf
    exact (hw hf).imp fun r hr => .inl hr
  · rw [hr] at hf
    rcases List.mem_append.1 hf with hm | hm
    · exact (hw hm).imp fun r hr => .inl hr
    · rw [expire_eq hfly] at hm
      split at hm
      · cases hm
      · exact ⟨_, .inr (List.mem_singleton.1 hm)⟩

/-- What waits after a review has waited before, or was in flight and is timed out. -/
theorem tried_of_review (hb : b.Settled) {q : Request} (hq : q ∈ (b.review now).2.waiting) :
    q.tried ∈ b.waiting.map Request.tried ∨
      ∃ r, b.inFlight = some r ∧ b.expires now = true ∧ r.tried = q.tried := by
  rcases review_of_expires hb now with ⟨-, hr⟩ | ⟨r, hfl, hfly, -, he, hr⟩
  · rw [hr] at hq
    exact .inl (List.mem_map_of_mem (List.mem_filter.1 hq).1)
  · rw [hr] at hq
    have hm := mem_expire hfly (mem_requests.2 (.inr hq))
    rcases hm with rfl | hw
    · exact .inr ⟨r, hfl, he, rfl⟩
    · exact .inl (List.mem_map_of_mem (List.mem_filter.1 hw).1)

/-- What waits after a review was not withdrawn. -/
theorem unmarked_of_review (hb : b.Settled) {q : Request} (hq : q ∈ (b.review now).2.waiting) :
    q.cancelRequested = false := by
  have hkept : ∀ w ∈ b.kept.waiting, w.cancelRequested = false := fun w hw => by
    simpa using (List.mem_filter.1 hw).2
  rcases review_of_expires hb now with ⟨-, hr⟩ | ⟨r, hfl, hfly, -, he, hr⟩
  · rw [hr] at hq
    exact hkept q hq
  · rw [hr] at hq
    rcases mem_expire hfly (mem_requests.2 (.inr hq)) with rfl | hw
    · obtain ⟨r', hfl', hc, -⟩ := expires_iff.1 he
      obtain rfl := Option.some.inj (hfl.symm.trans hfl')
      exact hc
    · exact hkept q hw

end Backlog

/-! ### Rounds -/

/-- Whether the link took a frame to which a reply is awaited. -/
def Sending.isAwaited (f : Sending) : Bool := f.1.key.isSome && f.2.isOk

namespace Pass

variable {τ : Type} {ctx : PassContext} {p q : Pass τ}

/-- The request that a pass leaves in flight: the one there was, or one that it handed over with its
last frame. -/
inductive Lands (ctx : PassContext) (p q : Pass τ) : Prop
  | grounded (frames : List Sending) (hq : q.frames = p.frames ++ frames)
      (hframes : ∀ f ∈ frames, f.isAwaited = false)
      (hflight : q.backlog.inFlight = p.backlog.inFlight)
  | flying (frames : List Sending) (r : Request) (base : Span) (deadline : Instant)
      (hq : q.frames = p.frames ++ frames ++ [(ctx.frame r, .ok ())])
      (hframes : ∀ f ∈ frames, f.isAwaited = false) (hidle : p.backlog.inFlight = none)
      (hr : r ∈ p.backlog.waiting) (hreply : r.payload.expectsReply = true)
      (hbase : ctx.estimator.timeout r.trafficClass = .ok base)
      (hdeadline : deadline = ctx.now + backoff base p.backlog.timeouts ctx.maxTimeout)
      (hhorizon : deadline < Instant.horizon)
      (hflight : q.backlog.inFlight = some (r.transmitted ctx.now deadline))

section Rounds

variable [Carrier τ] {r : Request} {rest : List Request} {throttle : Option (Bucket Float)}
  {base : Span} {answer : Except LinkError Unit} {carrier : τ}

/-- A round hands the first waiting request over if it is paid for. -/
theorem Handed.round_eq (h : Handed ctx p r rest throttle base answer carrier) (hr : r.Waiting) :
    round ctx p = transmit ctx (p.handing r rest throttle) r.launch := by
  unfold round Backlog.nextClass
  rw [h.idle, h.head]
  dsimp only [List.head?_cons, Option.map_some]
  rw [h.paid]
  dsimp only
  rw [launch_eq_launched h.idle h.head hr]
  rfl

/-- A request is not left in flight with a deadline no clock can show. -/
theorem Handed.deadline_lt (h : Handed ctx p r rest throttle base (.ok ()) carrier)
    (hr : r.Waiting) (he : r.payload.expectsReply = true) {q : Pass τ}
    (hq : round ctx p = .stop q) :
    ctx.now + backoff base p.backlog.timeouts ctx.maxTimeout < Instant.horizon := by
  refine Decidable.byContradiction fun hn => ?_
  have hafter : Instant.after ctx.now (backoff base p.backlog.timeouts ctx.maxTimeout) =
      .error .instantOverflow := if_neg hn
  rw [h.round_eq hr] at hq
  unfold transmit handing at hq
  dsimp only at hq
  rw [Request.trafficClass_launch, h.allowed, frameOf_launch] at hq
  dsimp only at hq
  rw [h.sent] at hq
  dsimp only at hq
  have ht : (launched p.backlog r rest).timeouts = p.backlog.timeouts := rfl
  rw [transmitted_launched _ _ h.idle, ht, if_pos he, hafter] at hq
  cases hq

theorem unawaited_of_error {f : Frame} {e : LinkError} :
    Sending.isAwaited (f, .error e) = false :=
  Bool.and_false _

/-- A request to which no reply is awaited goes ahead of what is left in flight. -/
theorem Lands.after_oneWay (h : Handed ctx p r rest throttle base (.ok ()) carrier)
    (hr : r.payload.expectsReply = false) {p' : Pass τ}
    (hframes : p'.frames = p.frames ++ [(ctx.frame r, .ok ())])
    (hbacklog : p'.backlog = { p.backlog with waiting := rest }) (hlands : Lands ctx p' q) :
    Lands ctx p q := by
  have hunawaited : Sending.isAwaited (ctx.frame r, .ok ()) = false := by
    have hk : (ctx.frame r).key.isSome = false := hr
    unfold Sending.isAwaited
    rw [hk, Bool.false_and]
  cases hlands with
  | grounded frames hq hnone hflight =>
    rw [hframes, List.append_assoc] at hq
    rw [hbacklog] at hflight
    exact .grounded _ hq (List.forall_mem_cons.2 ⟨hunawaited, hnone⟩) hflight
  | flying frames x base deadline hq hnone hidle hx hreply hbase hdeadline hhorizon hflight =>
    rw [hframes, List.append_assoc p.frames] at hq
    rw [hbacklog] at hx hdeadline
    exact .flying _ x base deadline hq (List.forall_mem_cons.2 ⟨hunawaited, hnone⟩) h.idle
      (h.head ▸ List.mem_cons_of_mem r hx) hreply hbase hdeadline hhorizon hflight

/-- What the rounds of a pass leave in flight. -/
theorem lands_rounds {n : Nat} (hp : p.Sound) (h : rounds ctx n p = (none, q)) :
    Lands ctx p q ∧ q.backlog.timeouts = p.backlog.timeouts := by
  induction n generalizing p with
  | zero =>
    cases h
    exact ⟨.grounded [] (List.append_nil _).symm (List.forall_mem_nil _) rfl, rfl⟩
  | succ n ih =>
    have hc := round_case ctx hp.settled
    have hall := sound_round ctx hp
    unfold rounds at h
    cases hround : round ctx p with
    | fault fault p' =>
      rw [hround] at h
      cases h
    | stop p' =>
      rw [hround] at h hc
      cases h
      cases hc with
      | idle => exact ⟨.grounded [] (List.append_nil _).symm (List.forall_mem_nil _) rfl, rfl⟩
      | unpaid => exact ⟨.grounded [] (List.append_nil _).symm (List.forall_mem_nil _) rfl, rfl⟩
      | @flying r rest throttle base carrier deadline hh hr hd =>
        have hlt := hh.deadline_lt (hh.waiting hp.settled).1 hr hround
        refine ⟨.flying [] r base deadline ?_ (List.forall_mem_nil _) hh.idle ?_ hr hh.allowed hd
          (hd ▸ hlt) rfl, rfl⟩
        · rw [List.append_nil]
          rfl
        · rw [hh.head]
          exact List.mem_cons_self
      | retried hh hr =>
        exact ⟨.grounded [_] rfl (List.forall_mem_singleton.2 unawaited_of_error) rfl, rfl⟩
      | failed hh hr =>
        exact ⟨.grounded [_] rfl (List.forall_mem_singleton.2 unawaited_of_error) rfl, rfl⟩
    | next p' =>
      rw [hround] at h hc hall
      cases hc with
      | @oneWay r rest throttle base carrier hh hr =>
        obtain ⟨hlands, ht⟩ := ih hall.1 h
        exact ⟨hlands.after_oneWay hh hr rfl rfl, ht⟩

/-- The rounds of a pass end requests that expect no reply, or for want of a link. -/
theorem end_of_rounds {n : Nat} (hp : p.Sound) (h : rounds ctx n p = (none, q)) :
    ∀ f ∈ q.finished, f ∉ p.finished →
      ∃ r : Request, f = r.endOneWay ∨ ∃ detail, f = r.endRefused detail := by
  refine hp.rounds_induction (P := fun q => ∀ f ∈ q.finished, f ∉ p.finished →
    ∃ r : Request, f = r.endOneWay ∨ ∃ detail, f = r.endRefused detail) ?_ h
      fun f hf hn => absurd hf hn
  intro p₁ hs hi
  have hc := round_case ctx hs.settled
  generalize round ctx p₁ = result at hc ⊢
  cases hc with
  | idle | unpaid | flying | retried => exact hi
  | fault => trivial
  | oneWay =>
    exact List.forall_mem_append.2 ⟨hi, List.forall_mem_singleton.2 fun _ => ⟨_, .inl rfl⟩⟩
  | failed =>
    exact List.forall_mem_append.2 ⟨hi, List.forall_mem_singleton.2 fun _ => ⟨_, .inr ⟨_, rfl⟩⟩⟩

/-- What waits after the rounds of a pass has waited before. -/
theorem waiting_rounds {n : Nat} (hp : p.Sound) (h : rounds ctx n p = (none, q)) :
    ∀ w ∈ q.backlog.waiting, ∃ r ∈ p.backlog.waiting,
      r.ident = w.ident ∧ r.attempts ≤ w.attempts := by
  refine hp.rounds_induction (P := fun q => ∀ w ∈ q.backlog.waiting, ∃ r ∈ p.backlog.waiting,
    r.ident = w.ident ∧ r.attempts ≤ w.attempts) ?_ h fun w hw => ⟨w, hw, rfl, Nat.le_refl _⟩
  intro p₁ hs hi
  have hc := round_case ctx hs.settled
  generalize round ctx p₁ = result at hc ⊢
  cases hc with
  | idle | unpaid => exact hi
  | fault => trivial
  | flying hh | oneWay hh | failed hh =>
    rw [hh.head] at hi
    exact fun w hw => hi w (List.mem_cons_of_mem _ hw)
  | @retried r rest _ _ _ _ hh =>
    rw [hh.head] at hi
    intro w hw
    rcases List.mem_cons.1 ((Backlog.requeue_perm _ _).mem_iff.1 hw) with rfl | hw
    · obtain ⟨x, hx, he, hn⟩ := hi r List.mem_cons_self
      exact ⟨x, hx, he, Nat.le_succ_of_le hn⟩
    · exact hi w (List.mem_cons_of_mem _ hw)

end Rounds

end Pass

end GroundControl
