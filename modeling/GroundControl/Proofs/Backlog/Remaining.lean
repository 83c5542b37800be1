import GroundControl.Tally
import GroundControl.Proofs.Backlog.Lifecycle

/-!
# The attempts a backlog has left

A request that is neither answered nor lost with its agent makes its attempts and ends.  What a
review makes of the attempts that are left, and of the requests that make them.

* `Request.attemptsLeft`, `Backlog.attemptsLeft`;
* `Request.Later`: a request as it is some attempts later;
* `Request.Ends`, the outcomes of a request that gets no answer and is not lost with its agent;
* `Backlog.Marked`: no request is marked as withdrawn but those with given numbers;
* `Backlog.Due`: the reply to the request in flight is overdue after a given instant;
* `later_review`, `ends_review`, `attemptsLeft_review`, `idle_review`: the review.
-/

namespace GroundControl

namespace Request

/-- The number of attempts a request may still make. -/
def attemptsLeft (r : Request) : Nat := r.maxAttempts - r.attempts

/-- `q` is the request `r` some attempts later, perhaps withdrawn if its number is among `ids`. -/
structure Later (ids : List RequestId) (r q : Request) : Prop where
  ident : q.ident = r.ident
  payload : q.payload = r.payload
  maxAttempts : q.maxAttempts = r.maxAttempts
  withdrawn : q.cancelRequested = true → r.cancelRequested = true ∨ q.id ∈ ids

/-- The outcomes of a request that gets no answer and is not lost with its agent, if only the
requests with the numbers `ids` are withdrawn. -/
inductive Ends (ids : List RequestId) (r : Request) : Outcome → Prop
  /-- it was transmitted and expects no reply -/
  | acked {n : Nat} (h : r.payload.expectsReply = false) : Ends ids r (.success n none)
  /-- the last of its attempts was not answered in time -/
  | timedOut : Ends ids r (.failure .timeout r.maxAttempts none)
  /-- the link refused the last of its attempts -/
  | refused {detail : String} : Ends ids r (.failure .transport r.maxAttempts (some detail))
  | withdrawn {n : Nat} (h : r.id ∈ ids) : Ends ids r (.failure .cancelled n none)

variable {ids : List RequestId} {r q : Request}

theorem Later.refl (ids : List RequestId) (r : Request) : r.Later ids r := ⟨rfl, rfl, rfl, .inl⟩

theorem Later.trans {x : Request} (h : r.Later ids q) (h' : q.Later ids x) : r.Later ids x where
  ident := h'.ident.trans h.ident
  payload := h'.payload.trans h.payload
  maxAttempts := h'.maxAttempts.trans h.maxAttempts
  withdrawn hx := by
    have hid : x.id = q.id := congrArg Ident.request h'.ident
    rcases h'.withdrawn hx with hq | hm
    · rw [hid]
      exact h.withdrawn hq
    · exact .inr hm

/-- What is an end of a request later on is an end of it now. -/
theorem Later.ends (h : r.Later ids q) {outcome : Outcome} (hq : q.Ends ids outcome) :
    r.Ends ids outcome := by
  have hid : q.id = r.id := congrArg Ident.request h.ident
  cases hq with
  | acked he => exact .acked (h.payload ▸ he)
  | timedOut =>
    rw [h.maxAttempts]
    exact .timedOut
  | refused =>
    rw [h.maxAttempts]
    exact .refused
  | withdrawn hm => exact .withdrawn (hid ▸ hm)

theorem later_queuedAgain (ids : List RequestId) (r : Request) : r.Later ids r.queuedAgain :=
  ⟨rfl, rfl, rfl, .inl⟩

end Request

namespace Backlog

/-- The number of attempts the pending requests may still make. -/
def attemptsLeft (b : Backlog) : Nat := total Request.attemptsLeft b.requests

/-- No request is marked as withdrawn but those with the numbers `ids`. -/
def Marked (ids : List RequestId) (b : Backlog) : Prop :=
  ∀ r ∈ b.requests, r.cancelRequested = true → r.id ∈ ids

/-- The reply to the request in flight is overdue after `last`. -/
def Due (last : Instant) (b : Backlog) : Prop :=
  ∀ r, b.inFlight = some r → ∀ deadline, r.deadline = some deadline → deadline ≤ last

variable {b : Backlog} {ids : List RequestId}

theorem due_of_idle (h : b.inFlight = none) (last : Instant) : b.Due last := fun r hr => by
  rw [h] at hr
  cases hr

theorem Due.mono {last last' : Instant} (h : b.Due last) (hl : last ≤ last') : b.Due last' :=
  fun r hr deadline hd => Nat.le_trans (h r hr deadline hd) hl

/-- Requests that are later versions of others are marked as these are. -/
theorem Marked.of_later {b' : Backlog} (h : b.Marked ids)
    (hl : ∀ q ∈ b'.requests, ∃ r ∈ b.requests, r.Later ids q) : b'.Marked ids := by
  intro q hq hc
  obtain ⟨r, hr, hrq⟩ := hl q hq
  have hid : q.id = r.id := congrArg Ident.request hrq.ident
  rcases hrq.withdrawn hc with hr' | hm
  · exact hid ▸ h r hr hr'
  · exact hm

/-! ### Attempts left -/

theorem attemptsLeft_of_idle (h : b.inFlight = none) :
    b.attemptsLeft = total Request.attemptsLeft b.waiting := by
  unfold attemptsLeft requests
  rw [h]
  rfl

theorem attemptsLeft_of_inFlight {r : Request} (h : b.inFlight = some r) :
    b.attemptsLeft = r.attemptsLeft + total Request.attemptsLeft b.waiting := by
  unfold attemptsLeft requests
  rw [h]
  rfl

theorem attemptsLeft_requeue (r : Request) (waiting : List Request) :
    total Request.attemptsLeft (requeue r waiting) =
      r.attemptsLeft + total Request.attemptsLeft waiting :=
  total_perm _ (requeue_perm r waiting)

theorem attemptsLeft_kept (b : Backlog) : b.kept.attemptsLeft ≤ b.attemptsLeft := by
  unfold attemptsLeft
  rw [requests_kept]
  exact total_filter_le ..

/-- A timeout uses no attempt up. -/
theorem attemptsLeft_expire {r : Request} (hr : r.Flying) (hf : b.inFlight = some r) :
    (b.expire r).2.attemptsLeft ≤ b.attemptsLeft := by
  rw [attemptsLeft_of_inFlight hf, expire_eq hr]
  split
  · have hq : r.queuedAgain.attemptsLeft = r.attemptsLeft := rfl
    refine Nat.le_of_eq ?_
    rw [attemptsLeft_of_idle rfl, attemptsLeft_requeue, hq]
  · rw [attemptsLeft_of_idle rfl]
    exact Nat.le_add_left ..

theorem attemptsLeft_review (hb : b.Settled) (now : Instant) :
    (b.review now).2.attemptsLeft ≤ b.attemptsLeft := by
  rcases review_cases hb now with ⟨-, hrev⟩ | ⟨r, hr, -, hrev⟩
  · rw [hrev]
    exact b.attemptsLeft_kept
  · rw [hrev]
    exact Nat.le_trans (attemptsLeft_expire (hb.kept.inFlight r hr) hr) b.attemptsLeft_kept

/-! ### The review -/

theorem later_review (hb : b.Settled) (ids : List RequestId) (now : Instant) :
    ∀ q ∈ (b.review now).2.requests, ∃ r ∈ b.requests, r.Later ids q := by
  have hk : ∀ q ∈ b.kept.requests, ∃ r ∈ b.requests, r.Later ids q := fun q hq =>
    ⟨q, b.kept_subset q hq, .refl ids q⟩
  rcases review_cases hb now with ⟨-, hrev⟩ | ⟨r, hr, -, hrev⟩
  · rw [hrev]
    exact hk
  · rw [hrev]
    intro q hq
    rcases mem_expire (hb.kept.inFlight r hr) hq with rfl | hw
    · exact ⟨r, b.kept_subset r (mem_requests.2 (.inl hr)), Request.later_queuedAgain ids r⟩
    · exact hk q (mem_requests.2 (.inr hw))

/-- A review ends withdrawn requests, and one whose last attempt was not answered in time. -/
theorem ends_review (hb : b.Settled) (hm : b.Marked ids) (now : Instant) :
    ∀ f ∈ (b.review now).1, ∃ r ∈ b.requests, f.ident = r.ident ∧ r.Ends ids f.outcome := by
  have hw : ∀ f ∈ b.withdrawn.map Request.endCancelled,
      ∃ r ∈ b.requests, f.ident = r.ident ∧ r.Ends ids f.outcome := by
    intro f hf
    obtain ⟨r, hr, rfl⟩ := List.mem_map.1 hf
    obtain ⟨hr, hc⟩ := List.mem_filter.1 hr
    exact ⟨r, hr, rfl, .withdrawn (hm r hr hc)⟩
  rcases review_cases hb now with ⟨-, hrev⟩ | ⟨r, hr, -, hrev⟩
  · rw [hrev]
    exact hw
  · have hfly := hb.kept.inFlight r hr
    rw [hrev]
    intro f hf
    rcases List.mem_append.1 hf with hf | hf
    · exact hw f hf
    · rw [expire_eq hfly] at hf
      split at hf
      · cases hf
      · rename_i ha
        obtain rfl := List.mem_singleton.1 hf
        -- no attempt is left, so all of them were made
        have hmax : r.attempts = r.maxAttempts := by
          have hle := hfly.attempts
          have hlt : ¬ r.attempts < r.maxAttempts := fun hlt => ha (decide_eq_true hlt)
          omega
        refine ⟨r, b.kept_subset r (mem_requests.2 (.inl hr)), rfl, ?_⟩
        show r.Ends ids (.failure .timeout r.attempts none)
        rw [hmax]
        exact .timedOut

theorem Due.review {last : Instant} (h : b.Due last) (hb : b.Settled) (now : Instant) :
    (b.review now).2.Due last := by
  rcases review_cases hb now with ⟨-, hrev⟩ | ⟨r, hr, -, hrev⟩
  · rw [hrev]
    exact fun q hq => h q (Option.filter_eq_some_iff.1 hq).1
  · rw [hrev, expire_eq (hb.kept.inFlight r hr)]
    split
    · exact due_of_idle rfl last
    · exact due_of_idle rfl last

theorem Due.overdue {last now : Instant} {r : Request} (h : b.Due last) (hb : b.Settled)
    (hn : last < now) (hr : b.inFlight = some r) : r.overdue now = true := by
  have hf := hb.inFlight r hr
  obtain ⟨deadline, hd⟩ := Option.isSome_iff_exists.1 hf.deadline
  have hlt : deadline < now := Nat.lt_of_le_of_lt (h r hr deadline hd) hn
  unfold Request.overdue
  rw [hf.phase, hd]
  exact decide_eq_true hlt

/-- No request is in flight after a review that finds the reply overdue. -/
theorem idle_review {last now : Instant} (hb : b.Settled) (h : b.Due last) (hn : last < now) :
    (b.review now).2.inFlight = none := by
  rcases review_cases hb now with ⟨hk, hrev⟩ | ⟨r, hr, -, hrev⟩
  · rw [hrev]
    cases hf : b.kept.inFlight with
    | none => rfl
    | some r =>
      -- a request that is still in flight was not overdue
      have ho := h.overdue hb hn (Option.filter_eq_some_iff.1 hf).1
      rw [hk r hf] at ho
      cases ho
  · rw [hrev, expire_eq (hb.kept.inFlight r hr)]
    split
    · rfl
    · rfl

/-! ### Withdrawing a request -/

theorem mem_markCancelled {id : RequestId} {l : List Request} {q : Request}
    (hq : q ∈ markCancelled id l) (hid : id ∈ ids) : ∃ r ∈ l, r.Later ids q := by
  induction l with
  | nil => cases hq
  | cons x rest ih =>
    unfold markCancelled at hq
    split at hq
    · rename_i hx
      rcases List.mem_cons.1 hq with rfl | hm
      · refine ⟨x, List.mem_cons_self, rfl, rfl, rfl, fun _ => .inr ?_⟩
        exact hx ▸ hid
      · exact ⟨q, List.mem_cons_of_mem x hm, .refl ids q⟩
    · rcases List.mem_cons.1 hq with rfl | hm
      · exact ⟨q, List.mem_cons_self, .refl ids q⟩
      · obtain ⟨r, hr, hl⟩ := ih hm
        exact ⟨r, List.mem_cons_of_mem x hr, hl⟩

theorem later_withdraw (b : Backlog) {id : RequestId} (hid : id ∈ ids) :
    ∀ q ∈ (b.withdraw id).2.requests, ∃ r ∈ b.requests, r.Later ids q := by
  unfold withdraw
  cases hf : b.inFlight.filter fun r => r.id = id with
  | none =>
    intro q hq
    rcases mem_requests.1 hq with hr | hw
    · exact ⟨q, mem_requests.2 (.inl hr), .refl ids q⟩
    · obtain ⟨r, hr, hl⟩ := mem_markCancelled hw hid
      exact ⟨r, mem_requests.2 (.inr hr), hl⟩
  | some x =>
    obtain ⟨hx, hxid⟩ := Option.filter_eq_some_iff.1 hf
    have hxid : x.id = id := of_decide_eq_true hxid
    intro q hq
    rcases mem_requests.1 hq with hr | hw
    · cases hr
      refine ⟨x, mem_requests.2 (.inl hx), rfl, rfl, rfl, fun _ => .inr ?_⟩
      exact hxid ▸ hid
    · exact ⟨q, mem_requests.2 (.inr hw), .refl ids q⟩

theorem attemptsLeft_markCancelled (id : RequestId) (l : List Request) :
    total Request.attemptsLeft (markCancelled id l) = total Request.attemptsLeft l := by
  induction l with
  | nil => rfl
  | cons x rest ih =>
    unfold markCancelled
    split
    · rfl
    · rw [total_cons, total_cons, ih]

theorem attemptsLeft_withdraw (b : Backlog) (id : RequestId) :
    (b.withdraw id).2.attemptsLeft = b.attemptsLeft := by
  unfold withdraw
  cases hf : b.inFlight.filter fun r => r.id = id with
  | none =>
    unfold attemptsLeft requests
    rw [total_append, attemptsLeft_markCancelled, ← total_append]
  | some x =>
    have hx := (Option.filter_eq_some_iff.1 hf).1
    rw [attemptsLeft_of_inFlight hx, attemptsLeft_of_inFlight rfl]
    rfl

theorem Due.withdraw {last : Instant} (h : b.Due last) (id : RequestId) :
    (b.withdraw id).2.Due last := by
  unfold Backlog.withdraw
  cases hf : b.inFlight.filter fun r => r.id = id with
  | none => exact h
  | some x =>
    have hx := (Option.filter_eq_some_iff.1 hf).1
    intro q hq
    cases hq
    exact h x hx

end Backlog

end GroundControl
