import GroundControl.Proofs.Backlog.Remaining
import GroundControl.Proofs.Pump.Rounds

/-!
# The progress of a pump

Every time a request is handed to the link it uses one of its attempts up, whatever the link
answers. So a pump that finds the link idle and its first request paid for leaves fewer attempts.

* `Pass.Descends`: the requests of a pass, pending or ended, come from those of a backlog;
* `descends_rounds`: they do so at the end of a pump;
* `spends_round`: a round uses up an attempt, or nothing could be handed to the link;
* `attemptsLeft_rounds`, `spends_rounds`, `due_rounds`, `throttle_rounds`: what holds at the end;
* `rounds_of_inRange`: a pump whose times can be told meets no fault.
-/

namespace GroundControl

namespace Request

variable {ids : List RequestId}

theorem later_transmitted (ids : List RequestId) (r : Request) (now deadline : Instant) :
    r.Later ids (r.transmitted now deadline) :=
  ⟨rfl, rfl, rfl, .inl⟩

theorem later_refused (ids : List RequestId) (r : Request) : r.Later ids r.refused :=
  ⟨rfl, rfl, rfl, .inl⟩

theorem Waiting.ends_refused {r : Request} (h : r.Waiting)
    (ha : ¬ r.attempts + 1 < r.maxAttempts) (detail : String) :
    r.Ends ids (r.endRefused detail).outcome := by
  have hmax : r.attempts + 1 = r.maxAttempts := by
    have hlt := h.attempts
    omega
  show r.Ends ids (.failure .transport (r.attempts + 1) (some detail))
  rw [hmax]
  exact .refused

/-- An attempt uses one of the attempts up. -/
theorem Waiting.attemptsLeft_lt {r q : Request} (h : r.Waiting)
    (hm : q.maxAttempts = r.maxAttempts) (ha : q.attempts = r.attempts + 1) :
    q.attemptsLeft < r.attemptsLeft := by
  have hlt := h.attempts
  unfold attemptsLeft
  omega

theorem Waiting.attemptsLeft_pos {r : Request} (h : r.Waiting) : 0 < r.attemptsLeft :=
  Nat.sub_pos_of_lt h.attempts

end Request

namespace Pass

variable {τ : Type} {ids : List RequestId} {b : Backlog} {p q : Pass τ} {ctx : PassContext}

/-- The requests of a pass, pending or ended, are those of the backlog `b` some attempts later. -/
structure Descends (ids : List RequestId) (b : Backlog) (p : Pass τ) : Prop where
  pending : ∀ q ∈ p.backlog.requests, ∃ r ∈ b.requests, r.Later ids q
  ended : ∀ f ∈ p.finished, ∃ r ∈ b.requests, f.ident = r.ident ∧ r.Ends ids f.outcome

/-- An end of a request of the pass is an end of the request it comes from. -/
theorem Descends.snoc (h : p.Descends ids b) {r : Request} (hr : r ∈ p.backlog.requests)
    {f : Finished} (hi : f.ident = r.ident) (he : r.Ends ids f.outcome) :
    ∀ f' ∈ p.finished ++ [f], ∃ r ∈ b.requests, f'.ident = r.ident ∧ r.Ends ids f'.outcome := by
  refine List.forall_mem_append.2 ⟨h.ended, List.forall_mem_singleton.2 ?_⟩
  obtain ⟨x, hx, hxr⟩ := h.pending r hr
  exact ⟨x, hx, hi.trans hxr.ident, hxr.ends he⟩

section Rounds

variable [Carrier τ]

theorem descends_round (ctx : PassContext) (hs : p.backlog.Settled) (h : p.Descends ids b) :
    Round.All (Descends ids b) (round ctx p) := by
  have hc := round_case ctx hs
  generalize round ctx p = result at hc ⊢
  cases hc with
  | idle => exact h
  | unpaid => exact ⟨h.pending, h.ended⟩
  | fault => trivial
  | @flying r rest throttle base carrier deadline hh hr hd =>
    obtain ⟨hm, hall⟩ := hh.pending
    refine ⟨?_, h.ended⟩
    intro q hq
    rcases Backlog.mem_requests.1 hq with hi | hq
    · cases hi
      obtain ⟨x, hx, hxr⟩ := h.pending r hm
      exact ⟨x, hx, hxr.trans (r.later_transmitted ids ctx.now deadline)⟩
    · exact h.pending q (hall q hq)
  | @oneWay r rest throttle base carrier hh hr =>
    obtain ⟨hm, hall⟩ := hh.pending
    exact ⟨fun q hq => h.pending q (hall q (hh.mem_replaced hq)), h.snoc hm rfl (.acked hr)⟩
  | @retried r rest throttle base e carrier hh hr =>
    obtain ⟨hm, hall⟩ := hh.pending
    refine ⟨fun q hq => ?_, h.ended⟩
    have hq := hh.mem_replaced hq
    rcases List.mem_cons.1 ((Backlog.requeue_perm _ _).mem_iff.1 hq) with rfl | hq
    · obtain ⟨x, hx, hxr⟩ := h.pending r hm
      exact ⟨x, hx, hxr.trans (r.later_refused ids)⟩
    · exact h.pending q (hall q hq)
  | @failed r rest throttle base e carrier hh hr =>
    obtain ⟨hm, hall⟩ := hh.pending
    have hw := (hh.waiting hs).1
    exact ⟨fun q hq => h.pending q (hall q (hh.mem_replaced hq)),
      h.snoc hm rfl (hw.ends_refused hr e.message)⟩

theorem descends_rounds {n : Nat} (hp : p.Sound) (h : p.Descends ids b)
    (hr : rounds ctx n p = (none, q)) : q.Descends ids b :=
  hp.rounds_induction (fun _ hs hd => descends_round ctx hs.settled hd) hr h

/-! ### Attempts -/

/-- Nothing of a pass can be handed to the link. -/
def Blocked (now : Instant) (p : Pass τ) : Prop :=
  p.backlog.inFlight.isSome = true ∨ p.backlog.waiting = [] ∨
    ∃ r ∈ p.backlog.waiting, (p.pay r.trafficClass now).1 = false

section Handed

variable {r : Request} {rest : List Request} {throttle : Option (Bucket Float)} {base : Span}
  {answer : Except LinkError Unit} {carrier : τ}

theorem Handed.attemptsLeft (h : Handed ctx p r rest throttle base answer carrier) :
    p.backlog.attemptsLeft = r.attemptsLeft + total Request.attemptsLeft rest := by
  rw [Backlog.attemptsLeft_of_idle h.idle, h.head, total_cons]

theorem Handed.attemptsLeft_replaced (h : Handed ctx p r rest throttle base answer carrier)
    (waiting : List Request) :
    ({ p.backlog with waiting } : Backlog).attemptsLeft = total Request.attemptsLeft waiting :=
  Backlog.attemptsLeft_of_idle h.idle

end Handed

/-- A round uses up an attempt, or it finds nothing that can be handed to the link. -/
theorem spends_round (ctx : PassContext) (hs : p.backlog.Settled) :
    Round.All (fun q => q.backlog.attemptsLeft < p.backlog.attemptsLeft ∨
      q.backlog = p.backlog ∧ p.Blocked ctx.now) (round ctx p) := by
  have hc := round_case ctx hs
  generalize round ctx p = result at hc ⊢
  cases hc with
  | idle h => exact .inr ⟨rfl, h.imp_right .inl⟩
  | @unpaid r rest throttle hf hw hp =>
    refine .inr ⟨rfl, .inr (.inr ⟨r, hw ▸ List.mem_cons_self, ?_⟩)⟩
    rw [hp]
  | fault => trivial
  | @flying r rest throttle base carrier deadline hh hr hd =>
    have hw := (hh.waiting hs).1
    refine .inl ?_
    rw [hh.attemptsLeft,
      Backlog.attemptsLeft_of_inFlight (r := r.transmitted ctx.now deadline) rfl]
    exact Nat.add_lt_add_right
      (hw.attemptsLeft_lt (q := r.transmitted ctx.now deadline) rfl rfl) _
  | @oneWay r rest throttle base carrier hh hr =>
    have hw := (hh.waiting hs).1
    refine .inl ?_
    rw [hh.attemptsLeft, hh.attemptsLeft_replaced rest]
    exact Nat.lt_add_of_pos_left hw.attemptsLeft_pos
  | @retried r rest throttle base e carrier hh hr =>
    have hw := (hh.waiting hs).1
    refine .inl ?_
    rw [hh.attemptsLeft, hh.attemptsLeft_replaced (Backlog.requeue r.refused rest),
      Backlog.attemptsLeft_requeue]
    exact Nat.add_lt_add_right (hw.attemptsLeft_lt (q := r.refused) rfl rfl) _
  | @failed r rest throttle base e carrier hh hr =>
    have hw := (hh.waiting hs).1
    refine .inl ?_
    rw [hh.attemptsLeft, hh.attemptsLeft_replaced rest]
    exact Nat.lt_add_of_pos_left hw.attemptsLeft_pos

theorem attemptsLeft_round (ctx : PassContext) (hs : p.backlog.Settled) :
    Round.All (fun q => q.backlog.attemptsLeft ≤ p.backlog.attemptsLeft) (round ctx p) := by
  refine (spends_round ctx hs).imp fun q hq => ?_
  rcases hq with hlt | ⟨he, -⟩
  · exact Nat.le_of_lt hlt
  · exact Nat.le_of_eq (congrArg Backlog.attemptsLeft he)

/-- No round gives attempts back. -/
theorem attemptsLeft_rounds {n : Nat} (hp : p.Sound) (hr : rounds ctx n p = (none, q)) :
    q.backlog.attemptsLeft ≤ p.backlog.attemptsLeft := by
  refine hp.rounds_induction
    (P := fun q => q.backlog.attemptsLeft ≤ p.backlog.attemptsLeft) ?_ hr (Nat.le_refl _)
  intro p₁ hs hle
  exact (attemptsLeft_round ctx hs.settled).imp fun q hq => Nat.le_trans hq hle

/-- A pass that is not blocked uses up an attempt. -/
theorem spends_rounds {n : Nat} (hp : p.Sound) (hn : ¬ p.Blocked ctx.now)
    (hr : rounds ctx (n + 1) p = (none, q)) :
    q.backlog.attemptsLeft < p.backlog.attemptsLeft := by
  have hspend : Round.All (fun q => q.backlog.attemptsLeft < p.backlog.attemptsLeft)
      (round ctx p) :=
    (spends_round ctx hp.settled).imp fun q hq => hq.resolve_right fun h => hn h.2
  have hall := (sound_round ctx hp).and hspend
  -- the first round uses an attempt up, and the others give none back
  unfold rounds at hr
  cases hrd : round ctx p with
  | next p₁ =>
    rw [hrd] at hr hall
    exact Nat.lt_of_le_of_lt (attemptsLeft_rounds hall.1.1 hr) hall.2
  | stop p₁ =>
    rw [hrd] at hr hall
    cases hr
    exact hall.2
  | fault f p₁ =>
    rw [hrd] at hr
    cases hr

/-! ### Deadlines and the throttle -/

theorem due_round {last : Instant} (hs : p.backlog.Settled)
    (hl : ctx.now + ctx.maxTimeout ≤ last) (h : p.backlog.Due last) :
    Round.All (fun q => q.backlog.Due last) (round ctx p) := by
  have hc := round_case ctx hs
  generalize round ctx p = result at hc ⊢
  cases hc with
  | idle => exact h
  | unpaid => exact h
  | fault => trivial
  | @flying r rest throttle base carrier deadline hh hr hd =>
    intro q hq d hdl
    cases hq
    cases hdl
    -- the backoff is cut off at the longest time to allow
    rw [hd]
    exact Nat.le_trans (Nat.add_le_add_left (backoff_le_cap ..) _) hl
  | oneWay => exact h
  | retried => exact h
  | failed => exact h

/-- A pump sets no deadline later than the longest time to allow. -/
theorem due_rounds {last : Instant} {n : Nat} (hp : p.Sound)
    (hl : ctx.now + ctx.maxTimeout ≤ last) (h : p.backlog.Due last)
    (hr : rounds ctx n p = (none, q)) : q.backlog.Due last :=
  hp.rounds_induction (P := fun q => q.backlog.Due last)
    (fun _ hs hd => due_round hs.settled hl hd) hr h

theorem throttle_round (ctx : PassContext) (hs : p.backlog.Settled) (h : p.throttle = none) :
    Round.All (fun q => q.throttle = none) (round ctx p) := by
  have hpay : ∀ {c paid} {throttle : Option (Bucket Float)},
      p.pay c ctx.now = (paid, { p with throttle }) → throttle = none := by
    intro c paid throttle hp
    rw [pay_of_throttle_eq_none h] at hp
    have ht : p.throttle = throttle := congrArg (fun x : Bool × Pass τ => x.2.throttle) hp
    rw [← ht]
    exact h
  have hc := round_case ctx hs
  generalize round ctx p = result at hc ⊢
  cases hc with
  | idle => exact h
  | unpaid hf hw hp => exact hpay hp
  | fault => trivial
  | flying hh hr hd => exact hpay hh.paid
  | oneWay hh hr => exact hpay hh.paid
  | retried hh hr => exact hpay hh.paid
  | failed hh hr => exact hpay hh.paid

theorem throttle_rounds {n : Nat} (hp : p.Sound) (h : p.throttle = none)
    (hr : rounds ctx n p = (none, q)) : q.throttle = none :=
  hp.rounds_induction (P := fun q => q.throttle = none)
    (fun _ hs ht => throttle_round ctx hs.settled ht) hr h

/-! ### Faults -/

/-- A pump meets no fault if the times that the waiting requests have to do with can be told. -/
theorem rounds_of_inRange (hi : ∀ r ∈ p.backlog.waiting, ctx.InRange r) (n : Nat) (hp : p.Sound) :
    ∃ q, rounds ctx n p = (none, q) := by
  induction n generalizing p with
  | zero => exact ⟨p, rfl⟩
  | succ n ih =>
    have hc := round_case ctx hp.settled
    have hall := sound_round ctx hp
    unfold rounds
    generalize round ctx p = result at hc hall ⊢
    cases result with
    | next q =>
      -- only what has gone out for good is followed by another request
      have hw : ∀ r ∈ q.backlog.waiting, r ∈ p.backlog.waiting := by
        cases hc with
        | oneWay hh => exact fun r hr => hh.head ▸ List.mem_cons_of_mem _ hr
      exact ih (fun r hr => hi r (hw r hr)) hall.1
    | stop q => exact ⟨q, rfl⟩
    | fault f q =>
      cases hc with
      | fault _ _ hw h _ => exact absurd (hi _ hw) h

end Rounds

end Pass

end GroundControl
