import GroundControl.Proofs.Pump.Landing
import GroundControl.Proofs.Pump.Shipments
import GroundControl.Proofs.Station.Stamps

/-!
# Where a pump stops

A pump goes on as long as one round is followed by another.  Each such round takes a waiting request
for good, so the rounds come to an end by themselves, and `Pass.run`, which allows for no more
rounds than there are waiting requests, never cuts them short.  They end where nothing is left to
hand over, a reply is awaited, the link has just refused a frame, or bulk traffic has just been
denied a token.

* `Pass.Loop`, the rounds of a pass with nothing but a round to end them; `loop_iff`;
* `frames_run`: there are no more frames than waiting requests, even if a round meets a fault;
* `Pass.Halted`, why a pass goes no further, and `halted_rounds`;
* `Backlog.Timely`: what a review leaves in flight is not overdue.
-/

namespace GroundControl

namespace Backlog

variable {b : Backlog} {now : Instant}

/-- The request in flight, if there is one, waits for a reply that is not overdue. -/
def Timely (now : Instant) (b : Backlog) : Prop :=
  ∀ r, b.inFlight = some r → r.phase = .awaitingAck ∧ ∃ d, r.deadline = some d ∧ now ≤ d

theorem timely_review (hb : b.Settled) (now : Instant) : (b.review now).2.Timely now := by
  intro r hr
  rw [review_inFlight hb] at hr
  cases he : b.expires now with
  | true =>
    rw [he] at hr
    cases hr
  | false =>
    rw [he] at hr
    -- the request was in flight before, and the review had no reason to time it out
    obtain ⟨hr, hc⟩ := Option.filter_eq_some_iff.1 hr
    have hf := hb.inFlight r hr
    obtain ⟨d, hd⟩ := Option.isSome_iff_exists.1 hf.deadline
    refine ⟨hf.phase, d, hd, Nat.not_lt.1 fun hlt => ?_⟩
    have ho : r.overdue now = true := by
      unfold Request.overdue
      rw [hf.phase, hd, Option.any_some, decide_eq_true hlt]
      rfl
    rw [expires_iff.2 ⟨r, hr, by simpa using hc, ho⟩] at he
    cases he

end Backlog

namespace Pass

variable {τ : Type} [Carrier τ] {ctx : PassContext} {p q : Pass τ}

/-! ### Rounds without a bound -/

/-- The rounds of a pass one after the other, until one of them is followed by no other. -/
inductive Loop (ctx : PassContext) : Pass τ → Option Fault × Pass τ → Prop
  | next {p q : Pass τ} {out : Option Fault × Pass τ} (h : round ctx p = .next q)
      (hl : Loop ctx q out) : Loop ctx p out
  | stop {p q : Pass τ} (h : round ctx p = .stop q) : Loop ctx p (none, q)
  | fault {p q : Pass τ} {fault : Fault} (h : round ctx p = .fault fault q) :
      Loop ctx p (some fault, q)

/-- The rounds end in one way only. -/
theorem Loop.unique {out out' : Option Fault × Pass τ} (h : Loop ctx p out) (h' : Loop ctx p out') :
    out = out' := by
  induction h with
  | next h _ ih =>
    cases h' with
    | next h₁ hl =>
      cases h.symm.trans h₁
      exact ih hl
    | stop h₁ => cases h.symm.trans h₁
    | fault h₁ => cases h.symm.trans h₁
  | stop h =>
    cases h' with
    | next h₁ _ => cases h.symm.trans h₁
    | stop h₁ =>
      cases h.symm.trans h₁
      rfl
    | fault h₁ => cases h.symm.trans h₁
  | fault h =>
    cases h' with
    | next h₁ _ => cases h.symm.trans h₁
    | stop h₁ => cases h.symm.trans h₁
    | fault h₁ =>
      cases h.symm.trans h₁
      rfl

theorem round_of_waiting_eq_nil (h : p.backlog.waiting = []) : round ctx p = .stop p := by
  unfold round Backlog.nextClass
  rw [h]
  cases p.backlog.inFlight <;> rfl

/-- A round that another one follows has taken a waiting request for good, and the link is idle. -/
theorem next_round (hp : p.Sound) (h : round ctx p = .next q) :
    q.Sound ∧ q.backlog.inFlight = none ∧
      q.backlog.waiting.length + 1 = p.backlog.waiting.length := by
  have hc := round_case ctx hp.settled
  have hall := sound_round ctx hp
  rw [h] at hc hall
  cases hc with
  | oneWay hh hr => exact ⟨hall.1, hh.idle, by rw [hh.head, List.length_cons]⟩

/-- As many rounds as there are waiting requests are enough. -/
theorem loop_rounds (ctx : PassContext) {n : Nat} (hp : p.Sound)
    (hn : p.backlog.waiting.length ≤ n) :
    Loop ctx p (rounds ctx n p) := by
  induction n generalizing p with
  | zero =>
    exact .stop (round_of_waiting_eq_nil (List.length_eq_zero_iff.1 (Nat.le_zero.1 hn)))
  | succ n ih =>
    unfold rounds
    cases hr : round ctx p with
    | next q =>
      obtain ⟨hq, -, hlen⟩ := next_round hp hr
      exact .next hr (ih hq (by omega))
    | stop q => exact .stop hr
    | fault fault q => exact .fault hr

/-- The rounds come to an end, and it is that of the bounded ones. -/
theorem loop_iff {out : Option Fault × Pass τ} (hp : p.Sound) :
    Loop ctx p out ↔ run ctx p = out := by
  have hl := loop_rounds ctx hp (Nat.le_refl p.backlog.waiting.length)
  exact ⟨fun h => hl.unique h, fun h => h ▸ hl⟩

/-! ### The number of frames -/

theorem frames_transmit (ctx : PassContext) (p : Pass τ) (launch : Launch) :
    (Round.pass (transmit ctx p launch)).frames.length ≤ p.frames.length + 1 := by
  unfold transmit
  split
  · exact Nat.le_succ _
  · -- whatever follows the frame leaves the frames as they are
    have hsent : ∀ answer : Except LinkError Unit,
        (p.frames ++ [(frameOf ctx launch, answer)]).length ≤ p.frames.length + 1 :=
      fun answer => Nat.le_of_eq (by rw [List.length_append, List.length_singleton])
    dsimp only
    split
    · split
      · exact hsent _
      · split <;> exact hsent _
    · exact hsent _

/-- A round hands over one frame at most. -/
theorem frames_round (ctx : PassContext) (p : Pass τ) :
    (Round.pass (round ctx p)).frames.length ≤ p.frames.length + 1 := by
  unfold round
  cases p.backlog.nextClass with
  | none => exact Nat.le_succ _
  | some c =>
    obtain ⟨paid, throttle, hp⟩ := p.pay_eq c ctx.now
    dsimp only
    rw [hp]
    cases paid with
    | false => exact Nat.le_succ _
    | true =>
      dsimp only
      cases p.backlog.launch with
      | none => exact Nat.le_succ _
      | some x => exact frames_transmit ctx _ x.1

theorem frames_rounds (ctx : PassContext) (n : Nat) (p : Pass τ) :
    (rounds ctx n p).2.frames.length ≤ p.frames.length + n := by
  induction n generalizing p with
  | zero => exact Nat.le_refl _
  | succ n ih =>
    have hr := frames_round ctx p
    unfold rounds
    cases hc : round ctx p with
    | next q =>
      rw [hc] at hr
      have hq := ih q
      change q.frames.length ≤ _ at hr
      dsimp only
      omega
    | stop q | fault f q =>
      rw [hc] at hr
      exact Nat.le_trans hr (by omega)

theorem frames_run (ctx : PassContext) (p : Pass τ) :
    (run ctx p).2.frames.length ≤ p.frames.length + p.backlog.waiting.length :=
  frames_rounds ctx _ p

/-! ### The end -/

omit [Carrier τ] in
/-- What cannot be paid for finds a throttle, which counts it. -/
theorem denied_of_pay {c : TrafficClass} {now : Instant} {throttle : Option (Bucket Float)}
    (h : p.pay c now = (false, { p with throttle })) :
    c.isBulk = true ∧ ∃ granted denied, tokens p.throttle = some (granted, denied) ∧
      tokens throttle = some (granted, denied + 1) := by
  obtain ⟨htoll, hbulk⟩ := toll_pay h
  cases ht : p.throttle with
  | none =>
    rw [pay_of_throttle_eq_none ht] at h
    cases congrArg Prod.fst h
  | some bucket =>
    rw [ht] at htoll
    exact ⟨hbulk rfl, bucket.granted, bucket.denied, rfl, htoll⟩

/-- Why the pass `p` goes no further than `q`. -/
inductive Halted (now : Instant) (p q : Pass τ) : Prop
  /-- no request is left -/
  | drained (h : q.backlog.isEmpty = true)
  /-- the reply to the request in flight is awaited -/
  | awaiting (r : Request) (deadline : Instant) (h : q.backlog.inFlight = some r)
      (hp : r.phase = .awaitingAck) (hd : r.deadline = some deadline) (hle : now ≤ deadline)
  /-- the link refused the last frame -/
  | refused (frames : List Sending) (frame : Frame) (e : LinkError)
      (h : q.frames = p.frames ++ frames ++ [(frame, .error e)])
  /-- the first waiting request is bulk traffic and was denied a token -/
  | denied (r : Request) (rest : List Request) (hf : q.backlog.inFlight = none)
      (hw : q.backlog.waiting = r :: rest) (hb : r.trafficClass.isBulk = true)
      (ht : ∃ granted granted' denied, tokens p.throttle = some (granted, denied) ∧
        tokens q.throttle = some (granted', denied + 1))

omit [Carrier τ] in
theorem Halted.of_idle {now : Instant} (ht : p.backlog.Timely now)
    (h : p.backlog.inFlight.isSome = true ∨ p.backlog.waiting = []) : Halted now p p := by
  cases hf : p.backlog.inFlight with
  | some r =>
    obtain ⟨hp, d, hd, hle⟩ := ht r hf
    exact .awaiting r d hf hp hd hle
  | none =>
    rw [hf] at h
    refine .drained ?_
    unfold Backlog.isEmpty Backlog.pendingLen
    rw [hf, h.resolve_left nofun]
    rfl

omit [Carrier τ] in
/-- A pass halts where the pass after a frame halts, unless that denied a token before. -/
theorem Halted.of_next {now : Instant} {p' : Pass τ} {frames : List Sending}
    (hframes : p'.frames = p.frames ++ frames)
    (htoll : ∃ cost, tokens p'.throttle = (tokens p.throttle).map fun t => (t.1 + cost, t.2))
    (h : Halted now p' q) : Halted now p q := by
  cases h with
  | drained h => exact .drained h
  | awaiting r d hf hp hd hle => exact .awaiting r d hf hp hd hle
  | refused later frame e h =>
    refine .refused (frames ++ later) frame e ?_
    rw [h, hframes, List.append_assoc p.frames]
  | denied r rest hf hw hb ht =>
    obtain ⟨cost, hcost⟩ := htoll
    obtain ⟨granted, granted', denied, hp, hq⟩ := ht
    rw [hcost] at hp
    obtain ⟨t, ht, he⟩ := Option.map_eq_some_iff.1 hp
    cases he
    exact .denied r rest hf hw hb ⟨t.1, granted', t.2, ht, hq⟩

/-- Where the rounds end. -/
theorem halted_rounds {n : Nat} (hp : p.Sound) (ht : p.backlog.Timely ctx.now)
    (hn : p.backlog.waiting.length ≤ n) (h : rounds ctx n p = (none, q)) :
    Halted ctx.now p q := by
  induction n generalizing p with
  | zero =>
    cases h
    exact .of_idle ht (.inr (List.length_eq_zero_iff.1 (Nat.le_zero.1 hn)))
  | succ n ih =>
    have hc := round_case ctx hp.settled
    have hnext : ∀ p', round ctx p = .next p' → p'.Sound ∧ p'.backlog.inFlight = none ∧
        p'.backlog.waiting.length + 1 = p.backlog.waiting.length := fun _ => next_round hp
    unfold rounds at h
    generalize round ctx p = result at h hc hnext
    cases hc with
    | idle hi =>
      cases h
      exact .of_idle ht hi
    | @unpaid r rest throttle hf hw hpay =>
      cases h
      obtain ⟨hbulk, granted, denied, hbefore, hafter⟩ := denied_of_pay hpay
      exact .denied r rest hf hw hbulk ⟨granted, granted, denied, hbefore, hafter⟩
    | fault => cases h
    | @flying r rest throttle base carrier deadline hh hr hd =>
      cases h
      exact .awaiting _ deadline rfl rfl rfl (hd ▸ Nat.le_add_right ..)
    | oneWay hh hr =>
      obtain ⟨hsound, hidle, hlen⟩ := hnext _ rfl
      have htimely : Backlog.Timely ctx.now _ := fun r hf => by
        rw [hidle] at hf
        cases hf
      exact (ih hsound htimely (by omega) h).of_next rfl ⟨_, (toll_pay hh.paid).1⟩
    | retried hh hr =>
      cases h
      exact .refused [] _ _ (by rw [List.append_nil]; rfl)
    | failed hh hr =>
      cases h
      exact .refused [] _ _ (by rw [List.append_nil]; rfl)

end Pass

end GroundControl
