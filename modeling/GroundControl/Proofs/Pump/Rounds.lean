import GroundControl.Station.Pump
import GroundControl.Proofs.Backlog.Lifecycle

/-!
# The rounds of a pump

What one round of a pump does to a settled backlog, and what follows for all its rounds.

* `Pass.Handed`: the first waiting request is handed to the link, with the answer of the link;
* `Pass.RoundCase`, the ways a round can go, and `Pass.round_case`: there are no others;
* `Pass.rounds_induction`: what every round preserves holds at the end;
* `Pass.Sound`, with `Pass.sound_rounds`: the rounds keep the backlog settled, lose no request, and
  end each one in the phase that goes with its outcome.
-/

namespace GroundControl

/-- The frame of a request. -/
def PassContext.frame (ctx : PassContext) (r : Request) : Frame :=
  ⟨ctx.network, .agent ctx.agent, r.payload.body, r.payload.key, ctx.epoch⟩

/-- The times that handing over a request may have to do with can be told: the bounds of the time to
allow are in order, and the deadline of a reply is not beyond the horizon. -/
structure PassContext.InRange (ctx : PassContext) (r : Request) : Prop where
  bounds : ctx.estimator.minTimeout ≤ ctx.estimator.maxTimeout
  horizon : r.payload.expectsReply = true → ctx.now + ctx.maxTimeout < Instant.horizon

namespace Request

/-- The request while it is with the link. -/
def launched (r : Request) : Request := { r with phase := .sent, attempts := r.attempts + 1 }

/-- What is handed out for the transmission of a request. -/
def launch (r : Request) : Launch :=
  ⟨r.id, r.trafficClass, r.payload.body, r.payload.key, r.attempts + 1⟩

/-- The request after the link took its frame at `now`, waiting for the reply until `deadline`. -/
def transmitted (r : Request) (now deadline : Instant) : Request :=
  { r with
    phase := .awaitingAck
    attempts := r.attempts + 1
    sentAt := some now
    deadline := some deadline }

/-- The request after the link refused its frame. -/
def refused (r : Request) : Request := { r with attempts := r.attempts + 1 }

/-- How a request that expects no reply ends once the link took its frame. -/
def endOneWay (r : Request) : Finished := r.ended .acked (.success (r.attempts + 1) none)

/-- How a request ends if the link refused the frame of its last attempt. -/
def endRefused (r : Request) (detail : String) : Finished :=
  r.ended (.failed .transport) (.failure .transport (r.attempts + 1) (some detail))

theorem trafficClass_launch (r : Request) : r.launch.trafficClass = r.trafficClass := rfl

theorem attemptsRemain_launched (r : Request) :
    r.launched.attemptsRemain = decide (r.attempts + 1 < r.maxAttempts) := rfl

theorem Waiting.transmitted {r : Request} (h : r.Waiting) (hr : r.payload.expectsReply = true)
    (now deadline : Instant) : (r.transmitted now deadline).Flying :=
  ⟨rfl, hr, rfl, rfl, h.attempts⟩

theorem Waiting.refused {r : Request} (h : r.Waiting) (ha : r.attempts + 1 < r.maxAttempts) :
    r.refused.Waiting :=
  ⟨h.phase, h.deadline, ha⟩

end Request

namespace Pass

variable {τ : Type}

/-- Paying changes nothing but the throttle. -/
theorem pay_eq (p : Pass τ) (c : TrafficClass) (now : Instant) :
    ∃ paid throttle, p.pay c now = (paid, { p with throttle }) := by
  unfold pay
  split
  · split
    · exact ⟨true, p.throttle, rfl⟩
    · rename_i bucket _
      exact ⟨(bucket.take 1 now).1, some (bucket.take 1 now).2, rfl⟩
  · exact ⟨true, p.throttle, rfl⟩

theorem pay_of_throttle_eq_none {p : Pass τ} (h : p.throttle = none) (c : TrafficClass)
    (now : Instant) : p.pay c now = (true, p) := by
  unfold pay
  split
  · rw [h]
  · rfl

theorem frameOf_launch (ctx : PassContext) (r : Request) : frameOf ctx r.launch = ctx.frame r := rfl

/-- The first waiting request is paid for and handed to the link. -/
structure Handed [Carrier τ] (ctx : PassContext) (p : Pass τ) (r : Request) (rest : List Request)
    (throttle : Option (Bucket Float)) (base : Span) (answer : Except LinkError Unit)
    (carrier : τ) : Prop where
  idle : p.backlog.inFlight = none
  head : p.backlog.waiting = r :: rest
  paid : p.pay r.trafficClass ctx.now = (true, { p with throttle })
  allowed : ctx.estimator.timeout r.trafficClass = .ok base
  sent : Carrier.send p.carrier (ctx.frame r) = (answer, carrier)

section Handed

variable [Carrier τ] {ctx : PassContext} {p : Pass τ} {r : Request} {rest : List Request}
  {throttle : Option (Bucket Float)} {base : Span} {answer : Except LinkError Unit} {carrier : τ}

theorem Handed.waiting (h : Handed ctx p r rest throttle base answer carrier)
    (hs : p.backlog.Settled) : r.Waiting ∧ ∀ q ∈ rest, q.Waiting :=
  List.forall_mem_cons.1 (h.head ▸ hs.waiting)

theorem Handed.pending (h : Handed ctx p r rest throttle base answer carrier) :
    r ∈ p.backlog.requests ∧ ∀ q ∈ rest, q ∈ p.backlog.requests :=
  List.forall_mem_cons.1 fun _ hq => Backlog.mem_requests.2 (.inr (h.head ▸ hq))

/-- Nothing but the waiting requests is pending as long as the link is idle. -/
theorem Handed.mem_replaced (h : Handed ctx p r rest throttle base answer carrier)
    {waiting : List Request} {q : Request}
    (hq : q ∈ ({ p.backlog with waiting } : Backlog).requests) : q ∈ waiting :=
  (Backlog.mem_requests.1 hq).resolve_left fun hf => by
    rw [h.idle] at hf
    cases hf

end Handed

/-- The pass after a request was handed to the link, but for its backlog. -/
def afterSend (ctx : PassContext) (p : Pass τ) (r : Request) (throttle : Option (Bucket Float))
    (answer : Except LinkError Unit) (carrier : τ) : Pass τ :=
  { p with
    throttle
    carrier
    retries := if 1 < r.attempts + 1 then p.retries + 1 else p.retries
    frames := p.frames ++ [(ctx.frame r, answer)] }

/-- The ways a round can go. -/
inductive RoundCase [Carrier τ] (ctx : PassContext) (p : Pass τ) : Round τ → Prop
  /-- there is nothing to hand over -/
  | idle (h : p.backlog.inFlight.isSome = true ∨ p.backlog.waiting = []) : RoundCase ctx p (.stop p)
  /-- the first waiting request finds no token -/
  | unpaid {r : Request} {rest : List Request} {throttle : Option (Bucket Float)}
      (hf : p.backlog.inFlight = none) (hw : p.backlog.waiting = r :: rest)
      (hp : p.pay r.trafficClass ctx.now = (false, { p with throttle })) :
      RoundCase ctx p (.stop { p with throttle })
  /-- a time that has to do with the first waiting request cannot be told -/
  | fault {r : Request} (fault : Fault) (q : Pass τ) (hw : r ∈ p.backlog.waiting)
      (h : ¬ ctx.InRange r) (hr : q.backlog.refusals = p.backlog.refusals) :
      RoundCase ctx p (.fault fault q)
  /-- the link takes a request that expects a reply -/
  | flying {r : Request} {rest : List Request} {throttle : Option (Bucket Float)} {base : Span}
      {carrier : τ} {deadline : Instant} (h : Handed ctx p r rest throttle base (.ok ()) carrier)
      (hr : r.payload.expectsReply = true)
      (hd : deadline = ctx.now + backoff base p.backlog.timeouts ctx.maxTimeout) :
      RoundCase ctx p (.stop
        { p.afterSend ctx r throttle (.ok ()) carrier with
          backlog := { p.backlog with
            waiting := rest
            inFlight := some (r.transmitted ctx.now deadline) }
          taken := p.taken + 1 })
  /-- the link takes a request that expects no reply -/
  | oneWay {r : Request} {rest : List Request} {throttle : Option (Bucket Float)} {base : Span}
      {carrier : τ} (h : Handed ctx p r rest throttle base (.ok ()) carrier)
      (hr : r.payload.expectsReply = false) :
      RoundCase ctx p (.next
        { p.afterSend ctx r throttle (.ok ()) carrier with
          backlog := { p.backlog with waiting := rest }
          taken := p.taken + 1
          finished := p.finished ++ [r.endOneWay] })
  /-- the link refuses a request that may be attempted again -/
  | retried {r : Request} {rest : List Request} {throttle : Option (Bucket Float)} {base : Span}
      {e : LinkError} {carrier : τ} (h : Handed ctx p r rest throttle base (.error e) carrier)
      (hr : r.attempts + 1 < r.maxAttempts) :
      RoundCase ctx p (.stop
        { p.afterSend ctx r throttle (.error e) carrier with
          backlog := { p.backlog with waiting := Backlog.requeue r.refused rest }
          refused := p.refused + 1 })
  /-- the link refuses the last attempt of a request -/
  | failed {r : Request} {rest : List Request} {throttle : Option (Bucket Float)} {base : Span}
      {e : LinkError} {carrier : τ} (h : Handed ctx p r rest throttle base (.error e) carrier)
      (hr : ¬ r.attempts + 1 < r.maxAttempts) :
      RoundCase ctx p (.stop
        { p.afterSend ctx r throttle (.error e) carrier with
          backlog := { p.backlog with waiting := rest }
          refused := p.refused + 1
          finished := p.finished ++ [r.endRefused e.message] })

/-- The backlog while its first waiting request is with the link. -/
def launched (b : Backlog) (r : Request) (rest : List Request) : Backlog :=
  { b with waiting := rest, inFlight := some r.launched }

theorem launch_eq_launched {b : Backlog} {r : Request} {rest : List Request}
    (hf : b.inFlight = none) (hw : b.waiting = r :: rest) (hr : r.Waiting) :
    b.launch = some (r.launch, launched b r rest) := by
  rw [Backlog.launch_eq hf hw, Request.advance_of_canBecome hr.canBecome.2.2, Backlog.note_nil]
  rfl

theorem transmitted_launched {b : Backlog} {r : Request} {rest : List Request} (now : Instant)
    (timeout : Span) (hf : b.inFlight = none) :
    (launched b r rest).transmitted now timeout =
      if r.payload.expectsReply then
        match now.after timeout with
        | .error fault => (.error fault, { b with
            waiting := rest
            inFlight := some { r.launched with phase := .awaitingAck, sentAt := some now } })
        | .ok deadline => (.ok none, { b with
            waiting := rest
            inFlight := some (r.transmitted now deadline) })
      else (.ok (some r.endOneWay), { b with waiting := rest }) := by
  have hp : ¬ r.launched.phase ≠ .sent := not_not_intro rfl
  unfold Backlog.transmitted launched
  dsimp only
  rw [if_neg hp]
  cases hr : r.payload.expectsReply with
  | true =>
    have hr' : r.launched.payload.expectsReply = true := hr
    rw [if_pos hr', if_pos rfl, Request.advance_of_canBecome rfl]
    cases now.after timeout with
    | error fault =>
      dsimp only
      rw [Backlog.note_nil]
    | ok deadline =>
      dsimp only
      rw [Backlog.note_nil]
      rfl
  | false =>
    have hr' : ¬ r.launched.payload.expectsReply = true := fun hc =>
      Bool.false_ne_true (hr.symm.trans hc)
    rw [if_neg hr', if_neg Bool.false_ne_true, Backlog.close_of_canBecome _ rfl, ← hf]
    rfl

theorem refused_launched {b : Backlog} {r : Request} {rest : List Request} (detail : String)
    (hf : b.inFlight = none) (hr : r.Waiting) :
    (launched b r rest).refused detail =
      if r.attempts + 1 < r.maxAttempts then
        (none, { b with waiting := Backlog.requeue r.refused rest })
      else (some (r.endRefused detail), { b with waiting := rest }) := by
  have hq : ({ r.launched with phase := .queued } : Request) = r.refused := by
    unfold Request.refused
    rw [← hr.phase]
    rfl
  unfold Backlog.refused launched
  dsimp only
  rw [Request.attemptsRemain_launched]
  by_cases ha : r.attempts + 1 < r.maxAttempts
  · rw [if_pos (decide_eq_true ha), if_pos ha, Backlog.retry_of_canBecome rfl, hq, ← hf]
  · rw [if_neg fun hc => ha (of_decide_eq_true hc), if_neg ha, Backlog.close_of_canBecome _ rfl,
      ← hf]
    rfl

/-- The pass while its first waiting request is with the link. -/
def handing (p : Pass τ) (r : Request) (rest : List Request)
    (throttle : Option (Bucket Float)) : Pass τ :=
  { p with
    throttle
    backlog := launched p.backlog r rest
    retries := if 1 < r.attempts + 1 then p.retries + 1 else p.retries }

section Cases

variable [Carrier τ] {ctx : PassContext} {p : Pass τ} {r : Request} {rest : List Request}
  {throttle : Option (Bucket Float)} {base : Span} {carrier : τ}

/-- The link takes the request. -/
theorem round_case_of_taken (h : Handed ctx p r rest throttle base (.ok ()) carrier) :
    RoundCase ctx p (transmit ctx (p.handing r rest throttle) r.launch) := by
  unfold transmit handing
  dsimp only
  rw [Request.trafficClass_launch, h.allowed, frameOf_launch]
  dsimp only
  rw [h.sent]
  dsimp only
  have ht : (launched p.backlog r rest).timeouts = p.backlog.timeouts := rfl
  rw [transmitted_launched _ _ h.idle, ht]
  cases hr : r.payload.expectsReply with
  | true =>
    rw [if_pos rfl]
    cases ha : Instant.after ctx.now (backoff base p.backlog.timeouts ctx.maxTimeout) with
    | error fault =>
      -- the backoff stays below the longest time to allow, so only a clock out of range fails here
      refine .fault fault _ (h.head ▸ List.mem_cons_self) (fun hi => ?_) rfl
      have hle := backoff_le_cap base p.backlog.timeouts ctx.maxTimeout
      have hlt := Nat.lt_of_le_of_lt (Nat.add_le_add_left hle _) (hi.horizon hr)
      rw [Instant.after_eq_ok hlt] at ha
      cases ha
    | ok deadline =>
      have hq := RoundCase.flying h hr (Instant.eq_of_after_eq_ok ha)
      dsimp only [Option.toList_none]
      rw [List.append_nil]
      exact hq
  | false =>
    rw [if_neg Bool.false_ne_true]
    have hn : Backlog.awaiting { p.backlog with waiting := rest } = false := by
      unfold Backlog.awaiting
      rw [h.idle]
      rfl
    dsimp only
    rw [hn]
    exact .oneWay h hr

/-- The link refuses the request. -/
theorem round_case_of_refused {e : LinkError} (hr : r.Waiting)
    (h : Handed ctx p r rest throttle base (.error e) carrier) :
    RoundCase ctx p (transmit ctx (p.handing r rest throttle) r.launch) := by
  unfold transmit handing
  dsimp only
  rw [Request.trafficClass_launch, h.allowed, frameOf_launch]
  dsimp only
  rw [h.sent]
  dsimp only
  rw [refused_launched _ h.idle hr]
  by_cases ha : r.attempts + 1 < r.maxAttempts
  · rw [if_pos ha]
    have hq := RoundCase.retried h ha
    dsimp only [Option.toList_none]
    rw [List.append_nil]
    exact hq
  · rw [if_neg ha]
    exact .failed h ha

end Cases

/-- A round goes in one of the ways there are. -/
theorem round_case [Carrier τ] (ctx : PassContext) {p : Pass τ} (hs : p.backlog.Settled) :
    RoundCase ctx p (round ctx p) := by
  unfold round Backlog.nextClass
  cases hf : p.backlog.inFlight with
  | some r => exact .idle (.inl (by rw [hf]; rfl))
  | none =>
    cases hw : p.backlog.waiting with
    | nil => exact .idle (.inr hw)
    | cons r rest =>
      have hr : r.Waiting := hs.waiting r (by rw [hw]; exact List.mem_cons_self)
      obtain ⟨paid, throttle, hp⟩ := p.pay_eq r.trafficClass ctx.now
      dsimp only [List.head?_cons, Option.map_some]
      rw [hp]
      cases paid with
      | false => exact .unpaid hf hw hp
      | true =>
        dsimp only
        rw [launch_eq_launched hf hw hr]
        -- the launched pass is the one to be handed over, and only the link is left to ask
        show RoundCase ctx p (transmit ctx (p.handing r rest throttle) r.launch)
        cases hb : ctx.estimator.timeout r.trafficClass with
        | error fault =>
          unfold transmit
          rw [Request.trafficClass_launch, hb]
          refine .fault _ _ (hw ▸ List.mem_cons_self) (fun hi => ?_) rfl
          obtain ⟨base, hk⟩ := Estimator.exists_timeout hi.bounds r.trafficClass
          rw [hk] at hb
          cases hb
        | ok base =>
          obtain ⟨answer, carrier, hc⟩ : ∃ answer carrier,
              Carrier.send p.carrier (ctx.frame r) = (answer, carrier) := ⟨_, _, rfl⟩
          have hh : Handed ctx p r rest throttle base answer carrier := ⟨hf, hw, hp, hb, hc⟩
          cases answer with
          | ok _ => exact round_case_of_taken hh
          | error e => exact round_case_of_refused hr hh

/-! ### All rounds -/

/-- What holds of the pass after a round holds after it, whether or not another one follows. -/
def Round.All (P : Pass τ → Prop) : Round τ → Prop
  | .next q | .stop q => P q
  | .fault _ _ => True

theorem Round.All.imp {P Q : Pass τ → Prop} {result : Round τ} (h : Round.All P result)
    (hpq : ∀ q, P q → Q q) : Round.All Q result := by
  cases result with
  | next q => exact hpq q h
  | stop q => exact hpq q h
  | fault => trivial

theorem Round.All.and {P Q : Pass τ → Prop} {result : Round τ} (h : Round.All P result)
    (h' : Round.All Q result) : Round.All (fun q => P q ∧ Q q) result := by
  cases result with
  | next q => exact ⟨h, h'⟩
  | stop q => exact ⟨h, h'⟩
  | fault => trivial

/-- What every round preserves holds at the end. -/
theorem rounds_induction [Carrier τ] {ctx : PassContext} {P : Pass τ → Prop}
    (hround : ∀ p, P p → Round.All P (round ctx p)) {n : Nat} {p q : Pass τ}
    (h : rounds ctx n p = (none, q)) (hp : P p) : P q := by
  induction n generalizing p with
  | zero =>
    cases h
    exact hp
  | succ n ih =>
    have hq := hround p hp
    unfold rounds at h
    cases hr : round ctx p with
    | next p' =>
      rw [hr] at h hq
      exact ih h hq
    | stop p' =>
      rw [hr] at h hq
      cases h
      exact hq
    | fault f p' =>
      rw [hr] at h
      cases h

/-- The identities of the requests a pass has to do with: those that have ended and those that are
pending. -/
def idents (p : Pass τ) : List Ident := p.finished.map Finished.ident ++ p.backlog.idents

/-- The backlog of a pass is settled, and each request has ended in the phase that goes with its
outcome. -/
structure Sound (p : Pass τ) : Prop where
  settled : p.backlog.Settled
  fits : ∀ f ∈ p.finished, f.Fits

/-- Ending the first waiting request loses none. -/
theorem idents_perm_of_ended {p : Pass τ} {r : Request} {rest : List Request} {f : Finished}
    (hf : p.backlog.inFlight = none) (hw : p.backlog.waiting = r :: rest)
    (hi : f.ident = r.ident) :
    p.idents.Perm ((p.finished ++ [f]).map Finished.ident ++
      ({ p.backlog with waiting := rest } : Backlog).idents) := by
  have hrest : ({ p.backlog with waiting := rest } : Backlog).idents = rest.map Request.ident :=
    Backlog.idents_of_idle hf
  rw [idents, Backlog.idents_of_idle hf, hw, hrest, List.map_append, List.append_assoc,
    List.map_cons, ← hi]
  exact .refl _

theorem sound_round [Carrier τ] (ctx : PassContext) {p : Pass τ} (h : p.Sound) :
    Round.All (fun q => q.Sound ∧ p.idents.Perm q.idents) (round ctx p) := by
  have hs := h.settled
  have hc := round_case ctx hs
  generalize round ctx p = result at hc ⊢
  cases hc with
  | idle => exact ⟨h, .refl _⟩
  | unpaid => exact ⟨⟨hs, h.fits⟩, .refl _⟩
  | fault => trivial
  | @flying r rest throttle base carrier deadline hh hr hd =>
    obtain ⟨hw, hws⟩ := hh.waiting hs
    refine ⟨⟨⟨hws, ?_, hs.refusals⟩, h.fits⟩, ?_⟩
    · intro q hq
      cases hq
      exact hw.transmitted hr _ _
    · refine List.Perm.append_left _ (List.Perm.of_eq ?_)
      rw [Backlog.idents_of_idle hh.idle, hh.head]
      rfl
  | @oneWay r rest throttle base carrier hh hr =>
    obtain ⟨-, hws⟩ := hh.waiting hs
    refine ⟨⟨⟨hws, hs.inFlight, hs.refusals⟩, ?_⟩, ?_⟩
    · exact List.forall_mem_append.2 ⟨h.fits, List.forall_mem_singleton.2 rfl⟩
    · exact idents_perm_of_ended hh.idle hh.head rfl
  | @retried r rest throttle base e carrier hh hr =>
    obtain ⟨hw, hws⟩ := hh.waiting hs
    have hb : ({ p.backlog with waiting := rest } : Backlog).Settled :=
      ⟨hws, hs.inFlight, hs.refusals⟩
    refine ⟨⟨hb.requeue (hw.refused hr), h.fits⟩, List.Perm.append_left _ ?_⟩
    -- requeueing permutes the requests, and a refused one keeps its identity
    have hp := (Backlog.requeue_perm r.refused rest).map Request.ident
    have hq : ({ p.backlog with waiting := Backlog.requeue r.refused rest } : Backlog).idents =
        (Backlog.requeue r.refused rest).map Request.ident := Backlog.idents_of_idle hh.idle
    rw [Backlog.idents_of_idle hh.idle, hh.head]
    exact hp.symm.trans (.of_eq hq.symm)
  | @failed r rest throttle base e carrier hh hr =>
    obtain ⟨-, hws⟩ := hh.waiting hs
    refine ⟨⟨⟨hws, hs.inFlight, hs.refusals⟩, ?_⟩, ?_⟩
    · exact List.forall_mem_append.2 ⟨h.fits, List.forall_mem_singleton.2 rfl⟩
    · exact idents_perm_of_ended hh.idle hh.head rfl

/-- The rounds of a pump keep the backlog settled and lose no request. -/
theorem sound_rounds [Carrier τ] {ctx : PassContext} {n : Nat} {p q : Pass τ} (hp : p.Sound)
    (h : rounds ctx n p = (none, q)) : q.Sound ∧ p.idents.Perm q.idents := by
  refine rounds_induction (P := fun q => q.Sound ∧ p.idents.Perm q.idents) ?_ h ⟨hp, .refl _⟩
  rintro p₁ ⟨hs, hi⟩
  exact (sound_round ctx hs).imp fun q hq => ⟨hq.1, hi.trans hq.2⟩

/-- What every round of a sound pass preserves holds at the end. -/
theorem Sound.rounds_induction [Carrier τ] {ctx : PassContext} {P : Pass τ → Prop}
    (hround : ∀ p, p.Sound → P p → Round.All P (round ctx p)) {n : Nat} {p q : Pass τ}
    (hs : p.Sound) (h : rounds ctx n p = (none, q)) (hp : P p) : P q := by
  refine (Pass.rounds_induction (P := fun q => q.Sound ∧ P q) ?_ h ⟨hs, hp⟩).2
  rintro p₁ ⟨hs, hp⟩
  exact ((sound_round ctx hs).imp fun q hq => hq.1).and (hround p₁ hs hp)

end Pass

end GroundControl
