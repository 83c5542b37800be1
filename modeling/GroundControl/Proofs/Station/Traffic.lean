import GroundControl.Proofs.Station.Ledger

/-!
# The accounts of the traffic

Whatever a station was asked to do, the counters of its traffic agree with each other: the frames
that were handed to the link, the attempts made at the requests, the frames the station says it has
sent or failed to send, and the tokens its throttle says it has given out.

* `Station.attemptsOf`, the attempts made at a request, pending or not;
* `accounts_of_run`, the ledger of a run; `Balanced`, the ledger of a station since its beginning,
  with `Balanced.attemptsOf_of_mem`, `Balanced.count` and `Balanced.expectsReply_of_oneWay`;
* `Posts.length_sent`, `Posts.tokens_eq`: what the counters say about the ledger;
* `Senders`, which request each frame is of, and `TrafficAccounted`;
* `traffic_accounted`: so it is in every run from the beginning.
-/

namespace GroundControl

namespace Station

variable {τ : Type}

/-- The attempts made at a request: those of the pending request, or those its submitter was told
of. -/
def attemptsOf (s : Station τ) (ticket : Ticket) : Nat :=
  match s.requests.find? (·.ticket == ticket) with
  | some r => r.attempts
  | none => (((outcomes s.log).lookup ticket).map Outcome.attempts).getD 0

/-! ### The ledger of a run -/

/-- No attempt has been made at a request that is taken in. -/
theorem origin_of_entered? {step : Step τ} {r : Request}
    (h : step.entered? = some r) : r.origin = r := by
  obtain ⟨handle, -, hr⟩ := Option.bind_eq_some_iff.1 h
  cases ho : step.operation with
  | submit | enqueue =>
    rw [ho] at hr
    cases hr
    rfl
  | _ =>
    rw [ho] at hr
    cases hr

theorem entered_cons (step : Step τ) (steps : List (Step τ)) :
    entered (step :: steps) = step.entered?.toList ++ entered steps := by
  unfold entered
  rw [List.filterMap_cons]
  cases step.entered? <;> rfl

section Run

variable [Carrier τ]

/-- A run has a ledger. -/
theorem accounts_of_run {operations : List Operation} {s last : Station τ}
    {steps : List (Step τ)} (hs : s.Sound) (h : run operations s = .ok (steps, last)) :
    ∃ l, Posts s l last ∧ l.fresh = entered steps ∧
      (entered steps).map Request.handle = accepted steps ∧
        ((∀ operation ∈ operations, operation.Punctual) →
          l.denied = l.limited + total Step.starved steps) := by
  induction operations generalizing s steps with
  | nil =>
    cases h
    exact ⟨_, .refl _, rfl, rfl, fun _ => rfl⟩
  | cons operation rest ih =>
    obtain ⟨response, after, others, hp, hr, rfl⟩ := run_cons_eq_ok.1 h
    obtain ⟨l, hl⟩ := perform_accounts hs hp
    obtain ⟨m, hm, hfresh, hhandles, hdenied⟩ := ih (perform_transfer hs hp).1 hr
    refine ⟨_, hl.posts.trans hm, ?_, ?_, fun hpunctual => ?_⟩
    · show l.fresh ++ m.fresh = _
      rw [hl.fresh, hfresh, entered_cons]
    · rw [entered_cons, accepted_cons, ← hhandles, ← hl.handle, List.map_append, Option.toList_map]
    · obtain ⟨hfirst, hrest⟩ := List.forall_mem_cons.1 hpunctual
      show l.denied + m.denied = l.limited + m.limited + _
      rw [hl.denied hfirst, hdenied hrest, total_cons]
      omega

end Run

/-! ### The balance since the beginning -/

/-- The ledger of a station since its beginning. -/
structure Balanced (l : Ledger) (s : Station τ) : Prop where
  turnover : Turnover l.fresh l.sent l.ended l.gone s.requests
  told : outcomes s.log = l.ended.map fun f => (f.ticket, f.outcome)
  tickets : (l.fresh.map Request.ticket).Nodup
  fresh : ∀ r ∈ l.fresh, r.origin = r

theorem Posts.balanced {settings : NetworkSettings} {carrier : τ} {start : Instant} {l : Ledger}
    {s : Station τ} {steps : List (Step τ)} (h : Posts (new settings carrier start) l s)
    (hl : l.fresh = entered steps) : Balanced l s where
  turnover := h.turnover
  told := by
    obtain ⟨effects, hlog, ho, -⟩ := h.transfer.log
    have hlog : s.log = effects := hlog
    rw [hlog, ho]
  tickets := by
    have hn := h.transfer.numbered
    rw [List.map_map] at hn
    have hn : l.fresh.map Request.ticket = List.range' 0 _ := hn
    rw [hn]
    exact List.nodup_range' ..
  fresh := by
    rw [hl]
    intro r hr
    obtain ⟨step, -, he⟩ := List.mem_filterMap.1 hr
    exact origin_of_entered? he

/-- What a submitter was told of a request that ended. -/
theorem lookup_of_closes {ended : List Finished} {gone : List Request}
    (h : List.Forall₂ Finished.Closes ended gone) (hn : (gone.map Request.ticket).Nodup)
    {r : Request} (hr : r ∈ gone) :
    ((ended.map fun f => (f.ticket, f.outcome)).lookup r.ticket).map Outcome.attempts =
      some r.attempts := by
  induction h with
  | nil => cases hr
  | @cons f q ended gone hc _ ih =>
    have ht : f.ticket = q.ticket := congrArg Ident.ticket hc.ident
    obtain ⟨hq, hrest⟩ := List.nodup_cons.1 hn
    rw [List.map_cons, ht]
    rcases List.mem_cons.1 hr with rfl | hm
    · rw [List.lookup_cons_self, Option.map_some, hc.attempts]
    · have hne : (r.ticket == q.ticket) = false :=
        beq_false_of_ne fun he => hq (he ▸ List.mem_map_of_mem hm)
      rw [List.lookup_cons, hne]
      exact ih hrest hm

/-- Among requests with different tickets, the attempts of one are told by its ticket. -/
theorem total_attempts_of_ticket {l : List Request} (hn : (l.map Request.ticket).Nodup)
    {q : Request} (hq : q ∈ l) :
    total (fun r => if r.ticket = q.ticket then r.attempts else 0) l = q.attempts := by
  induction l with
  | nil => cases hq
  | cons r rest ih =>
    obtain ⟨hr, hrest⟩ := List.nodup_cons.1 hn
    rw [total_cons]
    rcases List.mem_cons.1 hq with rfl | hm
    · have h0 : total (fun r => if r.ticket = q.ticket then r.attempts else 0) rest = 0 :=
        total_eq_zero fun x hx => if_neg fun he : x.ticket = q.ticket =>
          hr (he ▸ List.mem_map_of_mem hx)
      rw [if_pos rfl, h0, Nat.add_zero]
    · have hne : r.ticket ≠ q.ticket := fun he => hr (he ▸ List.mem_map_of_mem hm)
      rw [if_neg hne, ih hrest hm, Nat.zero_add]

namespace Balanced

variable {l : Ledger} {s : Station τ}

theorem nodup (h : Balanced l s) : ((l.gone ++ s.requests).map Request.ticket).Nodup := by
  have hp := h.turnover.origins.map Request.ticket
  rw [List.map_map, List.map_map] at hp
  exact hp.nodup_iff.1 h.tickets

/-- Each request that was taken in has ended or is pending. -/
theorem exists_of_fresh (h : Balanced l s) {r : Request} (hr : r ∈ l.fresh) :
    ∃ q ∈ l.gone ++ s.requests, q.origin = r := by
  have hm := h.turnover.origins.mem_iff.1 (List.mem_map_of_mem hr)
  obtain ⟨q, hq, ho⟩ := List.mem_map.1 hm
  exact ⟨q, hq, ho.trans (h.fresh r hr)⟩

theorem attemptsOf_of_mem (h : Balanced l s) {r : Request} (hr : r ∈ l.gone ++ s.requests) :
    s.attemptsOf r.ticket = r.attempts := by
  have hn := h.nodup
  unfold attemptsOf
  cases hf : s.requests.find? (·.ticket == r.ticket) with
  | some q =>
    have hq : q ∈ l.gone ++ s.requests := List.mem_append_right _ (List.mem_of_find?_eq_some hf)
    have ht : (q.ticket == r.ticket) = true :=
      List.find?_some (p := fun x : Request => x.ticket == r.ticket) hf
    have ht : q.ticket = r.ticket := eq_of_beq ht
    exact congrArg Request.attempts (List.inj_on_of_nodup_map hn hq hr ht)
  | none =>
    have hgone : r ∈ l.gone := (List.mem_append.1 hr).resolve_right fun hm => by
      have hne := List.find?_eq_none.1 hf r hm
      exact hne (beq_self_eq_true _)
    rw [List.map_append] at hn
    dsimp only
    rw [h.told, lookup_of_closes h.turnover.closes hn.of_append_left hgone]
    rfl

/-- What a submitter was told is how its request ended. -/
theorem exists_of_told (h : Balanced l s) {ticket : Ticket} {outcome : Outcome}
    (ht : (ticket, outcome) ∈ outcomes s.log) :
    ∃ r ∈ l.gone, r.ticket = ticket ∧ r.attempts = outcome.attempts := by
  rw [h.told] at ht
  obtain ⟨f, hf, he⟩ := List.mem_map.1 ht
  obtain ⟨rfl, rfl⟩ := Prod.mk.inj he
  obtain ⟨r, hr, hc⟩ := exists_of_closes h.turnover.closes hf
  exact ⟨r, hr, (congrArg Ident.ticket hc.ident).symm, hc.attempts.symm⟩

/-- A request that has ended or is pending was taken in. -/
theorem origin_mem_fresh (h : Balanced l s) {q : Request} (hq : q ∈ l.gone ++ s.requests) :
    q.origin ∈ l.fresh := by
  obtain ⟨r, hr, ho⟩ := List.mem_map.1 (h.turnover.origins.mem_iff.2 (List.mem_map_of_mem hq))
  rwa [← ho, h.fresh r hr]

/-- A request whose submitter was told that it ended well without a reply expects none. -/
theorem expectsReply_of_oneWay (h : Balanced l s) {r : Request} (hr : r ∈ l.fresh) {o : Outcome}
    (ht : (r.ticket, o) ∈ outcomes s.log) (ho : o.OneWay) : r.payload.expectsReply = false := by
  rw [h.told] at ht
  obtain ⟨f, hf, he⟩ := List.mem_map.1 ht
  obtain ⟨hticket, rfl⟩ := Prod.mk.inj he
  obtain ⟨q, hq, hident, hnone⟩ := h.turnover.oneWay f hf ho
  have hq := h.origin_mem_fresh (List.mem_append_left _ hq)
  have hsame : q.origin.ticket = r.ticket := (congrArg Ident.ticket hident).trans hticket
  rw [← List.inj_on_of_nodup_map h.tickets hq hr hsame]
  exact hnone

theorem attemptsOf_of_told (h : Balanced l s) {ticket : Ticket} {outcome : Outcome}
    (ht : (ticket, outcome) ∈ outcomes s.log) : s.attemptsOf ticket = outcome.attempts := by
  obtain ⟨r, hr, rfl, ha⟩ := h.exists_of_told ht
  rw [h.attemptsOf_of_mem (List.mem_append_left _ hr), ha]

/-- No attempt has been made at a request that was not taken in. -/
theorem attemptsOf_of_unknown (h : Balanced l s) {ticket : Ticket}
    (ht : ticket ∉ l.fresh.map Request.ticket) : s.attemptsOf ticket = 0 := by
  have hp := h.turnover.origins.map Request.ticket
  rw [List.map_map, List.map_map] at hp
  have hn : ∀ r ∈ l.gone ++ s.requests, r.ticket ≠ ticket := fun r hr he =>
    ht (hp.mem_iff.2 (he ▸ List.mem_map_of_mem hr))
  have hnone : s.requests.find? (·.ticket == ticket) = none :=
    List.find?_eq_none.2 fun r hr he => hn r (List.mem_append_right _ hr) (eq_of_beq he)
  unfold attemptsOf
  rw [hnone]
  dsimp only
  cases hl : (outcomes s.log).lookup ticket with
  | none => rfl
  | some outcome =>
    obtain ⟨before, after, he, -⟩ := List.lookup_eq_some_iff.1 hl
    have htold : (ticket, outcome) ∈ outcomes s.log :=
      he ▸ List.mem_append_right _ List.mem_cons_self
    obtain ⟨r, hr, hrt, -⟩ := h.exists_of_told htold
    exact absurd hrt (hn r (List.mem_append_left _ hr))

/-- The request of a frame, as it was taken in. -/
theorem mem_fresh_of_sent (h : Balanced l s) {x : Shipment} (hx : x ∈ l.sent) :
    x.request.origin ∈ l.fresh := by
  obtain ⟨r, hr, ho⟩ := List.mem_map.1 (h.turnover.senders x hx)
  rw [← ho, h.fresh r hr]
  exact hr

/-- The frames of a request are its attempts. -/
theorem count (h : Balanced l s) (ticket : Ticket) :
    l.sent.countP (fun x => decide (x.request.ticket = ticket)) = s.attemptsOf ticket := by
  by_cases hm : ticket ∈ l.fresh.map Request.ticket
  · obtain ⟨r, hr, rfl⟩ := List.mem_map.1 hm
    obtain ⟨q, hq, rfl⟩ := h.exists_of_fresh hr
    have h0 : total (fun r => if r.ticket = q.ticket then r.attempts else 0) l.fresh = 0 :=
      total_eq_zero fun r hr => by
        rw [← h.fresh r hr]
        exact ite_self 0
    have ht := h.turnover.total (f := fun r => if r.ticket = q.ticket then r.attempts else 0)
      (p := fun r => decide (r.ticket = q.ticket)) (fun _ => rfl) (fun r => ?_)
    · rw [h0, Nat.zero_add, ← total_append, total_attempts_of_ticket h.nodup hq] at ht
      rw [← h.attemptsOf_of_mem hq] at ht
      exact ht
    · show (if r.ticket = q.ticket then r.attempts + 1 else 0) = _
      by_cases he : r.ticket = q.ticket
      · rw [if_pos he, if_pos he, if_pos (decide_eq_true he)]
      · rw [if_neg he, if_neg he, if_neg (by simpa using he)]
  · rw [h.attemptsOf_of_unknown hm]
    refine List.countP_eq_zero.2 fun x hx he => hm ?_
    exact List.mem_map.2 ⟨_, h.mem_fresh_of_sent hx, of_decide_eq_true he⟩

/-- Among the requests that were taken in, one ticket means one request. -/
theorem count_origin (h : Balanced l s) {sent : List Shipment} (hsent : ∀ x ∈ sent, x ∈ l.sent)
    {r : Request} (hr : r ∈ l.fresh) : (sent.map (·.request.origin)).count r =
      sent.countP (fun x => decide (x.request.ticket = r.ticket)) := by
  rw [List.count, List.countP_map]
  refine List.countP_congr fun x hx => ?_
  constructor
  · intro he
    have ho : x.request.origin = r := eq_of_beq he
    exact decide_eq_true (ho ▸ rfl)
  · intro ht
    exact beq_iff_eq.2 (List.inj_on_of_nodup_map h.tickets (h.mem_fresh_of_sent (hsent x hx)) hr
      (of_decide_eq_true ht))

/-- What the attempts at all requests add up to. -/
theorem total_attemptsOf (h : Balanced l s) (f : Nat → Nat) :
    total (fun r => f (s.attemptsOf r.ticket)) l.fresh =
      total (fun r => f r.attempts) (l.gone ++ s.requests) := by
  have hp := total_perm (fun r => f (s.attemptsOf r.ticket)) h.turnover.origins
  rw [total_map, total_map] at hp
  refine hp.trans (total_congr fun r hr => ?_)
  exact congrArg f (h.attemptsOf_of_mem hr)

theorem length_sent (h : Balanced l s) :
    l.sent.length = total (fun r => s.attemptsOf r.ticket) l.fresh := by
  have h0 : total Request.attempts l.fresh = 0 := total_eq_zero fun r hr => by
    rw [← h.fresh r hr]
    rfl
  have ht := h.turnover.total (f := Request.attempts) (p := fun _ => true) (fun _ => rfl)
    (fun _ => rfl)
  rw [h0, Nat.zero_add, List.countP_true, ← total_append] at ht
  exact ht.trans (h.total_attemptsOf fun n => n).symm

theorem repeated_sent (h : Balanced l s) :
    l.sent.countP Shipment.repeated = total (fun r => s.attemptsOf r.ticket - 1) l.fresh := by
  have h0 : total (fun r : Request => r.attempts - 1) l.fresh = 0 := total_eq_zero fun r hr => by
    rw [← h.fresh r hr]
    rfl
  have ht := h.turnover.total (f := fun r : Request => r.attempts - 1)
    (p := fun r => decide (0 < r.attempts)) (fun _ => rfl) (fun r => ?_)
  · rw [h0, Nat.zero_add, ← total_append] at ht
    exact ht.trans (h.total_attemptsOf fun n => n - 1).symm
  · show r.attempts + 1 - 1 = _
    by_cases ha : 0 < r.attempts
    · rw [if_pos (decide_eq_true ha)]
      omega
    · rw [if_neg (by simpa using ha)]
      omega

/-- No request has more attempts than it may have. -/
theorem bounded (h : Balanced l s) (hs : s.Sound) {r : Request} (hr : r ∈ l.fresh) :
    s.attemptsOf r.ticket ≤ r.maxAttempts := by
  obtain ⟨q, hq, rfl⟩ := h.exists_of_fresh hr
  show s.attemptsOf q.ticket ≤ q.maxAttempts
  rw [h.attemptsOf_of_mem hq]
  rcases List.mem_append.1 hq with hg | hp
  · exact h.turnover.bounded q hg
  · obtain ⟨e, he, hm⟩ := List.mem_flatMap.1 hp
    rw [requests_queueOf (Table.mem_entries_iff.1 he)] at hm
    rcases Backlog.mem_requests.1 hm with hf | hw
    · exact ((hs.settled e.1).inFlight q hf).attempts
    · exact Nat.le_of_lt ((hs.settled e.1).waiting q hw).attempts

end Balanced

/-! ### The counters since the beginning -/

namespace Posts

variable {settings : NetworkSettings} {carrier : τ} {start : Instant} {l : Ledger} {s : Station τ}

/-- A frame for one agent is taken or refused. -/
theorem length_sent (h : Posts (new settings carrier start) l s) :
    s.tally.unicastSent + s.tally.sendFailures = l.sent.length := by
  have ht : s.tally.unicastSent = 0 + _ := h.bill.taken
  have hr : s.tally.sendFailures = 0 + _ := h.bill.refused
  rw [ht, hr, Nat.zero_add, Nat.zero_add, List.length_eq_countP_add_countP Shipment.taken]
  simp only [Bool.not_eq_true, Bool.decide_eq_false]

theorem unicasts_eq (h : Posts (new settings carrier start) l s) :
    unicasts s.log = l.sent.map Shipment.sending := by
  obtain ⟨frames, hframes, hunicast, -⟩ := h.bill.frames
  have hlog : sendings s.log = frames := hframes
  unfold unicasts
  rw [hlog, hunicast]

theorem airings_eq (h : Posts (new settings carrier start) l s) : airings s.log = l.aired := by
  obtain ⟨frames, hframes, -, haired⟩ := h.bill.frames
  have hlog : sendings s.log = frames := hframes
  unfold airings
  rw [hlog, haired]

theorem carries (h : Posts (new settings carrier start) l s) :
    ∀ x ∈ l.sent, x.frame.Carries s.id x.request := by
  have hid : s.id = (new settings carrier start).id :=
    congrArg NetworkSettings.id h.transfer.settings
  rw [hid]
  exact h.framed

/-- What a throttle has dealt with: one token for each bulk frame and for each broadcast. -/
theorem tokens_eq (h : Posts (new settings carrier start) l s) :
    tokens s.throttle = settings.rateLimit.map fun _ =>
      (l.sent.countP Shipment.bulk + l.aired.length, l.denied) := by
  have htoll : tokens s.throttle = (tokens (settings.rateLimit.map fun limit =>
      .full limit.perSecond limit.burst start)).map fun t =>
        (t.1 + (l.sent.countP Shipment.bulk + l.aired.length), t.2 + l.denied) := h.bill.toll
  rw [htoll]
  cases settings.rateLimit with
  | none => rfl
  | some limit => exact congrArg some (Prod.ext (Nat.zero_add _) (Nat.zero_add _))

theorem dealt (h : Posts (new settings carrier start) l s) {bucket : Bucket Float}
    (hb : s.throttle = some bucket) :
    bucket.granted = l.sent.countP Shipment.bulk + l.aired.length ∧ bucket.denied = l.denied := by
  have ht := h.tokens_eq
  rw [hb] at ht
  obtain ⟨-, -, he⟩ := Option.map_eq_some_iff.1 ht.symm
  exact ⟨(congrArg Prod.fst he).symm, (congrArg Prod.snd he).symm⟩

theorem throttled (h : Posts (new settings carrier start) l s) :
    s.throttle.isSome = s.settings.rateLimit.isSome := by
  have hset : s.settings = settings := h.transfer.settings
  have ht := congrArg Option.isSome h.tokens_eq
  unfold tokens at ht
  rwa [Option.isSome_map, Option.isSome_map, ← hset] at ht

end Posts

/-! ### The accounts -/

/-- Which request each frame for one agent is of: every request has as many frames as attempts, and
each token was given for a bulk frame or for a broadcast. -/
structure Senders (steps : List (Step τ)) (s : Station τ) (senders : List Request) : Prop where
  frames : List.Forall₂ (fun f r => f.1.Carries s.id r) (unicasts s.log) senders
  known : ∀ r ∈ senders, r ∈ entered steps
  count : ∀ r ∈ entered steps, senders.count r = s.attemptsOf r.ticket
  granted : ∀ bucket, s.throttle = some bucket →
    bucket.granted = senders.countP (·.trafficClass.isBulk) + (airings s.log).length

/-- The counters of the traffic agree with what was handed to the link and with the attempts made at
the requests that were taken in. -/
structure TrafficAccounted (steps : List (Step τ)) (s : Station τ) : Prop where
  handles : (entered steps).map Request.handle = accepted steps
  attempts : s.tally.unicastSent + s.tally.sendFailures =
    total (fun r => s.attemptsOf r.ticket) (entered steps)
  handed : s.tally.unicastSent + s.tally.sendFailures = (unicasts s.log).length
  bounded : ∀ r ∈ entered steps, s.attemptsOf r.ticket ≤ r.maxAttempts
  retries : s.tally.retries = total (fun r => s.attemptsOf r.ticket - 1) (entered steps)
  broadcasts : s.tally.broadcasts.total = (airings s.log).countP Sending.isTaken
  senders : ∃ senders, Senders steps s senders
  throttled : s.throttle.isSome = s.settings.rateLimit.isSome
  /-- if no sleeper wakes before it wants to -/
  denied : (∀ step ∈ steps, step.operation.Punctual) → ∀ bucket, s.throttle = some bucket →
    bucket.denied = s.tally.broadcastsRateLimited + total Step.starved steps

theorem forall₂_carries {network : NetworkId} {sent : List Shipment}
    (h : ∀ x ∈ sent, x.frame.Carries network x.request) :
    List.Forall₂ (fun f r => f.1.Carries network r) (sent.map Shipment.sending)
      (sent.map (·.request.origin)) := by
  rw [List.forall₂_map_left_iff, List.forall₂_map_right_iff, List.forall₂_same]
  exact fun x hx => ⟨(h x hx).network, (h x hx).destination, (h x hx).body, (h x hx).key⟩

/-- The requests of a ledger, one for each of its frames. -/
theorem senders_of_balanced {l : Ledger} {s : Station τ} {steps : List (Step τ)}
    (h : Balanced l s) (hl : l.fresh = entered steps)
    (hu : unicasts s.log = l.sent.map Shipment.sending)
    (hf : ∀ x ∈ l.sent, x.frame.Carries s.id x.request)
    (hg : ∀ bucket, s.throttle = some bucket →
      bucket.granted = l.sent.countP Shipment.bulk + (airings s.log).length) :
    Senders steps s (l.sent.map (·.request.origin)) where
  frames := by
    rw [hu]
    exact forall₂_carries hf
  known r hr := by
    obtain ⟨x, hx, rfl⟩ := List.mem_map.1 hr
    exact hl ▸ h.mem_fresh_of_sent hx
  count r hr := by
    rw [h.count_origin (fun _ hx => hx) (hl ▸ hr), h.count]
  granted bucket hb := by
    rw [hg bucket hb, List.countP_map]
    rfl

/-- Which request each frame for one agent is of that a step handed to the link: each of them is one
more attempt at a request that was taken in. -/
structure Sends (step : Step τ) (known senders : List Request) : Prop where
  frames : List.Forall₂ (fun f r => f.1.Carries step.before.id r) (unicasts step.effects) senders
  subset : ∀ r ∈ senders, r ∈ known
  attempts : ∀ r ∈ known,
    step.after.attemptsOf r.ticket = step.before.attemptsOf r.ticket + senders.count r

section Steps

variable [Carrier τ] {settings : NetworkSettings} {carrier : τ} {start : Instant}
  {operations : List Operation} {past later : List (Step τ)} {step : Step τ} {last : Station τ}

/-- The ledger of a station since its beginning, and that of the next step. -/
theorem accounts_of_step
    (h : run operations (new settings carrier start) = .ok (past ++ step :: later, last)) :
    ∃ l m, Balanced l step.before ∧ Accounts step m ∧ Balanced (l ++ m) step.after ∧
      (l ++ m).fresh = entered (past ++ [step]) := by
  have hnew : (new settings carrier start).Sound := sound_new settings carrier start
  obtain ⟨hpast, hstep, -⟩ := run_split h
  obtain ⟨l, hl, hfresh, -⟩ := accounts_of_run hnew hpast
  obtain ⟨m, hm⟩ := perform_accounts (run_transfer hnew hpast).1 hstep
  have hboth : (l ++ m).fresh = entered (past ++ [step]) := by
    show l.fresh ++ m.fresh = _
    have hlast : entered [step] = step.entered?.toList :=
      (entered_cons step []).trans (List.append_nil _)
    have hall : entered (past ++ [step]) = entered past ++ entered [step] := List.filterMap_append
    rw [hfresh, hm.fresh, hall, hlast]
  exact ⟨l, m, hl.balanced hfresh, hm, (hl.trans hm.posts).balanced hboth, hboth⟩

/-- Each frame of a step is one more attempt at a request. -/
theorem exists_sends
    (h : run operations (new settings carrier start) = .ok (past ++ step :: later, last)) :
    ∃ senders, Sends step (entered (past ++ [step])) senders := by
  obtain ⟨l, m, hl, hm, hlm, hfresh⟩ := accounts_of_step h
  have hsent : ∀ x ∈ m.sent, x ∈ (l ++ m).sent := fun x hx => List.mem_append_right _ hx
  refine ⟨m.sent.map (·.request.origin), ?_, fun r hr => ?_, fun r hr => ?_⟩
  · rw [hm.posts.handed.1]
    exact forall₂_carries hm.posts.framed
  · obtain ⟨x, hx, rfl⟩ := List.mem_map.1 hr
    exact hfresh ▸ hlm.mem_fresh_of_sent (hsent x hx)
  · rw [← hlm.count, ← hl.count, hlm.count_origin hsent (hfresh ▸ hr), Ledger.sent_append,
      List.countP_append]

end Steps

/-- Whatever a station is asked to do from its beginning on, and whatever the link answers: each
frame for one agent is one attempt at one of its requests, and every counter of the traffic says how
many frames there were. -/
theorem traffic_accounted [Carrier τ] {settings : NetworkSettings} {carrier : τ} {start : Instant}
    {operations : List Operation} {steps : List (Step τ)} {s : Station τ}
    (h : run operations (new settings carrier start) = .ok (steps, s)) :
    TrafficAccounted steps s := by
  have hnew : (new settings carrier start).Sound := sound_new settings carrier start
  obtain ⟨l, hposts, hfresh, hhandles, hdenied⟩ := accounts_of_run hnew h
  have hsound : s.Sound := (run_transfer hnew h).1
  have hb := hposts.balanced hfresh
  exact {
    handles := hhandles
    attempts := by rw [hposts.length_sent, hb.length_sent, hfresh]
    handed := by rw [hposts.length_sent, hposts.unicasts_eq, List.length_map]
    bounded := fun r hr => hb.bounded hsound (hfresh ▸ hr)
    retries := by
      have hr : s.tally.retries = 0 + _ := hposts.bill.retries
      rw [hr, Nat.zero_add, hb.repeated_sent, hfresh]
    broadcasts := by
      have hr : s.tally.broadcasts.total = 0 + _ := hposts.bill.broadcasts
      rw [hr, Nat.zero_add, hposts.airings_eq]
    senders := ⟨_, senders_of_balanced hb hfresh hposts.unicasts_eq hposts.carries
      fun bucket hbucket => by rw [(hposts.dealt hbucket).1, hposts.airings_eq]⟩
    throttled := hposts.throttled
    denied := fun hp bucket hbucket => by
      have hp : ∀ operation ∈ operations, operation.Punctual := by
        rw [← operations_of_run h]
        exact List.forall_mem_map.2 hp
      have hr : s.tally.broadcastsRateLimited = 0 + _ := hposts.bill.limited
      rw [(hposts.dealt hbucket).2, hdenied hp, hr, Nat.zero_add] }

/-- A bulk command that waits for a token, is sent, and is answered at its second attempt.  Of the
broadcasts in between one finds a token, one is given up, and one sleeps until there is a token. -/
def repeatedUpload : List Operation :=
  [.route (.heartbeat "alpha" 1) 0,
    .broadcast (fun t => t) ⟨.command, [9]⟩ 30 10,
    .submit 1 1 ((Payload.expecting [7] 3).withClass .fileTransfer) .normal 0 20,
    .broadcast (fun t => t) ⟨.command, [9]⟩ 40 30,
    .broadcast (fun t => t) ⟨.correction, [9]⟩ 3000000000 500000000,
    .tick .ascending 4000000000,
    .tick .ascending 8000000000,
    .deliver (.accepted "alpha" 1 3) 8000000010]

theorem traffic_accounted_repeatedUpload :
    ∃ steps s, run repeatedUpload
        (new { id := "alpha", rateLimit := some ⟨1, 1⟩ } (Pipe.new "up" 8) 0) = .ok (steps, s) ∧
      (∀ step ∈ steps, step.operation.Punctual) ∧ tokens s.throttle = some (4, 2) ∧
      s.tally.unicastSent = 2 ∧ s.tally.broadcastsRateLimited = 1 ∧
      total Step.starved steps = 1 ∧ TrafficAccounted steps s := by
  have hrun : (run repeatedUpload
      (new { id := "alpha", rateLimit := some ⟨1, 1⟩ } (Pipe.new "up" 8) 0)).toOption.map
      (fun r => (tokens r.2.throttle, r.2.tally.unicastSent, r.2.tally.broadcastsRateLimited,
        total Step.starved r.1)) = some (some (4, 2), 2, 1, 1) := by decide +kernel
  obtain ⟨steps, s, h, he⟩ := exists_run_of_map hrun
  obtain ⟨htokens, hsent, hlimited, hstarved⟩ : _ ∧ _ ∧ _ ∧ _ := by
    simpa only [Prod.mk.injEq] using he
  have hp : ∀ operation ∈ repeatedUpload, operation.Punctual := by
    simp [repeatedUpload, Operation.Punctual]
  have hpunctual : ∀ step ∈ steps, step.operation.Punctual :=
    fun step hs => hp _ (perform_of_mem_run h hs).1
  exact ⟨steps, s, h, hpunctual, htokens, hsent, hlimited, hstarved, traffic_accounted h⟩

end Station

end GroundControl
