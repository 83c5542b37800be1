import GroundControl.Proofs.Backlog.Passage
import GroundControl.Proofs.Pump.Rounds

/-!
# What a pump hands to the link

Each frame a pump hands to the link is one attempt of one waiting request, and each attempt is one
frame.  Bulk frames are paid for with one token each, and a pump turns a token down at most once: it
stops there.

* `Sending`, a frame with the answer of the link; `Shipment`, a frame with the request it is of;
* `Outcome.OneWay`: a request ended well without a reply;
* `Turnover`: the requests there were, and what was handed over of them, are those that ended and
  those that are left, one attempt later for each shipment; `Turnover.trans`, `Turnover.of_passage`;
* `tokens`, the counts of a throttle; `toll_pay`;
* `Pass.Ships`, everything a pass hands over, and `ships_rounds`;
* `Pass.starved`: a pass stopped for lack of a token.
-/

namespace GroundControl

/-- A frame that was handed to the link, with the answer of the link. -/
abbrev Sending := Frame × Except LinkError Unit

/-- The request after one more attempt, without what may change between two attempts. -/
def Request.shipped (r : Request) : Request := { r.entry with attempts := r.attempts + 1 }

/-- A frame that was handed to the link, with the request it is of, as it was before. -/
structure Shipment where
  request : Request
  frame : Frame
  answer : Except LinkError Unit

namespace Shipment

/-- The frame and the answer of the link. -/
def sending (x : Shipment) : Sending := (x.frame, x.answer)

/-- Whether the link took the frame. -/
def taken (x : Shipment) : Bool := x.answer.isOk

/-- Whether the frame was not the first of its request. -/
def repeated (x : Shipment) : Bool := decide (0 < x.request.attempts)

/-- Whether the frame had to be paid for. -/
def bulk (x : Shipment) : Bool := x.request.trafficClass.isBulk

end Shipment

/-- A request ended well without a reply. -/
def Outcome.OneWay : Outcome → Prop
  | .success _ roundTrip => roundTrip = none
  | _ => False

/-! ### Turnovers -/

/-- The requests `before` become the requests `after`: the requests `gone` end in between, and each
shipment is one attempt of one of the requests. -/
structure Turnover (before : List Request) (sent : List Shipment) (ended : List Finished)
    (gone after : List Request) : Prop where
  balance : (before.map Request.entry ++ sent.map (·.request.shipped)).Perm
    (gone ++ after.map Request.entry ++ sent.map (·.request.entry))
  closes : List.Forall₂ Finished.Closes ended gone
  /-- what ends well without a reply expects none -/
  oneWay : ∀ f ∈ ended, f.outcome.OneWay →
    ∃ r ∈ gone, r.ident = f.ident ∧ r.payload.expectsReply = false
  bounded : ∀ r ∈ gone, r.attempts ≤ r.maxAttempts
  senders : ∀ x ∈ sent, x.request.origin ∈ before.map Request.origin

namespace Turnover

variable {l m n : List Request} {sent sent' : List Shipment} {ended ended' : List Finished}
  {gone gone' : List Request}

theorem of_perm (h : (l.map Request.entry).Perm (m.map Request.entry)) : Turnover l [] [] [] m where
  balance := by
    simp only [List.map_nil, List.append_nil, List.nil_append]
    exact h
  closes := .nil
  oneWay := List.forall_mem_nil _
  bounded := List.forall_mem_nil _
  senders := List.forall_mem_nil _

theorem refl (l : List Request) : Turnover l [] [] [] l := of_perm (.refl _)

/-- The balance, counted for one entry. -/
theorem count (h : Turnover l sent ended gone m) (e : Request) :
    (l.map Request.entry).count e + (sent.map (·.request.shipped)).count e =
      gone.count e + (m.map Request.entry).count e + (sent.map (·.request.entry)).count e := by
  have hc := List.perm_iff_count.1 h.balance e
  simpa only [List.count_append] using hc

/-- Apart from their attempts, the requests there were are those that ended and those that are
left. -/
theorem origins (h : Turnover l sent ended gone m) :
    (l.map Request.origin).Perm ((gone ++ m).map Request.origin) := by
  have hp := h.balance.map Request.origin
  have horigin : Request.origin ∘ Request.entry = Request.origin := rfl
  have hshipped : Request.origin ∘ (fun x : Shipment => x.request.shipped) =
      fun x => x.request.origin := rfl
  have hentry : Request.origin ∘ (fun x : Shipment => x.request.entry) =
      fun x => x.request.origin := rfl
  simp only [List.map_append, List.map_map, horigin, hshipped, hentry] at hp
  rw [List.map_append]
  exact (List.perm_append_right_iff _).1 hp

theorem trans (h : Turnover l sent ended gone m) (h' : Turnover m sent' ended' gone' n) :
    Turnover l (sent ++ sent') (ended ++ ended') (gone ++ gone') n where
  balance := by
    refine List.perm_iff_count.2 fun e => ?_
    have hc := h.count e
    have hc' := h'.count e
    simp only [List.map_append, List.count_append]
    omega
  closes := List.rel_append h.closes h'.closes
  oneWay := by
    refine List.forall_mem_append.2 ⟨fun f hf ho => ?_, fun f hf ho => ?_⟩
    · obtain ⟨r, hr, hone⟩ := h.oneWay f hf ho
      exact ⟨r, List.mem_append_left _ hr, hone⟩
    · obtain ⟨r, hr, hone⟩ := h'.oneWay f hf ho
      exact ⟨r, List.mem_append_right _ hr, hone⟩
  bounded := List.forall_mem_append.2 ⟨h.bounded, h'.bounded⟩
  senders := by
    refine List.forall_mem_append.2 ⟨h.senders, fun x hx => h.origins.mem_iff.2 ?_⟩
    rw [List.map_append]
    exact List.mem_append_right _ (h'.senders x hx)

/-- A weight of requests that grows by one with each attempt of certain requests. -/
theorem total (h : Turnover l sent ended gone m) {f : Request → Nat} {p : Request → Bool}
    (hf : ∀ r : Request, f r.entry = f r)
    (hp : ∀ r : Request, f r.shipped = f r + if p r then 1 else 0) :
    GroundControl.total f l + sent.countP (fun x => p x.request) =
      GroundControl.total f gone + GroundControl.total f m := by
  have hentry : ∀ l : List Request,
      GroundControl.total f (l.map Request.entry) = GroundControl.total f l := fun l =>
    (total_map f Request.entry l).trans (total_congr fun r _ => hf r)
  have hsent : GroundControl.total f (sent.map (·.request.shipped)) =
      GroundControl.total f (sent.map (·.request.entry)) + sent.countP (fun x => p x.request) := by
    clear h
    induction sent with
    | nil => rfl
    | cons x rest ih =>
      rw [List.map_cons, List.map_cons, total_cons, total_cons, ih, hf, hp, List.countP_cons]
      omega
  have hb := total_perm f h.balance
  rw [total_append, total_append, total_append, hentry, hentry, hsent] at hb
  omega

/-- What has nothing to do with a turnover stands on both sides of it. -/
theorem frame (h : Turnover l sent ended gone m) {l' m' others : List Request}
    (hl : l'.Perm (l ++ others)) (hm : m'.Perm (m ++ others)) : Turnover l' sent ended gone m' where
  balance := by
    refine List.perm_iff_count.2 fun e => ?_
    have hc := h.count e
    have hl := List.perm_iff_count.1 (hl.map Request.entry) e
    have hm := List.perm_iff_count.1 (hm.map Request.entry) e
    simp only [List.map_append, List.count_append] at hl hm ⊢
    omega
  closes := h.closes
  oneWay := h.oneWay
  bounded := h.bounded
  senders x hx := by
    refine (hl.map Request.origin).mem_iff.2 ?_
    rw [List.map_append]
    exact List.mem_append_left _ (h.senders x hx)

/-- The calls that take no request in and hand none out are turnovers without shipments. -/
theorem of_passage {b b' : Backlog} (h : b.Passage ended b') (hb : b.Viable)
    (ho : ∀ f ∈ ended, ¬ f.outcome.OneWay) :
    ∃ gone, Turnover b.requests [] ended gone b'.requests := by
  obtain ⟨gone, hc, hp⟩ := h.account
  refine ⟨gone, ?_, hc, fun f hf hone => absurd hone (ho f hf), fun r hr => ?_,
    List.forall_mem_nil _⟩
  · simpa only [List.map_nil, List.append_nil] using hp
  · obtain ⟨q, hq, rfl⟩ := List.mem_map.1 (hp.mem_iff.2 (List.mem_append_left _ hr))
    rcases Backlog.mem_requests.1 hq with hf | hw
    · exact (hb.inFlight q hf).attempts
    · exact Nat.le_of_lt (hb.waiting q hw).attempts

/-- One shipment of a request that goes on being pending. -/
theorem of_shipment {x : Shipment} {r : Request} {rest after : List Request} (hx : x.request = r)
    (h : (after.map Request.entry).Perm (r.shipped :: rest.map Request.entry)) :
    Turnover (r :: rest) [x] [] [] after where
  balance := by
    refine List.perm_iff_count.2 fun e => ?_
    have hc := List.perm_iff_count.1 h e
    simp only [List.map_cons, List.map_nil, List.count_append, List.count_cons, List.count_nil, hx]
      at hc ⊢
    omega
  closes := .nil
  oneWay := List.forall_mem_nil _
  bounded := List.forall_mem_nil _
  senders := List.forall_mem_singleton.2 (hx ▸ List.mem_cons_self)

/-- One shipment that ends its request. -/
theorem of_last_shipment {x : Shipment} {r : Request} {rest : List Request} {f : Finished}
    (hx : x.request = r) (hf : f.Closes r.shipped) (hr : r.attempts < r.maxAttempts)
    (ho : f.outcome.OneWay → r.payload.expectsReply = false) :
    Turnover (r :: rest) [x] [f] [r.shipped] rest where
  balance := by
    refine List.perm_iff_count.2 fun e => ?_
    simp only [List.map_cons, List.map_nil, List.count_append, List.count_cons, List.count_nil, hx]
    omega
  closes := .cons hf .nil
  oneWay := List.forall_mem_singleton.2 fun hone =>
    ⟨r.shipped, List.mem_cons_self, hf.ident.symm, ho hone⟩
  bounded := List.forall_mem_singleton.2 hr
  senders := List.forall_mem_singleton.2 (hx ▸ List.mem_cons_self)

end Turnover

/-- Whether a pump that left a backlog like this stopped for lack of a token, if the link refused so
many of its frames: nothing is in flight, the request that would go next has to be paid for, and no
frame was refused. -/
def Backlog.starved (b : Backlog) (refused : Nat) : Bool :=
  b.inFlight.isNone && b.waiting.head?.any (·.trafficClass.isBulk) && refused == 0

/-! ### Tokens -/

/-- The tokens a throttle has given out and the requests it has turned away. -/
def tokens (throttle : Option (Bucket Float)) : Option (Nat × Nat) := throttle.map Bucket.dealt

namespace Pass

variable {τ : Type}

/-- A bulk request is paid for with one token, any other with none; what cannot be paid for is bulk
and counts as turned away. -/
theorem toll_pay {p : Pass τ} {c : TrafficClass} {now : Instant} {paid : Bool}
    {throttle : Option (Bucket Float)} (h : p.pay c now = (paid, { p with throttle })) :
    tokens throttle = (tokens p.throttle).map (fun t =>
        (t.1 + if paid && c.isBulk then 1 else 0, t.2 + if paid then 0 else 1)) ∧
      (paid = false → c.isBulk = true) := by
  -- what is paid without a token leaves the throttle as it is
  have hfree : (true, p) = (paid, { p with throttle }) → paid = true ∧ throttle = p.throttle := by
    intro he
    obtain ⟨hpaid, hp⟩ := Prod.mk.inj he
    exact ⟨hpaid.symm, (congrArg Pass.throttle hp).symm⟩
  unfold pay at h
  cases hc : c.isBulk with
  | false =>
    rw [hc, if_neg Bool.false_ne_true] at h
    obtain ⟨rfl, rfl⟩ := hfree h
    exact ⟨(congrFun Option.map_id _).symm, nofun⟩
  | true =>
    rw [hc, if_pos rfl] at h
    refine ⟨?_, fun _ => rfl⟩
    cases hb : p.throttle with
    | none =>
      rw [hb] at h
      rw [(hfree h).2, hb]
      rfl
    | some bucket =>
      have hd := bucket.dealt_take 1 now
      rw [hb] at h
      dsimp only at h
      generalize bucket.take 1 now = result at h hd
      obtain ⟨rfl, hp⟩ := Prod.mk.inj h
      have ht : some result.2 = throttle := congrArg Pass.throttle hp
      unfold tokens
      rw [← ht, Option.map_some, Option.map_some, hd]
      cases result.1 <;> rfl

/-! ### Shipments -/

/-- What a pass hands over until it has become `q`, with the number of tokens it was denied. -/
structure Ships (ctx : PassContext) (p : Pass τ) (sent : List Shipment) (denied : Nat)
    (q : Pass τ) : Prop where
  frames : q.frames = p.frames ++ sent.map Shipment.sending
  framed : ∀ x ∈ sent, x.frame = ctx.frame x.request
  taken : q.taken = p.taken + sent.countP Shipment.taken
  refused : q.refused = p.refused + sent.countP (!·.taken)
  retries : q.retries = p.retries + sent.countP Shipment.repeated
  toll : tokens q.throttle =
    (tokens p.throttle).map fun t => (t.1 + sent.countP Shipment.bulk, t.2 + denied)
  turnover : ∃ ended gone, q.finished = p.finished ++ ended ∧
    Turnover p.backlog.requests sent ended gone q.backlog.requests

variable {ctx : PassContext} {p q : Pass τ}

theorem Ships.of_throttle {throttle : Option (Bucket Float)} {denied : Nat}
    (h : tokens throttle = (tokens p.throttle).map fun t => (t.1, t.2 + denied)) :
    Ships ctx p [] denied { p with throttle } where
  frames := (List.append_nil _).symm
  framed := List.forall_mem_nil _
  taken := rfl
  refused := rfl
  retries := rfl
  toll := h
  turnover := ⟨[], [], (List.append_nil _).symm, .refl _⟩

theorem Ships.refl (ctx : PassContext) (p : Pass τ) : Ships ctx p [] 0 p :=
  .of_throttle (congrFun Option.map_id (tokens p.throttle)).symm

theorem Ships.trans {q' : Pass τ} {sent sent' : List Shipment} {denied denied' : Nat}
    (h : Ships ctx p sent denied q) (h' : Ships ctx q sent' denied' q') :
    Ships ctx p (sent ++ sent') (denied + denied') q' where
  frames := by rw [h'.frames, h.frames, List.map_append, List.append_assoc]
  framed := List.forall_mem_append.2 ⟨h.framed, h'.framed⟩
  taken := by rw [h'.taken, h.taken, List.countP_append, Nat.add_assoc]
  refused := by rw [h'.refused, h.refused, List.countP_append, Nat.add_assoc]
  retries := by rw [h'.retries, h.retries, List.countP_append, Nat.add_assoc]
  toll := by
    rw [h'.toll, h.toll, Option.map_map, List.countP_append]
    simp only [Function.comp_def, Nat.add_assoc]
  turnover := by
    obtain ⟨ended, gone, hf, ht⟩ := h.turnover
    obtain ⟨ended', gone', hf', ht'⟩ := h'.turnover
    exact ⟨ended ++ ended', gone ++ gone', by rw [hf', hf, List.append_assoc], ht.trans ht'⟩

/-- The shipment of a request. -/
def shipment (ctx : PassContext) (r : Request) (answer : Except LinkError Unit) : Shipment :=
  ⟨r, ctx.frame r, answer⟩

/-- Whether a pass stopped for lack of a token. -/
def starved (p : Pass τ) : Bool := p.backlog.starved p.refused

theorem starved_of_waiting_eq_nil (h : p.backlog.waiting = []) : p.starved = false := by
  unfold starved Backlog.starved
  rw [h]
  exact Bool.and_assoc .. ▸ Bool.and_false _

theorem starved_of_flight (h : p.backlog.inFlight.isSome = true) : p.starved = false := by
  unfold starved Backlog.starved
  rw [Option.isNone_eq_false_iff.2 h]
  rfl

theorem starved_of_refused (h : p.refused ≠ 0) : p.starved = false := by
  unfold starved Backlog.starved
  rw [beq_false_of_ne h, Bool.and_false]

section Rounds

variable [Carrier τ] {r : Request} {rest : List Request} {throttle : Option (Bucket Float)}
  {base : Span} {answer : Except LinkError Unit} {carrier : τ}

theorem Handed.requests (h : Handed ctx p r rest throttle base answer carrier) :
    p.backlog.requests = r :: rest := by
  unfold Backlog.requests
  rw [h.idle, h.head]
  rfl

/-- Nothing but the waiting requests is pending as long as the link is idle. -/
theorem Handed.requests_replaced (h : Handed ctx p r rest throttle base answer carrier)
    (waiting : List Request) : ({ p.backlog with waiting } : Backlog).requests = waiting := by
  unfold Backlog.requests
  dsimp only
  rw [h.idle]
  rfl

/-- Handing the first waiting request over is one shipment. -/
theorem Handed.ships (h : Handed ctx p r rest throttle base answer carrier) {b : Backlog}
    {taken refused : Nat} {finished : List Finished} {ended : List Finished} {gone : List Request}
    (htaken : taken = p.taken + [shipment ctx r answer].countP Shipment.taken)
    (hrefused : refused = p.refused + [shipment ctx r answer].countP (!·.taken))
    (hfinished : finished = p.finished ++ ended)
    (ht : Turnover (r :: rest) [shipment ctx r answer] ended gone b.requests) :
    Ships ctx p [shipment ctx r answer] 0
      { p.afterSend ctx r throttle answer carrier with
        backlog := b, taken, refused, finished } where
  frames := rfl
  framed := List.forall_mem_singleton.2 rfl
  taken := htaken
  refused := hrefused
  retries := by
    show (if 1 < r.attempts + 1 then p.retries + 1 else p.retries) = _
    rw [List.countP_singleton]
    unfold Shipment.repeated shipment
    by_cases ha : 0 < r.attempts
    · rw [if_pos (Nat.succ_lt_succ ha), if_pos (decide_eq_true ha)]
    · rw [if_neg fun hc => ha (Nat.lt_of_succ_lt_succ hc), if_neg (by simpa using ha),
        Nat.add_zero]
  toll := by
    rw [List.countP_singleton]
    exact (toll_pay h.paid).1
  turnover := ⟨ended, gone, hfinished, h.requests ▸ ht⟩

/-- What the rounds of a pass hand over; a token is denied exactly if the pass stops for lack of
one. -/
theorem ships_rounds {n : Nat} (hp : p.Sound) (h0 : p.refused = 0)
    (hn : p.backlog.waiting.length ≤ n) (h : rounds ctx n p = (none, q)) :
    ∃ sent, Ships ctx p sent q.starved.toNat q := by
  -- a pass that hands nothing over and denies nothing
  have hidle : ∀ {p : Pass τ}, p.starved = false → ∃ sent, Ships ctx p sent p.starved.toNat p :=
    fun hs => ⟨[], hs ▸ .refl ctx _⟩
  induction n generalizing p with
  | zero =>
    have hs := starved_of_waiting_eq_nil (List.length_eq_zero_iff.1 (Nat.le_zero.1 hn))
    cases h
    exact hidle hs
  | succ n ih =>
    have hc := round_case ctx hp.settled
    have hall := sound_round ctx hp
    unfold rounds at h
    generalize round ctx p = result at h hc hall
    cases hc with
    | idle hi =>
      cases h
      exact hidle (hi.elim starved_of_flight starved_of_waiting_eq_nil)
    | @unpaid r rest throttle hf hw hpay =>
      cases h
      obtain ⟨htoll, hbulk⟩ := toll_pay hpay
      have hs : starved { p with throttle } = true := by
        unfold starved Backlog.starved
        dsimp only
        rw [hf, hw, h0, List.head?_cons, Option.any_some, hbulk rfl]
        rfl
      rw [hs]
      exact ⟨[], .of_throttle htoll⟩
    | fault => cases h
    | @flying r rest throttle base carrier deadline hh hr hd =>
      cases h
      exact ⟨_, hh.ships rfl rfl (List.append_nil _).symm (.of_shipment rfl (.refl _))⟩
    | @oneWay r rest throttle base carrier hh hr =>
      have hshort : rest.length ≤ n := by
        rw [hh.head, List.length_cons] at hn
        exact Nat.le_of_succ_le_succ hn
      have hcloses : r.endOneWay.Closes r.shipped := by
        refine ⟨rfl, rfl, rfl, rfl, ?_⟩
        rintro (hf | hf) <;> cases hf
      have ht : Turnover (r :: rest) [shipment ctx r (.ok ())] [r.endOneWay] [r.shipped]
          ({ p.backlog with waiting := rest } : Backlog).requests := by
        rw [hh.requests_replaced]
        exact .of_last_shipment rfl hcloses (hh.waiting hp.settled).1.attempts fun _ => hr
      obtain ⟨sent, hrest⟩ := ih hall.1 h0 hshort h
      exact ⟨_, Nat.zero_add q.starved.toNat ▸ (hh.ships rfl rfl rfl ht).trans hrest⟩
    | @retried r rest throttle base e carrier hh hr =>
      cases h
      have ht : Turnover (r :: rest) [shipment ctx r (.error e)] [] []
          ({ p.backlog with waiting := Backlog.requeue r.refused rest } : Backlog).requests := by
        rw [hh.requests_replaced]
        exact .of_shipment rfl ((Backlog.requeue_perm r.refused rest).map Request.entry)
      rw [starved_of_refused (Nat.succ_ne_zero p.refused)]
      exact ⟨_, hh.ships rfl rfl (List.append_nil _).symm ht⟩
    | @failed r rest throttle base e carrier hh hr =>
      cases h
      have hlt := (hh.waiting hp.settled).1.attempts
      have hcloses : (r.endRefused e.message).Closes r.shipped := by
        refine ⟨rfl, rfl, rfl, rfl, fun _ => ?_⟩
        show r.attempts + 1 = r.maxAttempts
        omega
      have ht : Turnover (r :: rest) [shipment ctx r (.error e)] [r.endRefused e.message]
          [r.shipped] ({ p.backlog with waiting := rest } : Backlog).requests := by
        rw [hh.requests_replaced]
        exact .of_last_shipment rfl hcloses hlt False.elim
      rw [starved_of_refused (Nat.succ_ne_zero p.refused)]
      exact ⟨_, hh.ships rfl rfl rfl ht⟩

end Rounds

end Pass

end GroundControl
