import GroundControl.Station.History

/-!
# The results of a station's acts

Each act of a station, when it meets no fault, leaves the station in a state that can be written
down.  Later proofs use these states and never look into an act.

* `Act.bind_eq_ok`: two acts, one after the other; `Act.bind_pure_eq_ok`: an act of which only the
  answer is changed;
* `Station.concluded`, the station after finished requests are booked, `concludeAll_eq_ok`;
* `Station.pumped`, the station after a pass is booked, `pump_eq_ok`;
* `Station.answered`, the station after a reply is matched, `matchReply_of_answer`;
* `Station.evicted`, the station after an agent is let go of, `evict_eq_ok`;
* `pumpAll_eq_ok`, `submit_eq_ok`, `broadcast_of_throttle_eq_none`, for the acts made of these;
* `heard_eq`, `swept_eq`, `tryBroadcast_cases`, all that some acts change; `tidings`, what is told
  of a change of presence.
-/

namespace GroundControl

variable {τ α β : Type}

namespace Act

theorem bind_eq_ok {x : Act τ α} {f : α → Act τ β} {s s' : Station τ} {b : β} :
    (x >>= f) s = .ok b s' ↔ ∃ a s₁, x s = .ok a s₁ ∧ f a s₁ = .ok b s' := by
  show EStateM.bind x f s = .ok b s' ↔ _
  unfold EStateM.bind
  cases hx : x s with
  | ok a s₁ =>
    constructor
    · intro h
      exact ⟨a, s₁, rfl, h⟩
    · rintro ⟨a', s₁', h, hf⟩
      cases h
      exact hf
  | error fault s₁ =>
    constructor
    · intro h
      cases h
    · rintro ⟨a', s₁', h, -⟩
      cases h

theorem get_bind (f : Station τ → Act τ α) (s : Station τ) : (get >>= f) s = f s s := rfl

theorem pure_eq_ok {a b : α} {s s' : Station τ} :
    (pure a : Act τ α) s = .ok b s' ↔ a = b ∧ s = s' := by
  show EStateM.Result.ok a s = EStateM.Result.ok b s' ↔ _
  rw [EStateM.Result.ok.injEq]

/-- An act of which only the answer is changed. -/
theorem bind_pure_eq_ok {x : Act τ α} {f : α → β} {b : β} {s s' : Station τ} :
    (x >>= fun a => pure (f a)) s = .ok b s' ↔ ∃ a, x s = .ok a s' ∧ f a = b := by
  rw [bind_eq_ok]
  constructor
  · rintro ⟨a, s₁, hx, hf⟩
    obtain ⟨hb, rfl⟩ := pure_eq_ok.1 hf
    exact ⟨a, hx, hb⟩
  · rintro ⟨a, hx, hf⟩
    exact ⟨a, s', hx, pure_eq_ok.2 ⟨hf, rfl⟩⟩

theorem modifyGet_eq_ok {f : Station τ → α × Station τ} {a : α} {s s' : Station τ} :
    (modifyGet f : Act τ α) s = .ok a s' ↔ f s = (a, s') := by
  show EStateM.Result.ok (f s).1 (f s).2 = EStateM.Result.ok a s' ↔ _
  rw [EStateM.Result.ok.injEq, Prod.ext_iff]

theorem forM_nil_eq_ok {f : α → Act τ Unit} {s s' : Station τ} :
    ([] : List α).forM f s = .ok () s' ↔ s = s' := by
  show (pure () : Act τ Unit) s = .ok () s' ↔ _
  rw [pure_eq_ok]
  exact and_iff_right rfl

theorem forM_cons_eq_ok {f : α → Act τ Unit} {a : α} {l : List α} {s s' : Station τ} :
    (a :: l).forM f s = .ok () s' ↔ ∃ s₁, f a s = .ok () s₁ ∧ l.forM f s₁ = .ok () s' := by
  show (f a >>= fun _ => l.forM f) s = .ok () s' ↔ _
  rw [bind_eq_ok]
  constructor
  · rintro ⟨⟨⟩, s₁, hf, hl⟩
    exact ⟨s₁, hf, hl⟩
  · rintro ⟨s₁, hf, hl⟩
    exact ⟨(), s₁, hf, hl⟩

end Act

namespace Station

/-! ### Booking finished requests -/

/-- What the world learns of a finished request besides its outcome. -/
def notices (network : NetworkId) (f : Finished) : List Effect :=
  [.measured (.commands network (outcomeLabel f.phase)) .count,
    .published (.finished network f.agent f.request f.phase f.outcome)]

/-- The station after finished requests are booked. -/
def concluded (s : Station τ) (finished : List Finished) (now : Instant) : Station τ :=
  { s with
    pending := finished.foldl (fun t f => t.erase f.request) s.pending
    tally := finished.foldl (fun t f => t.recordFinished f.phase) s.tally
    results := finished.foldl (fun t f => t.insert f.request f.phase) s.results
    expiry := s.expiry ++ finished.map fun f => (f.request, now + s.settings.resultGrace)
    log := s.log ++ finished.flatMap (notices s.id) }

theorem conclude_eq_ok {f : Finished} {now : Instant} {s s' : Station τ} :
    conclude f now s = .ok () s' ↔
      now + s.settings.resultGrace < Instant.horizon ∧ s' = s.concluded [f] now := by
  unfold conclude Instant.after
  by_cases h : now + s.settings.resultGrace < Instant.horizon
  · have hs : ∀ t : Station τ, t.settings = s.settings →
        now + t.settings.resultGrace < Instant.horizon := fun t ht => ht ▸ h
    dsimp only [count, emit, publish]
    rw [if_pos h]
    dsimp only
    rw [EStateM.Result.ok.injEq]
    simp only [true_and, h]
    unfold concluded notices id
    simp only [List.foldl_cons, List.foldl_nil, List.map_cons, List.map_nil, List.flatMap_cons,
      List.flatMap_nil, List.append_assoc, List.cons_append, List.nil_append]
    exact eq_comm
  · dsimp only [count, emit, publish]
    rw [if_neg h]
    simp [h]

theorem concludeAll_eq_ok {finished : List Finished} {now : Instant} {s s' : Station τ} :
    concludeAll finished now s = .ok () s' ↔
      (finished = [] ∨ now + s.settings.resultGrace < Instant.horizon) ∧
        s' = s.concluded finished now := by
  unfold concludeAll
  induction finished generalizing s with
  | nil =>
    rw [Act.forM_nil_eq_ok]
    have hs : s.concluded [] now = s := by
      unfold concluded
      simp only [List.foldl_nil, List.map_nil, List.flatMap_nil, List.append_nil]
    rw [hs]
    exact ⟨fun h => ⟨.inl rfl, h.symm⟩, fun h => h.2.symm⟩
  | cons f rest ih =>
    have hs : (s.concluded [f] now).concluded rest now = s.concluded (f :: rest) now := by
      unfold concluded id
      simp only [List.foldl_cons, List.foldl_nil, List.map_cons, List.map_nil, List.flatMap_cons,
        List.flatMap_nil, List.append_assoc, List.cons_append, List.nil_append, List.append_nil]
    have hg : (s.concluded [f] now).settings.resultGrace = s.settings.resultGrace := rfl
    -- all of them are kept equally long, so the first one meets the fault if any does
    rw [Act.forM_cons_eq_ok]
    constructor
    · rintro ⟨s₁, hf, hr⟩
      obtain ⟨hn, rfl⟩ := conclude_eq_ok.1 hf
      obtain ⟨-, rfl⟩ := ih.1 hr
      exact ⟨.inr hn, hs⟩
    · rintro ⟨hn, rfl⟩
      have hn := hn.resolve_left (List.cons_ne_nil f rest)
      exact ⟨_, conclude_eq_ok.2 ⟨hn, rfl⟩, ih.2 ⟨.inr (hg ▸ hn), hs.symm⟩⟩

/-! ### Pumping -/

/-- The pass with which a pump begins. -/
def firstPass (s : Station τ) (b : Backlog) (now : Instant) : Pass τ :=
  ⟨(b.review now).2, s.throttle, s.carrier, (b.review now).1, 0, 0, 0, []⟩

/-- The station after retries are counted. -/
def retried (s : Station τ) (n : Nat) : Station τ :=
  { s with log := s.log ++ List.replicate n (.measured (.retries s.id) .count) }

/-- The station after a pass is booked. -/
def pumped (s : Station τ) (agent : AgentId) (p : Pass τ) (now : Instant) : Station τ :=
  ((s.book agent p).retried p.retries).concluded p.finished now

theorem repeat_count (s : Station τ) (series : Series) (n : Nat) :
    n.repeat (fun t : Station τ => t.count series) s =
      { s with log := s.log ++ List.replicate n (.measured series .count) } := by
  induction n with
  | zero =>
    rw [List.replicate_zero, List.append_nil]
    rfl
  | succ n ih =>
    show (n.repeat (fun t : Station τ => t.count series) s).count series = _
    rw [ih, List.replicate_succ', ← List.append_assoc]
    rfl

theorem pump_of_backlogOf_eq_none [Carrier τ] {s : Station τ} {agent : AgentId}
    (h : s.backlogOf agent = none) (now : Instant) : pump agent now s = .ok () s := by
  unfold pump
  rw [Act.get_bind, h]
  rfl

theorem pump_of_backlogOf_eq_some [Carrier τ] {s : Station τ} {agent : AgentId} {b : Backlog}
    (h : s.backlogOf agent = some b) {now : Instant} {fault : Option Fault} {p : Pass τ}
    (hp : Pass.run (s.passContext agent now) (s.firstPass b now) = (fault, p)) :
    pump agent now s =
      match fault with
      | some fault => .error fault (s.book agent p)
      | none => concludeAll p.finished now ((s.book agent p).retried p.retries) := by
  unfold pump
  unfold firstPass at hp
  rw [Act.get_bind, h]
  dsimp only
  rw [hp]
  dsimp only
  cases fault with
  | some fault => rfl
  | none =>
    show concludeAll p.finished now (p.retries.repeat
      (fun t : Station τ => t.count (.retries (s.book agent p).id)) (s.book agent p)) = _
    rw [repeat_count]
    rfl

/-- A pump either finds no backlog, or it books a pass that met no fault. -/
theorem pump_eq_ok [Carrier τ] {s s' : Station τ} {agent : AgentId} {now : Instant} :
    pump agent now s = .ok () s' ↔
      (s.backlogOf agent = none ∧ s' = s) ∨
        ∃ b p, s.backlogOf agent = some b ∧
          Pass.run (s.passContext agent now) (s.firstPass b now) = (none, p) ∧
            (p.finished = [] ∨ now + s.settings.resultGrace < Instant.horizon) ∧
              s' = s.pumped agent p now := by
  cases hb : s.backlogOf agent with
  | none =>
    rw [pump_of_backlogOf_eq_none hb, EStateM.Result.ok.injEq]
    constructor
    · rintro ⟨-, rfl⟩
      exact .inl ⟨rfl, rfl⟩
    · rintro (⟨-, rfl⟩ | ⟨b, p, hb', -⟩)
      · exact ⟨rfl, rfl⟩
      · cases hb'
  | some b =>
    cases hr : Pass.run (s.passContext agent now) (s.firstPass b now) with
    | mk fault p =>
      rw [pump_of_backlogOf_eq_some hb hr]
      cases fault with
      | some fault =>
        constructor
        · intro h
          cases h
        · rintro (⟨hb', -⟩ | ⟨b', q, hb', hq, -⟩)
          · cases hb'
          · cases hb'
            rw [hr] at hq
            cases hq
      | none =>
        dsimp only
        rw [concludeAll_eq_ok]
        constructor
        · rintro ⟨hn, rfl⟩
          exact .inr ⟨b, p, rfl, hr, hn, rfl⟩
        · rintro (⟨hb', -⟩ | ⟨b', q, hb', hq, hn, rfl⟩)
          · cases hb'
          · cases hb'
            rw [hr] at hq
            cases hq
            exact ⟨hn, rfl⟩

/-! ### Matching a reply -/

/-- The estimator after a round-trip time is taken in, if one can be told. -/
def Sampled (e : Estimator TrafficClass) : Option (TrafficClass × Span) →
    Estimator TrafficClass → Prop
  | none, e' => e' = e
  | some (c, d), e' => e.sample c d = .ok e'

/-- The station after a round-trip time is taken in. -/
def sampled (s : Station τ) (measured : Option (TrafficClass × Span))
    (estimator : Estimator TrafficClass) : Station τ :=
  { s with
    estimator
    log := s.log ++ measured.toList.map fun x => .measured (.roundTrip s.id x.1) (.time x.2) }

/-- The station after a reply has finished a request. -/
def answered (s : Station τ) (agent : AgentId) (b : Backlog) (found : Match)
    (estimator : Estimator TrafficClass) (now : Instant) : Station τ :=
  (((s.setBacklog agent b).deliver [found.finished]).sampled found.sample estimator).concluded
    [found.finished] now

/-- The station after a reply that belongs to no request. -/
def unmatched (s : Station τ) : Station τ :=
  { s with tally := { s.tally with unmatchedReplies := s.tally.unmatchedReplies + 1 } }

/-- Whether a reply of an agent belongs to its request in flight. -/
def awaits (s : Station τ) (agent : AgentId) (key : ReplyKey) : Bool :=
  (s.backlogOf agent).any fun b => b.inFlight.any (·.awaits key)

theorem awaits_eq_true_iff {s : Station τ} {agent : AgentId} {key : ReplyKey} :
    s.awaits agent key = true ↔
      ∃ b r, s.backlogOf agent = some b ∧ b.inFlight = some r ∧ r.awaits key = true := by
  unfold awaits
  simp only [Option.any_eq_true]
  constructor
  · rintro ⟨b, hb, r, hr, ha⟩
    exact ⟨b, r, hb, hr, ha⟩
  · rintro ⟨b, r, hb, hr, ha⟩
    exact ⟨b, hb, r, hr, ha⟩

theorem answer_of_awaits_eq_false {s : Station τ} {agent : AgentId} {key : ReplyKey} {b : Backlog}
    (hb : s.backlogOf agent = some b) (h : s.awaits agent key = false) (verdict : Verdict)
    (now : Instant) : b.answer key verdict now = (none, b) := by
  have hf : b.inFlight.filter (·.awaits key) = none := by
    cases hf : b.inFlight.filter (·.awaits key) with
    | none => rfl
    | some r =>
      obtain ⟨hr, ha⟩ := Option.filter_eq_some_iff.1 hf
      have ht := awaits_eq_true_iff.2 ⟨b, r, hb, hr, ha⟩
      rw [h] at ht
      cases ht
  unfold Backlog.answer
  rw [hf]

theorem exists_answer {b : Backlog} {key : ReplyKey} (verdict : Verdict) (now : Instant)
    {r : Request} (hr : b.inFlight = some r) (ha : r.awaits key = true) :
    ∃ found b', b.answer key verdict now = (some found, b') := by
  unfold Backlog.answer
  rw [Option.filter_eq_some_iff.2 ⟨hr, ha⟩]
  dsimp only
  split
  · exact ⟨_, _, rfl⟩
  · exact ⟨_, _, rfl⟩

/-- A reply that belongs to no request is counted, and nothing else happens. -/
theorem matchReply_of_awaits_eq_false {s : Station τ} {agent : AgentId} {reply : Reply}
    (h : s.awaits agent reply.key = false) (now : Instant) :
    matchReply agent reply now s = .ok false s.unmatched := by
  unfold matchReply
  rw [Act.get_bind]
  cases hb : s.backlogOf agent with
  | none => rfl
  | some b =>
    rw [Option.map_some, answer_of_awaits_eq_false hb h]
    rfl

/-- What is left to do once the request of a reply is found. -/
def settle (found : Match) (now : Instant) : Act τ Bool := do
  match found.sample with
  | some (trafficClass, measured) => sample trafficClass measured
  | none => pure ()
  conclude found.finished now
  return true

theorem sample_eq_ok {c : TrafficClass} {d : Span} {s s' : Station τ} :
    sample c d s = .ok () s' ↔
      ∃ estimator, Sampled s.estimator (some (c, d)) estimator ∧
        s' = s.sampled (some (c, d)) estimator := by
  unfold sample
  cases he : s.estimator.sample c d with
  | error fault =>
    dsimp only
    constructor
    · intro h
      cases h
    · rintro ⟨estimator, h, -⟩
      cases he.symm.trans h
  | ok estimator =>
    dsimp only
    constructor
    · intro h
      obtain rfl := (EStateM.Result.ok.inj h).2
      exact ⟨estimator, he, rfl⟩
    · rintro ⟨estimator', h, rfl⟩
      obtain rfl := Except.ok.inj (he.symm.trans h)
      rfl

theorem settle_eq_ok {found : Match} {now : Instant} {s s' : Station τ} {matched : Bool} :
    settle found now s = .ok matched s' ↔
      ∃ estimator, Sampled s.estimator found.sample estimator ∧
        now + s.settings.resultGrace < Instant.horizon ∧ matched = true ∧
          s' = (s.sampled found.sample estimator).concluded [found.finished] now := by
  -- what follows the measurement, from whichever station it leaves
  have hc : ∀ t : Station τ, (conclude found.finished now >>= fun _ => pure true : Act τ Bool) t =
      .ok matched s' ↔ now + t.settings.resultGrace < Instant.horizon ∧ matched = true ∧
        s' = t.concluded [found.finished] now := by
    intro t
    rw [Act.bind_pure_eq_ok]
    constructor
    · rintro ⟨⟨⟩, h, rfl⟩
      obtain ⟨hn, rfl⟩ := conclude_eq_ok.1 h
      exact ⟨hn, rfl, rfl⟩
    · rintro ⟨hn, rfl, rfl⟩
      exact ⟨(), conclude_eq_ok.2 ⟨hn, rfl⟩, rfl⟩
  unfold settle
  cases hm : found.sample with
  | none =>
    have hs : s.sampled none s.estimator = s := by
      unfold sampled
      rw [Option.toList_none, List.map_nil, List.append_nil]
    dsimp only
    constructor
    · intro h
      exact ⟨s.estimator, rfl, by rw [hs]; exact (hc s).1 h⟩
    · rintro ⟨estimator, he, h⟩
      have he : estimator = s.estimator := he
      rw [he, hs] at h
      exact (hc s).2 h
  | some x =>
    obtain ⟨c, d⟩ := x
    dsimp only
    rw [Act.bind_eq_ok]
    constructor
    · rintro ⟨⟨⟩, s₁, h, hr⟩
      obtain ⟨estimator, he, rfl⟩ := sample_eq_ok.1 h
      exact ⟨estimator, he, (hc _).1 hr⟩
    · rintro ⟨estimator, he, h⟩
      exact ⟨(), _, sample_eq_ok.2 ⟨estimator, he, rfl⟩, (hc _).2 h⟩

/-- A reply that belongs to a request finishes it, if the round-trip time can be taken in and the
time for which the result is kept can be told. -/
theorem matchReply_of_answer {s : Station τ} {agent : AgentId} {reply : Reply} {now : Instant}
    {b b' : Backlog} {found : Match} (hb : s.backlogOf agent = some b)
    (ha : b.answer reply.key reply.verdict now = (some found, b')) :
    matchReply agent reply now s =
      settle found now ((s.setBacklog agent b').deliver [found.finished]) := by
  unfold matchReply
  rw [Act.get_bind, hb, Option.map_some, ha]
  rfl

/-! ### Routing a message -/

/-- The station after it has heard a message. -/
def heard (s : Station τ) (m : Message) (now : Instant) : Station τ :=
  (s.register m.agent).hear m now

/-- Whether a message brings the reply to a request. -/
def answers (s : Station τ) (m : Message) : Bool :=
  m.network == s.id && m.reply.any fun reply => s.awaits m.agent reply.key

theorem route_of_foreign {s : Station τ} {m : Message} (h : m.network ≠ s.id) (now : Instant) :
    route m now s = .ok none (s.count (.dropped s.id .wrongNetwork)) := by
  unfold route
  change (if m.network ≠ s.id then (do
      set (s.count (.dropped s.id .wrongNetwork))
      return none : Act τ (Option AgentId)) else _) s = _
  rw [if_pos h]
  rfl

theorem route_of_capped {s : Station τ} {m : Message} (hn : m.network = s.id)
    (h : s.admits m.agent = false) (now : Instant) :
    route m now s = .ok none s.dropCapped := by
  unfold route
  change (if m.network ≠ s.id then _
    else if (!s.admits m.agent) = true then (do
      set s.dropCapped
      return none : Act τ (Option AgentId)) else _) s = _
  rw [if_neg (not_not_intro hn), h]
  rfl

theorem route_of_admits {s : Station τ} {m : Message} (hn : m.network = s.id)
    (h : s.admits m.agent = true) (now : Instant) :
    route m now s = (match m.reply with
      | none => return none
      | some reply => do
          let found ← matchReply m.agent reply now
          return if found then some m.agent else none : Act τ (Option AgentId))
        (s.heard m now) := by
  unfold route
  change (if m.network ≠ s.id then _
    else if (!s.admits m.agent) = true then _
    else (do
      set (s.heard m now)
      match m.reply with
      | none => return none
      | some reply =>
          let found ← matchReply m.agent reply now
          return if found then some m.agent else none : Act τ (Option AgentId))) s = _
  rw [if_neg (not_not_intro hn), h]
  rfl

/-! What a message says about its sender leaves the backlogs as they are. -/

theorem backlogOf_register (s : Station τ) (a b : AgentId) :
    (s.register a).backlogOf b = s.backlogOf b := by
  unfold register
  split
  · rfl
  · rename_i h
    show ((s.agents.insert a ⟨.none, none⟩).get? b).bind (·.backlog) = _
    rw [Table.get?_insert]
    split
    · rename_i hab
      have hn : s.agents.get? b = none := by
        rw [hab]
        simpa [Table.contains] using h
      unfold backlogOf
      rw [hn]
      rfl
    · rfl

/-- The station after a message is counted. -/
def counted (s : Station τ) (m : Message) : Station τ :=
  { s with tally := { s.tally with inbound := s.tally.inbound.record m.kind } }.count
    (.inbound s.id m.kind)

/-- The station with the flags of the sender of a message, if it tells them. -/
def flagged (s : Station τ) (m : Message) : Station τ :=
  match m.capabilities with
  | none => s
  | some capabilities =>
      { s with agents := s.agents.modify m.agent fun a => { a with capabilities } }

/-- The station after the sender of a message is seen. -/
def observed (s : Station τ) (m : Message) (now : Instant) : Station τ :=
  match (s.watch.observe m.agent now m.kind.signal).1 with
  | none => { s with watch := (s.watch.observe m.agent now m.kind.signal).2 }
  | some change => { s with watch := (s.watch.observe m.agent now m.kind.signal).2 }.announce change

/-- A message is counted, its sender's flags are kept, and then its presence is. -/
theorem hear_eq (s : Station τ) (m : Message) (now : Instant) :
    s.hear m now = ((s.counted m).flagged m).observed m now := rfl

theorem watch_flagged (s : Station τ) (m : Message) : (s.flagged m).watch = s.watch := by
  unfold flagged
  split <;> rfl

theorem watch_observed (s : Station τ) (m : Message) (now : Instant) :
    (s.observed m now).watch = (s.watch.observe m.agent now m.kind.signal).2 := by
  unfold observed
  split <;> rfl

theorem agents_hear (s : Station τ) (m : Message) (now : Instant) :
    (s.hear m now).agents = match m.capabilities with
      | none => s.agents
      | some capabilities => s.agents.modify m.agent fun a => { a with capabilities } := by
  unfold hear
  cases m.capabilities <;> dsimp only <;> split <;> rfl

theorem backlogOf_hear (s : Station τ) (m : Message) (now : Instant) (b : AgentId) :
    (s.hear m now).backlogOf b = s.backlogOf b := by
  unfold backlogOf
  rw [agents_hear]
  cases m.capabilities with
  | none => rfl
  | some capabilities =>
    dsimp only
    rw [Table.get?_modify]
    split
    · cases s.agents.get? b <;> rfl
    · rfl

@[simp] theorem backlogOf_heard (s : Station τ) (m : Message) (now : Instant) (b : AgentId) :
    (s.heard m now).backlogOf b = s.backlogOf b :=
  (backlogOf_hear _ m now b).trans (backlogOf_register s m.agent b)

/-- Hearing a message changes what is known about its sender, and nothing else. -/
theorem heard_eq (s : Station τ) (m : Message) (now : Instant) :
    s.heard m now = { s with
      agents := (s.heard m now).agents
      watch := (s.heard m now).watch
      tally := { s.tally with inbound := s.tally.inbound.record m.kind }
      log := (s.heard m now).log } := by
  unfold heard hear register
  cases m.capabilities <;> dsimp only <;> split <;> split <;> rfl

@[simp] theorem settings_heard (s : Station τ) (m : Message) (now : Instant) :
    (s.heard m now).settings = s.settings := by
  rw [heard_eq]

@[simp] theorem estimator_heard (s : Station τ) (m : Message) (now : Instant) :
    (s.heard m now).estimator = s.estimator := by
  rw [heard_eq]

@[simp] theorem awaits_heard (s : Station τ) (m : Message) (now : Instant) (agent : AgentId)
    (key : ReplyKey) : (s.heard m now).awaits agent key = s.awaits agent key := by
  unfold awaits
  rw [backlogOf_heard]

theorem admits_of_backlogOf {s : Station τ} {agent : AgentId} {b : Backlog}
    (h : s.backlogOf agent = some b) : s.admits agent = true := by
  obtain ⟨a, ha, -⟩ := Option.bind_eq_some_iff.1 h
  unfold admits Table.contains
  rw [ha]
  rfl

/-- The station after a message that answers no request. -/
def unanswered (s : Station τ) (m : Message) (now : Instant) : Station τ :=
  if m.network ≠ s.id then s.count (.dropped s.id .wrongNetwork)
  else if s.admits m.agent = false then s.dropCapped
  else if m.reply.isNone then s.heard m now
  else (s.heard m now).unmatched

theorem route_of_answers_eq_false {s : Station τ} {m : Message} (h : s.answers m = false)
    (now : Instant) : route m now s = .ok none (s.unanswered m now) := by
  unfold unanswered
  by_cases hn : m.network = s.id
  · rw [if_neg (not_not_intro hn)]
    cases ha : s.admits m.agent with
    | false =>
      rw [if_pos rfl]
      exact route_of_capped hn ha now
    | true =>
      rw [if_neg Bool.true_eq_false.mp, route_of_admits hn ha]
      cases hm : m.reply with
      | none => rfl
      | some reply =>
        have hw : (s.heard m now).awaits m.agent reply.key = false := by
          rw [awaits_heard]
          unfold answers at h
          rw [hn, hm, beq_self_eq_true, Bool.true_and] at h
          exact h
        have hr := matchReply_of_awaits_eq_false hw now
        show EStateM.bind (matchReply m.agent reply now) _ (s.heard m now) = _
        unfold EStateM.bind
        rw [hr]
        rfl
  · rw [if_pos hn]
    exact route_of_foreign hn now

/-- A message that answers a request finishes it, or meets a fault. -/
theorem route_of_answers {s : Station τ} {m : Message} (h : s.answers m = true) (now : Instant) :
    ∃ reply b r found b', m.network = s.id ∧ m.reply = some reply ∧
      s.backlogOf m.agent = some b ∧ b.inFlight = some r ∧ r.awaits reply.key = true ∧
        b.answer reply.key reply.verdict now = (some found, b') ∧
          ∀ matched s', route m now s = .ok matched s' ↔
            matched = some m.agent ∧ ∃ estimator, Sampled s.estimator found.sample estimator ∧
              now + s.settings.resultGrace < Instant.horizon ∧
                s' = (s.heard m now).answered m.agent b' found estimator now := by
  unfold answers at h
  obtain ⟨hn, hm⟩ := Bool.and_eq_true_iff.1 h
  obtain ⟨reply, hm, hw⟩ := (Option.any_eq_true _ _).1 hm
  obtain ⟨b, r, hb, hr, ha⟩ := awaits_eq_true_iff.1 hw
  obtain ⟨found, b', hans⟩ := exists_answer reply.verdict now hr ha
  have hn : m.network = s.id := eq_of_beq hn
  refine ⟨reply, b, r, found, b', hn, hm, hb, hr, ha, hans, ?_⟩
  intro matched s'
  have hb' : (s.heard m now).backlogOf m.agent = some b := by rw [backlogOf_heard, hb]
  rw [route_of_admits hn (admits_of_backlogOf hb), hm]
  dsimp only
  rw [Act.bind_eq_ok, matchReply_of_answer hb' hans]
  constructor
  · rintro ⟨a, s₁, hs, hp⟩
    obtain ⟨estimator, he, hg, rfl, rfl⟩ := settle_eq_ok.1 hs
    obtain ⟨rfl, rfl⟩ := Act.pure_eq_ok.1 hp
    exact ⟨rfl, estimator, estimator_heard s m now ▸ he, settings_heard s m now ▸ hg, rfl⟩
  · rintro ⟨rfl, estimator, he, hg, rfl⟩
    refine ⟨true, _, settle_eq_ok.2 ⟨estimator, ?_, ?_, rfl, rfl⟩, rfl⟩
    · exact (estimator_heard s m now).symm ▸ he
    · exact (settings_heard s m now).symm ▸ hg

/-! ### Removing an agent -/

/-- What is left of an agent that is removed: its requests, ended, and the refused steps. -/
def dissolved (a : Agent) : List Finished × List Phase.IllegalStep :=
  match a.backlog with
  | none => ([], [])
  | some b => (b.dissolve.1, b.dissolve.2.refusals)

/-- The station after an agent is forgotten. -/
def forgotten (s : Station τ) (agent : AgentId) : Station τ :=
  { s with watch := s.watch.forget agent }.publish (.evicted s.id agent)

/-- The station after it has let go of an agent. -/
def evicted (s : Station τ) (agent : AgentId) (a : Agent) (now : Instant) : Station τ :=
  (({ s with refusals := s.refusals ++ (dissolved a).2 }.deliver (dissolved a).1).concluded
    (dissolved a).1 now).forgotten agent

/-- What is told of an agent that is let go of, and of its requests. -/
def partingEffects (network : NetworkId) (agent : AgentId) (a : Agent) : List Effect :=
  ((dissolved a).1.map fun f => .delivered f.ticket f.outcome) ++
    (dissolved a).1.flatMap (notices network) ++ [.published (.evicted network agent)]

theorem log_evicted (s : Station τ) (agent : AgentId) (a : Agent) (now : Instant) :
    (s.evicted agent a now).log = s.log ++ partingEffects s.id agent a := by
  unfold partingEffects
  simp only [← List.append_assoc]
  rfl

theorem evict_eq_ok {agent : AgentId} {a : Agent} {now : Instant} {s s' : Station τ} :
    evict agent a now s = .ok () s' ↔
      ((dissolved a).1 = [] ∨ now + s.settings.resultGrace < Instant.horizon) ∧
        s' = s.evicted agent a now := by
  unfold evict evicted dissolved
  cases a.backlog with
  | none =>
    have hs : (({ s with refusals := s.refusals ++ [] }.deliver []).concluded [] now) = s := by
      unfold deliver concluded
      simp only [List.append_nil, List.map_nil, List.foldl_nil, List.flatMap_nil]
    dsimp only
    rw [hs]
    show EStateM.Result.ok () (s.forgotten agent) = .ok () s' ↔ _
    rw [EStateM.Result.ok.injEq]
    exact ⟨fun h => ⟨.inl rfl, h.2.symm⟩, fun h => ⟨rfl, h.2.symm⟩⟩
  | some b =>
    dsimp only
    rw [Act.bind_eq_ok]
    constructor
    · rintro ⟨⟨⟩, s₁, hm, h⟩
      obtain ⟨-, rfl⟩ := EStateM.Result.ok.inj hm
      obtain ⟨⟨⟩, s₂, hc, hf⟩ := Act.bind_eq_ok.1 h
      obtain ⟨hn, rfl⟩ := concludeAll_eq_ok.1 hc
      obtain ⟨-, rfl⟩ := EStateM.Result.ok.inj hf
      exact ⟨hn, rfl⟩
    · rintro ⟨hn, rfl⟩
      exact ⟨(), _, rfl, Act.bind_eq_ok.2 ⟨(), _, concludeAll_eq_ok.2 ⟨hn, rfl⟩, rfl⟩⟩

theorem deregister_of_unknown {s : Station τ} {agent : AgentId} (h : s.agents.get? agent = none)
    (now : Instant) :
    deregister agent now s = .ok (.error (.unknownAgent s.id agent)) s := by
  unfold deregister
  rw [Act.get_bind, h]
  rfl

theorem deregister_of_known {s s' : Station τ} {agent : AgentId} {a : Agent}
    (h : s.agents.get? agent = some a) {now : Instant} {result : Except DispatchError Unit} :
    deregister agent now s = .ok result s' ↔
      result = .ok () ∧ ((dissolved a).1 = [] ∨ now + s.settings.resultGrace < Instant.horizon) ∧
        s' = ({ s with agents := s.agents.erase agent } : Station τ).evicted agent a now := by
  have hd : deregister agent now s =
      (do
        evict agent a now
        return .ok () : Act τ (Except DispatchError Unit))
        { s with agents := s.agents.erase agent } := by
    unfold deregister
    rw [Act.get_bind, h]
    rfl
  rw [hd, Act.bind_eq_ok]
  constructor
  · rintro ⟨⟨⟩, s₁, he, hp⟩
    obtain ⟨hn, rfl⟩ := evict_eq_ok.1 he
    obtain ⟨rfl, rfl⟩ := Act.pure_eq_ok.1 hp
    exact ⟨rfl, hn, rfl⟩
  · rintro ⟨rfl, hn, rfl⟩
    exact ⟨(), _, evict_eq_ok.2 ⟨hn, rfl⟩, rfl⟩

theorem shutdown_eq_ok [Walk] {s s' : Station τ} {now : Instant} :
    shutdown now s = .ok () s' ↔
      ∃ s₁, (Walk.entries s.agents).forM (fun e => evict e.1 e.2 now) { s with agents := ∅ } =
        .ok () s₁ ∧ s' = s₁.level (.queueDepth s₁.id) 0 := by
  unfold shutdown
  show ((Walk.entries s.agents).forM (fun e => evict e.1 e.2 now) >>= fun _ =>
    (modify fun s => s.level (.queueDepth s.id) 0 : Act τ Unit)) { s with agents := ∅ } =
      .ok () s' ↔ _
  rw [Act.bind_eq_ok]
  constructor
  · rintro ⟨⟨⟩, s₁, hf, hl⟩
    obtain ⟨-, rfl⟩ := EStateM.Result.ok.inj hl
    exact ⟨s₁, hf, rfl⟩
  · rintro ⟨s₁, hf, rfl⟩
    exact ⟨(), s₁, hf, rfl⟩

/-! ### Regular work -/

theorem pumpAll_eq_ok [Carrier τ] [Walk] {s s' : Station τ} {now : Instant} :
    pumpAll now s = .ok () s' ↔
      ∃ s₁, s.busyAgents.forM (pump · now) s = .ok () s₁ ∧
        s' = (s₁.expireResults now).level (.queueDepth s₁.id) s₁.queueDepth := by
  unfold pumpAll
  show (s.busyAgents.forM (pump · now) >>= fun _ => (do
    modify (·.expireResults now)
    modify fun s => s.level (.queueDepth s.id) s.queueDepth : Act τ Unit)) s = .ok () s' ↔ _
  rw [Act.bind_eq_ok]
  constructor
  · rintro ⟨⟨⟩, s₁, hf, hl⟩
    obtain ⟨-, rfl⟩ := EStateM.Result.ok.inj hl
    exact ⟨s₁, hf, rfl⟩
  · rintro ⟨s₁, hf, rfl⟩
    exact ⟨(), s₁, hf, rfl⟩

/-- The station after silent agents are marked as offline. -/
def swept [Walk] (s : Station τ) (now : Instant) : Station τ := (sweep now s).2

/-- What is measured and told of a change of presence. -/
def tidings (network : NetworkId) (online : Nat) (c : PresenceChange) : List Effect :=
  [.measured (.agentsOnline network) (.level online),
    .published (.presence network c.agent c.source c.target)]

theorem announce_eq (s : Station τ) (c : PresenceChange) :
    s.announce c = { s with log := s.log ++ tidings s.id s.watch.onlineCount c } :=
  congrArg (fun log => { s with log }) (List.append_assoc s.log [_] [_])

theorem foldl_announce_eq (changes : List PresenceChange) (s : Station τ) :
    changes.foldl announce s =
      { s with log := s.log ++ changes.flatMap (tidings s.id s.watch.onlineCount) } := by
  induction changes generalizing s with
  | nil => exact congrArg (fun log => { s with log }) (List.append_nil s.log).symm
  | cons c rest ih =>
    rw [List.foldl_cons, ih, announce_eq, List.flatMap_cons, ← List.append_assoc]
    rfl

/-- Marking agents as offline changes what is known of their presence, and tells of it. -/
theorem swept_eq [Walk] (s : Station τ) (now : Instant) :
    s.swept now =
      { s with
        watch := (s.watch.sweep now).2
        log := s.log ++
          (s.watch.sweep now).1.flatMap (tidings s.id (s.watch.sweep now).2.onlineCount) } :=
  foldl_announce_eq (s.watch.sweep now).1 { s with watch := (s.watch.sweep now).2 }

theorem tick_eq [Carrier τ] [Walk] (s : Station τ) (now : Instant) :
    tick now s = pumpAll now (s.swept now) := rfl

/-! ### Submissions and broadcasts -/

/-- What a submission comes to: the command is queued, and if it was, the agent is pumped. -/
theorem submit_eq_ok [Carrier τ] {s s' : Station τ} {request : RequestId} {agent : AgentId}
    {payload : Payload} {urgency : Urgency} {maxAttempts : Nat} {now : Instant}
    {result : Except DispatchError Handle} :
    submit request agent payload urgency maxAttempts now s = .ok result s' ↔
      ∃ s₁, enqueue request agent payload urgency maxAttempts s = (result, s₁) ∧
        (result.isOk = false ∧ s' = s₁ ∨
          result.isOk = true ∧ pump agent now s₁ = .ok () s') := by
  unfold submit
  rw [Act.bind_eq_ok]
  constructor
  · rintro ⟨answer, s₁, he, hp⟩
    have he := Act.modifyGet_eq_ok.1 he
    cases answer with
    | error e =>
      cases hp
      exact ⟨_, he, .inl ⟨rfl, rfl⟩⟩
    | ok handle =>
      obtain ⟨⟨⟩, hpump, rfl⟩ := Act.bind_pure_eq_ok.1 hp
      exact ⟨_, he, .inr ⟨rfl, hpump⟩⟩
  · rintro ⟨s₁, he, hp⟩
    refine ⟨result, s₁, Act.modifyGet_eq_ok.2 he, ?_⟩
    cases result with
    | error e =>
      rcases hp with ⟨-, rfl⟩ | ⟨hf, -⟩
      · rfl
      · cases hf
    | ok handle =>
      rcases hp with ⟨hf, -⟩ | ⟨-, hp⟩
      · cases hf
      · exact Act.bind_eq_ok.2 ⟨(), s', hp, rfl⟩

/-- An attempt at a broadcast takes a token if it needs one; then it hands the broadcast to the
link, gives it up or leaves it for later. -/
theorem tryBroadcast_cases [Carrier τ] {s s' : Station τ} {bulletin : Bulletin}
    {deadline now : Instant} {attempt : Attempt Unit}
    (h : tryBroadcast bulletin deadline now s = .ok attempt s') :
    ∃ throttle, (s.throttle = none → throttle = none) ∧
      (s' = (transmitAll bulletin { s with throttle }).2 ∨
        s' = (rateLimited { s with throttle }).2 ∨ s' = { s with throttle }) := by
  unfold tryBroadcast at h
  rw [Act.get_bind] at h
  cases ht : s.throttle with
  | none =>
    rw [ht] at h
    have hs : ({ s with throttle := none } : Station τ) = s := by rw [← ht]
    refine ⟨none, fun _ => rfl, .inl ?_⟩
    rw [hs]
    cases h
    rfl
  | some bucket =>
    rw [ht] at h
    dsimp only at h
    obtain ⟨⟨⟩, s₁, hs, h⟩ := Act.bind_eq_ok.1 h
    cases hs
    refine ⟨some (bucket.claim 1 deadline now).2, fun hn => ?_, ?_⟩
    · cases hn
    · cases hc : (bucket.claim 1 deadline now).1 with
      | error fault =>
        rw [hc] at h
        cases h
      | ok claim =>
        rw [hc] at h
        cases claim with
        | granted =>
          cases h
          exact .inl rfl
        | denied =>
          cases h
          exact .inr (.inl rfl)
        | wait ready =>
          cases h
          exact .inr (.inr rfl)

/-- A broadcast that is not throttled is handed to the link at once. -/
theorem broadcast_of_throttle_eq_none [Carrier τ] {s : Station τ} (h : s.throttle = none)
    (wake : Instant → Instant) (bulletin : Bulletin) (deadline now : Instant) :
    broadcast wake bulletin deadline now s =
      .ok ((transmitAll bulletin s).1, now) (transmitAll bulletin s).2 := by
  have ht : tryBroadcast bulletin deadline now s =
      .ok (.done (transmitAll bulletin s).1) (transmitAll bulletin s).2 := by
    unfold tryBroadcast
    rw [Act.get_bind, h]
    rfl
  unfold broadcast broadcastRounds
  exact Act.bind_eq_ok.2 ⟨_, _, ht, rfl⟩

end Station

end GroundControl
