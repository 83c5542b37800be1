import GroundControl.Proofs.Pump.Shipments
import GroundControl.Proofs.Station.Moves

/-!
# What each operation does

Every operation does to the requests what its actions say.  Only broadcasts have to do with the link
besides: whatever else happens between the actions of an operation hands nothing to the link, takes
no token and counts no frame.

* `sendings`, the frames among the effects of a station; `Station.wire`, what a station keeps about
  its link;
* `Still`, a quiet change that leaves the link alone; `Move.wire`: so does every move but a pump;
* `Course`, moves one after the other with still changes in between, and what it is made of:
  `Course.of_nil`, `Course.of_cons`, `Course.of_append`;
* `Operation.airs`: an operation is a broadcast; `perform_course`, for all the others;
* `perform_moves`, for every operation.
-/

namespace GroundControl

/-- The frame that was handed to the link, if one was. -/
def Effect.sending? : Effect → Option Sending
  | .sent frame answer => some (frame, answer)
  | _ => none

/-- The frames that were handed to the link. -/
def sendings (effects : List Effect) : List Sending := effects.filterMap Effect.sending?

@[simp] theorem sendings_append (l m : List Effect) :
    sendings (l ++ m) = sendings l ++ sendings m :=
  List.filterMap_append

theorem sendings_sent (l : List Sending) : sendings (l.map fun f => .sent f.1 f.2) = l := by
  unfold sendings
  rw [List.filterMap_map]
  exact List.filterMap_some

theorem sendings_eq_nil {l : List Effect} (h : ∀ e ∈ l, e.sending? = none) : sendings l = [] :=
  List.filterMap_eq_nil_iff.2 h

/-- The counters of frames. -/
def Tally.traffic (t : Tally) : Tally :=
  { t with
    inbound := {}, unmatchedReplies := 0, droppedAgentCap := 0
    acked := 0, failed := 0, cancelled := 0 }

@[simp] theorem Tally.traffic_recordFinished (t : Tally) (phase : Phase) :
    (t.recordFinished phase).traffic = t.traffic := by
  cases phase <;> rfl

/-- What a station keeps about its link. -/
structure Wire where
  throttle : Option (Bucket Float)
  /-- the counters of frames -/
  traffic : Tally
  /-- the frames that were handed over, the earliest first -/
  frames : List Sending

/-- Whether an operation is a broadcast. -/
def Operation.airs : Operation → Bool
  | .broadcast .. | .correction .. => true
  | _ => false

namespace Station

variable {τ : Type}

/-- What a station keeps about its link. -/
def wire (s : Station τ) : Wire := ⟨s.throttle, s.tally.traffic, sendings s.log⟩

/-- A quiet change that leaves the link alone. -/
structure Still (s s' : Station τ) : Prop where
  quiet : Quiet s s'
  wire : s'.wire = s.wire

theorem Still.refl (s : Station τ) : Still s s := ⟨.refl s, rfl⟩

theorem Still.trans {s t u : Station τ} (h : Still s t) (h' : Still t u) : Still s u :=
  ⟨h.quiet.trans h'.quiet, h'.wire.trans h.wire⟩

/-! ### Changes that leave the link alone -/

theorem wire_of_log {s s' : Station τ} {effects : List Effect} (hb : s'.throttle = s.throttle)
    (ht : s'.tally.traffic = s.tally.traffic) (hl : s'.log = s.log ++ effects)
    (he : sendings effects = []) : s'.wire = s.wire := by
  unfold Station.wire
  rw [hb, ht, hl, sendings_append, he, List.append_nil]

theorem wire_emit (s : Station τ) {e : Effect} (h : e.sending? = none) :
    (s.emit e).wire = s.wire :=
  wire_of_log rfl rfl rfl (sendings_eq_nil (List.forall_mem_singleton.2 h))

theorem wire_register (s : Station τ) (agent : AgentId) : (s.register agent).wire = s.wire := by
  unfold register
  split
  · rfl
  · exact wire_emit { s with agents := s.agents.insert agent ⟨.none, none⟩ }
      (e := .published (.registered s.id agent)) rfl

theorem wire_flagged (s : Station τ) (m : Message) : (s.flagged m).wire = s.wire := by
  unfold flagged
  split <;> rfl

theorem wire_announce (s : Station τ) (change : PresenceChange) :
    (s.announce change).wire = s.wire :=
  (wire_emit _ rfl).trans (wire_emit _ rfl)

theorem wire_foldl_announce (changes : List PresenceChange) (s : Station τ) :
    (changes.foldl announce s).wire = s.wire := by
  induction changes generalizing s with
  | nil => rfl
  | cons change rest ih => exact (ih _).trans (wire_announce s change)

theorem wire_observed (s : Station τ) (m : Message) (now : Instant) :
    (s.observed m now).wire = s.wire := by
  unfold observed
  split
  · rfl
  · exact wire_announce _ _

theorem still_heard (s : Station τ) (m : Message) (now : Instant) : Still s (s.heard m now) where
  quiet := quiet_heard s m now
  wire := by
    unfold heard
    rw [hear_eq]
    have hc : ((s.register m.agent).counted m).wire = (s.register m.agent).wire :=
      wire_of_log rfl rfl rfl (sendings_eq_nil (List.forall_mem_singleton.2 rfl))
    rw [wire_observed, wire_flagged, hc, wire_register]

/-- A message that answers no request is still. -/
theorem still_unanswered (s : Station τ) (m : Message) (now : Instant) :
    Still s (s.unanswered m now) where
  quiet := quiet_unanswered s m now
  wire := by
    unfold unanswered
    split
    · exact wire_emit s rfl
    · split
      · exact wire_of_log rfl rfl rfl (sendings_eq_nil (List.forall_mem_singleton.2 rfl))
      · split
        · exact (still_heard s m now).wire
        · exact (still_heard s m now).wire

theorem still_swept [Walk] (s : Station τ) (now : Instant) : Still s (s.swept now) where
  quiet := quiet_swept s now
  wire := wire_foldl_announce _ { s with watch := (s.watch.sweep now).2 }

theorem still_adoptEpoch (s : Station τ) (epoch : Nat) : Still s (s.adoptEpoch epoch) :=
  ⟨quiet_adoptEpoch s epoch, rfl⟩

theorem still_level (s : Station τ) (series : Series) (value : Nat) :
    Still s (s.level series value) :=
  ⟨quiet_emit s trivial, wire_emit s rfl⟩

theorem still_expireResults (s : Station τ) (now : Instant) : Still s (s.expireResults now) :=
  ⟨quiet_expireResults s now, rfl⟩

/-! ### Moves that leave the link alone -/

theorem traffic_concluded (s : Station τ) (l : List Finished) (now : Instant) :
    (s.concluded l now).tally.traffic = s.tally.traffic := by
  show (l.foldl (fun t f => t.recordFinished f.phase) s.tally).traffic = _
  induction l generalizing s with
  | nil => rfl
  | cons f rest ih =>
    exact (ih { s with tally := s.tally.recordFinished f.phase }).trans
      (Tally.traffic_recordFinished _ _)

theorem sendings_notices (network : NetworkId) (l : List Finished) :
    sendings (l.flatMap (notices network)) = [] := by
  induction l with
  | nil => rfl
  | cons f rest ih => exact ih

theorem sendings_delivered (l : List Finished) :
    sendings (l.map fun f => .delivered f.ticket f.outcome) = [] := by
  refine sendings_eq_nil fun e he => ?_
  obtain ⟨f, -, rfl⟩ := List.mem_map.1 he
  rfl

theorem wire_concluded (s : Station τ) (l : List Finished) (now : Instant) :
    (s.concluded l now).wire = s.wire :=
  wire_of_log rfl (traffic_concluded s l now) rfl (sendings_notices s.id l)

theorem wire_deliver (s : Station τ) (l : List Finished) : (s.deliver l).wire = s.wire :=
  wire_of_log rfl rfl rfl (sendings_delivered l)

theorem wire_sampled (s : Station τ) (measured : Option (TrafficClass × Span))
    (estimator : Estimator TrafficClass) : (s.sampled measured estimator).wire = s.wire := by
  refine wire_of_log rfl rfl rfl (sendings_eq_nil fun e he => ?_)
  obtain ⟨x, -, rfl⟩ := List.mem_map.1 he
  rfl

/-- What a pump makes of the link. -/
theorem wire_pumped (s : Station τ) (agent : AgentId) (p : Pass τ) (now : Instant) :
    (s.pumped agent p now).wire =
      { throttle := p.throttle
        traffic := { s.tally.traffic with
          unicastSent := s.tally.unicastSent + p.taken
          sendFailures := s.tally.sendFailures + p.refused
          retries := s.tally.retries + p.retries }
        frames := s.wire.frames ++ p.frames } := by
  have hretried : ((s.book agent p).retried p.retries).wire = (s.book agent p).wire := by
    refine wire_of_log rfl rfl rfl (sendings_eq_nil fun e he => ?_)
    rw [List.eq_of_mem_replicate he]
    rfl
  unfold pumped
  rw [wire_concluded, hretried]
  unfold book
  rw [wire_deliver]
  unfold wire setBacklog
  dsimp only
  rw [sendings_append, sendings_sent]
  rfl

section Course

variable [Carrier τ] {now : Instant}

/-- Only a pump has to do with the link. -/
theorem Move.wire {a : Action} {s s' : Station τ} (h : Move now a s s')
    (ha : ∀ agent, a ≠ .pump agent) : s'.wire = s.wire := by
  cases h with
  | enter => rfl
  | @answer _ agent _ _ _ b' found estimator =>
    unfold answered
    rw [wire_concluded, wire_sampled, wire_deliver]
    rfl
  | @pump _ agent => exact absurd rfl (ha agent)
  | @idle _ agent => exact absurd rfl (ha agent)
  | withdraw => rfl
  | gone => rfl
  | @remove _ agent a =>
    have hforgotten (t : Station τ) : (t.forgotten agent).wire = t.wire := wire_emit _ rfl
    unfold removed evicted
    rw [hforgotten, wire_concluded, wire_deliver]
    rfl
  | unknown => rfl

/-! ### Courses -/

/-- What happens to requests at `now`, one thing after the other, and still changes in between. -/
inductive Course (now : Instant) : List Action → Station τ → Station τ → Prop
  | nil {s : Station τ} : Course now [] s s
  | still {l : List Action} {s s₁ s' : Station τ} (h : Still s s₁) (hs : Course now l s₁ s') :
      Course now l s s'
  | cons {a : Action} {l : List Action} {s s₁ s' : Station τ} (h : Move now a s s₁)
      (hs : Course now l s₁ s') : Course now (a :: l) s s'

theorem Course.append {l m : List Action} {s s₁ s' : Station τ} (h : Course now l s s₁)
    (h' : Course now m s₁ s') : Course now (l ++ m) s s' := by
  induction h with
  | nil => exact h'
  | still hq _ ih => exact .still hq (ih h')
  | cons hm _ ih => exact .cons hm (ih h')

theorem Course.single {a : Action} {s s' : Station τ} (h : Move now a s s') :
    Course now [a] s s' :=
  .cons h .nil

theorem Course.of_still {s s' : Station τ} (h : Still s s') : Course now [] s s' := .still h .nil

theorem Course.moves {l : List Action} {s s' : Station τ} (h : Course now l s s') :
    Moves now l s s' := by
  induction h with
  | nil => exact .nil
  | still hs _ ih => exact .quiet hs.quiet ih
  | cons hm _ ih => exact .cons hm ih

/-- Without any move a course is still. -/
theorem Course.of_nil {s s' : Station τ} (h : Course now [] s s') : Still s s' := by
  generalize hl : ([] : List Action) = l at h
  induction h with
  | nil => exact .refl _
  | still hs _ ih => exact hs.trans (ih hl)
  | cons => cases hl

/-- The first move of a course. -/
theorem Course.of_cons {a : Action} {l : List Action} {s s' : Station τ}
    (h : Course now (a :: l) s s') :
    ∃ s₁ s₂, Still s s₁ ∧ Move now a s₁ s₂ ∧ Course now l s₂ s' := by
  generalize hl : a :: l = m at h
  induction h with
  | nil => cases hl
  | still hs _ ih =>
    obtain ⟨s₁, s₂, h₁, hm, h₂⟩ := ih hl
    exact ⟨s₁, s₂, hs.trans h₁, hm, h₂⟩
  | cons hm hrest =>
    cases hl
    exact ⟨_, _, .refl _, hm, hrest⟩

theorem Course.of_append {l m : List Action} {s s' : Station τ} (h : Course now (l ++ m) s s') :
    ∃ s₁, Course now l s s₁ ∧ Course now m s₁ s' := by
  induction l generalizing s with
  | nil => exact ⟨s, .nil, h⟩
  | cons a l ih =>
    obtain ⟨s₁, s₂, hs, hm, hrest⟩ := h.of_cons
    obtain ⟨s₃, hl, hm'⟩ := ih hrest
    exact ⟨s₃, .still hs (.cons hm hl), hm'⟩

/-! ### What each operation does -/

theorem course_pump {s s' : Station τ} {agent : AgentId} (h : pump agent now s = .ok () s') :
    Course now [.pump agent] s s' := by
  rcases pump_eq_ok.1 h with ⟨hb, rfl⟩ | ⟨b, p, hb, hp, -, rfl⟩
  · exact .single (.idle hb)
  · exact .single (.pump hb hp)

theorem moves_pump {s s' : Station τ} {agent : AgentId} (h : pump agent now s = .ok () s') :
    Moves now [.pump agent] s s' :=
  (course_pump h).moves

theorem course_forM_pump {s s' : Station τ} {agents : List AgentId}
    (h : agents.forM (pump · now) s = .ok () s') : Course now (agents.map .pump) s s' := by
  induction agents generalizing s with
  | nil =>
    obtain rfl := Act.forM_nil_eq_ok.1 h
    exact .nil
  | cons agent rest ih =>
    obtain ⟨s₁, hp, hr⟩ := Act.forM_cons_eq_ok.1 h
    exact (course_pump hp).append (ih hr)

theorem course_pumpAll [Walk] {s s' : Station τ} (h : pumpAll now s = .ok () s') :
    Course now (s.busyAgents.map .pump) s s' := by
  obtain ⟨s₁, hf, rfl⟩ := pumpAll_eq_ok.1 h
  have hs : Still s₁ ((s₁.expireResults now).level (.queueDepth s₁.id) s₁.queueDepth) :=
    (still_expireResults s₁ now).trans (still_level _ _ _)
  have hm := (course_forM_pump hf).append (.of_still hs)
  rwa [List.append_nil] at hm

theorem course_route {s s' : Station τ} {m : Message} {found : Option AgentId}
    (h : route m now s = .ok found s') :
    Course now (if s.answers m then [.answer m.agent] else []) s s' ∧
      found = if s.answers m then some m.agent else none := by
  cases ha : s.answers m with
  | false =>
    rw [route_of_answers_eq_false ha, EStateM.Result.ok.injEq] at h
    obtain ⟨rfl, rfl⟩ := h
    exact ⟨.of_still (still_unanswered s m now), rfl⟩
  | true =>
    obtain ⟨reply, b, r, found', b', -, -, hb, -, -, hans, hr⟩ := route_of_answers ha now
    obtain ⟨rfl, estimator, he, -, rfl⟩ := (hr found s').1 h
    refine ⟨.still (still_heard s m now) (.single (.answer ?_ hans ?_)), rfl⟩
    · rw [backlogOf_heard, hb]
    · rwa [estimator_heard]

theorem moves_route {s s' : Station τ} {m : Message} {found : Option AgentId}
    (h : route m now s = .ok found s') :
    Moves now (if s.answers m then [.answer m.agent] else []) s s' ∧
      found = if s.answers m then some m.agent else none :=
  (course_route h).imp_left Course.moves

omit [Carrier τ] in
/-- What a submission comes to without the pump: the request is taken in, or it is turned away. -/
theorem enqueue_cases {s s' : Station τ} {request : RequestId} {agent : AgentId}
    {payload : Payload} {urgency : Urgency} {maxAttempts : Nat}
    {result : Except DispatchError Handle}
    (h : enqueue request agent payload urgency maxAttempts s = (result, s')) :
    match result with
    | .error _ => Still s s'
    | .ok handle => ∃ a r b,
        r = .new request s.id agent payload urgency
            (if maxAttempts = 0 then s.settings.attempts else maxAttempts) s.tickets ∧
          s.agents.get? agent = some a ∧ (s.queueOf agent).submit r = some b ∧
            handle = r.handle ∧ s' = s.admitted r b := by
  unfold enqueue at h
  cases ha : s.agents.get? agent with
  | none =>
    rw [ha] at h
    cases h
    exact .refl s
  | some a =>
    rw [ha] at h
    dsimp only at h
    rw [← queueOf_of_get? ha] at h
    split at h
    · obtain ⟨rfl, rfl⟩ := Prod.mk.inj h
      exact ⟨quiet_setBacklog ha, rfl⟩
    · rename_i b hb
      obtain ⟨rfl, rfl⟩ := Prod.mk.inj h
      exact ⟨a, _, b, rfl, rfl, hb, rfl, rfl⟩

theorem move_enqueue {s s' : Station τ} (now : Instant) {request : RequestId} {agent : AgentId}
    {payload : Payload} {urgency : Urgency} {maxAttempts : Nat}
    {result : Except DispatchError Handle}
    (h : enqueue request agent payload urgency maxAttempts s = (result, s')) :
    match result with
    | .error _ => Quiet s s'
    | .ok handle => Move now (.enter handle) s s' ∧ handle.agent = agent ∧
        handle.request = request := by
  have hc := enqueue_cases h
  cases result with
  | error e => exact hc.quiet
  | ok handle =>
    obtain ⟨a, r, b, rfl, ha, hb, rfl, rfl⟩ := hc
    exact ⟨.enter request agent payload urgency _ rfl ha hb, rfl, rfl⟩

theorem course_enqueue {s s' : Station τ} {request : RequestId} {agent : AgentId}
    {payload : Payload} {urgency : Urgency} {maxAttempts : Nat}
    {result : Except DispatchError Handle}
    (h : enqueue request agent payload urgency maxAttempts s = (result, s')) :
    Course now (s.actions (.enqueue request agent payload urgency maxAttempts)
      (.submitted result)) s s' := by
  have hm := move_enqueue now h
  have hc := enqueue_cases h
  cases result with
  | error e => exact .of_still hc
  | ok handle => exact .single hm.1

theorem course_cancel {s : Station τ} (request : RequestId) :
    Course now [.withdraw request] s (cancel request s).2 := by
  unfold cancel
  split
  · exact .single .gone
  · rename_i agent hp
    split
    · exact .single .gone
    · rename_i b hb
      exact .single (.withdraw hp hb)

theorem moves_cancel {s : Station τ} (request : RequestId) :
    Moves now [.withdraw request] s (cancel request s).2 :=
  (course_cancel request).moves

theorem course_deregister {s s' : Station τ} {agent : AgentId}
    {result : Except DispatchError Unit} (h : deregister agent now s = .ok result s') :
    Course now [.remove agent] s s' := by
  cases ha : s.agents.get? agent with
  | none =>
    rw [deregister_of_unknown ha, EStateM.Result.ok.injEq] at h
    obtain ⟨-, rfl⟩ := h
    exact .single (.unknown ha)
  | some a =>
    obtain ⟨-, -, rfl⟩ := (deregister_of_known ha).1 h
    exact .single (.remove ha)

/-- Letting go of all agents at once is removing them one after the other. -/
theorem course_forM_evict {l : List (AgentId × Agent)} {s s' : Station τ}
    (hl : l.Perm s.agents.entries)
    (h : l.forM (fun e => evict e.1 e.2 now) { s with agents := ∅ } = .ok () s') :
    Course now (l.map fun e => .remove e.1) s s' := by
  induction l generalizing s with
  | nil =>
    have hs : ({ s with agents := ∅ } : Station τ) = s := by
      have ha : s.agents = ∅ := Table.ext_get? fun k => by
        show Table.find? k s.agents.entries = none
        rw [← hl.nil_eq]
        rfl
      rw [← ha]
    obtain rfl := Act.forM_nil_eq_ok.1 h
    rw [hs]
    exact .nil
  | cons e rest ih =>
    obtain ⟨agent, a⟩ := e
    obtain ⟨s₁, he, hr⟩ := Act.forM_cons_eq_ok.1 h
    obtain ⟨-, rfl⟩ := evict_eq_ok.1 he
    have ha : s.agents.get? agent = some a :=
      Table.mem_entries_iff.1 (hl.mem_iff.1 List.mem_cons_self)
    -- the move takes out one agent at a time, the loop began without any
    refine .cons (.remove ha) (ih ?_ hr)
    exact (hl.trans (Table.entries_perm_of_get? ha)).cons_inv

theorem course_shutdown [Walk] {s s' : Station τ} (h : shutdown now s = .ok () s') :
    Course now ((Walk.entries s.agents).map fun e => .remove e.1) s s' := by
  obtain ⟨s₁, hf, rfl⟩ := shutdown_eq_ok.1 h
  have hm := (course_forM_evict (Walk.entries_perm _) hf).append
    (.of_still (still_level s₁ (.queueDepth s₁.id) 0))
  rwa [List.append_nil] at hm

theorem course_deliverInbound {s s' : Station τ} {m : Message}
    (h : deliverInbound m now s = .ok () s') :
    Course now (if s.answers m then [.answer m.agent, .pump m.agent] else []) s s' := by
  obtain ⟨found, s₁, hr, hp⟩ := Act.bind_eq_ok.1 h
  obtain ⟨hm, rfl⟩ := course_route hr
  cases ha : s.answers m with
  | false =>
    rw [ha] at hm hp
    cases hp
    exact hm
  | true =>
    rw [ha] at hm hp
    exact hm.append (course_pump hp)

theorem course_submit {s s' : Station τ} {request : RequestId} {agent : AgentId}
    {payload : Payload} {urgency : Urgency} {maxAttempts : Nat}
    {result : Except DispatchError Handle}
    (h : submit request agent payload urgency maxAttempts now s = .ok result s') :
    Course now (s.actions (.submit request agent payload urgency maxAttempts now)
      (.submitted result)) s s' := by
  obtain ⟨s₁, he, hp⟩ := submit_eq_ok.1 h
  have hm : Course now _ s s₁ := course_enqueue he
  cases result with
  | error e =>
    rcases hp with ⟨-, rfl⟩ | ⟨hok, -⟩
    · exact hm
    · cases hok
  | ok handle =>
    rcases hp with ⟨hok, -⟩ | ⟨-, hp⟩
    · cases hok
    · exact hm.append (course_pump hp)

theorem course_tick [Walk] {s s' : Station τ} (h : tick now s = .ok () s') :
    Course now (s.busyAgents.map .pump) s s' := by
  rw [tick_eq] at h
  have hm := course_pumpAll h
  -- marking agents as silent leaves their backlogs alone, so the same agents are pumped
  unfold busyAgents at hm
  rw [agents_swept] at hm
  exact .still (still_swept s now) hm

/-- What an operation does to the requests if it is no broadcast: it does nothing else to them, and
it leaves the link alone but for the pumps. -/
theorem perform_course {s s' : Station τ} {operation : Operation} {response : Result}
    (h : perform operation s = .ok response s') (ha : operation.airs = false) :
    Course (operation.time?.getD 0) (s.actions operation response) s s' := by
  cases operation with
  | deliver m now =>
    obtain ⟨⟨⟩, hd, rfl⟩ := Act.bind_pure_eq_ok.1 h
    exact course_deliverInbound hd
  | route m now =>
    obtain ⟨found, hr, rfl⟩ := Act.bind_pure_eq_ok.1 h
    exact (course_route hr).1
  | submit request agent payload urgency maxAttempts now =>
    obtain ⟨result, hs, rfl⟩ := Act.bind_pure_eq_ok.1 h
    exact course_submit hs
  | enqueue request agent payload urgency maxAttempts =>
    obtain ⟨result, hs, rfl⟩ := Act.bind_pure_eq_ok.1 h
    exact course_enqueue (Act.modifyGet_eq_ok.1 hs)
  | pump agent now =>
    obtain ⟨⟨⟩, hp, rfl⟩ := Act.bind_pure_eq_ok.1 h
    exact course_pump hp
  | pumpAll walk now =>
    obtain ⟨⟨⟩, hp, rfl⟩ := Act.bind_pure_eq_ok.1 h
    exact course_pumpAll hp
  | sweep walk now =>
    obtain ⟨changes, hs, rfl⟩ := Act.bind_pure_eq_ok.1 h
    cases hs
    exact .of_still (still_swept s now)
  | tick walk now =>
    obtain ⟨⟨⟩, ht, rfl⟩ := Act.bind_pure_eq_ok.1 h
    exact course_tick ht
  | broadcast | correction => cases ha
  | cancel request =>
    obtain ⟨found, hc, rfl⟩ := Act.bind_pure_eq_ok.1 h
    cases hc
    exact course_cancel request
  | deregister agent now =>
    obtain ⟨result, hd, rfl⟩ := Act.bind_pure_eq_ok.1 h
    exact course_deregister hd
  | shutdown walk now =>
    obtain ⟨⟨⟩, hs, rfl⟩ := Act.bind_pure_eq_ok.1 h
    exact course_shutdown hs
  | adoptEpoch epoch =>
    cases h
    exact .of_still (still_adoptEpoch s epoch)

/-- What an operation does to the requests, and that it does nothing else to them. -/
theorem perform_moves {s s' : Station τ} {operation : Operation} {response : Result}
    (h : perform operation s = .ok response s') :
    Moves (operation.time?.getD 0) (s.actions operation response) s s' := by
  cases operation with
  | broadcast wake bulletin deadline now =>
    obtain ⟨answer, hb, rfl⟩ := Act.bind_pure_eq_ok.1 h
    exact .of_quiet (quiet_broadcastRounds hb)
  | correction wake bulletin skipIfIdle deadline now =>
    obtain ⟨answer, hb, rfl⟩ := Act.bind_pure_eq_ok.1 h
    exact .of_quiet (quiet_correction hb)
  | _ => exact (perform_course h rfl).moves

end Course

end Station

end GroundControl
