import GroundControl.Proofs.Station.Parallel

/-!
# Isolation of agents

What is asked for one agent does not show at the others: if nothing is throttled, the link takes
every frame, the agent never answers, and its requests have numbers of their own, then a run goes
for all other agents as it would without the requests of that agent.  A withdrawal names a request
by its number alone, so it shows where two agents have requests of one number.

* `Operation.isFor`, `without`: what is asked for an agent, and a run without it;
* `Operation.along`: the same operation, if tables are walked another way;
* `seen`: the frames for an agent and the ends of its requests, with their times;
* `SameFor`: after two steps the pending requests of an agent are the same;
* `Alike.perform`, `Alike.perform_left`: one operation;
* `agent_isolation`, and `shared_numbers_show`, a run without it where numbers are shared.
-/

namespace GroundControl

/-- The operation submits a request for an agent, or withdraws a request with one of its numbers. -/
def Operation.isFor (agent : AgentId) (own : List RequestId) : Operation → Bool
  | .submit _ target _ _ _ _ | .enqueue _ target _ _ _ => decide (target = agent)
  | .cancel request => decide (request ∈ own)
  | _ => false

/-- The numbers of the requests that are submitted for an agent. -/
def submittedTo (agent : AgentId) (operations : List Operation) : List RequestId :=
  operations.filterMap fun operation =>
    operation.submission?.bind fun x => if x.2 = agent then some x.1 else none

theorem mem_submittedTo {agent : AgentId} {operations : List Operation} {request : RequestId} :
    request ∈ submittedTo agent operations ↔
      ∃ operation ∈ operations, operation.submission? = some (request, agent) := by
  unfold submittedTo
  rw [List.mem_filterMap]
  refine exists_congr fun operation => and_congr_right fun _ => ?_
  rw [Option.bind_eq_some_iff]
  constructor
  · rintro ⟨x, hx, hif⟩
    split at hif
    · rename_i ha
      cases hif
      rw [hx, ← ha]
    · cases hif
  · intro hx
    exact ⟨_, hx, if_pos rfl⟩

/-- The operations without the submissions for an agent and the withdrawals of its requests. -/
def without (agent : AgentId) (operations : List Operation) : List Operation :=
  operations.filter fun operation => !operation.isFor agent (submittedTo agent operations)

/-- The operation, if the tables are walked another way. -/
def Operation.along (walk : Walk) : Operation → Operation
  | .pumpAll _ now => .pumpAll walk now
  | .sweep _ now => .sweep walk now
  | .tick _ now => .tick walk now
  | .shutdown _ now => .shutdown walk now
  | operation => operation

namespace Operation

@[simp] theorem time?_along (walk : Walk) (operation : Operation) :
    (operation.along walk).time? = operation.time? := by
  cases operation <;> rfl

@[simp] theorem isFor_along (walk : Walk) (operation : Operation) (agent : AgentId)
    (own : List RequestId) :
    (operation.along walk).isFor agent own = operation.isFor agent own := by
  cases operation <;> rfl

end Operation

/-- The same is asked for, one operation after the other, but for how the tables are walked. -/
def SameButWalks : List Operation → List Operation → Prop :=
  List.Forall₂ fun operation other => ∃ walk, other = operation.along walk

/-- The frames for an agent and the ends of its requests, each with the time of its operation. -/
def seen {τ : Type} (agent : AgentId) (steps : List (Step τ)) : List (Option Instant × Effect) :=
  steps.flatMap fun step =>
    (step.effects.filter (Effect.reaches agent)).map fun e => (step.operation.time?, e)

/-- Whether a step takes in the reply of an agent to one of its requests. -/
def Step.replies {τ : Type} (agent : AgentId) (step : Step τ) : Bool :=
  match step.operation with
  | .deliver m _ | .route m _ => decide (m.agent = agent) && step.before.answers m
  | _ => false

/-- The same was asked for in two steps, and after them the pending requests of an agent are the
same, but for their tickets. -/
structure SameFor {τ : Type} (agent : AgentId) (x y : Step τ) : Prop where
  operation : ∃ walk, y.operation = x.operation.along walk
  requests : (y.after.queueOf agent).requests.map Request.plain =
    (x.after.queueOf agent).requests.map Request.plain
  phase : ∀ request, x.after.pending.get? request = some agent →
    y.after.phaseOf request = x.after.phaseOf request

namespace Station

variable {τ : Type} [Carrier τ] {hidden : AgentId} {own : List RequestId} {s t s' : Station τ}

/-! ### Pending requests -/

/-- Only a request that is taken in becomes pending. -/
theorem Move.pending {now : Instant} {a : Action} (h : Move now a s s') {request : RequestId}
    {agent : AgentId} (hp : s'.pending.get? request = some agent) :
    s.pending.get? request = some agent ∨
      ∃ handle, a = .enter handle ∧ handle.request = request ∧ handle.agent = agent := by
  have hended : ∀ l : List Finished,
      (l.foldl (fun t f => t.erase f.request) s.pending).get? request = some agent →
        s.pending.get? request = some agent := by
    intro l hl
    rw [Table.get?_foldl_erase Finished.request] at hl
    split at hl
    · cases hl
    · exact hl
  cases h with
  | @enter _ a r b id target payload urgency maxAttempts hr ha hb =>
    subst hr
    have hp : (s.pending.insert id target).get? request = some agent := hp
    rw [Table.get?_insert] at hp
    split at hp
    · rename_i hid
      cases hp
      exact .inr ⟨_, rfl, hid.symm, rfl⟩
    · exact .inl hp
  | answer hb ha he => exact .inl (hended _ hp)
  | pump hb hr => exact .inl (hended _ hp)
  | remove ha => exact .inl (hended _ hp)
  | idle | withdraw | gone | unknown => exact .inl hp

theorem Moves.pending {now : Instant} {l : List Action} (h : Moves now l s s')
    {request : RequestId} {agent : AgentId} (hp : s'.pending.get? request = some agent) :
    s.pending.get? request = some agent ∨
      ∃ handle, .enter handle ∈ l ∧ handle.request = request ∧ handle.agent = agent := by
  induction h with
  | nil => exact .inl hp
  | quiet hq _ ih =>
    rw [← hq.pending]
    exact ih hp
  | cons hm _ ih =>
    rcases ih hp with hp | ⟨handle, hmem, heq⟩
    · rcases hm.pending hp with hp | ⟨handle, rfl, heq⟩
      · exact .inl hp
      · exact .inr ⟨handle, List.mem_cons_self, heq⟩
    · exact .inr ⟨handle, List.mem_cons_of_mem _ hmem, heq⟩

/-- The numbers of the hidden agent are those of its pending requests, and of no others. -/
structure Keeps (hidden : AgentId) (own : List RequestId) (s : Station τ) : Prop where
  owns : Owns hidden own s
  pending : ∀ request agent, s.pending.get? request = some agent →
    (request ∈ own ↔ agent = hidden)

/-- The numbers of the hidden agent are those that are submitted for it, and no others. -/
def Assigns (hidden : AgentId) (own : List RequestId) (operation : Operation) : Prop :=
  ∀ request agent, operation.submission? = some (request, agent) →
    (request ∈ own ↔ agent = hidden)

theorem Keeps.perform (h : Keeps hidden own s) {operation : Operation} {response : Result}
    (ha : Assigns hidden own operation) (hp : Station.perform operation s = .ok response s') :
    Keeps hidden own s' := by
  have hhandle : ∀ handle : Handle, response.handle? = some handle →
      (handle.request ∈ own ↔ handle.agent = hidden) := fun handle hh =>
    ha handle.request handle.agent (submission_of_handle hp hh)
  constructor
  · obtain ⟨hs', ended, ht⟩ := perform_transfer h.owns.sound hp
    refine h.owns.transfer hs' ht ?_
    intro i hi hag
    obtain ⟨handle, hm, rfl⟩ := List.mem_map.1 hi
    exact (hhandle handle (Option.mem_toList.1 hm)).2 hag
  · intro request agent hr
    rcases (perform_moves hp).pending hr with hr | ⟨handle, hm, rfl, rfl⟩
    · exact h.pending request agent hr
    · -- the handle is the one that was answered with, so the operation submitted it
      have hi : handle.ident ∈ (s.actions operation response).flatMap Action.fresh :=
        List.mem_flatMap.2 ⟨_, hm, List.mem_singleton.2 rfl⟩
      rw [fresh_actions operation hp] at hi
      obtain ⟨handle', hm', hi⟩ := List.mem_map.1 hi
      have hr : handle'.request = handle.request := congrArg Ident.request hi
      have hag : handle'.agent = handle.agent := congrArg Ident.agent hi
      rw [← hr, ← hag]
      exact hhandle handle' (Option.mem_toList.1 hm')

/-! ### One operation -/

/-- What is asked for the hidden agent, of the one that has its requests. -/
theorem Alike.perform_left (h : Alike hidden own s t) (hs : Keeps hidden own s)
    {operation : Operation} {response : Result} (ho : operation.isFor hidden own = true)
    (ha : Assigns hidden own operation) (hp : Station.perform operation s = .ok response s') :
    Alike hidden own s' t := by
  cases operation with
  | submit request agent payload urgency maxAttempts now =>
    obtain rfl : agent = hidden := of_decide_eq_true ho
    obtain ⟨result, hsub, rfl⟩ := Act.bind_pure_eq_ok.1 hp
    exact h.submit_left hs.owns ((ha request agent rfl).2 rfl) hsub
  | enqueue request agent payload urgency maxAttempts =>
    obtain rfl : agent = hidden := of_decide_eq_true ho
    obtain ⟨result, he, rfl⟩ := Act.bind_pure_eq_ok.1 hp
    exact h.enqueue_left ((ha request agent rfl).2 rfl) (Act.modifyGet_eq_ok.1 he)
  | cancel request =>
    obtain ⟨found, hc, rfl⟩ := Act.bind_pure_eq_ok.1 hp
    cases hc
    have hown : request ∈ own := of_decide_eq_true ho
    exact h.cancel_left fun agent hr => (hs.pending request agent hr).1 hown
  | _ => cases ho

/-- What is not asked for the hidden agent, of both. -/
theorem Alike.perform (h : Alike hidden own s t) (hs : Keeps hidden own s) (ht : Lacks hidden t)
    {operation : Operation} {response : Result} (ho : operation.isFor hidden own = false)
    (hr : (⟨s, operation, response, s'⟩ : Step τ).replies hidden = false)
    (hp : Station.perform operation s = .ok response s') (other : Walk) :
    ∃ response' t', Station.perform (operation.along other) t = .ok response' t' ∧
      Alike hidden own s' t' := by
  cases operation with
  | deliver m now =>
    obtain ⟨⟨⟩, hd, rfl⟩ := Act.bind_pure_eq_ok.1 hp
    have hm : m.agent = hidden → s.answers m = false := fun he =>
      (Bool.and_eq_false_iff.1 hr).resolve_left (by simp [he])
    obtain ⟨t', hd', h'⟩ := h.deliverInbound hs.owns ht hm hd
    exact ⟨.done, t', Act.bind_pure_eq_ok.2 ⟨(), hd', rfl⟩, h'⟩
  | route m now =>
    obtain ⟨found, hd, rfl⟩ := Act.bind_pure_eq_ok.1 hp
    have hm : m.agent = hidden → s.answers m = false := fun he =>
      (Bool.and_eq_false_iff.1 hr).resolve_left (by simp [he])
    obtain ⟨t', hd', h'⟩ := h.route ht hm hd
    exact ⟨.routed found, t', Act.bind_pure_eq_ok.2 ⟨found, hd', rfl⟩, h'⟩
  | submit request agent payload urgency maxAttempts now =>
    obtain ⟨result, hsub, rfl⟩ := Act.bind_pure_eq_ok.1 hp
    obtain ⟨result', t', hsub', h'⟩ := h.submit hs.owns ht (of_decide_eq_false ho) hsub
    exact ⟨.submitted result', t', Act.bind_pure_eq_ok.2 ⟨result', hsub', rfl⟩, h'⟩
  | enqueue request agent payload urgency maxAttempts =>
    obtain ⟨result, he, rfl⟩ := Act.bind_pure_eq_ok.1 hp
    obtain ⟨result', t', he', -, h'⟩ :=
      h.enqueue (of_decide_eq_false ho) (Act.modifyGet_eq_ok.1 he)
    exact ⟨.submitted result', t',
      Act.bind_pure_eq_ok.2 ⟨result', Act.modifyGet_eq_ok.2 he', rfl⟩, h'⟩
  | pump agent now =>
    obtain ⟨⟨⟩, hd, rfl⟩ := Act.bind_pure_eq_ok.1 hp
    obtain ⟨t', hd', h'⟩ := h.pump hs.owns ht hd
    exact ⟨.done, t', Act.bind_pure_eq_ok.2 ⟨(), hd', rfl⟩, h'⟩
  | pumpAll walk now =>
    obtain ⟨⟨⟩, hd, rfl⟩ := Act.bind_pure_eq_ok.1 hp
    obtain ⟨t', hd', h'⟩ := h.pumpAll hs.owns ht walk other hd
    exact ⟨.done, t', Act.bind_pure_eq_ok.2 ⟨(), hd', rfl⟩, h'⟩
  | sweep walk now =>
    obtain ⟨changes, hd, rfl⟩ := Act.bind_pure_eq_ok.1 hp
    cases hd
    exact ⟨_, _, rfl, h.swept walk other now⟩
  | tick walk now =>
    obtain ⟨⟨⟩, hd, rfl⟩ := Act.bind_pure_eq_ok.1 hp
    obtain ⟨t', hd', h'⟩ := h.tick hs.owns ht walk other hd
    exact ⟨.done, t', Act.bind_pure_eq_ok.2 ⟨(), hd', rfl⟩, h'⟩
  | broadcast wake bulletin deadline now =>
    obtain ⟨answer, hd, rfl⟩ := Act.bind_pure_eq_ok.1 hp
    obtain ⟨answer', t', hd', h'⟩ := h.broadcast hd
    exact ⟨_, t', Act.bind_pure_eq_ok.2 ⟨answer', hd', rfl⟩, h'⟩
  | correction wake bulletin skipIfIdle deadline now =>
    obtain ⟨answer, hd, rfl⟩ := Act.bind_pure_eq_ok.1 hp
    obtain ⟨answer', t', hd', h'⟩ := h.correction hd
    exact ⟨_, t', Act.bind_pure_eq_ok.2 ⟨answer', hd', rfl⟩, h'⟩
  | cancel request =>
    obtain ⟨found, hc, rfl⟩ := Act.bind_pure_eq_ok.1 hp
    cases hc
    have hown : request ∉ own := of_decide_eq_false ho
    refine ⟨_, _, rfl, h.cancel hown fun agent hreq he => hown ?_⟩
    exact (hs.pending request agent hreq).2 he
  | deregister agent now =>
    obtain ⟨result, hd, rfl⟩ := Act.bind_pure_eq_ok.1 hp
    obtain ⟨result', t', hd', h'⟩ := h.deregister hs.owns ht hd
    exact ⟨_, t', Act.bind_pure_eq_ok.2 ⟨result', hd', rfl⟩, h'⟩
  | shutdown walk now =>
    obtain ⟨⟨⟩, hd, rfl⟩ := Act.bind_pure_eq_ok.1 hp
    obtain ⟨t', hd', h'⟩ := h.shutdown hs.owns ht walk other hd
    exact ⟨.done, t', Act.bind_pure_eq_ok.2 ⟨(), hd', rfl⟩, h'⟩
  | adoptEpoch epoch =>
    cases hp
    exact ⟨.done, _, rfl, h.adoptEpoch epoch⟩

/-- What is not asked for the hidden agent takes in no request of it. -/
theorem Lacks.perform (h : Lacks hidden t) {operation : Operation} {response : Result}
    {t' : Station τ} (ho : operation.isFor hidden own = false)
    (hp : Station.perform operation t = .ok response t') : Lacks hidden t' := by
  obtain ⟨ht', ended, htr⟩ := perform_transfer h.sound hp
  refine h.transfer ht' htr ?_
  intro i hi hag
  obtain ⟨handle, hm, rfl⟩ := List.mem_map.1 hi
  have hsub := submission_of_handle hp (Option.mem_toList.1 hm)
  have hne : handle.agent ≠ hidden := by
    cases operation with
    | submit request agent payload urgency maxAttempts now =>
      cases hsub
      exact of_decide_eq_false ho
    | enqueue request agent payload urgency maxAttempts =>
      cases hsub
      exact of_decide_eq_false ho
    | _ => cases hsub
  exact hne hag

/-! ### What can be seen of a step -/

/-- A step of which the other knows nothing does not show. -/
theorem Alike.unseen_left (h : Alike hidden own s t) (h' : Alike hidden own s' t) (hs : s.Sound)
    {operation : Operation} {response : Result}
    (hp : Station.perform operation s = .ok response s') {agent : AgentId} (ha : agent ≠ hidden) :
    (⟨s, operation, response, s'⟩ : Step τ).effects.filter (Effect.reaches agent) = [] := by
  have hl := (h'.log agent ha).symm.trans (h.log agent ha)
  rw [log_of_perform hs hp, List.filter_append] at hl
  exact List.append_right_eq_self.1 hl

/-- Two steps for one operation show the same. -/
theorem Alike.seen_both (h : Alike hidden own s t) {t' : Station τ} (h' : Alike hidden own s' t')
    (hs : s.Sound) (ht : t.Sound) {operation operation' : Operation} {response response' : Result}
    (hp : Station.perform operation s = .ok response s')
    (hp' : Station.perform operation' t = .ok response' t') {agent : AgentId}
    (ha : agent ≠ hidden) :
    (⟨s, operation, response, s'⟩ : Step τ).effects.filter (Effect.reaches agent) =
      (⟨t, operation', response', t'⟩ : Step τ).effects.filter (Effect.reaches agent) := by
  have hl := h'.log agent ha
  rw [log_of_perform hs hp, log_of_perform ht hp', List.filter_append, List.filter_append,
    h.log agent ha] at hl
  exact (List.append_cancel_left hl).symm

/-- The requests of another agent are the same after two steps. -/
theorem Alike.same {s t s' t' : Station τ} (h : Alike hidden own s' t') (hs : Keeps hidden own s')
    (operation : Operation) (walk : Walk) (response response' : Result) {agent : AgentId}
    (ha : agent ≠ hidden) :
    SameFor agent ⟨s, operation, response, s'⟩ ⟨t, operation.along walk, response', t'⟩ where
  operation := ⟨walk, rfl⟩
  requests := by
    show (t'.queueOf agent).requests.map _ = (s'.queueOf agent).requests.map _
    rw [← Backlog.requests_plain, ← Backlog.requests_plain, h.queueOf ha]
  phase request hr := by
    have hr : s'.pending.get? request = some agent := hr
    have hown : request ∉ own := fun hm => ha ((hs.pending request agent hr).1 hm)
    have hphase : ∀ u : Station τ, (u.backlogOf agent).bind (·.phaseOf request) =
        ((u.backlogOf agent).map Backlog.plain).bind (·.phaseOf request) := by
      intro u
      cases u.backlogOf agent with
      | none => rfl
      | some b => exact (b.phaseOf_plain request).symm
    show t'.phaseOf request = s'.phaseOf request
    unfold phaseOf
    rw [h.pending request hown, hr]
    dsimp only
    rw [hphase, hphase, h.backlogOf ha]

/-! ### Runs -/

omit [Carrier τ] in
theorem seen_cons (agent : AgentId) (step : Step τ) (steps : List (Step τ)) :
    seen agent (step :: steps) =
      (step.effects.filter (Effect.reaches agent)).map (fun e => (step.operation.time?, e)) ++
        seen agent steps :=
  List.flatMap_cons

/-- A run with what is asked for the hidden agent, and one without it, on other walks. -/
theorem Alike.run {operations others : List Operation} {steps : List (Step τ)} {last : Station τ}
    (h : Alike hidden own s t) (hs : Keeps hidden own s) (ht : Lacks hidden t)
    (ha : ∀ operation ∈ operations, Assigns hidden own operation)
    (hr : Station.run operations s = .ok (steps, last))
    (hsilent : ∀ step ∈ steps, step.replies hidden = false)
    (ho : SameButWalks (operations.filter fun operation => !operation.isFor hidden own) others) :
    ∃ steps' last', Station.run others t = .ok (steps', last') ∧
      ∀ agent, agent ≠ hidden → seen agent steps = seen agent steps' ∧
        List.Forall₂ (SameFor agent)
          (steps.filter fun step => !step.operation.isFor hidden own) steps' := by
  induction operations generalizing s t steps others with
  | nil =>
    cases hr
    cases ho
    exact ⟨[], t, rfl, fun agent _ => ⟨rfl, .nil⟩⟩
  | cons operation rest ih =>
    obtain ⟨response, after, following, hp, hlater, rfl⟩ := run_cons_eq_ok.1 hr
    obtain ⟨hassign, hrest⟩ := List.forall_mem_cons.1 ha
    obtain ⟨hfirst, hfollowing⟩ := List.forall_mem_cons.1 hsilent
    have hafter := hs.perform hassign hp
    cases hfor : operation.isFor hidden own with
    | true =>
      -- only the first station is asked, and the second stays where it is
      have h₁ := h.perform_left hs hfor hassign hp
      rw [List.filter_cons_of_neg (by simp [hfor])] at ho
      obtain ⟨steps', last', hrun, hsame⟩ := ih h₁ hafter ht hrest hlater hfollowing ho
      refine ⟨steps', last', hrun, fun agent hag => ?_⟩
      obtain ⟨hseen, hstates⟩ := hsame agent hag
      constructor
      · rw [seen_cons, h.unseen_left h₁ hs.owns.sound hp hag]
        exact hseen
      · rw [List.filter_cons_of_neg (by simp [hfor])]
        exact hstates
    | false =>
      rw [List.filter_cons_of_pos (by simp [hfor])] at ho
      obtain ⟨_, others, ⟨walk, rfl⟩, hwalks, rfl⟩ := List.forall₂_cons_left_iff.1 ho
      obtain ⟨response', t₁, hp', h₁⟩ := h.perform hs ht hfor hfirst hp walk
      have ht₁ := ht.perform ((Operation.isFor_along ..).trans hfor) hp'
      obtain ⟨steps', last', hrun, hsame⟩ := ih h₁ hafter ht₁ hrest hlater hfollowing hwalks
      refine ⟨⟨t, operation.along walk, response', t₁⟩ :: steps', last',
        run_cons_eq_ok.2 ⟨response', t₁, steps', hp', hrun, rfl⟩, fun agent hag => ?_⟩
      obtain ⟨hseen, hstates⟩ := hsame agent hag
      constructor
      · rw [seen_cons, seen_cons, hseen, Operation.time?_along,
          h.seen_both h₁ hs.owns.sound ht.sound hp hp' hag]
      · rw [List.filter_cons_of_pos (by simp [hfor])]
        exact .cons (h₁.same hafter operation walk response response' hag) hstates

/-- If nothing is throttled and the link takes every frame, no reply of an agent belongs to one of
its requests, and none of its requests has the number of another agent's request, then the same run
without the submissions for that agent and without the withdrawals of its requests meets no fault
either, whichever way its tables are walked.  For every other agent the frames and the ends of
requests are the same, at the same times, and so are the pending requests after every operation that
is left. -/
theorem agent_isolation {settings : NetworkSettings} {carrier : τ} {start : Instant}
    {operations others : List Operation} {steps : List (Step τ)} {last : Station τ}
    (hidden : AgentId) (hrate : settings.rateLimit = none) (hlink : Carrier.TakesAll carrier)
    (hids : ∀ request ∈ submittedTo hidden operations, ∀ agent, agent ≠ hidden →
      request ∉ submittedTo agent operations)
    (hrun : run operations (new settings carrier start) = .ok (steps, last))
    (hsilent : ∀ step ∈ steps, step.replies hidden = false)
    (hothers : SameButWalks (without hidden operations) others) :
    ∃ steps' last', run others (new settings carrier start) = .ok (steps', last') ∧
      ∀ agent, agent ≠ hidden → seen agent steps = seen agent steps' ∧
        List.Forall₂ (SameFor agent)
          (steps.filter fun step =>
            !step.operation.isFor hidden (submittedTo hidden operations)) steps' := by
  have hfree : (new settings carrier start).Free := ⟨by unfold new; rw [hrate]; rfl, hlink⟩
  have hsound := sound_new settings carrier start
  have hnumbered := numbered_new settings carrier start
  have hkeeps : Keeps hidden (submittedTo hidden operations) (new settings carrier start) :=
    ⟨⟨hsound, hnumbered, List.forall_mem_nil _⟩,
      fun request agent hp => absurd hp (Option.some_ne_none _).symm⟩
  refine (Alike.refl hfree).run hkeeps ⟨hsound, hnumbered, List.forall_mem_nil _⟩ ?_ hrun hsilent
    hothers
  intro operation ho request agent hsub
  have hmem : request ∈ submittedTo agent operations := mem_submittedTo.2 ⟨operation, ho, hsub⟩
  constructor
  · intro hown
    by_contra hne
    exact hids request hown agent hne hmem
  · rintro rfl
    exact hmem

/-- A request of a silent agent, which is withdrawn, between those of another one. -/
def silentNeighbour (walk : Walk) : List Operation :=
  [.route (.heartbeat "alpha" 1) 0, .route (.heartbeat "alpha" 2) 0,
    .submit 1 1 (.expecting [7] 3) .normal 0 10,
    .submit 2 2 (.expecting [8] 4) .normal 0 20,
    .cancel 1,
    .deliver (.accepted "alpha" 2 4) 30,
    .tick walk 2000000000]

/-- The agents come up in the opposite order of their numbers. -/
@[reducible] def descending : Walk := ⟨List.reverse, List.reverse_perm⟩

theorem agent_isolation_silentNeighbour :
    ∃ steps last steps' last',
      run (silentNeighbour .ascending) (new { id := "alpha" } Sink.mk 0) = .ok (steps, last) ∧
      run (without 1 (silentNeighbour descending)) (new { id := "alpha" } Sink.mk 0) =
        .ok (steps', last') ∧
      (seen 2 steps).length = 2 ∧ seen 2 steps = seen 2 steps' := by
  have hrun : (run (silentNeighbour .ascending) (new { id := "alpha" } Sink.mk 0)).toOption.any
      (fun r => r.1.all (fun step => !step.replies 1) && (seen 2 r.1).length == 2) = true := by
    decide +kernel
  cases h : run (silentNeighbour .ascending) (new { id := "alpha" } Sink.mk 0) with
  | error fault =>
    rw [h] at hrun
    cases hrun
  | ok r =>
    obtain ⟨steps, last⟩ := r
    rw [h] at hrun
    obtain ⟨hsilent, hlength⟩ := Bool.and_eq_true_iff.1 hrun
    have hids : ∀ request ∈ submittedTo 1 (silentNeighbour .ascending), ∀ agent, agent ≠ 1 →
        request ∉ submittedTo agent (silentNeighbour .ascending) := by
      intro request hr agent ha hm
      obtain rfl : request = 1 := List.mem_singleton.1 hr
      have hsub : (silentNeighbour .ascending).filterMap Operation.submission? =
          [(1, 1), (2, 2)] := rfl
      have hm := List.mem_filterMap.2 (mem_submittedTo.1 hm)
      rw [hsub] at hm
      simp [ha] at hm
    have hothers : SameButWalks (without 1 (silentNeighbour .ascending))
        (without 1 (silentNeighbour descending)) :=
      .cons ⟨descending, rfl⟩ (.cons ⟨descending, rfl⟩ (.cons ⟨descending, rfl⟩
        (.cons ⟨descending, rfl⟩ (.cons ⟨descending, rfl⟩ .nil))))
    obtain ⟨steps', last', hrun', hsame⟩ := agent_isolation 1 rfl (Sink.takesAll _) hids h
      (fun step hs => by simpa using List.all_eq_true.1 hsilent step hs) hothers
    exact ⟨steps, last, steps', last', rfl, hrun', eq_of_beq hlength, (hsame 2 (by decide)).1⟩

/-- Two agents with requests of the same numbers.  The withdrawal of 7 finds the request of the
second agent; that of 8 finds none, since the first agent's request under that number has ended. -/
def sharedNumbers : List Operation :=
  [.route (.heartbeat "alpha" 1) 0, .route (.heartbeat "alpha" 2) 0,
    .enqueue 7 1 (.oneWay [1]) .normal 1,
    .enqueue 7 2 (.oneWay [2]) .normal 1,
    .enqueue 8 2 (.oneWay [3]) .normal 1,
    .enqueue 8 1 (.oneWay [4]) .normal 1,
    .cancel 7,
    .pump 1 10,
    .cancel 8,
    .pump 2 20]

/-- How the requests of an agent ended in a run. -/
def endsFor (agent : AgentId) (operations : List Operation) : Option (List (RequestId × Phase)) :=
  (run operations (new { id := "alpha" } Sink.mk 0)).toOption.map fun r =>
    (seen agent r.1).filterMap fun
      | (_, .published (.finished _ _ request phase _)) => some (request, phase)
      | _ => none

/-- Where agents share numbers, a run without what is asked for one of them shows at the other,
whether the withdrawals under shared numbers are left out with it or not. -/
theorem shared_numbers_show :
    ((run sharedNumbers (new { id := "alpha" } Sink.mk 0)).toOption.any fun r =>
        r.1.all fun step => !step.replies 1) = true ∧
      endsFor 2 sharedNumbers = some [(7, .cancelled), (8, .acked)] ∧
      endsFor 2 (without 1 sharedNumbers) = some [(7, .acked), (8, .acked)] ∧
      endsFor 2 (sharedNumbers.filter fun operation => !operation.isFor 1 []) =
        some [(7, .cancelled), (8, .cancelled)] := by
  decide +kernel

end Station

end GroundControl
