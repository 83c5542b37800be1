import GroundControl.Proofs.Pump.Landing
import GroundControl.Proofs.Station.Ledger

/-!
# What a step does for one agent

As far as one agent is concerned, a step does little: a reply comes in, a request is taken in or
withdrawn, or the agent is removed; and then its requests are moved, once at most.

* `Request.unmarked`, a request whether or not it was withdrawn;
* `Calm`, what all but a pump makes of a backlog, and `Moves.calm`;
* `Sending.isTo`, `Step.sendsTo`, the frames of a step for one agent;
* `Visit`, what a step does for an agent, and `perform_visit`;
* `Step.resets`, `Step.timesOut`, with `Visit.timeouts`; `Step.Launches`, with `Visit.flight`: where
  the timeouts of an agent and its request in flight come from;
* `Step.Ready`, with `Visit.waiting`: where the requests that wait come from.
-/

namespace GroundControl

/-- The request without the mark of a withdrawal. -/
def Request.unmarked (r : Request) : Request := { r with cancelRequested := false }

/-- Two requests that differ at most in the mark: one may be withdrawn and the other not. -/
theorem Request.eq_of_unmarked {r q : Request} (h : r.unmarked = q.unmarked)
    (hc : q.cancelRequested = false) : r = q ∨ r = { q with cancelRequested := true } := by
  have hr : r = { q.unmarked with cancelRequested := r.cancelRequested } := h ▸ rfl
  cases hm : r.cancelRequested with
  | false =>
    rw [hm, ← hc] at hr
    exact .inl hr
  | true =>
    rw [hm] at hr
    exact .inr hr

/-- Whether a frame is for an agent. -/
def Sending.isTo (agent : AgentId) (f : Sending) : Bool := f.1.destination == .agent agent

namespace Backlog

/-- A withdrawal leaves the request in flight in flight, and what waits waiting. -/
theorem unmarked_withdraw (b : Backlog) (id : RequestId) :
    (b.withdraw id).2.inFlight.map Request.unmarked = b.inFlight.map Request.unmarked ∧
      (b.withdraw id).2.timeouts = b.timeouts ∧
        (b.withdraw id).2.waiting.map Request.tried = b.waiting.map Request.tried := by
  unfold withdraw
  cases hf : b.inFlight.filter fun r => r.id = id with
  | none =>
    have he := congrArg (List.map Request.tried) (entries_markCancelled id b.waiting)
    rw [List.map_map, List.map_map] at he
    exact ⟨rfl, rfl, he⟩
  | some r =>
    rw [(Option.filter_eq_some_iff.1 hf).1]
    exact ⟨rfl, rfl, rfl⟩

end Backlog

namespace Station

variable {τ : Type}

/-! ### Without a pump -/

/-- Whether an action starts the count of the timeouts of an agent anew: a reply comes in, or the
agent is removed. -/
def Action.resets (agent : AgentId) (a : Action) : Bool :=
  decide (a = .answer agent ∨ a = .remove agent)

/-- What actions that do not move the requests of an agent make of its backlog. -/
structure Calm (agent : AgentId) (l : List Action) (b b' : Backlog) : Prop where
  timeouts : b'.timeouts = if l.any (·.resets agent) then 0 else b.timeouts
  flight : b'.inFlight.map Request.unmarked =
    if l.any (·.resets agent) then none else b.inFlight.map Request.unmarked
  /-- if nothing is withdrawn, not even a mark is set -/
  unmarked : (∀ request, .withdraw request ∉ l) →
    b'.inFlight = if l.any (·.resets agent) then none else b.inFlight
  waiting : ∀ x ∈ b'.waiting.map Request.tried,
    x ∈ b.waiting.map Request.tried ∨ x.1 ∈ l.flatMap Action.fresh

theorem Calm.refl (agent : AgentId) (b : Backlog) : Calm agent [] b b :=
  ⟨rfl, rfl, fun _ => rfl, fun _ => .inl⟩

theorem Calm.cons {agent : AgentId} {a : Action} {l : List Action} {b b₁ b' : Backlog}
    (h : Calm agent [a] b b₁) (h' : Calm agent l b₁ b') : Calm agent (a :: l) b b' := by
  have hsingle : [a].any (·.resets agent) = a.resets agent := Bool.or_false _
  have hcombine : ∀ {α : Type} (x y : α), (if l.any (·.resets agent) then x
      else if a.resets agent then x else y) = if (a :: l).any (·.resets agent) then x else y := by
    intro α x y
    rw [List.any_cons]
    cases a.resets agent <;> cases l.any (·.resets agent) <;> rfl
  have ht := h.timeouts
  have hf := h.flight
  have hu := h.unmarked
  rw [hsingle] at ht hf hu
  refine ⟨?_, ?_, fun hn => ?_, fun i hi => ?_⟩
  · rw [h'.timeouts, ht, hcombine]
  · rw [h'.flight, hf, hcombine]
  · have ha : ∀ request, .withdraw request ∉ [a] := fun request hm =>
      hn request (List.mem_singleton.1 hm ▸ List.mem_cons_self)
    rw [h'.unmarked fun request hm => hn request (List.mem_cons_of_mem a hm), hu ha, hcombine]
  · rw [List.flatMap_cons, List.mem_append]
    rcases h'.waiting i hi with hw | hfresh
    · refine (h.waiting i hw).imp_right fun hm => .inl ?_
      rwa [List.flatMap_singleton] at hm
    · exact .inr (.inr hfresh)

/-- What is in flight after actions without a pump was in flight before them. -/
theorem Calm.exists_flight {agent : AgentId} {l : List Action} {b b' : Backlog}
    (h : Calm agent l b b') {q : Request} (hq : b'.inFlight = some q) :
    ∃ r, b.inFlight = some r ∧ r.unmarked = q.unmarked ∧ l.any (·.resets agent) = false := by
  have hf := h.flight
  rw [hq] at hf
  cases hr : l.any (·.resets agent) with
  | true =>
    rw [hr] at hf
    cases hf
  | false =>
    rw [hr, if_neg Bool.false_ne_true] at hf
    obtain ⟨r, hr, hu⟩ := Option.map_eq_some_iff.1 hf.symm
    exact ⟨r, hr, hu, rfl⟩

section Moves

variable [Carrier τ] {now : Instant} {s s' : Station τ} {agent : AgentId}

theorem Change.calm {a : Action} {b : Backlog} (h : Change now s agent a b)
    (ha : a ≠ .pump agent) : Calm agent [a] (s.queueOf agent) b := by
  have hkept : ∀ {a : Action} {b : Backlog}, a.resets agent = false →
      b.inFlight = (s.queueOf agent).inFlight → b.timeouts = (s.queueOf agent).timeouts →
        (∀ x ∈ b.waiting.map Request.tried, x ∈ (s.queueOf agent).waiting.map Request.tried ∨
          x.1 ∈ a.fresh) → Calm agent [a] (s.queueOf agent) b := by
    intro a b hr hf ht hw
    have hany : [a].any (·.resets agent) = false := (Bool.or_false _).trans hr
    refine ⟨?_, ?_, fun _ => ?_, fun x hx => List.flatMap_singleton .. ▸ hw x hx⟩ <;> rw [hany]
    · exact ht
    · exact congrArg (Option.map Request.unmarked) hf
    · exact hf
  have hreset : ∀ {a : Action} {b : Backlog}, a.resets agent = true → b.inFlight = none →
      b.timeouts = 0 → (∀ i ∈ b.waiting.map Request.tried,
        i ∈ (s.queueOf agent).waiting.map Request.tried) → Calm agent [a] (s.queueOf agent) b := by
    intro a b hr hf ht hw
    have hany : [a].any (·.resets agent) = true := (Bool.or_false _).trans hr
    refine ⟨?_, ?_, fun _ => ?_, fun i hi => .inl (hw i hi)⟩ <;> rw [hany]
    · exact ht
    · rw [hf]
      rfl
    · exact hf
  cases h with
  | same h =>
    refine hkept (decide_eq_false ?_) rfl rfl fun _ => .inl
    rintro (rfl | rfl)
    · exact h rfl
    · exact h rfl
  | @enter r b id payload urgency maxAttempts hr hb =>
    obtain ⟨-, rfl⟩ := Backlog.submit_eq_some_iff.1 hb
    refine hkept (decide_eq_false (by simp)) rfl rfl fun i hi => ?_
    rw [((Backlog.enqueue_perm r (s.queueOf agent).waiting).map Request.tried).mem_iff] at hi
    rcases List.mem_cons.1 hi with rfl | hi
    · exact .inr (List.mem_singleton_self _)
    · exact .inl hi
  | answer h =>
    obtain ⟨rfl, -⟩ := Backlog.backlog_of_answer h
    exact hreset (decide_eq_true (.inl rfl)) rfl rfl fun _ hi => hi
  | pump => exact absurd rfl ha
  | @withdraw request =>
    obtain ⟨hf, ht, hw⟩ := (s.queueOf agent).unmarked_withdraw request
    have hany : [Action.withdraw request].any (·.resets agent) = false := rfl
    refine ⟨?_, ?_, fun hn => absurd List.mem_cons_self (hn request), fun i hi => ?_⟩
    · rw [hany]
      exact ht
    · rw [hany]
      exact hf
    · exact .inl (hw ▸ hi)
  | remove =>
    exact hreset (decide_eq_true (.inr rfl)) rfl rfl fun _ hi => (List.not_mem_nil hi).elim

/-- Whatever does not move the requests of an agent leaves the one in flight in flight, until it is
answered or the agent is removed. -/
theorem Moves.calm {l : List Action} (h : Moves now l s s') (hl : .pump agent ∉ l) :
    Calm agent l (s.queueOf agent) (s'.queueOf agent) := by
  induction h with
  | nil => exact .refl agent _
  | quiet hq _ ih => exact hq.queue agent ▸ ih hl
  | cons hm _ ih =>
    have ha := (hm.change agent).calm (List.ne_of_not_mem_cons hl).symm
    exact ha.cons (ih (List.not_mem_of_not_mem_cons hl))

end Moves

/-! ### The frames for an agent -/

/-- The frames for an agent that were handed to the link. -/
def framesTo (s : Station τ) (agent : AgentId) : List Sending :=
  s.wire.frames.filter (Sending.isTo agent)

theorem framesTo_of_wire {s s' : Station τ} (h : s'.wire = s.wire) (agent : AgentId) :
    s'.framesTo agent = s.framesTo agent := by
  unfold framesTo
  rw [h]

theorem framesTo_pumped (s : Station τ) (target : AgentId) (p : Pass τ) (now : Instant)
    (agent : AgentId) : (s.pumped target p now).framesTo agent =
      s.framesTo agent ++ p.frames.filter (Sending.isTo agent) := by
  unfold framesTo
  rw [wire_pumped]
  exact List.filter_append ..

section Frames

variable [Carrier τ] {now : Instant} {s s' : Station τ} {agent : AgentId}

/-- The frames of a pump are for its agent. -/
theorem destination_of_run {b : Backlog} {p : Pass τ} (hb : b.Settled)
    (hp : Pass.run (s.passContext agent now) (s.firstPass b now) = (none, p)) :
    ∀ f ∈ p.frames, f.1.destination = .agent agent := by
  obtain ⟨sent, hships⟩ := Pass.ships_rounds (sound_firstPass (s := s) hb now).1 rfl
    (Nat.le_refl _) hp
  have hframes : p.frames = sent.map Shipment.sending := hships.frames
  rw [hframes]
  refine List.forall_mem_map.2 fun x hx => ?_
  show x.frame.destination = _
  rw [hships.framed x hx]
  rfl

theorem filter_isTo_of_destination {l : List Sending} {target : AgentId}
    (h : ∀ f ∈ l, f.1.destination = .agent target) (agent : AgentId) :
    l.filter (Sending.isTo agent) = if target = agent then l else [] := by
  have hto : ∀ f ∈ l, Sending.isTo agent f = decide (target = agent) := by
    intro f hf
    unfold Sending.isTo
    rw [h f hf, Bool.beq_eq_decide_eq]
    exact decide_eq_decide.2 ⟨Destination.agent.inj, congrArg _⟩
  split
  · rename_i he
    exact List.filter_eq_self.2 fun f hf => (hto f hf).trans (decide_eq_true he)
  · rename_i he
    exact List.filter_eq_nil_iff.2 fun f hf hc => he (of_decide_eq_true ((hto f hf) ▸ hc))

/-- Only the pump of an agent hands frames for it to the link. -/
theorem Move.framesTo {a : Action} (h : Move now a s s') (hs : s.Sound) (ha : a ≠ .pump agent) :
    s'.framesTo agent = s.framesTo agent := by
  by_cases hp : ∃ target, a = .pump target
  · obtain ⟨target, rfl⟩ := hp
    cases h with
    | @pump _ target b p hb hrun =>
      have hset : b.Settled := queueOf_of_backlogOf hb ▸ hs.settled target
      have hne : target ≠ agent := fun he => ha (congrArg Action.pump he)
      rw [framesTo_pumped, filter_isTo_of_destination (destination_of_run hset hrun), if_neg hne,
        List.append_nil]
    | idle => rfl
  · exact framesTo_of_wire (h.wire fun target he => hp ⟨target, he⟩) agent

theorem Course.framesTo {l : List Action} (h : Course now l s s') (hs : s.Sound)
    (hl : .pump agent ∉ l) : s'.framesTo agent = s.framesTo agent := by
  induction h with
  | nil => rfl
  | still hq _ ih =>
    exact (ih (hs.of_queueOf hq.quiet.queue) hl).trans (framesTo_of_wire hq.wire agent)
  | cons hm _ ih =>
    have hm' := hm.framesTo hs (List.ne_of_not_mem_cons hl).symm
    exact (ih (hm.transfer hs).1 (List.not_mem_of_not_mem_cons hl)).trans hm'

/-- Only an answer changes the round-trip times. -/
theorem Moves.estimator {l : List Action} (h : Moves now l s s')
    (hl : ∀ target, .answer target ∉ l) : s'.estimator = s.estimator := by
  induction h with
  | nil => rfl
  | quiet hq _ ih => exact (ih hl).trans hq.estimator
  | cons hm _ ih =>
    refine (ih fun target hn => hl target (List.mem_cons_of_mem _ hn)).trans ?_
    cases hm with
    | answer => exact absurd List.mem_cons_self (hl _)
    | _ => rfl

end Frames

end Station

/-! ### Visits -/

namespace Step

variable {τ : Type}

/-- The frames for an agent that were handed to the link in a step. -/
def sendsTo (step : Step τ) (agent : AgentId) : List Sending :=
  (unicasts step.effects).filter (Sending.isTo agent)

/-- Whether a step starts the count of the timeouts of an agent anew. -/
def resets (step : Step τ) (agent : AgentId) : Bool := step.actions.any (·.resets agent)

end Step

namespace Station

variable {τ : Type}

/-- What a step does for an agent. -/
inductive Visit [Carrier τ] (step : Step τ) (agent : AgentId) : Prop
  /-- its requests are not moved -/
  | unmoved (hpump : .pump agent ∉ step.actions)
      (hcalm : Calm agent step.actions (step.before.queueOf agent) (step.after.queueOf agent))
      (hframes : step.sendsTo agent = [])
  /-- its requests are moved at the end, from the state `s` on -/
  | moved (s : Station τ) (p : Pass τ) (now : Instant)
      (htime : step.operation.time? = some now) (hpump : .pump agent ∈ step.actions)
      (hcalm : Calm agent step.actions (step.before.queueOf agent) (s.queueOf agent))
      (hwithdraw : ∀ request, .withdraw request ∉ step.actions)
      (hset : (s.queueOf agent).Settled) (hsettings : s.settings = step.after.settings)
      (hestimator : s.estimator = step.after.estimator)
      (hrun : Pass.run (s.passContext agent now) (s.firstPass (s.queueOf agent) now) = (none, p))
      (hqueue : step.after.queueOf agent = p.backlog) (hframes : step.sendsTo agent = p.frames)

/-- Requests are only moved at a certain time, and nothing is withdrawn then. -/
theorem exists_time_of_pump {s : Station τ} {operation : Operation} {response : Result}
    {agent : AgentId} (h : .pump agent ∈ s.actions operation response) :
    (∃ now, operation.time? = some now) ∧
      ∀ request, .withdraw request ∉ s.actions operation response := by
  have hcancel : ∀ request, operation ≠ .cancel request := by
    rintro request rfl
    cases List.mem_singleton.1 h
  refine ⟨?_, fun request hm => hcancel request (origin_of_mem_actions _ hm)⟩
  cases operation with
  | enqueue =>
    exfalso
    cases response with
    | submitted result =>
      cases result with
      | error e => cases h
      | ok handle => cases List.mem_singleton.1 h
    | _ => cases h
  | cancel request => exact absurd rfl (hcancel request)
  | adoptEpoch => cases h
  | _ => exact ⟨_, rfl⟩

theorem filter_isTo_unicasts (effects : List Effect) (agent : AgentId) :
    (unicasts effects).filter (Sending.isTo agent) =
      (sendings effects).filter (Sending.isTo agent) := by
  unfold unicasts
  rw [List.filter_filter]
  refine List.filter_congr fun f _ => ?_
  cases ht : Sending.isTo agent f with
  | false => rfl
  | true =>
    have hd : f.1.destination = .agent agent := eq_of_beq ht
    unfold Sending.isUnicast
    rw [hd]
    rfl

theorem Calm.append {agent : AgentId} {l m : List Action} {b b' : Backlog}
    (h : Calm agent l b b') (hm : ∀ a ∈ m, ∃ other, a = .pump other) :
    Calm agent (l ++ m) b b' := by
  have hany : (l ++ m).any (·.resets agent) = l.any (·.resets agent) := by
    have hnone : m.any (·.resets agent) = false := by
      refine List.any_eq_false.2 fun a ha => ?_
      obtain ⟨other, rfl⟩ := hm a ha
      exact Bool.false_ne_true
    rw [List.any_append, hnone, Bool.or_false]
  refine ⟨hany ▸ h.timeouts, hany ▸ h.flight, fun hn => hany ▸ h.unmarked fun request hr => ?_,
    fun i hi => (h.waiting i hi).imp_right fun hf => ?_⟩
  · exact hn request (List.mem_append_left m hr)
  · rw [List.flatMap_append]
    exact List.mem_append_left _ hf

section Operations

variable [Carrier τ] {s s' : Station τ}

/-- A step that begins with what does not move an agent, and then moves it. -/
theorem visit_of_split {step : Step τ} {agent : AgentId} {l m : List Action}
    (hs : step.before.Sound) (hpump : .pump agent ∈ step.actions)
    (hl : step.actions = l ++ .pump agent :: m) (hbefore : .pump agent ∉ l)
    (hafter : ∀ a ∈ m, ∃ other, a = .pump other ∧ other ≠ agent)
    (hcourse : Course (step.operation.time?.getD 0) step.actions step.before step.after)
    (hframes : step.after.framesTo agent = step.before.framesTo agent ++ step.sendsTo agent) :
    Visit step agent := by
  obtain ⟨⟨now, htime⟩, hwithdraw⟩ := exists_time_of_pump hpump
  rw [hl, htime, Option.getD_some] at hcourse
  obtain ⟨s₁, hfirst, hrest⟩ := hcourse.of_append
  obtain ⟨s₂, s₃, hstill, hmove, hlast⟩ := hrest.of_cons
  have hs₁ := (hfirst.moves.transfer hs).1
  have hs₂ := hs₁.of_queueOf hstill.quiet.queue
  have hs₃ := (hmove.transfer hs₂).1
  have hpumps : ∀ a ∈ Action.pump agent :: m, ∃ other, a = .pump other :=
    List.forall_mem_cons.2 ⟨⟨agent, rfl⟩, fun a ha => (hafter a ha).imp fun _ h => h.1⟩
  have hcalm : Calm agent step.actions (step.before.queueOf agent) (s₂.queueOf agent) := by
    rw [hl, hstill.quiet.queue agent]
    exact (hfirst.moves.calm hbefore).append hpumps
  -- what comes after the pump leaves the agent alone
  have hqueue : step.after.queueOf agent = s₃.queueOf agent :=
    hlast.moves.queueOf_of_avoids fun a ha => avoids_of_pump (hafter a ha)
  have hnot : .pump agent ∉ m := by
    intro hm
    obtain ⟨other, ho, hne⟩ := hafter _ hm
    exact hne (Action.pump.inj ho).symm
  have hsent : step.before.framesTo agent ++ step.sendsTo agent = s₃.framesTo agent := by
    rw [← hframes, hlast.framesTo hs₃ hnot]
  have hsofar : s₂.framesTo agent = step.before.framesTo agent :=
    (framesTo_of_wire hstill.wire agent).trans (hfirst.framesTo hs hbefore)
  have hmoves : Moves now (.pump agent :: m) s₂ step.after := .cons hmove hlast.moves
  obtain ⟨-, ended, ht⟩ := hmoves.transfer hs₂
  have hestimator := hmoves.estimator fun target ht => by
    obtain ⟨other, ho⟩ := hpumps _ ht
    cases ho
  have hset := hs₂.settled agent
  cases hmove with
  | @pump _ _ b p hb hrun =>
    rw [← queueOf_of_backlogOf hb] at hrun
    refine .moved s₂ p now htime hpump hcalm hwithdraw hset ht.settings.symm hestimator.symm hrun
      ?_ ?_
    · rw [hqueue, queueOf_pumped hb]
    · rw [framesTo_pumped, hsofar, filter_isTo_of_destination (destination_of_run hset hrun),
        if_pos rfl] at hsent
      exact List.append_cancel_left hsent
  | idle hb =>
    have hq := queueOf_of_backlogOf_eq_none hb
    refine .moved s₂ (s₂.firstPass (s₂.queueOf agent) now) now htime hpump hcalm hwithdraw hset
      ht.settings.symm hestimator.symm ?_ ?_ ?_
    · rw [hq]
      rfl
    · rw [hqueue, hq]
      rfl
    · rw [hsofar] at hsent
      exact List.append_right_eq_self.1 hsent

/-- What a step does for an agent. -/
theorem perform_visit {step : Step τ} (hs : step.before.Sound)
    (h : perform step.operation step.before = .ok step.response step.after) (agent : AgentId) :
    Visit step agent := by
  by_cases hm : .pump agent ∈ step.actions
  · obtain ⟨l, m, hl⟩ := List.append_of_mem hm
    have hordered : Ordered step.actions :=
      ordered_actions step.before step.operation step.response
    obtain ⟨hbefore, hafter⟩ := (hl ▸ hordered).around
    have ha : step.operation.airs = false := by
      unfold Step.actions at hm
      cases ho : step.operation with
      | broadcast | correction =>
        rw [ho] at hm
        cases hm
      | _ => rfl
    refine visit_of_split hs hm hl hbefore hafter (perform_course h ha) ?_
    have hlog : step.after.log = step.before.log ++ step.effects := log_of_perform hs h
    unfold framesTo Step.sendsTo wire
    rw [hlog, sendings_append, List.filter_append, filter_isTo_unicasts]
  · refine .unmoved hm ((perform_moves h).calm hm) ?_
    -- every frame for an agent is of a request of an agent that is moved
    obtain ⟨l, hl⟩ := perform_accounts hs h
    have hl : Accounts step l := hl
    unfold Step.sendsTo
    rw [hl.posts.handed.1]
    refine List.filter_eq_nil_iff.2 (List.forall_mem_map.2 fun x hx hto => hm ?_)
    have hd : x.sending.1.destination = .agent agent := eq_of_beq hto
    have hx' : x.sending.1.destination = .agent x.request.agent :=
      (hl.posts.framed x hx).destination
    obtain rfl := Destination.agent.inj (hd.symm.trans hx')
    exact mem_pumped.1 (hl.senders x hx)

end Operations

end Station

/-! ### Timeouts and flights -/

namespace Step

variable {τ : Type}

/-- Whether a step times out the request of an agent in flight: the agent is pumped, and the request
is overdue and was neither answered nor withdrawn. -/
def timesOut (step : Step τ) (agent : AgentId) : Bool :=
  decide (.pump agent ∈ step.actions) && !step.resets agent &&
    (step.before.queueOf agent).expires (step.operation.time?.getD 0)

/-- A request can be handed to the link in a step: it has waited, or is taken in or timed out. -/
def Ready (step : Step τ) (agent : AgentId) (x : Ident × Nat) : Prop :=
  x ∈ (step.before.queueOf agent).waiting.map Request.tried ∨
    x.1 ∈ step.actions.flatMap Station.Action.fresh ∨
      ∃ r, (step.before.queueOf agent).inFlight = some r ∧ r.tried = x ∧ step.timesOut agent = true

/-- A step hands a request of an agent to the link, which then waits for its reply: it does so with
the last frame for the agent, and sets the deadline. -/
structure Launches (step : Step τ) (agent : AgentId) (q : Request) : Prop where
  flight : (step.after.queueOf agent).inFlight = some q
  unmarked : q.cancelRequested = false
  ready : ∃ n, q.attempts = n + 1 ∧ step.Ready agent (q.ident, n)
  frame : ∃ frames f, step.sendsTo agent = frames ++ [(f, .ok ())] ∧
    (∀ f ∈ frames, Sending.isAwaited f = false) ∧ f.Carries step.after.id q ∧ f.key.isSome = true
  deadline : ∃ now base d, step.operation.time? = some now ∧ q.sentAt = some now ∧
    step.after.estimator.timeout q.trafficClass = .ok base ∧
      d = backoff base (step.after.queueOf agent).timeouts step.after.settings.maxTimeout ∧
        q.deadline = some (now + d) ∧ now + d < Instant.horizon

end Step

namespace Station

variable {τ : Type} [Carrier τ] {step : Step τ} {agent : AgentId}

omit [Carrier τ] in
/-- Whether the request in flight is overdue when it comes to the pump. -/
theorem expires_of_calm {b : Backlog} {now : Instant} (htime : step.operation.time? = some now)
    (hpump : .pump agent ∈ step.actions)
    (hflight : b.inFlight =
      if step.resets agent then none else (step.before.queueOf agent).inFlight) :
    b.expires now = step.timesOut agent := by
  unfold Step.timesOut Backlog.expires
  rw [decide_eq_true hpump, htime, hflight]
  cases step.resets agent <;> rfl

/-- The timeouts of an agent after a step. -/
theorem Visit.timeouts (h : Visit step agent) :
    (step.after.queueOf agent).timeouts =
      if step.resets agent then 0
      else if step.timesOut agent then
        min ((step.before.queueOf agent).timeouts + 1) Backlog.maxTimeouts
      else (step.before.queueOf agent).timeouts := by
  cases h with
  | unmoved hpump hcalm =>
    have ht : step.timesOut agent = false := by
      unfold Step.timesOut
      rw [decide_eq_false hpump]
      rfl
    rw [ht]
    exact hcalm.timeouts
  | moved s p now htime hpump hcalm hwithdraw hset hsettings hestimator hrun hqueue =>
    have hlands := (Pass.lands_rounds (sound_firstPass (s := s) hset now).1 hrun).2
    have hreview : (s.firstPass (s.queueOf agent) now).backlog.timeouts = _ :=
      Backlog.review_timeouts hset now
    have ht : (s.queueOf agent).timeouts =
      if step.resets agent then 0 else (step.before.queueOf agent).timeouts := hcalm.timeouts
    rw [hqueue, hlands, hreview, expires_of_calm htime hpump (hcalm.unmarked hwithdraw), ht]
    cases hr : step.resets agent with
    | true =>
      have hn : step.timesOut agent = false := by
        unfold Step.timesOut
        rw [hr, Bool.not_true, Bool.and_false, Bool.false_and]
      rw [hn]
      rfl
    | false => rfl

omit [Carrier τ] in
/-- Whatever waits when it comes to the rounds of a pump is ready. -/
theorem ready_of_review {b : Backlog} {now : Instant} (htime : step.operation.time? = some now)
    (hpump : .pump agent ∈ step.actions) (hset : b.Settled)
    (hcalm : Calm agent step.actions (step.before.queueOf agent) b)
    (hwithdraw : ∀ request, .withdraw request ∉ step.actions) {r : Request}
    (hr : r ∈ (b.review now).2.waiting) : step.Ready agent r.tried := by
  have hunmarked : b.inFlight =
    if step.resets agent then none else (step.before.queueOf agent).inFlight :=
      hcalm.unmarked hwithdraw
  rcases Backlog.tried_of_review hset hr with hw | ⟨q, hq, he, hi⟩
  · exact (hcalm.waiting _ hw).imp_right .inl
  · rw [expires_of_calm htime hpump hunmarked] at he
    rw [hq] at hunmarked
    split at hunmarked
    · cases hunmarked
    · exact .inr (.inr ⟨q, hunmarked.symm, hi, he⟩)

/-- What waits after a step was ready in it, and is not tried less. -/
theorem Visit.waiting (h : Visit step agent) : ∀ w ∈ (step.after.queueOf agent).waiting,
    ∃ n ≤ w.attempts, step.Ready agent (w.ident, n) := by
  intro w hw
  cases h with
  | unmoved hpump hcalm =>
    exact ⟨_, Nat.le_refl _, (hcalm.waiting w.tried (List.mem_map_of_mem hw)).imp_right .inl⟩
  | moved s p now htime hpump hcalm hwithdraw hset hsettings hestimator hrun hqueue =>
    rw [hqueue] at hw
    obtain ⟨r, hr, hi, hn⟩ :=
      Pass.waiting_rounds (sound_firstPass (s := s) hset now).1 hrun w hw
    exact ⟨_, hn, hi ▸ ready_of_review htime hpump hset hcalm hwithdraw hr⟩

/-- Where the request in flight after a step comes from: the step handed it to the link, or it was
in flight before and is not given up. -/
theorem Visit.flight (h : Visit step agent) (hs : step.after.Sound) :
    (∃ q, step.Launches agent q) ∨
      (∀ f ∈ step.sendsTo agent, Sending.isAwaited f = false) ∧
        ∀ q, (step.after.queueOf agent).inFlight = some q →
          ∃ r, (step.before.queueOf agent).inFlight = some r ∧ r.unmarked = q.unmarked ∧
            step.resets agent = false ∧ step.timesOut agent = false := by
  cases h with
  | unmoved hpump hcalm hframes =>
    refine .inr ⟨?_, fun q hq => ?_⟩
    · rw [hframes]
      exact List.forall_mem_nil _
    · obtain ⟨r, hr, hu, hn⟩ := hcalm.exists_flight hq
      refine ⟨r, hr, hu, hn, ?_⟩
      unfold Step.timesOut
      rw [decide_eq_false hpump]
      rfl
  | moved s p now htime hpump hcalm hwithdraw hset hsettings hestimator hrun hqueue hframes =>
    have hexpires := expires_of_calm htime hpump (hcalm.unmarked hwithdraw)
    obtain ⟨hlands, ht⟩ := Pass.lands_rounds (sound_firstPass (s := s) hset now).1 hrun
    have hsent : ∀ {l : List Sending}, p.frames = (s.firstPass (s.queueOf agent) now).frames ++ l →
        step.sendsTo agent = l := fun hl => hframes.trans hl
    cases hlands with
    | grounded frames hq hunawaited hflight =>
      refine .inr ⟨by rw [hsent hq]; exact hunawaited, fun q hfl => ?_⟩
      have hreview : (s.firstPass (s.queueOf agent) now).backlog.inFlight = _ :=
        Backlog.review_inFlight hset now
      rw [hqueue, hflight, hreview, hexpires] at hfl
      split at hfl
      · cases hfl
      · rename_i hn
        have hkept := (Option.filter_eq_some_iff.1 hfl).1
        obtain ⟨r, hr, hu, hreset⟩ := hcalm.exists_flight hkept
        exact ⟨r, hr, hu, hreset, Bool.eq_false_iff.2 hn⟩
    | flying frames r base deadline hq hunawaited hidle hr hreply hbase hdeadline hhorizon
        hflight =>
      have hunmarked : r.cancelRequested = false := Backlog.unmarked_of_review hset hr
      refine .inl ⟨r.transmitted now deadline, hqueue ▸ hflight, hunmarked,
        ⟨r.attempts, rfl, ?_⟩, ?_, ?_⟩
      · exact ready_of_review htime hpump hset hcalm hwithdraw hr
      · rw [List.append_assoc] at hq
        have hagent : (r.transmitted now deadline).agent = agent :=
          hs.placed agent (r.transmitted now deadline).ident (List.mem_map_of_mem
            (Backlog.mem_requests.2 (.inl (hqueue ▸ hflight))))
        have hid : s.id = step.after.id := congrArg NetworkSettings.id hsettings
        refine ⟨frames, _, hsent hq, hunawaited, ⟨hid, ?_, rfl, rfl⟩, hreply⟩
        rw [hagent]
        rfl
      · have hcap : s.settings.maxTimeout = step.after.settings.maxTimeout :=
          congrArg NetworkSettings.maxTimeout hsettings
        refine ⟨now, base, _, htime, rfl, hestimator ▸ hbase, rfl, ?_, ?_⟩
        · rw [hqueue, ht, ← hcap]
          exact congrArg some hdeadline
        · rw [hqueue, ht, ← hcap]
          exact hdeadline ▸ hhorizon

end Station

end GroundControl
