import GroundControl.Proofs.Station.Completion
import GroundControl.Proofs.Station.Traffic

/-!
# A withdrawal is final

A request that was withdrawn is left as it is, and never handed to the link again, until its agent
is pumped, its reply comes in, or its agent is removed.  Then it ends as withdrawn, whatever the
reply says, or as a request whose agent is gone.

* `Backlog.mem_withdraw`, and what each operation of a backlog makes of a withdrawn request;
* `Action.Touches`, an action that ends a withdrawn request, and `Action.closing`, its end;
* `Held`, a withdrawn request that is pending: `Move.held` and `Move.closes`, for one move, and
  `Moves.withdrawn`, for all of them;
* `Step.Touches`, `Step.outcome`; `Withdrawn`, with `withdrawn_of_run` and `touched_of_pass`, what
  becomes of it in a run;
* `FinallyWithdrawn`, and `cancellation_final`, for every run from the beginning.
-/

namespace GroundControl

namespace Backlog

variable {b b' : Backlog} {q : Request}

/-- Withdrawing a pending request marks it. -/
theorem mem_withdraw {id : RequestId} (h : (b.withdraw id).1 = true) :
    ∃ r ∈ b.requests, r.id = id ∧
      ({ r with cancelRequested := true } : Request) ∈ (b.withdraw id).2.requests := by
  have hmark : ∀ l : List Request, (l.any fun r => decide (r.id = id)) = true →
      ∃ r ∈ l, r.id = id ∧
        ({ r with cancelRequested := true } : Request) ∈ markCancelled id l := by
    intro l hl
    induction l with
    | nil => cases hl
    | cons r rest ih =>
      unfold markCancelled
      by_cases hr : r.id = id
      · rw [if_pos hr]
        exact ⟨r, List.mem_cons_self, hr, List.mem_cons_self⟩
      · rw [List.any_cons, decide_eq_false hr, Bool.false_or] at hl
        obtain ⟨q, hq, hid, hm⟩ := ih hl
        rw [if_neg hr]
        exact ⟨q, List.mem_cons_of_mem r hq, hid, List.mem_cons_of_mem r hm⟩
  unfold withdraw at h ⊢
  cases hf : b.inFlight.filter fun r => r.id = id with
  | some r =>
    obtain ⟨hr, hid⟩ := Option.filter_eq_some_iff.1 hf
    exact ⟨r, mem_requests.2 (.inl hr), of_decide_eq_true hid, mem_requests.2 (.inl rfl)⟩
  | none =>
    rw [hf] at h
    obtain ⟨r, hr, hid, hm⟩ := hmark b.waiting h
    exact ⟨r, mem_requests.2 (.inr hr), hid, mem_requests.2 (.inr hm)⟩

/-- A withdrawn request stays as it is if requests are withdrawn. -/
theorem withdrawn_withdraw (hq : q ∈ b.requests) (hc : q.cancelRequested = true)
    (id : RequestId) : q ∈ (b.withdraw id).2.requests ∧
      (b.withdraw id).2.inFlight.map Request.ident = b.inFlight.map Request.ident := by
  have hself : ({ q with cancelRequested := true } : Request) = q := by rw [← hc]
  have hmark : ∀ l : List Request, q ∈ l → q ∈ markCancelled id l := by
    intro l hl
    induction l with
    | nil => cases hl
    | cons r rest ih =>
      unfold markCancelled
      rcases List.mem_cons.1 hl with rfl | hm
      · split
        · rw [hself]
          exact List.mem_cons_self
        · exact List.mem_cons_self
      · split
        · exact List.mem_cons_of_mem _ hm
        · exact List.mem_cons_of_mem _ (ih hm)
  unfold withdraw
  cases hf : b.inFlight.filter fun r => r.id = id with
  | some r =>
    have hr := (Option.filter_eq_some_iff.1 hf).1
    refine ⟨?_, by rw [hr]; rfl⟩
    rcases mem_requests.1 hq with h | h
    · obtain rfl := Option.some.inj (hr.symm.trans h)
      exact mem_requests.2 (.inl (by rw [← hself]))
    · exact mem_requests.2 (.inr h)
  | none =>
    refine ⟨?_, rfl⟩
    rcases mem_requests.1 hq with h | h
    · exact mem_requests.2 (.inl h)
    · exact mem_requests.2 (.inr (hmark b.waiting h))

/-- A withdrawn request ends with the next review. -/
theorem withdrawn_review (hb : b.Settled) (hq : q ∈ b.requests) (hc : q.cancelRequested = true)
    (now : Instant) : q.endCancelled ∈ (b.review now).1 := by
  have hm : q.endCancelled ∈ b.withdrawn.map Request.endCancelled :=
    List.mem_map_of_mem (List.mem_filter.2 ⟨hq, hc⟩)
  rcases review_cases hb now with ⟨-, hr⟩ | ⟨r, -, -, hr⟩
  · rw [hr]
    exact hm
  · rw [hr]
    exact List.mem_append_left _ hm

/-- A reply to a withdrawn request ends it as withdrawn, whatever it says. -/
theorem withdrawn_answer {key : ReplyKey} {verdict : Verdict} {now : Instant} {found : Match}
    (ha : b.answer key verdict now = (some found, b')) (hq : b.inFlight = some q)
    (hc : q.cancelRequested = true) : found.finished = q.endCancelled := by
  cases hf : b.inFlight.filter (·.awaits key) with
  | none =>
    unfold answer at ha
    rw [hf] at ha
    cases ha
  | some r =>
    obtain ⟨hr, hk⟩ := Option.filter_eq_some_iff.1 hf
    obtain rfl := Option.some.inj (hr.symm.trans hq)
    rw [answer_eq hr hk, if_pos hc] at ha
    cases ha
    rfl

end Backlog

namespace Station

variable {τ : Type} {s s' : Station τ} {x : Handle} {q : Request}

/-! ### Actions -/

/-- An action ends a request if it was withdrawn: its agent is pumped or removed, or its reply comes
in. -/
def Action.Touches (s : Station τ) (x : Handle) : Action → Prop
  | .pump agent | .remove agent => agent = x.agent
  | .answer agent => agent = x.agent ∧ (s.queueOf agent).inFlight.map Request.ident = some x.ident
  | .enter _ | .withdraw _ => False

/-- How an action ends a withdrawn request. -/
def Action.closing (q : Request) : Action → Finished
  | .remove _ => q.endGone
  | _ => q.endCancelled

theorem ident_closing (q : Request) (a : Action) : (a.closing q).ident = q.ident := by
  cases a <;> rfl

/-- A withdrawn request is pending. -/
structure Held (s : Station τ) (x : Handle) (q : Request) : Prop where
  mem : q ∈ (s.queueOf x.agent).requests
  ident : q.ident = x.ident
  cancelled : q.cancelRequested = true

theorem Held.pending (h : Held s x q) : x.ident ∈ s.idents := by
  have hm : q.ident ∈ (s.queueOf x.agent).idents := List.mem_map_of_mem h.mem
  exact mem_idents_of_queueOf (h.ident ▸ hm)

/-- Whether an action ends a withdrawn request does not depend on what leaves the request alone. -/
theorem touches_iff (h : (s'.queueOf x.agent).inFlight.map Request.ident = some x.ident ↔
    (s.queueOf x.agent).inFlight.map Request.ident = some x.ident) (a : Action) :
    a.Touches s' x ↔ a.Touches s x := by
  cases a with
  | answer agent =>
    refine and_congr_right fun he => ?_
    rw [he]
    exact h
  | enter | pump | withdraw | remove => exact .rfl

section Moves

variable [Carrier τ] {now : Instant}

/-- What does not end a withdrawn request leaves it as it is. -/
theorem Move.held {a : Action} (h : Move now a s s') (hq : Held s x q)
    (ha : ¬ a.Touches s x) : Held s' x q ∧
      ((s'.queueOf x.agent).inFlight.map Request.ident = some x.ident ↔
        (s.queueOf x.agent).inFlight.map Request.ident = some x.ident) := by
  suffices q ∈ (s'.queueOf x.agent).requests ∧
      ((s'.queueOf x.agent).inFlight.map Request.ident = some x.ident ↔
        (s.queueOf x.agent).inFlight.map Request.ident = some x.ident) from
    ⟨⟨this.1, hq.ident, hq.cancelled⟩, this.2⟩
  have hm := hq.mem
  have hc := h.change x.agent
  generalize s'.queueOf x.agent = b at hc ⊢
  cases hc with
  | same => exact ⟨hm, .rfl⟩
  | @enter r b id payload urgency maxAttempts hr hb =>
    refine ⟨(Backlog.requests_submit_perm hb).mem_iff.2 (List.mem_cons_of_mem r hm), ?_⟩
    rw [(Backlog.submit_eq_some_iff.1 hb).2]
  | @answer key verdict found b hans =>
    -- another request was answered, so this one is not in flight before or after
    obtain ⟨rfl, -⟩ := Backlog.backlog_of_answer hans
    have hne : (s.queueOf x.agent).inFlight.map Request.ident ≠ some x.ident := fun he =>
      ha ⟨rfl, he⟩
    refine ⟨?_, iff_of_false nofun hne⟩
    rcases Backlog.mem_requests.1 hm with hf | hw
    · rw [hf] at hne
      exact absurd (congrArg some hq.ident) hne
    · exact Backlog.mem_requests.2 (.inr hw)
  | pump => exact absurd rfl ha
  | @withdraw request =>
    obtain ⟨hmem, hf⟩ := Backlog.withdrawn_withdraw hm hq.cancelled request
    exact ⟨hmem, by rw [hf]⟩
  | remove => exact absurd rfl ha

/-- What touches a withdrawn request ends it. -/
theorem Move.closes {a : Action} (h : Move now a s s') (hs : s.Sound) (hn : s.Numbered)
    (hq : Held s x q) (ha : a.Touches s x) :
    ∃ ended, Transfer s a.fresh ended s' ∧ a.closing q ∈ ended := by
  have hm := hq.mem
  cases h with
  | enter => exact ha.elim
  | @answer _ agent key verdict b b' found estimator hb hans =>
    obtain ⟨rfl, hflight⟩ := ha
    obtain ⟨r, hr, hi⟩ := Option.map_eq_some_iff.1 hflight
    -- two requests of one backlog with one ticket are the same
    have hsame : r = q := by
      have hnodup := hn.queue x.agent
      unfold Backlog.idents at hnodup
      rw [List.map_map] at hnodup
      refine List.inj_on_of_nodup_map hnodup (Backlog.mem_requests.2 (.inl hr)) hm ?_
      exact congrArg Ident.ticket (hi.trans hq.ident.symm)
    rw [queueOf_of_backlogOf hb] at hr
    have hf := Backlog.withdrawn_answer hans (hsame ▸ hr) hq.cancelled
    exact ⟨_, (transfer_answered hs estimator hb hans).2, List.mem_singleton.2 hf.symm⟩
  | @pump _ agent b p hb hp =>
    obtain rfl : agent = x.agent := ha
    refine ⟨_, (transfer_pumped hs hb hp).2, ?_⟩
    have hset : b.Settled := queueOf_of_backlogOf hb ▸ hs.settled x.agent
    obtain ⟨sent, hships⟩ := Pass.ships_rounds (sound_firstPass (s := s) hset now).1 rfl
      (Nat.le_refl _) hp
    obtain ⟨ended, gone, hended, -⟩ := hships.turnover
    rw [hended]
    rw [queueOf_of_backlogOf hb] at hm
    exact List.mem_append_left _ (Backlog.withdrawn_review hset hm hq.cancelled now)
  | @idle _ agent hb =>
    obtain rfl : agent = x.agent := ha
    rw [queueOf_of_backlogOf_eq_none hb] at hm
    cases hm
  | withdraw | gone => exact ha.elim
  | @remove _ agent a hg =>
    obtain rfl : agent = x.agent := ha
    refine ⟨_, (transfer_removed hs now hg).2, ?_⟩
    have hset := hs.settled x.agent
    rw [queueOf_of_get? hg] at hm hset
    unfold dissolved
    cases hb : a.backlog with
    | none =>
      rw [hb] at hm
      cases hm
    | some b =>
      rw [hb, Option.getD_some] at hm hset
      dsimp only
      rw [Backlog.dissolve_eq hset]
      exact List.mem_map_of_mem hm
  | @unknown _ agent hg =>
    obtain rfl : agent = x.agent := ha
    rw [queueOf_of_get?_eq_none hg] at hm
    cases hm

/-- A withdrawn request is left as it is, or it is ended. -/
theorem Moves.withdrawn {l : List Action} (h : Moves now l s s') (hs : s.Sound) (hn : s.Numbered)
    (hq : Held s x q) :
    ∃ ended, Transfer s (l.flatMap Action.fresh) ended s' ∧
      ((∀ a ∈ l, ¬ a.Touches s x) ∧ Held s' x q ∨
        ∃ a ∈ l, a.Touches s x ∧ a.closing q ∈ ended) := by
  induction h with
  | nil => exact ⟨[], .of_quiet (.refl _), .inl ⟨List.forall_mem_nil _, hq⟩⟩
  | @quiet l s s₁ s' hquiet _ ih =>
    have hqueue := hquiet.queue x.agent
    have ht := Transfer.of_quiet hquiet
    obtain ⟨ended, ht', hcase⟩ := ih (hs.of_queueOf hquiet.queue) (ht.keeps_numbered hn)
      ⟨hqueue ▸ hq.mem, hq.ident, hq.cancelled⟩
    have htouches : ∀ a : Action, a.Touches s₁ x ↔ a.Touches s x := touches_iff (by rw [hqueue])
    simp only [htouches] at hcase
    exact ⟨ended, ht.trans ht', hcase⟩
  | @cons a l s s₁ s' hmove hrest ih =>
    by_cases ha : a.Touches s x
    · obtain ⟨ended, ht, hm⟩ := hmove.closes hs hn hq ha
      obtain ⟨-, ended', ht'⟩ := hrest.transfer (hmove.transfer hs).1
      exact ⟨ended ++ ended', ht.trans ht',
        .inr ⟨a, List.mem_cons_self, ha, List.mem_append_left _ hm⟩⟩
    · obtain ⟨hs₁, ended, ht⟩ := hmove.transfer hs
      obtain ⟨hq₁, hflight⟩ := hmove.held hq ha
      obtain ⟨ended', ht', hcase⟩ := ih hs₁ (ht.keeps_numbered hn) hq₁
      simp only [touches_iff hflight] at hcase
      refine ⟨ended ++ ended', ht.trans ht', ?_⟩
      rcases hcase with ⟨hnone, hq'⟩ | ⟨b, hb, htouch, hm⟩
      · exact .inl ⟨List.forall_mem_cons.2 ⟨ha, hnone⟩, hq'⟩
      · exact .inr ⟨b, List.mem_cons_of_mem a hb, htouch, List.mem_append_right _ hm⟩

end Moves

end Station

/-! ### Steps -/

namespace Step

variable {τ : Type}

/-- A step ends a request if it was withdrawn. -/
def Touches (step : Step τ) (x : Handle) : Prop := ∃ a ∈ step.actions, a.Touches step.before x

/-- How a withdrawn request with `n` attempts ends in a step that touches it. -/
def outcome (step : Step τ) (x : Handle) (n : Nat) : Outcome :=
  .failure (if .remove x.agent ∈ step.actions then .agentGone else .cancelled) n none

end Step

namespace Station

variable {τ : Type} {s s' last : Station τ} {x : Handle} {q : Request}

/-- An operation that removes an agent does nothing else to requests. -/
theorem remove_of_mem_actions {operation : Operation} {response : Result} {agent : AgentId}
    (h : .remove agent ∈ s.actions operation response) :
    ∀ a ∈ s.actions operation response, ∃ other, a = .remove other := by
  obtain ⟨now, rfl | ⟨walk, rfl⟩⟩ := origin_of_mem_actions _ h
  · exact List.forall_mem_singleton.2 ⟨_, rfl⟩
  · exact List.forall_mem_map.2 fun other _ => ⟨other.1, rfl⟩

theorem outcome_closing {step : Step τ} {a : Action} (ha : a ∈ step.actions)
    (ht : a.Touches step.before x) : (a.closing q).outcome = step.outcome x q.attempts := by
  unfold Step.outcome
  split
  · rename_i hr
    obtain ⟨other, rfl⟩ := remove_of_mem_actions hr a ha
    rfl
  · rename_i hr
    cases a with
    | remove other =>
      obtain rfl : other = x.agent := ht
      exact absurd ha hr
    | enter | answer | pump | withdraw => rfl

/-- A pass over all agents ends every withdrawn request. -/
theorem Held.touches_of_pass {step : Step τ} {walk : Walk} {now : Instant}
    (h : Held step.before x q)
    (ho : step.operation = .pumpAll walk now ∨ step.operation = .tick walk now) :
    step.Touches x := by
  refine ⟨.pump x.agent, ?_, rfl⟩
  have hm : x.agent ∈ step.before.busyAgents := by
    rw [mem_busyAgents, ← Backlog.length_requests]
    exact Nat.ne_of_gt (List.length_pos_of_mem h.mem)
  unfold Step.actions
  rcases ho with ho | ho <;>
  · rw [ho]
    exact List.mem_map_of_mem hm

/-- What becomes of a withdrawn request with `n` attempts: nothing happens to it, or the first step
that touches it ends it. -/
inductive Withdrawn (steps : List (Step τ)) (s : Station τ) (x : Handle) (n : Nat) : Prop
  | pending {q : Request} (hq : Held s x q) (hn : q.attempts = n)
      (hheld : s.holders x.request = [x.agent])
      (huntouched : ∀ step ∈ steps, ¬ step.Touches x)
      (huntold : ∀ step ∈ steps, step.told x = ([], []))
  | ended (pre : List (Step τ)) (ending : Step τ) (post : List (Step τ))
      (hsteps : steps = pre ++ ending :: post)
      (huntouched : ∀ step ∈ pre, ¬ step.Touches x) (htouches : ending.Touches x)
      (hreleased : ending.after.holders x.request = [])
      (htold : ending.told x = ([ending.outcome x n],
        [.finished s.id x.agent x.request (ending.outcome x n).phase (ending.outcome x n)]))
      (huntold : ∀ step ∈ pre ++ post, step.told x = ([], []))

theorem Withdrawn.cons {step : Step τ} {steps : List (Step τ)} {n : Nat}
    (h : Withdrawn steps last x n) (hx : ¬ step.Touches x) (hu : step.told x = ([], [])) :
    Withdrawn (step :: steps) last x n := by
  cases h with
  | pending hq hn hheld huntouched huntold =>
    exact .pending hq hn hheld (List.forall_mem_cons.2 ⟨hx, huntouched⟩)
      (List.forall_mem_cons.2 ⟨hu, huntold⟩)
  | ended pre ending post hsteps huntouched htouches hreleased htold huntold =>
    subst hsteps
    exact .ended (step :: pre) ending post rfl (List.forall_mem_cons.2 ⟨hx, huntouched⟩) htouches
      hreleased htold (List.forall_mem_cons.2 ⟨hu, huntold⟩)

theorem submitted_sublist {l m : List (Step τ)} (h : l.Sublist m) :
    (submitted (l.map Step.operation)).Sublist (submitted (m.map Step.operation)) :=
  (h.map Step.operation).filterMap _

section Run

variable [Carrier τ]

/-- What becomes of a withdrawn request in a run. -/
theorem withdrawn_of_run {operations : List Operation} {steps : List (Step τ)} (hs : s.Sound)
    (hd : Distinct s (submitted operations)) (hq : Held s x q)
    (h : run operations s = .ok (steps, last)) : Withdrawn steps last x q.attempts := by
  induction operations generalizing s steps with
  | nil =>
    cases h
    exact .pending hq rfl (holders_of_mem hs hd hq.pending) (List.forall_mem_nil _)
      (List.forall_mem_nil _)
  | cons operation rest ih =>
    obtain ⟨response, after, others, hp, hr, rfl⟩ := run_cons_eq_ok.1 h
    have hs₁ := (perform_transfer hs hp).1
    obtain ⟨ended, ht, hcase⟩ := (perform_moves hp).withdrawn hs hd.numbered hq
    rw [fresh_actions operation hp] at ht
    have hdiv := ht.divided (hd.sublist (fresh_sublist hp rest))
    rcases hcase with ⟨hnone, hq₁⟩ | ⟨a, ha, htouch, hm⟩
    · have hu := told_of_forall_ne ⟨s, operation, response, after⟩ ht
        (hdiv.ne_of_mem hq₁.pending)
      refine (ih hs₁ hdiv.distinct hq₁ hr).cons ?_ hu
      rintro ⟨a, ha, htouch⟩
      exact hnone a ha htouch
    · -- it ends here, and nothing is told of it any more
      have hi : (a.closing q).ident = x.ident := (ident_closing q a).trans hq.ident
      have haway := hdiv.away (x := x) (hi ▸ List.mem_map_of_mem hm)
      have htold := told_of_mem ⟨s, operation, response, after⟩ ht hdiv hm hi
      obtain ⟨-, _, htrest⟩ := run_transfer hs₁ hr
      have hid : last.id = s.id :=
        congrArg NetworkSettings.id (htrest.settings.trans ht.settings)
      have houtcome : (a.closing q).outcome =
          (⟨s, operation, response, after⟩ : Step τ).outcome x q.attempts :=
        outcome_closing ha htouch
      rw [houtcome, ← hid] at htold
      exact .ended [] _ others rfl (List.forall_mem_nil _) ⟨a, ha, htouch⟩
        (holders_of_not_mem hs₁ fun hm => haway.request (List.mem_append_left _ hm)) htold
        (untold_of_away hs₁ haway hr).1

/-- A pass over all agents ends a withdrawn request, unless it has ended before. -/
theorem touched_of_pass {operations : List Operation} {steps : List (Step τ)} (hs : s.Sound)
    (hd : Distinct s (submitted operations)) (hq : Held s x q)
    (h : run operations s = .ok (steps, last)) {step : Step τ} (hm : step ∈ steps)
    {walk : Walk} {now : Instant}
    (ho : step.operation = .pumpAll walk now ∨ step.operation = .tick walk now) :
    ∃ ending ∈ steps, ending.Touches x := by
  obtain ⟨pre, post, rfl⟩ := List.append_of_mem hm
  obtain ⟨hpre, -, -⟩ := run_split h
  have hsub : (submitted (pre.map Step.operation)).Sublist (submitted operations) := by
    rw [← operations_of_run h]
    exact submitted_sublist (List.sublist_append_left pre (step :: post))
  cases withdrawn_of_run hs (hd.sublist hsub) hq hpre with
  | pending hq' => exact ⟨step, hm, hq'.touches_of_pass ho⟩
  | ended earlier ending rest hsteps huntouched htouches =>
    subst hsteps
    exact ⟨ending, List.mem_append_left _ (List.mem_append_right _ List.mem_cons_self), htouches⟩

/-- A request that can be withdrawn was taken in before, and is pending. -/
theorem held_of_cancel {operations : List Operation} {settings : NetworkSettings} {carrier : τ}
    {start : Instant} {steps : List (Step τ)} {id : RequestId}
    (h : run operations (new settings carrier start) = .ok (steps, s))
    (hc : cancel id s = (true, s')) : ∃ x ∈ accepted steps, x.request = id ∧ ∃ q, Held s' x q := by
  obtain ⟨hs, ended, ht⟩ := run_transfer (sound_new settings carrier start) h
  unfold cancel at hc
  cases hp : s.pending.get? id with
  | none =>
    rw [hp] at hc
    cases hc
  | some agent =>
    rw [hp] at hc
    dsimp only at hc
    cases hb : s.backlogOf agent with
    | none =>
      rw [hb] at hc
      cases hc
    | some b =>
      rw [hb] at hc
      obtain ⟨hfound, rfl⟩ := Prod.mk.inj hc
      obtain ⟨r, hr, rfl, hm⟩ := Backlog.mem_withdraw hfound
      have hq := queueOf_of_backlogOf hb
      have hi : r.ident ∈ (s.queueOf agent).idents := hq ▸ List.mem_map_of_mem hr
      -- whatever is pending was taken in
      have hfresh : r.ident ∈ (accepted steps).map Handle.ident :=
        ht.balance.mem_iff.2 (List.mem_append_right _ (mem_idents_of_queueOf hi))
      obtain ⟨x, hx, he⟩ := List.mem_map.1 hfresh
      have ha : x.agent = agent := (congrArg Ident.agent he).trans (hs.placed agent _ hi)
      obtain ⟨a, hg⟩ := exists_of_backlogOf hb
      refine ⟨x, hx, congrArg Ident.request he, { r with cancelRequested := true }, ?_, he.symm,
        rfl⟩
      rw [ha, queueOf_setBacklog hg, if_pos rfl]
      exact hm

omit [Carrier τ] in
theorem mem_outcomes_of_told {step : Step τ} {o : Outcome} {events : List Event}
    (h : step.told x = ([o], events)) : (x.ticket, o) ∈ outcomes step.effects := by
  have hf : ((outcomes step.effects).filter fun o => o.1 = x.ticket).map (·.2) = [o] :=
    congrArg Prod.fst h
  have hm : o ∈ ((outcomes step.effects).filter fun o => o.1 = x.ticket).map (·.2) := by
    rw [hf]
    exact List.mem_singleton_self o
  obtain ⟨p, hp, rfl⟩ := List.mem_map.1 hm
  obtain ⟨hp, ht⟩ := List.mem_filter.1 hp
  exact of_decide_eq_true ht ▸ hp

/-- No further attempt is made at a withdrawn request. -/
theorem Withdrawn.attemptsOf {operations : List Operation} {steps : List (Step τ)} {l : Ledger}
    {n : Nat} (hw : Withdrawn steps last x n) (hs : s.Sound)
    (h : run operations s = .ok (steps, last)) (hb : Balanced l last) :
    last.attemptsOf x.ticket = n := by
  cases hw with
  | @pending q hq hn =>
    have ht : q.ticket = x.ticket := congrArg Ident.ticket hq.ident
    rw [← hn, ← ht]
    exact hb.attemptsOf_of_mem (List.mem_append_right _ (mem_requests_of_queueOf hq.mem))
  | ended pre ending post hsteps huntouched htouches hreleased htold =>
    have hm : (x.ticket, ending.outcome x n) ∈ outcomes last.log := by
      rw [log_of_run hs h, outcomes_append]
      refine List.mem_append_right _ ?_
      rw [hsteps, List.flatMap_append, List.flatMap_cons, outcomes_append, outcomes_append]
      exact List.mem_append_right _ (List.mem_append_left _ (mem_outcomes_of_told htold))
    exact hb.attemptsOf_of_told hm

/-- Nobody was told of an end of a request that is pending. -/
theorem untold_of_pending {operations : List Operation} {steps : List (Step τ)} (hs : s.Sound)
    (hd : Distinct s (submitted operations)) (h : run operations s = .ok (steps, last))
    (hx : x ∈ accepted steps) (hp : x.ident ∈ last.idents) :
    ∀ step ∈ steps, step.told x = ([], []) := by
  rcases completion_of_run hs hd h (.inr hx) with hu | hc
  · exact hu.untold
  · have hlast : Distinct last [] := distinct_of_run hs (by rwa [List.append_nil]) h
    have hh := holders_of_mem (run_transfer hs h).1 hlast hp
    exact absurd (hh.symm.trans hc.released) (List.cons_ne_nil _ _)

end Run

/-! ### Finality -/

/-- What a withdrawal comes to in a run: nobody was told of an end before, no frame of a later step
is an attempt at the request, and the request ends in the first later step that touches it, which
there is if all agents are pumped. -/
structure FinallyWithdrawn (before : List (Step τ)) (step : Step τ) (after : List (Step τ))
    (s : Station τ) (x : Handle) : Prop where
  untold : ∀ other ∈ before ++ [step], other.told x = ([], [])
  silent : ∀ pre later post, after = pre ++ later :: post →
    ∃ senders, Sends later (entered (before ++ step :: pre ++ [later])) senders ∧
      ∀ r ∈ senders, r.id ≠ x.request
  withdrawn : Withdrawn after s x (step.after.attemptsOf x.ticket)
  passed : ∀ later ∈ after, ∀ walk now,
    later.operation = .pumpAll walk now ∨ later.operation = .tick walk now →
      ∃ ending ∈ after, ending.Touches x

/-- No frame of a step is an attempt at a request with as many attempts before it as after it. -/
theorem Sends.ne_of_attemptsOf {step : Step τ} {known senders : List Request} {n : Nat}
    (h : Sends step known senders) (hb : step.before.attemptsOf x.ticket = n)
    (ha : step.after.attemptsOf x.ticket = n) : ∀ r ∈ senders, r.handle ≠ x := by
  rintro r hr rfl
  have hc := h.attempts r (h.subset r hr)
  have hpos : 0 < senders.count r := List.count_pos_iff.2 hr
  have hb : step.before.attemptsOf r.ticket = n := hb
  have ha : step.after.attemptsOf r.ticket = n := ha
  omega

section Final

variable [Carrier τ] {settings : NetworkSettings} {carrier : τ} {start : Instant}
  {operations : List Operation} {before after : List (Step τ)} {step : Step τ}

/-- The requests of the frames of a step are known by their handles. -/
theorem handle_of_sends {past : List (Step τ)}
    (h : run operations (new settings carrier start) = .ok (past ++ step :: after, last))
    {r : Request} (hr : r ∈ entered (past ++ [step])) :
    r.handle ∈ accepted (past ++ step :: after) := by
  obtain ⟨l, -, -, hhandles, -⟩ :=
    accounts_of_run (sound_new settings carrier start) (run_upto h)
  have hm : r.handle ∈ accepted (past ++ [step]) := hhandles ▸ List.mem_map_of_mem hr
  unfold accepted at hm ⊢
  rw [List.append_cons, List.filterMap_append]
  exact List.mem_append_left _ hm

/-- The requests that were taken in and those that are still to come are distinct. -/
theorem distinct_of_nodup {past later : List (Step τ)}
    (h : run operations (new settings carrier start) = .ok (past ++ later, last))
    (hids : (submitted operations).Nodup) : Distinct (new settings carrier start)
      (submitted (past.map Step.operation) ++ submitted (later.map Step.operation)) := by
  refine ⟨?_, numbered_new settings carrier start⟩
  rw [← operations_of_run h, List.map_append] at hids
  unfold submitted at hids ⊢
  rwa [List.filterMap_append] at hids

/-- No frame of a step after a withdrawal is an attempt at the withdrawn request. -/
theorem silent_of_held {past pre later : List (Step τ)} {next : Step τ} {s : Station τ}
    (h : run operations (new settings carrier start) = .ok (past ++ (pre ++ next :: later), last))
    (hids : (submitted operations).Nodup)
    (hpast : run (past.map Step.operation) (new settings carrier start) = .ok (past, s))
    (hafter : run (after.map Step.operation) s = .ok (pre ++ next :: later, last))
    (hx : x ∈ accepted past) (hq : Held s x q) :
    ∃ senders, Sends next (entered (past ++ pre ++ [next])) senders ∧
      ∀ r ∈ senders, r.id ≠ x.request := by
  have hnew : (new settings carrier start).Sound := sound_new settings carrier start
  have hs := (run_transfer hnew hpast).1
  have hd := distinct_of_run hnew (distinct_of_nodup h hids) hpast
  obtain ⟨hpre, -⟩ := run_split hafter
  rw [← List.append_assoc] at h
  -- the attempts at the request are those there were when it was withdrawn
  have hwithdrawn : ∀ {steps : List (Step τ)} {t : Station τ} {l : Ledger},
      steps.Sublist (pre ++ next :: later) →
        run (steps.map Step.operation) s = .ok (steps, t) → Balanced l t →
          t.attemptsOf x.ticket = q.attempts := by
    intro steps t l hsub ht hb
    exact (withdrawn_of_run hs (hd.sublist (submitted_sublist hsub)) hq ht).attemptsOf hs ht hb
  have hpost := run_upto hafter
  obtain ⟨l, m, hb, -, ha, -⟩ := accounts_of_step h
  obtain ⟨senders, hsends⟩ := exists_sends h
  refine ⟨senders, hsends, fun r hm he => ?_⟩
  refine hsends.ne_of_attemptsOf (x := x) (hwithdrawn ?_ hpre hb) (hwithdrawn ?_ hpost ha) r hm ?_
  · exact List.sublist_append_left _ _
  · rw [List.append_cons pre next later]
    exact List.sublist_append_left _ _
  · -- a request that was taken in is known by its number
    have hnodup := (accepted_sublist h).nodup hids
    refine List.inj_on_of_nodup_map hnodup (handle_of_sends h (hsends.subset r hm)) ?_ he
    unfold accepted
    rw [List.append_assoc, List.filterMap_append]
    exact List.mem_append_left _ hx

/-- Whatever a station was asked to do, if the numbers of the requests differ: once a request was
withdrawn, no frame of it is handed to the link any more, and it ends in the first later step in
which its agent is pumped, its reply comes in, or its agent is removed. -/
theorem cancellation_final {id : RequestId}
    (h : run operations (new settings carrier start) = .ok (before ++ step :: after, s))
    (hids : (submitted operations).Nodup) (ho : step.operation = .cancel id)
    (hr : step.response = .cancelled true) :
    ∃ x ∈ accepted before, x.request = id ∧ FinallyWithdrawn before step after s x := by
  have hnew : (new settings carrier start).Sound := sound_new settings carrier start
  obtain ⟨hbefore, hstep, hafter⟩ := run_split h
  have hupto := run_upto h
  have hc : cancel id step.before = (true, step.after) := by
    rw [ho, hr] at hstep
    obtain ⟨found, hc, hf⟩ := Act.bind_pure_eq_ok.1 hstep
    obtain rfl := Result.cancelled.inj hf
    exact Act.modifyGet_eq_ok.1 hc
  obtain ⟨x, hx, hid, q, hq⟩ := held_of_cancel hbefore hc
  have hx' : x ∈ accepted (before ++ [step]) := by
    unfold accepted
    rw [List.filterMap_append]
    exact List.mem_append_left _ hx
  have hs : step.after.Sound := (run_transfer hnew hupto).1
  obtain ⟨l, m, -, -, hb, -⟩ := accounts_of_step h
  rw [List.append_cons] at h
  have hd := distinct_of_nodup h hids
  have hlater := distinct_of_run hnew hd hupto
  refine ⟨x, hx, hid, ?_, ?_, ?_, fun later hm walk now => touched_of_pass hs hlater hq hafter hm⟩
  · exact untold_of_pending hnew (hd.sublist (List.sublist_append_left _ _)) hupto hx' hq.pending
  · rintro pre later post rfl
    have hsilent := silent_of_held h hids hupto hafter hx' hq
    rwa [List.append_assoc before, List.singleton_append] at hsilent
  · -- the attempts at the request are those there were when it was withdrawn
    have hticket : x.ticket = q.ticket := (congrArg Ident.ticket hq.ident).symm
    rw [hticket, hb.attemptsOf_of_mem (List.mem_append_right _ (mem_requests_of_queueOf hq.mem))]
    exact withdrawn_of_run hs hlater hq hafter

end Final

/-- A command that is withdrawn while it waits for its reply, and the reply that comes too late to
count. -/
def lateReply : List Operation :=
  [.route (.heartbeat "alpha" 1) 0,
    .submit 1 1 (.expecting [7] 3) .normal 0 10,
    .cancel 1,
    .route (.accepted "alpha" 1 3) 20,
    .pump 1 30]

theorem cancellation_final_lateReply :
    ∃ before step after s,
      run lateReply (new { id := "alpha" } (Pipe.new "up" 4) 0) =
          .ok (before ++ step :: after, s) ∧
        (submitted lateReply).Nodup ∧ step.operation = .cancel 1 ∧
          step.response = .cancelled true ∧ s.tally.cancelled = 1 ∧
            ∃ x ∈ accepted before, x.request = 1 ∧ FinallyWithdrawn before step after s x := by
  have hrun : (run lateReply (new { id := "alpha" } (Pipe.new "up" 4) 0)).toOption.map
      (fun r => (r.1[2]?.map fun step => match step.response with
        | .cancelled found => found
        | _ => false, r.2.tally.cancelled)) = some (some true, 1) := by
    decide +kernel
  obtain ⟨steps, s, h, hread⟩ := exists_run_of_map hrun
  obtain ⟨hfound, hcount⟩ := Prod.mk.inj hread
  obtain ⟨step, hstep, hresponse⟩ := Option.map_eq_some_iff.1 hfound
  have hids : (submitted lateReply).Nodup := by decide
  have ho : step.operation = .cancel 1 := by
    have hthird : (steps.map Step.operation)[2]? = lateReply[2]? := by rw [operations_of_run h]
    rw [List.getElem?_map, hstep] at hthird
    exact Option.some.inj hthird
  have hr : step.response = .cancelled true := by
    split at hresponse
    · rename_i found hx
      exact hresponse ▸ hx
    · cases hresponse
  obtain ⟨before, after, rfl⟩ := List.append_of_mem (List.mem_of_getElem? hstep)
  exact ⟨before, step, after, s, h, hids, ho, hr, hcount, cancellation_final h hids ho hr⟩

end Station

end GroundControl
