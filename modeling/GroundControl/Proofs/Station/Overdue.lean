import GroundControl.Proofs.Station.Queues

/-!
# Overdue requests

A pump that finds the request in flight overdue gives up its attempt: afterwards the request has
ended, or it is queued again, or it was handed to the link once more.  The attempt is never taken up
again.

* `Backlog.Past`: an attempt of a request was given up; `Past.not_flight`: it is not in flight;
* `Past.review`, `Past.rounds`: it stays given up, `past_review` : a review gives up an overdue one;
* `Moves.overdue`: pumps of several agents, of which one is that of the request.
-/

namespace GroundControl

namespace Backlog

/-- The attempt of a request was given up: the request has ended, or is queued again, or is with a
later attempt. -/
def Past (b : Backlog) (r : Request) : Prop :=
  ∀ q ∈ b.requests, q.ticket = r.ticket →
    r.attempts ≤ q.attempts ∧ (q.phase = .queued ∨ r.attempts < q.attempts)

theorem Past.not_flight {b : Backlog} {r : Request} (h : b.Past r) (hb : b.Settled) :
    b.inFlight ≠ some r := by
  intro hr
  obtain ⟨-, hp | ha⟩ := h r (mem_requests.2 (.inl hr)) rfl
  · have hf := (hb.inFlight r hr).phase
    rw [hp] at hf
    cases hf
  · exact Nat.lt_irrefl _ ha

theorem Past.subset {b b' : Backlog} {r : Request} (h : b.Past r)
    (hs : ∀ q ∈ b'.requests, q ∈ b.requests) : b'.Past r :=
  fun q hq => h q (hs q hq)

/-- A review that finds a request in flight overdue gives up its attempt. -/
theorem past_review {b : Backlog} (hb : b.Settled) (hn : (b.idents.map Ident.ticket).Nodup)
    {now : Instant} {r : Request} (hr : b.inFlight = some r) (hc : r.cancelRequested = false)
    (ho : r.overdue now = true) : (b.review now).2.Past r := by
  rw [review_of_overdue hb hr hc ho]
  intro q hq ht
  rcases mem_expire (hb.inFlight r hr) hq with rfl | hw
  · exact ⟨Nat.le_refl _, .inl rfl⟩
  · -- another waiting request has another ticket
    have hw : q ∈ b.waiting := (List.mem_filter.1 hw).1
    rw [idents_of_inFlight hr, List.map_cons, List.nodup_cons, List.map_map] at hn
    have hm : q.ident.ticket ∈ b.waiting.map (Ident.ticket ∘ Request.ident) :=
      List.mem_map_of_mem hw
    have ht : q.ident.ticket = r.ident.ticket := ht
    exact absurd (ht ▸ hm) hn.1

theorem Past.review {b : Backlog} {r : Request} (h : b.Past r) (hb : b.Settled) (now : Instant) :
    (b.review now).2.Past r := by
  have hk : b.kept.Past r := h.subset b.kept_subset
  rcases review_cases hb now with ⟨-, hrev⟩ | ⟨x, hx, -, hrev⟩
  · rw [hrev]
    exact hk
  · rw [hrev]
    intro q hq ht
    rcases mem_expire (hb.kept.inFlight x hx) hq with rfl | hw
    · exact ⟨(hk x (mem_requests.2 (.inl hx)) ht).1, .inl rfl⟩
    · exact hk q (mem_requests.2 (.inr hw)) ht

end Backlog

namespace Pass

variable {τ : Type} [Carrier τ]

/-- A round makes at most one more attempt at a waiting request. -/
theorem past_round (ctx : PassContext) {p : Pass τ} {r : Request} (hs : p.backlog.Settled)
    (h : p.backlog.Past r) : Round.All (fun q => q.backlog.Past r) (round ctx p) := by
  have hc := round_case ctx hs
  generalize round ctx p = result at hc ⊢
  cases hc with
  | idle => exact h
  | unpaid => exact h
  | fault => trivial
  | @flying x rest throttle base carrier deadline hh hr hd =>
    obtain ⟨hx, hall⟩ := hh.pending
    intro q hq ht
    rcases Backlog.mem_requests.1 hq with hf | hw
    · cases hf
      -- if it is the request itself, this is a later attempt than the one given up
      have ha := (h x hx ht).1
      exact ⟨Nat.le_succ_of_le ha, .inr (Nat.lt_succ_of_le ha)⟩
    · exact h q (hall q hw) ht
  | @oneWay x rest throttle base carrier hh hr =>
    exact fun q hq => h q (hh.pending.2 q (hh.mem_replaced hq))
  | @retried x rest throttle base e carrier hh hr =>
    obtain ⟨hx, hall⟩ := hh.pending
    intro q hq ht
    have hw := hh.mem_replaced hq
    rcases List.mem_cons.1 ((Backlog.requeue_perm _ _).mem_iff.1 hw) with rfl | hw
    · have ha := (h x hx ht).1
      exact ⟨Nat.le_succ_of_le ha, .inr (Nat.lt_succ_of_le ha)⟩
    · exact h q (hall q hw) ht
  | @failed x rest throttle base e carrier hh hr =>
    exact fun q hq => h q (hh.pending.2 q (hh.mem_replaced hq))

theorem past_rounds {ctx : PassContext} {n : Nat} {p q : Pass τ} {r : Request} (hp : p.Sound)
    (h : p.backlog.Past r) (hr : rounds ctx n p = (none, q)) : q.backlog.Past r :=
  hp.rounds_induction (fun _ hs hi => past_round ctx hs.settled hi) hr h

end Pass

namespace Station

variable {τ : Type}

section Pumps

variable [Carrier τ] {now : Instant} {l : List Action} {s s' : Station τ} {agent : AgentId}
  {r : Request}

/-- Pumps never take up an attempt that was given up. -/
theorem Moves.past (h : Moves now l s s') (hs : s.Sound)
    (hl : ∀ a ∈ l, ∃ target, a = .pump target) (hp : (s.queueOf agent).Past r) :
    (s'.queueOf agent).Past r := by
  induction h with
  | nil => exact hp
  | quiet hq _ ih => exact ih (hs.of_queueOf hq.queue) hl ((hq.queue agent).symm ▸ hp)
  | @cons a l s s₁ s' hm _ ih =>
    obtain ⟨⟨target, rfl⟩, hrest⟩ := List.forall_mem_cons.1 hl
    refine ih (hm.transfer hs).1 hrest ?_
    rcases (hm.change agent).of_pump with ⟨-, hb⟩ | ⟨p, -, hb, hrun⟩
    · rw [hb]
      exact hp
    · rw [hb]
      have hb := hs.settled agent
      exact Pass.past_rounds (sound_firstPass hb now).1 (hp.review hb now) hrun

/-- Pumps, of which one is that of its agent, give up the attempt of an overdue request. -/
theorem Moves.overdue (h : Moves now l s s') (hs : s.Sound) (hn : s.Numbered)
    (hl : ∀ a ∈ l, ∃ target, a = .pump target) (hm : .pump agent ∈ l)
    (hr : (s.queueOf agent).inFlight = some r) (hc : r.cancelRequested = false)
    (ho : r.overdue now = true) : (s'.queueOf agent).Past r := by
  induction h with
  | nil => cases hm
  | quiet hq _ ih =>
    have hn := (Transfer.of_quiet hq).keeps_numbered hn
    exact ih (hs.of_queueOf hq.queue) hn hl hm ((hq.queue agent).symm ▸ hr)
  | @cons a l s s₁ s' hmove hrest' ih =>
    obtain ⟨⟨target, rfl⟩, hrest⟩ := List.forall_mem_cons.1 hl
    obtain ⟨hs₁, ended, ht⟩ := hmove.transfer hs
    rcases (hmove.change agent).of_pump with ⟨hne, hb⟩ | ⟨p, -, hb, hrun⟩
    · have hm : .pump agent ∈ l := by
        rcases List.mem_cons.1 hm with he | hm
        · exact absurd (Action.pump.inj he).symm hne
        · exact hm
      exact ih hs₁ (ht.keeps_numbered hn) hrest hm (hb ▸ hr)
    · -- this pump gives the attempt up, and those after it do not take it up again
      refine hrest'.past hs₁ hrest ?_
      rw [hb]
      have hset := hs.settled agent
      exact Pass.past_rounds (sound_firstPass hset now).1
        (Backlog.past_review hset (hn.queue agent) hr hc ho) hrun

end Pumps

end Station

end GroundControl
