import GroundControl.Proofs.Pump.Likeness

/-!
# Pumps over different links

A pump that is not throttled learns nothing of its link but the answers.  Over another link that
takes every frame it does exactly the same, faults included.

* `Pass.withLink`, the pass over another link; `Round.withLink`;
* `round_withLink`, `rounds_withLink`, `run_withLink`: the rounds over another link.
-/

namespace GroundControl

namespace Pass

variable {τ : Type}

/-- The pass over another link. -/
def withLink (p : Pass τ) (c : τ) : Pass τ := { p with carrier := c }

/-- The round over another link. -/
def Round.withLink (c : τ) : Round τ → Round τ
  | .next p => .next (p.withLink c)
  | .stop p => .stop (p.withLink c)
  | .fault fault p => .fault fault (p.withLink c)

section Rounds

variable [Carrier τ] {p q : Pass τ} {c : τ}

theorem Free.withLink (h : p.Free) (hc : Carrier.TakesAll c) : (p.withLink c).Free :=
  ⟨h.throttle, hc⟩

/-- Handing a request to another link has the same effects. -/
theorem transmit_withLink (ctx : PassContext) (hp : p.Free) (hc : Carrier.TakesAll c)
    (launch : Launch) :
    ∃ c', Carrier.TakesAll c' ∧
      transmit ctx (p.withLink c) launch = Round.withLink c' (transmit ctx p launch) := by
  unfold transmit
  cases ctx.estimator.timeout launch.trafficClass with
  | error fault => exact ⟨c, hc, rfl⟩
  | ok base =>
    refine ⟨(Carrier.send c (frameOf ctx launch)).2, hc.after _, ?_⟩
    have hsend : Carrier.send (p.withLink c).carrier (frameOf ctx launch) =
        (.ok (), (Carrier.send c (frameOf ctx launch)).2) := hc.send_eq _
    have hbacklog : (p.withLink c).backlog = p.backlog := rfl
    dsimp only
    rw [hp.link.send_eq, hsend, hbacklog]
    dsimp only
    generalize p.backlog.transmitted ctx.now (backoff base p.backlog.timeouts ctx.maxTimeout) = x
    obtain ⟨_ | finished, b⟩ := x
    · rfl
    · dsimp only
      split <;> rfl

theorem round_withLink (ctx : PassContext) (hp : p.Free) (hc : Carrier.TakesAll c) :
    ∃ c', Carrier.TakesAll c' ∧ round ctx (p.withLink c) = Round.withLink c' (round ctx p) := by
  unfold round
  have hbacklog : (p.withLink c).backlog = p.backlog := rfl
  rw [hbacklog]
  cases p.backlog.nextClass with
  | none => exact ⟨c, hc, rfl⟩
  | some cl =>
    dsimp only
    rw [pay_of_throttle_eq_none hp.throttle, pay_of_throttle_eq_none (hp.withLink hc).throttle]
    dsimp only
    rw [hbacklog]
    cases p.backlog.launch with
    | none => exact ⟨c, hc, rfl⟩
    | some x =>
      have hlaunched : Free { p with
          backlog := x.2
          retries := if 1 < x.1.attempt then p.retries + 1 else p.retries } :=
        ⟨hp.throttle, hp.link⟩
      exact transmit_withLink ctx hlaunched hc x.1

/-- A round leaves a pass that meets no throttle, and its link takes every frame. -/
theorem free_round (ctx : PassContext) (hp : p.Free) : Round.All Free (round ctx p) := by
  have h := round_like ctx (p := p) (q := p) ⟨rfl, rfl, rfl⟩ hp hp
  generalize round ctx p = x at h ⊢
  cases h with
  | next _ hp _ => exact hp
  | stop _ hp _ => exact hp
  | fault => trivial

theorem rounds_withLink {ctx : PassContext} {n : Nat} {fault : Option Fault} (hp : p.Free)
    (hc : Carrier.TakesAll c) (h : rounds ctx n p = (fault, q)) :
    ∃ c', Carrier.TakesAll c' ∧ rounds ctx n (p.withLink c) = (fault, q.withLink c') := by
  induction n generalizing p c with
  | zero =>
    cases h
    exact ⟨c, hc, rfl⟩
  | succ n ih =>
    obtain ⟨c', hc', hround⟩ := round_withLink ctx hp hc
    have hfree := free_round ctx hp
    unfold rounds at h ⊢
    rw [hround]
    generalize round ctx p = result at h hfree ⊢
    cases result with
    | next p₁ => exact ih hfree hc' h
    | stop p₁ =>
      cases h
      exact ⟨c', hc', rfl⟩
    | fault f p₁ =>
      cases h
      exact ⟨c', hc', rfl⟩

theorem run_withLink {ctx : PassContext} {fault : Option Fault} (hp : p.Free)
    (hc : Carrier.TakesAll c) (h : run ctx p = (fault, q)) :
    ∃ c', Carrier.TakesAll c' ∧ run ctx (p.withLink c) = (fault, q.withLink c') :=
  rounds_withLink hp hc h

theorem free_run {ctx : PassContext} (hp : p.Free) (h : run ctx p = (none, q)) : q.Free :=
  rounds_induction (fun _ hf => free_round ctx hf) h hp

end Rounds

end Pass

end GroundControl
