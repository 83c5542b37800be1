import GroundControl.Proofs.Backlog.Tickets
import GroundControl.Proofs.Pump.Rounds

/-!
# Pumps that do the same

Two pumps of one agent that begin with the same requests go the same way, whatever has been sent
before, if nothing is throttled and the link takes every frame.

* `Carrier.TakesAll`: a link takes whatever is handed to it from now on;
* `Pass.Free`: a pass meets no throttle, and its link takes every frame;
* `Pass.Like`: two passes have the same requests, have ended the same ones, and have sent the same
  frames; `rounds_like`: they stay so;
* `addressed_rounds`: the frames of a pass are for its agent.
-/

namespace GroundControl

namespace Carrier

variable {τ : Type} [Carrier τ]

/-- The link takes whatever is handed to it from now on. -/
def TakesAll (c : τ) : Prop :=
  ∀ (sent : List Frame) (frame : Frame),
    (send (sent.foldl (fun c f => (send c f).2) c) frame).1 = .ok ()

theorem TakesAll.send_eq {c : τ} (h : TakesAll c) (frame : Frame) :
    send c frame = (.ok (), (send c frame).2) :=
  Prod.ext (h [] frame) rfl

theorem TakesAll.after {c : τ} (h : TakesAll c) (frame : Frame) : TakesAll (send c frame).2 :=
  fun sent next => h (frame :: sent) next

end Carrier

namespace Pass

variable {τ : Type}

/-- The pass meets no throttle, and its link takes every frame. -/
structure Free [Carrier τ] (p : Pass τ) : Prop where
  throttle : p.throttle = none
  link : Carrier.TakesAll p.carrier

/-- Two passes have the same requests but for their tickets, and have done the same so far. -/
structure Like (p q : Pass τ) : Prop where
  backlog : q.backlog.plain = p.backlog.plain
  finished : q.finished.map Finished.plain = p.finished.map Finished.plain
  frames : q.frames = p.frames

/-- Two rounds end in the same way. -/
inductive RoundLike [Carrier τ] : Round τ → Round τ → Prop
  | next {p q : Pass τ} (h : p.Like q) (hp : p.Free) (hq : q.Free) : RoundLike (.next p) (.next q)
  | stop {p q : Pass τ} (h : p.Like q) (hp : p.Free) (hq : q.Free) : RoundLike (.stop p) (.stop q)
  | fault (f g : Fault) (p q : Pass τ) : RoundLike (.fault f p) (.fault g q)

section Rounds

variable [Carrier τ] {p q : Pass τ}

theorem transmit_like (ctx : PassContext) (h : p.Like q) (hp : p.Free) (hq : q.Free)
    (launch : Launch) : RoundLike (transmit ctx p launch) (transmit ctx q launch) := by
  have hn : q.backlog.plain.timeouts = p.backlog.plain.timeouts := congrArg _ h.backlog
  have hn : q.backlog.timeouts = p.backlog.timeouts := hn
  unfold transmit
  cases ctx.estimator.timeout launch.trafficClass with
  | error fault => exact .fault _ _ _ _
  | ok base =>
    dsimp only
    rw [hp.link.send_eq, hq.link.send_eq, hn]
    dsimp only
    generalize backoff base p.backlog.timeouts ctx.maxTimeout = timeout
    -- the results of the two backlogs differ in tickets only, as the backlogs do
    have ht : Prod.map (Except.map (Option.map Finished.plain)) Backlog.plain
        (q.backlog.transmitted ctx.now timeout) =
        Prod.map (Except.map (Option.map Finished.plain)) Backlog.plain
          (p.backlog.transmitted ctx.now timeout) := by
      rw [← Backlog.plain_transmitted, h.backlog, Backlog.plain_transmitted]
    generalize p.backlog.transmitted ctx.now timeout = x at ht
    generalize q.backlog.transmitted ctx.now timeout = y at ht
    obtain ⟨result, b⟩ := x
    obtain ⟨result', c⟩ := y
    obtain ⟨hr, hb⟩ := Prod.mk.inj ht
    have hframes : q.frames ++ [(frameOf ctx launch, Except.ok ())] =
        p.frames ++ [(frameOf ctx launch, Except.ok ())] := congrArg (· ++ _) h.frames
    cases result with
    | error f =>
      cases result' with
      | error g => exact .fault _ _ _ _
      | ok finished' => cases hr
    | ok finished =>
      cases result' with
      | error g => cases hr
      | ok finished' =>
        have hf : finished'.map Finished.plain = finished.map Finished.plain := Except.ok.inj hr
        have hfin : (q.finished ++ finished'.toList).map Finished.plain =
            (p.finished ++ finished.toList).map Finished.plain := by
          have ht : finished'.toList.map Finished.plain = finished.toList.map Finished.plain := by
            rw [← Option.toList_map, hf, Option.toList_map]
          rw [List.map_append, List.map_append, h.finished, ht]
        have ha : c.awaiting = b.awaiting := by
          rw [← Backlog.awaiting_plain, hb, Backlog.awaiting_plain]
        dsimp only
        rw [ha]
        split
        · exact .stop ⟨hb, hfin, hframes⟩ ⟨hp.throttle, hp.link.after _⟩
            ⟨hq.throttle, hq.link.after _⟩
        · exact .next ⟨hb, hfin, hframes⟩ ⟨hp.throttle, hp.link.after _⟩
            ⟨hq.throttle, hq.link.after _⟩

theorem round_like (ctx : PassContext) (h : p.Like q) (hp : p.Free) (hq : q.Free) :
    RoundLike (round ctx p) (round ctx q) := by
  have hc : q.backlog.nextClass = p.backlog.nextClass := by
    rw [← Backlog.nextClass_plain, h.backlog, Backlog.nextClass_plain]
  have hl : q.backlog.launch.map (Prod.map (fun launch => launch) Backlog.plain) =
      p.backlog.launch.map (Prod.map (fun launch => launch) Backlog.plain) := by
    rw [← Backlog.plain_launch, h.backlog, Backlog.plain_launch]
  unfold round
  rw [hc]
  cases p.backlog.nextClass with
  | none => exact .stop h hp hq
  | some c =>
    dsimp only
    rw [pay_of_throttle_eq_none hp.throttle, pay_of_throttle_eq_none hq.throttle]
    dsimp only
    cases hx : p.backlog.launch with
    | none =>
      rw [hx] at hl
      rw [Option.map_eq_none_iff.1 hl]
      exact .stop h hp hq
    | some x =>
      rw [hx] at hl
      obtain ⟨y, hy, hxy⟩ := Option.map_eq_some_iff.1 hl
      obtain ⟨hlaunch, hb⟩ := Prod.mk.inj hxy
      have hlaunch : y.1 = x.1 := hlaunch
      rw [hy]
      dsimp only
      rw [hlaunch]
      refine transmit_like ctx ?_ ?_ ?_ x.1
      · exact ⟨hb, h.finished, h.frames⟩
      · exact ⟨hp.throttle, hp.link⟩
      · exact ⟨hq.throttle, hq.link⟩

/-- Two like passes stay so. -/
theorem rounds_like {ctx : PassContext} {n : Nat} (h : p.Like q) (hp : p.Free) (hq : q.Free)
    {p' : Pass τ} (hr : rounds ctx n p = (none, p')) :
    ∃ q', rounds ctx n q = (none, q') ∧ p'.Like q' ∧ p'.Free ∧ q'.Free := by
  induction n generalizing p q with
  | zero =>
    cases hr
    exact ⟨q, rfl, h, hp, hq⟩
  | succ n ih =>
    have hround := round_like ctx h hp hq
    unfold rounds at hr ⊢
    generalize round ctx p = x at hround hr
    generalize round ctx q = y at hround
    cases hround with
    | next h hp hq => exact ih h hp hq hr
    | @stop _ q' h hp hq =>
      cases hr
      exact ⟨q', rfl, h, hp, hq⟩
    | fault => cases hr

theorem run_like {ctx : PassContext} (h : p.Like q) (hp : p.Free) (hq : q.Free)
    {p' : Pass τ} (hr : run ctx p = (none, p')) :
    ∃ q', run ctx q = (none, q') ∧ p'.Like q' ∧ p'.Free ∧ q'.Free := by
  have hn : q.backlog.waiting.length = p.backlog.waiting.length := by
    have hw : q.backlog.waiting.map Request.plain = p.backlog.waiting.map Request.plain :=
      congrArg Backlog.waiting h.backlog
    have hw := congrArg List.length hw
    rwa [List.length_map, List.length_map] at hw
  unfold run at hr ⊢
  rw [hn]
  exact rounds_like h hp hq hr

/-- What is sent so far is for the agent of the pass. -/
def Addressed (ctx : PassContext) (p : Pass τ) : Prop :=
  ∀ f ∈ p.frames, f.1.destination = .agent ctx.agent

theorem addressed_round (ctx : PassContext) (hp : p.Sound) (h : p.Addressed ctx) :
    Round.All (Addressed ctx) (round ctx p) := by
  have hsend : ∀ (r : Request) (answer : Except LinkError Unit),
      ∀ f ∈ p.frames ++ [(ctx.frame r, answer)], f.1.destination = .agent ctx.agent :=
    fun r answer => List.forall_mem_append.2 ⟨h, List.forall_mem_singleton.2 rfl⟩
  have hc := round_case ctx hp.settled
  generalize round ctx p = result at hc ⊢
  cases hc with
  | idle => exact h
  | unpaid => exact h
  | fault => trivial
  | flying | oneWay | retried | failed => exact hsend _ _

theorem addressed_rounds {ctx : PassContext} {n : Nat} (hp : p.Sound) (h : p.Addressed ctx)
    (hr : rounds ctx n p = (none, q)) : q.Addressed ctx :=
  hp.rounds_induction (fun _ hs ha => addressed_round ctx hs ha) hr h

end Rounds

end Pass

end GroundControl
