import GroundControl.Proofs.Desk.Account

/-!
# The order of the requests

A backlog hands out urgent requests before normal ones, and each sort in the order in which it was
taken in, whatever was put back, withdrawn or added in between.

* `Request.Before`, the order of two requests; `pairwise_insertBeforeNormal`: where a request is
  put among ordered ones;
* `Backlog.Ordered`: the waiting requests are in order, and the one in flight is older than those of
  its sort; `Passage.ordered`, `Desk.ordered_step`: every call preserves it;
* `Backlog.Next`, the request that is to be handed out;
* `Desk.InOrder`, and `handed_out_in_order`: it holds after any calls.
-/

namespace GroundControl

/-- A request goes before another one: it is urgent and the other is not, or both are of one sort
and it is older. -/
def Request.Before (r q : Request) : Prop :=
  r.urgency = .urgent ∧ q.urgency = .normal ∨ r.urgency = q.urgency ∧ r.ticket < q.ticket

theorem Urgency.eq_normal_iff {u : Urgency} : u = .normal ↔ u ≠ .urgent := by
  cases u with
  | normal => simp
  | urgent => simp

namespace Request

variable {r q x : Request}

/-- Only normal requests come after a normal one. -/
theorem Before.normal (h : r.Before q) (hr : r.urgency = .normal) : q.urgency = .normal := by
  rcases h with ⟨hu, -⟩ | ⟨hu, -⟩
  · rw [hr] at hu
    cases hu
  · rw [← hu, hr]

theorem Before.lt (h : r.Before q) (hu : q.urgency = r.urgency) : r.ticket < q.ticket := by
  rcases h with ⟨hr, hq⟩ | ⟨-, ht⟩
  · rw [hr, hq] at hu
    cases hu
  · exact ht

/-- The urgent requests and the older ones go before a normal one. -/
theorem before_of_normal (hr : r.urgency = .urgent ∨ r.ticket < q.ticket)
    (hq : q.urgency = .normal) : r.Before q := by
  by_cases hu : r.urgency = .urgent
  · exact .inl ⟨hu, hq⟩
  · refine .inr ⟨?_, hr.resolve_left hu⟩
    rw [Urgency.eq_normal_iff.2 hu, hq]

end Request

namespace Backlog

/-! ### Places among ordered requests -/

theorem pairwise_insertBeforeNormal {r : Request} {l : List Request}
    (hl : l.Pairwise Request.Before)
    (hu : ∀ q ∈ l, q.urgency = .urgent → q.Before r)
    (hn : ∀ q ∈ l, q.urgency = .normal → r.Before q) :
    (insertBeforeNormal r l).Pairwise Request.Before := by
  induction l with
  | nil => exact List.pairwise_singleton _ r
  | cons x rest ih =>
    obtain ⟨hx, hrest⟩ := List.pairwise_cons.1 hl
    unfold insertBeforeNormal
    split
    · rename_i hxn
      refine List.pairwise_cons.2 ⟨fun q hq => ?_, hl⟩
      rcases List.mem_cons.1 hq with rfl | hm
      · exact hn q hq hxn
      · exact hn q hq ((hx q hm).normal hxn)
    · rename_i hxn
      have hxu : x.urgency = .urgent := not_not.1 (mt Urgency.eq_normal_iff.2 hxn)
      refine List.pairwise_cons.2 ⟨fun q hq => ?_, ih hrest ?_ ?_⟩
      · rcases List.mem_cons.1 ((insertBeforeNormal_perm r rest).mem_iff.1 hq) with rfl | hm
        · exact hu x List.mem_cons_self hxu
        · exact hx q hm
      · exact fun q hq => hu q (List.mem_cons_of_mem x hq)
      · exact fun q hq => hn q (List.mem_cons_of_mem x hq)

/-- The waiting requests are in order, and the one in flight is older than those of its sort. -/
structure Ordered (b : Backlog) : Prop where
  waiting : b.waiting.Pairwise Request.Before
  inFlight : ∀ r, b.inFlight = some r → ∀ q ∈ b.waiting, q.urgency = r.urgency →
    r.ticket < q.ticket

theorem ordered_of_idle {b : Backlog} (hf : b.inFlight = none)
    (hw : b.waiting.Pairwise Request.Before) : b.Ordered where
  waiting := hw
  inFlight r hr := by
    rw [hf] at hr
    cases hr

/-- A request younger than all waiting ones is put at the end of its sort. -/
theorem pairwise_enqueue {r : Request} {l : List Request} (hl : l.Pairwise Request.Before)
    (hr : ∀ q ∈ l, q.ticket < r.ticket) : (enqueue r l).Pairwise Request.Before := by
  unfold enqueue
  cases hu : r.urgency with
  | urgent =>
    refine pairwise_insertBeforeNormal hl (fun q hq hqu => ?_) fun q hq hqn => .inl ⟨hu, hqn⟩
    exact .inr ⟨hqu.trans hu.symm, hr q hq⟩
  | normal =>
    refine List.pairwise_append.2 ⟨hl, List.pairwise_singleton _ r, ?_⟩
    intro q hq x hx
    obtain rfl := List.mem_singleton.1 hx
    exact Request.before_of_normal (.inr (hr q hq)) hu

/-- A request older than all waiting ones of its sort is put at the head of the sort. -/
theorem pairwise_requeue {r : Request} {l : List Request} (hl : l.Pairwise Request.Before)
    (hr : ∀ q ∈ l, q.urgency = r.urgency → r.ticket < q.ticket) :
    (requeue r l).Pairwise Request.Before := by
  unfold requeue
  cases hu : r.urgency with
  | urgent =>
    refine List.pairwise_cons.2 ⟨fun q hq => ?_, hl⟩
    cases hq' : q.urgency with
    | urgent => exact .inr ⟨hu.trans hq'.symm, hr q hq (hq'.trans hu.symm)⟩
    | normal => exact .inl ⟨hu, hq'⟩
  | normal =>
    refine pairwise_insertBeforeNormal hl (fun q _ hqu => .inl ⟨hqu, hu⟩) fun q hq hqn => ?_
    exact .inr ⟨hu.trans hqn.symm, hr q hq (hqn.trans hu.symm)⟩

/-! ### What calls preserve -/

/-- The order depends on the entries of the requests only. -/
theorem Ordered.of_entries {b b' : Backlog} (h : b.Ordered)
    (hf : b'.inFlight.map Request.entry = b.inFlight.map Request.entry)
    (hw : b'.waiting.map Request.entry = b.waiting.map Request.entry) : b'.Ordered where
  waiting := by
    have hp := List.pairwise_map (f := Request.entry) (R := Request.Before) (l := b'.waiting)
    rw [hw, List.pairwise_map] at hp
    exact hp.1 h.waiting
  inFlight r hr q hq hu := by
    have hr' : b.inFlight.map Request.entry = some r.entry := by
      rw [← hf, hr]
      rfl
    have hq' : q.entry ∈ b.waiting.map Request.entry := hw ▸ List.mem_map_of_mem hq
    obtain ⟨r₀, hr₀, hre⟩ := Option.map_eq_some_iff.1 hr'
    obtain ⟨q₀, hq₀, hqe⟩ := List.mem_map.1 hq'
    have hlt : q₀.entry.urgency = r₀.entry.urgency → r₀.entry.ticket < q₀.entry.ticket :=
      h.inFlight r₀ hr₀ q₀ hq₀
    rw [hre, hqe] at hlt
    exact hlt hu

theorem Passage.ordered {b b' : Backlog} {ended : List Finished} (h : Passage b ended b')
    (hb : b.Ordered) : b'.Ordered := by
  induction h with
  | touch _ hf hw => exact hb.of_entries hf hw
  | leave _ hf hw =>
    refine ⟨hb.waiting.sublist hw, fun r hr q hq => ?_⟩
    exact hb.inFlight r (hf r hr) q (hw.subset hq)
  | @retry b b' r q _ hf hq hf' hw =>
    refine ordered_of_idle hf' ?_
    rw [hw]
    refine pairwise_requeue hb.waiting fun x hx hu => ?_
    have hlt : x.urgency = r.entry.urgency → r.entry.ticket < x.ticket := hb.inFlight r hf x hx
    rw [← hq] at hlt
    exact hlt hu
  | trans _ _ ih ih' => exact ih' (ih hb)

/-- The request that is to be handed out: urgent if any is, and the oldest of its sort. -/
structure Next (b : Backlog) (r : Request) : Prop where
  pending : r ∈ b.requests
  urgent : (∃ q ∈ b.requests, q.urgency = .urgent) → r.urgency = .urgent
  oldest : ∀ q ∈ b.requests, q.urgency = r.urgency → r.ticket ≤ q.ticket

theorem Ordered.next {b : Backlog} (h : b.Ordered) {r : Request} {rest : List Request}
    (hf : b.inFlight = none) (hw : b.waiting = r :: rest) : b.Next r := by
  have hrequests : b.requests = r :: rest := by
    unfold requests
    rw [hf, hw]
    rfl
  have hfirst := (List.pairwise_cons.1 (hw ▸ h.waiting)).1
  constructor
  case pending =>
    rw [hrequests]
    exact List.mem_cons_self
  case urgent =>
    rintro ⟨q, hq, hu⟩
    rw [hrequests] at hq
    rcases List.mem_cons.1 hq with rfl | hm
    · exact hu
    · by_contra hr
      have hn := (hfirst q hm).normal (Urgency.eq_normal_iff.2 hr)
      rw [hu] at hn
      cases hn
  case oldest =>
    intro q hq hu
    rw [hrequests] at hq
    rcases List.mem_cons.1 hq with rfl | hm
    · exact Nat.le_refl _
    · exact Nat.le_of_lt ((hfirst q hm).lt hu)

/-- Ordered requests are the urgent ones followed by the normal ones. -/
theorem urgent_append_normal {l : List Request} (h : l.Pairwise Request.Before) :
    l = l.filter (fun r => r.urgency = .urgent) ++ l.filter (fun r => r.urgency = .normal) := by
  induction l with
  | nil => rfl
  | cons r rest ih =>
    obtain ⟨hr, hrest⟩ := List.pairwise_cons.1 h
    cases hu : r.urgency with
    | urgent =>
      rw [List.filter_cons_of_pos (by simpa using hu), List.filter_cons_of_neg (by simp [hu]),
        List.cons_append, ← ih hrest]
    | normal =>
      -- only normal requests follow
      have hn : ∀ q ∈ r :: rest, q.urgency = .normal := by
        intro q hq
        rcases List.mem_cons.1 hq with rfl | hm
        · exact hu
        · exact (hr q hm).normal hu
      rw [List.filter_eq_nil_iff.2 fun q hq => by simp [hn q hq],
        List.filter_eq_self.2 fun q hq => by simp [hn q hq]]
      rfl

theorem pairwise_lt_of_before {l : List Request} (h : l.Pairwise Request.Before) (u : Urgency) :
    (l.filter fun r => r.urgency = u).Pairwise fun r q => r.ticket < q.ticket := by
  rw [List.pairwise_filter]
  refine h.imp fun hb hr hq => hb.lt ?_
  rw [of_decide_eq_true hr, of_decide_eq_true hq]

end Backlog

namespace Desk

open Backlog (Call Response Passage)

variable {depth : Nat} {past : List Step} {d : Desk}

theorem ordered_step (h : Account depth past d) (hb : d.backlog.Ordered) (c : Call) :
    (d.step c).after.backlog.Ordered := by
  obtain ⟨hr, -⟩ := result_step h.viable c
  generalize (d.step c).after = after at hr ⊢
  generalize (d.step c).response = response at hr
  cases hr with
  | @entered r hroom hr ht =>
    have hlt : ∀ q ∈ d.backlog.requests, q.ticket < r.ticket := by
      intro q hq
      rw [ht]
      exact h.lt_of_pending hq
    refine ⟨Backlog.pairwise_enqueue hb.waiting fun q hq => ?_, fun x hx q hq hu => ?_⟩
    · exact hlt q (Backlog.mem_requests.2 (.inr hq))
    · rcases List.mem_cons.1 ((Backlog.enqueue_perm _ _).mem_iff.1 hq) with rfl | hm
      · exact hlt x (Backlog.mem_requests.2 (.inl hx))
      · exact hb.inFlight x hx q hm hu
  | @launched r q rest launch backlog hf hw hq _ _ _ hf' hw' =>
    obtain ⟨hfirst, hrest⟩ := List.pairwise_cons.1 (hw ▸ hb.waiting)
    rw [← hw'] at hfirst hrest
    refine ⟨hrest, fun x hx y hy hu => ?_⟩
    obtain rfl : q = x := Option.some.inj (hf'.symm.trans hx)
    have hticket := congrArg Request.ticket hq
    have hurgency := congrArg Request.urgency hq
    change q.ticket = r.ticket at hticket
    change q.urgency = r.urgency at hurgency
    rw [hticket]
    exact (hfirst y hy).lt (hu.trans hurgency)
  | passed _ _ hp =>
    rw [(foldl_tell _ _).1]
    exact hp.ordered hb

/-- A step that hands a request out hands out the next one. -/
structure Orderly (past : List Step) (step : Step) : Prop where
  known : ∀ q ∈ step.before.backlog.requests, q.origin ∈ entered past
  next : ∀ launch, step.response = .launched (some launch) →
    ∃ r, step.before.backlog.Next r ∧ step.launched? = some r.ticket ∧
      launch.request = r.id ∧ launch.attempt = r.attempts + 1

theorem orderly_step (h : Account depth past d) (hb : d.backlog.Ordered) (c : Call) :
    Orderly past (d.step c) where
  known q hq := (h.pending q hq).1
  next launch hresponse := by
    obtain ⟨hr, -⟩ := result_step h.viable c
    generalize hafter : (d.step c).after = after at hr
    rw [hresponse] at hr
    cases hr with
    | @launched r q rest launch backlog hf hw hq hid hattempt hd hf' hw' =>
      have hticket := congrArg Request.ticket hq
      change q.ticket = r.ticket at hticket
      refine ⟨r, hb.next hf hw, ?_, hid, hattempt⟩
      unfold Step.launched?
      rw [hresponse, hafter, hf', ← hticket]
      rfl
    | passed _ hl _ => cases hl

/-- The requests at a desk are in order. -/
structure InOrder (steps : List Step) (d : Desk) : Prop where
  /-- the tickets of the requests tell the order in which these were taken in -/
  numbered : (entered steps).map (·.ticket) = List.range (entered steps).length
  known : ∀ r ∈ d.backlog.requests, r.origin ∈ entered steps
  parted : d.backlog.waiting = d.backlog.waiting.filter (fun r => r.urgency = .urgent) ++
    d.backlog.waiting.filter (fun r => r.urgency = .normal)
  sorted : ∀ u, (d.backlog.waiting.filter fun r => r.urgency = u).Pairwise
    fun r q => r.ticket < q.ticket
  inFlight : ∀ r, d.backlog.inFlight = some r → ∀ q ∈ d.backlog.waiting, q.urgency = r.urgency →
    r.ticket < q.ticket
  steps : ∀ step ∈ steps, Orderly steps step

theorem Orderly.mono {steps : List Step} {step last : Step} (h : Orderly steps step) :
    Orderly (steps ++ [last]) step where
  known q hq := by
    rw [entered_snoc]
    exact List.mem_append_left _ (h.known q hq)
  next := h.next

/-- In whatever order a backlog is called, what is handed out is the oldest of the urgent requests,
or of the normal ones if no urgent one is pending. -/
theorem handed_out_in_order (agent : AgentId) (depth : Nat) (calls : List Call) :
    InOrder (run calls (new agent depth)).1 (run calls (new agent depth)).2 := by
  have hinvariant : ∀ past d c,
      (Account depth past d ∧ d.backlog.Ordered ∧ ∀ step ∈ past, Orderly past step) →
        Account depth (past ++ [d.step c]) (d.step c).after ∧
          (d.step c).after.backlog.Ordered ∧
            ∀ step ∈ past ++ [d.step c], Orderly (past ++ [d.step c]) step := by
    intro past d c ⟨h, hb, hs⟩
    refine ⟨h.step c, ordered_step h hb c, fun step hm => ?_⟩
    rcases List.mem_append.1 hm with hm | hm
    · exact (hs step hm).mono
    · obtain rfl := List.mem_singleton.1 hm
      exact (orderly_step h hb c).mono
  have hnew : Account depth [] (new agent depth) ∧ (new agent depth).backlog.Ordered ∧
      ∀ step ∈ [], Orderly [] step :=
    ⟨account_new agent depth, Backlog.ordered_of_idle rfl .nil, List.forall_mem_nil _⟩
  obtain ⟨h, hb, hs⟩ := run_induction
    (P := fun past d => Account depth past d ∧ d.backlog.Ordered ∧ ∀ step ∈ past, Orderly past step)
    hinvariant hnew calls
  exact ⟨h.numbered, fun r hr => (h.pending r hr).1, Backlog.urgent_append_normal hb.waiting,
    Backlog.pairwise_lt_of_before hb.waiting, hb.inFlight, hs⟩

end Desk

end GroundControl
