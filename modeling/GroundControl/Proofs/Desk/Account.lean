import Mathlib.Data.List.Nodup
import GroundControl.Proofs.Backlog.Passage

/-!
# The account of a desk

In whatever order a backlog is called, no request is lost, none ends twice, and every attempt is
counted.

* `get?_foldl_tell`: a submitter learns the outcome of the first end that has its ticket;
* `Account`, what every call preserves: the requests that were taken in are those that have ended
  and those that are pending, with as many attempts as they were handed out;
* `Pending`, `Left`: the two things that can have become of a request;
* `Accounted`, and `requests_accounted`: it holds after any calls.
-/

namespace GroundControl

namespace Desk

open Backlog (Call Response Passage)

/-! ### What submitters learn -/

theorem get?_tell (d : Desk) (f : Finished) (t : Ticket) :
    (d.tell f).outcomes.get? t =
      (d.outcomes.get? t).or (if f.ticket = t then some f.outcome else none) := by
  unfold tell Table.contains
  by_cases ht : f.ticket = t
  · subst ht
    cases hg : d.outcomes.get? f.ticket with
    | none => simp
    | some outcome => simp [hg]
  · have ht' : ¬ t = f.ticket := fun h => ht h.symm
    rw [if_neg ht, Option.or_none]
    split <;> simp [ht']

theorem get?_foldl_tell (d : Desk) (l : List Finished) (t : Ticket) :
    (l.foldl tell d).outcomes.get? t =
      (d.outcomes.get? t).or ((l.find? fun f => f.ticket = t).map (·.outcome)) := by
  induction l generalizing d with
  | nil => simp
  | cons f rest ih =>
    rw [List.foldl_cons, ih, get?_tell, Option.or_assoc, List.find?_cons]
    by_cases ht : f.ticket = t
    · simp [ht]
    · simp [ht]

/-! ### The account -/

/-- The requests taken in, ended and pending, and the attempts. -/
structure Account (depth : Nat) (past : List Step) (d : Desk) : Prop where
  viable : d.backlog.Viable
  limit : d.backlog.depth = depth
  room : d.backlog.pendingLen ≤ depth
  tickets : d.tickets = (entered past).length
  numbered : (entered past).map (·.ticket) = List.range (entered past).length
  balance : ((entered past).map (·.ticket)).Perm
    ((ended past).map (·.ticket) ++ d.backlog.requests.map (·.ticket))
  pending : ∀ r ∈ d.backlog.requests,
    r.origin ∈ entered past ∧ r.attempts = launches past r.ticket
  closed : ∀ f ∈ ended past, ∃ r : Request,
    f.Closes r ∧ r.origin ∈ entered past ∧ r.attempts = launches past r.ticket
  /-- what was not taken in yet was not handed out either -/
  fresh : ∀ t, d.tickets ≤ t → launches past t = 0
  told : ∀ t, d.outcomes.get? t = ((ended past).find? fun f => f.ticket = t).map (·.outcome)

theorem account_new (agent : AgentId) (depth : Nat) : Account depth [] (new agent depth) where
  viable := Backlog.viable_new agent depth
  limit := rfl
  room := Nat.zero_le depth
  tickets := rfl
  numbered := rfl
  balance := .refl _
  pending := List.forall_mem_nil _
  closed := List.forall_mem_nil _
  fresh _ _ := rfl
  told _ := rfl

variable {depth : Nat} {past : List Step} {d : Desk}

/-- No two requests that have ended or are pending have one ticket. -/
theorem Account.nodup (h : Account depth past d) :
    ((ended past).map (·.ticket) ++ d.backlog.requests.map (·.ticket)).Nodup := by
  rw [← h.balance.nodup_iff, h.numbered]
  exact List.nodup_range

/-- The tickets of the requests that were taken in are those given out. -/
theorem Account.lt (h : Account depth past d) {x : Request} (hx : x ∈ entered past) :
    x.ticket < d.tickets := by
  have hm : x.ticket ∈ (entered past).map (·.ticket) := List.mem_map_of_mem hx
  rw [h.numbered, ← h.tickets] at hm
  exact List.mem_range.1 hm

theorem Account.lt_of_pending (h : Account depth past d) {r : Request}
    (hr : r ∈ d.backlog.requests) : r.ticket < d.tickets := by
  have hlt : r.origin.ticket < d.tickets := h.lt (h.pending r hr).1
  exact hlt

/-- The account after a request was taken in. -/
theorem Account.enter (h : Account depth past d) {step : Step} {r : Request}
    (hresponse : step.response = .submitted (some r)) (hr : r.origin = r)
    (ht : r.ticket = d.tickets) (hroom : d.backlog.pendingLen < d.backlog.depth)
    {b : Backlog} (hb : b = { d.backlog with waiting := Backlog.enqueue r d.backlog.waiting })
    (hviable : b.Viable) :
    Account depth (past ++ [step]) { d with backlog := b, tickets := d.tickets + 1 } := by
  have hentered : entered (past ++ [step]) = entered past ++ [r] := by
    rw [entered_snoc, hresponse]
    rfl
  have hended : ended (past ++ [step]) = ended past := by
    rw [ended_snoc, hresponse]
    exact List.append_nil _
  have hlaunches : launches (past ++ [step]) = launches past :=
    funext (launches_snoc_of_eq_none (by rw [hresponse]; rfl) past)
  have hrequests : b.requests.Perm (r :: d.backlog.requests) := by
    rw [hb]
    exact Backlog.requests_enqueue_perm d.backlog r
  constructor
  case viable => exact hviable
  case limit =>
    rw [← h.limit, hb]
  case room =>
    rw [← Backlog.length_requests, hrequests.length_eq, List.length_cons, Backlog.length_requests,
      ← h.limit]
    exact hroom
  case tickets =>
    rw [hentered, List.length_append, ← h.tickets]
    rfl
  case numbered =>
    rw [hentered, List.map_append, h.numbered, List.length_append, List.length_singleton,
      List.range_succ, ← h.tickets, ← ht]
    rfl
  case balance =>
    rw [hentered, hended, List.map_append]
    refine (h.balance.append_right _).trans ?_
    rw [List.append_assoc]
    refine List.Perm.append_left _ (List.perm_append_comm.trans ?_)
    exact (hrequests.map (·.ticket)).symm
  case pending =>
    intro q hq
    rw [hentered, hlaunches]
    rcases List.mem_cons.1 (hrequests.mem_iff.1 hq) with rfl | hm
    · have hattempts : q.attempts = 0 := by
        rw [← hr]
        rfl
      rw [hr, h.fresh q.ticket (Nat.le_of_eq ht.symm)]
      exact ⟨List.mem_append_right _ (List.mem_singleton_self q), hattempts⟩
    · exact ⟨List.mem_append_left _ (h.pending q hm).1, (h.pending q hm).2⟩
  case closed =>
    intro f hf
    rw [hended] at hf
    obtain ⟨q, hc, ho, ha⟩ := h.closed f hf
    rw [hentered, hlaunches]
    exact ⟨q, hc, List.mem_append_left _ ho, ha⟩
  case fresh =>
    intro t hle
    rw [hlaunches]
    exact h.fresh t (Nat.le_of_succ_le hle)
  case told =>
    intro t
    rw [hended]
    exact h.told t

/-- The account after a request was handed out. -/
theorem Account.launch (h : Account depth past d) {step : Step} {launch : Launch} {r q : Request}
    {rest : List Request} {b : Backlog} (hresponse : step.response = .launched (some launch))
    (hafter : step.after.backlog = b) (hf : d.backlog.inFlight = none)
    (hw : d.backlog.waiting = r :: rest)
    (hq : q.entry = { r.entry with attempts := r.attempts + 1 })
    (hd : b.depth = d.backlog.depth) (hf' : b.inFlight = some q) (hw' : b.waiting = rest)
    (hviable : b.Viable) : Account depth (past ++ [step]) { d with backlog := b } := by
  have hticket := congrArg Request.ticket hq
  have hattempts := congrArg Request.attempts hq
  have horigin := congrArg (fun x : Request => ({ x with attempts := 0 } : Request)) hq
  change q.ticket = r.ticket at hticket
  change q.attempts = r.attempts + 1 at hattempts
  change q.origin = r.origin at horigin
  have hrequests : d.backlog.requests = r :: rest := by
    unfold Backlog.requests
    rw [hf, hw]
    rfl
  have hrequests' : b.requests = q :: rest := by
    unfold Backlog.requests
    rw [hf', hw']
    rfl
  have hentered : entered (past ++ [step]) = entered past := by
    rw [entered_snoc, hresponse]
    exact List.append_nil _
  have hended : ended (past ++ [step]) = ended past := by
    rw [ended_snoc, hresponse]
    exact List.append_nil _
  have hlaunched : step.launched? = some r.ticket := by
    unfold Step.launched?
    rw [hresponse, hafter, hf', ← hticket]
    rfl
  -- only the request that was handed out has one attempt more
  have hself : launches (past ++ [step]) r.ticket = launches past r.ticket + 1 := by
    rw [launches_snoc, hlaunched, if_pos rfl]
  have hother : ∀ t, t ≠ r.ticket → launches (past ++ [step]) t = launches past t := by
    intro t ht
    rw [launches_snoc, hlaunched, if_neg fun hc => ht (Option.some.inj hc).symm]
    rfl
  have hnodup := h.nodup
  rw [hrequests] at hnodup
  constructor
  case viable => exact hviable
  case limit => exact hd.trans h.limit
  case room =>
    have hroom := h.room
    rw [← Backlog.length_requests, hrequests] at hroom
    rw [← Backlog.length_requests, hrequests']
    exact hroom
  case tickets => rw [hentered, h.tickets]
  case numbered => rw [hentered, h.numbered]
  case balance =>
    have hbalance := h.balance
    rw [hrequests] at hbalance
    rw [hentered, hended, hrequests', List.map_cons, hticket]
    exact hbalance
  case pending =>
    have hpending := h.pending
    rw [hrequests] at hpending
    intro x hx
    rw [hentered]
    rw [hrequests'] at hx
    rcases List.mem_cons.1 hx with rfl | hm
    · obtain ⟨ho, ha⟩ := hpending r List.mem_cons_self
      rw [horigin, hticket, hself, hattempts, ha]
      exact ⟨ho, rfl⟩
    · obtain ⟨ho, ha⟩ := hpending x (List.mem_cons_of_mem r hm)
      have hne : x.ticket ≠ r.ticket := by
        intro hc
        have hn := (List.nodup_cons.1 hnodup.of_append_right).1
        exact hn (List.mem_map.2 ⟨x, hm, hc⟩)
      rw [hother x.ticket hne]
      exact ⟨ho, ha⟩
  case closed =>
    intro f hm
    rw [hended] at hm
    obtain ⟨x, hc, ho, ha⟩ := h.closed f hm
    have hne : x.ticket ≠ r.ticket := by
      intro hx
      have hfx : f.ticket = r.ticket := (congrArg Ident.ticket hc.ident).trans hx
      refine List.disjoint_of_nodup_append hnodup (List.mem_map_of_mem hm) ?_
      rw [hfx]
      exact List.mem_map_of_mem List.mem_cons_self
    rw [hentered]
    exact ⟨x, hc, ho, by rw [hother x.ticket hne, ha]⟩
  case fresh =>
    intro t hle
    have hr : r ∈ d.backlog.requests := by
      rw [hrequests]
      exact List.mem_cons_self
    have hlt : r.ticket < t := Nat.lt_of_lt_of_le (h.lt_of_pending hr) hle
    rw [hother t (Nat.ne_of_gt hlt), h.fresh t hle]
  case told =>
    intro t
    rw [hended]
    exact h.told t

/-- The account after requests have ended. -/
theorem Account.pass (h : Account depth past d) {step : Step} {b : Backlog}
    (he : step.response.entered? = none) (hl : step.response.launched? = none)
    (hp : d.backlog.Passage step.response.finished b) (hviable : b.Viable) :
    Account depth (past ++ [step]) (step.response.finished.foldl tell { d with backlog := b }) := by
  obtain ⟨gone, hgone, hperm⟩ := hp.account
  obtain ⟨hbacklog, htickets⟩ := foldl_tell { d with backlog := b } step.response.finished
  have hentered : entered (past ++ [step]) = entered past := by
    rw [entered_snoc, he]
    exact List.append_nil _
  have hended := ended_snoc past step
  have hlaunches : launches (past ++ [step]) = launches past :=
    funext (launches_snoc_of_eq_none hl past)
  -- what is pending afterwards, and what has ended, was pending before
  have hbefore : ∀ x ∈ gone ++ b.requests.map Request.entry,
      x.origin ∈ entered past ∧ x.attempts = launches past x.ticket := by
    intro x hx
    obtain ⟨q, hq, rfl⟩ := List.mem_map.1 (hperm.mem_iff.2 hx)
    exact h.pending q hq
  constructor
  case viable =>
    rw [hbacklog]
    exact hviable
  case limit =>
    rw [hbacklog]
    exact hp.depth.trans h.limit
  case room =>
    rw [hbacklog]
    exact Nat.le_trans hp.pendingLen_le h.room
  case tickets => rw [hentered, htickets, h.tickets]
  case numbered => rw [hentered, h.numbered]
  case balance =>
    have hclosed := tickets_of_closes hgone
    have hrequests : (d.backlog.requests.map (·.ticket)).Perm
        (gone.map (·.ticket) ++ b.requests.map (·.ticket)) := by
      have hm := hperm.map (·.ticket)
      rw [List.map_append, List.map_map, List.map_map] at hm
      exact hm
    rw [hentered, hended, hbacklog, List.map_append, hclosed, List.append_assoc]
    exact h.balance.trans (hrequests.append_left _)
  case pending =>
    intro r hr
    rw [hbacklog] at hr
    rw [hentered, hlaunches]
    exact hbefore r.entry (List.mem_append_right _ (List.mem_map_of_mem hr))
  case closed =>
    intro f hf
    rw [hended] at hf
    rw [hentered, hlaunches]
    rcases List.mem_append.1 hf with hm | hm
    · exact h.closed f hm
    · obtain ⟨x, hx, hc⟩ := exists_of_closes hgone hm
      exact ⟨x, hc, hbefore x (List.mem_append_left _ hx)⟩
  case fresh =>
    intro t hle
    rw [htickets] at hle
    rw [hlaunches]
    exact h.fresh t hle
  case told =>
    intro t
    rw [get?_foldl_tell, hended, List.find?_append, Option.map_or]
    exact congrArg (Option.or · _) (h.told t)

theorem Account.step (h : Account depth past d) (c : Call) :
    Account depth (past ++ [d.step c]) (d.step c).after := by
  obtain ⟨hr, hv⟩ := result_step h.viable c
  generalize hafter : (d.step c).after = after at hr hv ⊢
  generalize hresponse : (d.step c).response = response at hr
  cases hr with
  | entered hroom hr ht => exact h.enter hresponse hr ht hroom rfl hv
  | launched hf hw hq hid hattempt hd hf' hw' =>
    exact h.launch hresponse (by rw [hafter]) hf hw hq hd hf' hw' hv
  | passed he hl hp =>
    rw [(foldl_tell _ _).1] at hv
    subst hresponse
    exact h.pass he hl hp hv

theorem account_of_run (agent : AgentId) (depth : Nat) (calls : List Call) :
    Account depth (run calls (new agent depth)).1 (run calls (new agent depth)).2 := by
  exact run_induction (fun _ _ c h => h.step c) (account_new agent depth) calls

/-! ### What becomes of a request -/

/-- The request that was taken in as `x` is pending. -/
structure Pending (steps : List Step) (d : Desk) (x : Request) : Prop where
  pending : ∃ r, d.backlog.requests.filter (fun q => q.ticket = x.ticket) = [r] ∧ r.origin = x ∧
    r.attempts = launches steps x.ticket
  attempts : launches steps x.ticket ≤ x.maxAttempts
  notEnded : (ended steps).filter (fun f => f.ticket = x.ticket) = []
  untold : d.outcomes.get? x.ticket = none

/-- The request that was taken in as `x` has left, with the record `f`. -/
structure Left (steps : List Step) (d : Desk) (x : Request) (f : Finished) : Prop where
  gone : d.backlog.requests.filter (fun q => q.ticket = x.ticket) = []
  once : (ended steps).filter (fun f => f.ticket = x.ticket) = [f]
  same : f.request = x.id ∧ f.agent = x.agent ∧ f.trafficClass = x.trafficClass
  terminal : f.phase.isTerminal = true
  fits : f.phase = f.outcome.phase
  attempts : f.outcome.attempts = launches steps x.ticket
  /-- lack of an answer or of a link ends a request only after all its attempts -/
  exhausted : f.outcome.cause? = some .timeout ∨ f.outcome.cause? = some .transport →
    f.outcome.attempts = x.maxAttempts
  told : d.outcomes.get? x.ticket = some f.outcome

/-- A desk whose requests are all accounted for. -/
structure Accounted (depth : Nat) (steps : List Step) (d : Desk) : Prop where
  room : d.backlog.pendingLen ≤ depth
  turnedAway : ∀ step ∈ steps, step.response = .submitted none → step.after = step.before
  numbered : (entered steps).map (·.ticket) = List.range (entered steps).length
  known : ∀ r ∈ d.backlog.requests, r.origin ∈ entered steps
  endedOf : ∀ f ∈ ended steps, ∃ x ∈ entered steps, x.ticket = f.ticket
  fate : ∀ x ∈ entered steps, Pending steps d x ∨ ∃ f, Left steps d x f

/-- Requests that were taken in with one ticket are the same. -/
theorem Account.eq_of_ticket (h : Account depth past d) {x y : Request} (hx : x ∈ entered past)
    (hy : y ∈ entered past) (ht : x.ticket = y.ticket) : x = y := by
  have hn : ((entered past).map (·.ticket)).Nodup := by
    rw [h.numbered]
    exact List.nodup_range
  exact List.inj_on_of_nodup_map hn hx hy ht

/-- A pending request has no more attempts than it may have. -/
theorem Account.attempts_le (h : Account depth past d) {r : Request} (hr : r ∈ d.backlog.requests) :
    r.attempts ≤ r.maxAttempts := by
  rcases Backlog.mem_requests.1 hr with hf | hw
  · exact (h.viable.inFlight r hf).attempts
  · exact Nat.le_of_lt (h.viable.waiting r hw).attempts

theorem Account.pending_of_mem (h : Account depth past d) {x r : Request} (hx : x ∈ entered past)
    (hr : r ∈ d.backlog.requests) (ht : r.ticket = x.ticket) : Pending past d x := by
  obtain ⟨ho, ha⟩ := h.pending r hr
  have hxr : r.origin = x := h.eq_of_ticket ho hx ht
  have hnot : ∀ f ∈ ended past, f.ticket ≠ x.ticket := by
    intro f hf hc
    refine List.disjoint_of_nodup_append h.nodup (List.mem_map_of_mem hf) ?_
    exact List.mem_map.2 ⟨r, hr, ht.trans hc.symm⟩
  have hended : (ended past).filter (fun f => f.ticket = x.ticket) = [] :=
    List.filter_eq_nil_iff.2 fun f hf hc => hnot f hf (of_decide_eq_true hc)
  have hle := h.attempts_le hr
  have hmax : r.origin.maxAttempts = x.maxAttempts := by rw [hxr]
  change r.maxAttempts = x.maxAttempts at hmax
  rw [ht] at ha
  constructor
  case pending =>
    refine ⟨r, ?_, hxr, ha⟩
    rw [← ht]
    exact filter_eq_singleton h.nodup.of_append_right hr
  case attempts => omega
  case notEnded => exact hended
  case untold => rw [h.told, ← List.head?_filter, hended]; rfl

theorem Account.left_of_mem (h : Account depth past d) {x : Request} (hx : x ∈ entered past)
    {f : Finished} (hf : f ∈ ended past) (ht : f.ticket = x.ticket) : Left past d x f := by
  obtain ⟨r, hc, ho, ha⟩ := h.closed f hf
  have hrt : f.ticket = r.ticket := congrArg Ident.ticket hc.ident
  have hxr : r.origin = x := h.eq_of_ticket ho hx (hrt.symm.trans ht)
  have hnot : ∀ q ∈ d.backlog.requests, q.ticket ≠ x.ticket := by
    intro q hq hqx
    refine List.disjoint_of_nodup_append h.nodup (List.mem_map_of_mem hf) ?_
    exact List.mem_map.2 ⟨q, hq, hqx.trans ht.symm⟩
  have honce : (ended past).filter (fun f => f.ticket = x.ticket) = [f] := by
    rw [← ht]
    exact filter_eq_singleton h.nodup.of_append_left hf
  rw [← hrt, ht] at ha
  constructor
  case gone => exact List.filter_eq_nil_iff.2 fun q hq hqx => hnot q hq (of_decide_eq_true hqx)
  case once => exact honce
  case same =>
    subst hxr
    exact ⟨congrArg Ident.request hc.ident, congrArg Ident.agent hc.ident, hc.trafficClass⟩
  case terminal =>
    rw [hc.fits]
    exact f.outcome.isTerminal_phase
  case fits => exact hc.fits
  case attempts => exact hc.attempts.trans ha
  case exhausted =>
    intro hcause
    subst hxr
    exact hc.attempts.trans (hc.exhausted hcause)
  case told => rw [h.told, ← List.head?_filter, honce]; rfl

theorem Account.fate (h : Account depth past d) {x : Request} (hx : x ∈ entered past) :
    Pending past d x ∨ ∃ f, Left past d x f := by
  have hm : x.ticket ∈ (entered past).map (·.ticket) := List.mem_map_of_mem hx
  rcases List.mem_append.1 (h.balance.mem_iff.1 hm) with he | hp
  · obtain ⟨f, hf, ht⟩ := List.mem_map.1 he
    exact .inr ⟨f, h.left_of_mem hx hf ht⟩
  · obtain ⟨r, hr, ht⟩ := List.mem_map.1 hp
    exact .inl (h.pending_of_mem hx hr ht)

/-- A desk that turns a request away stays as it is. -/
theorem after_of_turnedAway {d : Desk} {c : Call} (h : (d.step c).response = .submitted none) :
    (d.step c).after = d := by
  cases c with
  | submit id network agent payload urgency maxAttempts =>
    dsimp only [step, perform, call] at h ⊢
    cases hb : d.backlog.submit
        (Request.new id network agent payload urgency maxAttempts d.tickets) with
    | none => rfl
    | some backlog =>
      rw [hb] at h
      cases h
  | launch =>
    dsimp only [step, perform, call] at h
    cases hb : d.backlog.launch with
    | none =>
      rw [hb] at h
      cases h
    | some x =>
      rw [hb] at h
      cases h
  | transmitted | refused | review | answer | withdraw | dissolve => cases h

/-- In whatever order a backlog is called, every request that was taken in is pending, and was
handed out as often as it says, or has left once, with an outcome that fits. -/
theorem requests_accounted (agent : AgentId) (depth : Nat) (calls : List Call) :
    Accounted depth (run calls (new agent depth)).1 (run calls (new agent depth)).2 := by
  have h := account_of_run agent depth calls
  constructor
  case room => exact h.room
  case turnedAway =>
    intro step hm hresponse
    obtain ⟨-, d, c, -, rfl⟩ :=
      exists_of_mem_run (fun _ _ c h => h.step c) (account_new agent depth) hm
    exact after_of_turnedAway hresponse
  case numbered => exact h.numbered
  case known => exact fun r hr => (h.pending r hr).1
  case endedOf =>
    intro f hf
    obtain ⟨r, hc, ho, -⟩ := h.closed f hf
    exact ⟨r.origin, ho, (congrArg Ident.ticket hc.ident).symm⟩
  case fate => exact fun x hx => h.fate hx

/-- A request that the link refuses after having taken it waits for its turn, and for its reply. -/
example :
    (run [.submit 1 "alpha" 1 (.expecting [7] 3) .normal 2, .launch, .transmitted 0 5,
      .refused "late"] (new 1 1)).2.backlog.waiting.map (·.phase) = [.awaitingAck] := by
  decide

end Desk

end GroundControl
