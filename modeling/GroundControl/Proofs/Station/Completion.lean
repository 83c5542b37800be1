import GroundControl.Proofs.Station.Transfer

/-!
# Every request ends once

A request that a station has taken in is pending in the backlog of its agent, and nowhere else,
until it ends in one step.  In that step its submitter learns one outcome and subscribers are told
of one end, with the same outcome; nobody is told anything about it before or afterwards.

* `Station.holders`, the agents in whose backlogs a request is pending; `Step.told`, what a step
  tells about a request;
* `Unfinished`, `Completed`, the two states of a request;
* `Distinct`: the pending requests and those that are still to be submitted differ;
* `completion_of_run`, for one request in a run from any sound station;
* `ExactlyOnce`, for every request and the counters, and `exactly_once_completion`: it holds of
  every run from the beginning.
-/

namespace GroundControl

/-- The request whose end an event tells of. -/
def Event.request? : Event → Option RequestId
  | .finished _ _ request _ _ => some request
  | _ => none

namespace Station

variable {τ : Type}

/-- The agents in whose backlogs a request is pending, as often as it is. -/
def holders (s : Station τ) (request : RequestId) : List AgentId :=
  s.agents.entries.flatMap fun e =>
    (e.2.requests.filter fun r => r.id = request).map fun _ => e.1

theorem holders_eq {s : Station τ} (hs : s.Sound) (request : RequestId) :
    s.holders request = (s.idents.filter fun i => i.request = request).map Ident.agent := by
  have he : ∀ e ∈ s.agents.entries, ∀ i ∈ e.2.requests.map Request.ident, i.agent = e.1 := by
    intro e he i hi
    have hg : s.agents.get? e.1 = some e.2 := Table.mem_entries_iff.1 he
    rw [requests_queueOf hg] at hi
    exact hs.placed e.1 i hi
  unfold holders idents requests
  generalize s.agents.entries = entries at he ⊢
  induction entries with
  | nil => rfl
  | cons e l ih =>
    obtain ⟨hfirst, hrest⟩ := List.forall_mem_cons.1 he
    have hh : (e.2.requests.filter fun r => r.id = request).map (fun _ => e.1) =
        ((e.2.requests.map Request.ident).filter fun i => i.request = request).map
          Ident.agent := by
      rw [List.filter_map, List.map_map]
      refine List.map_congr_left fun r hr => ?_
      exact (hfirst r.ident (List.mem_map_of_mem (List.mem_filter.1 hr).1)).symm
    rw [List.flatMap_cons, List.flatMap_cons, ih hrest, List.map_append, List.filter_append,
      List.map_append, hh]

end Station

namespace Step

variable {τ : Type}

/-- What a step tells about a request: the outcomes its submitter learns, and the ends subscribers
are told of. -/
def told (step : Step τ) (h : Handle) : List Outcome × List Event :=
  (((Station.outcomes step.effects).filter fun o => o.1 = h.ticket).map (·.2),
    (Station.ends step.effects).filter fun e => e.request? = some h.request)

end Step

namespace Station

variable {τ : Type}

/-- A request is pending in the backlog of its agent and nowhere else, and nobody was told of an
end. -/
structure Unfinished (steps : List (Step τ)) (s : Station τ) (h : Handle) : Prop where
  held : s.holders h.request = [h.agent]
  untold : ∀ step ∈ steps, step.told h = ([], [])

/-- A request is pending nowhere.  It ended in one step, which told its outcome to its submitter
and to the subscribers; no other step told anything about it. -/
structure Completed (steps : List (Step τ)) (s : Station τ) (h : Handle) : Prop where
  released : s.holders h.request = []
  told : ∃ before step after outcome, steps = before ++ step :: after ∧
    (step.before.holders h.request = [h.agent] ∨ step.response.handle? = some h) ∧
    step.after.holders h.request = [] ∧
    step.told h =
      ([outcome], [.finished s.id h.agent h.request outcome.phase outcome]) ∧
    ∀ other ∈ before ++ after, other.told h = ([], [])

/-! ### Distinct requests -/

/-- The pending requests differ from each other and from those with the numbers `later`. -/
structure Distinct (s : Station τ) (later : List RequestId) : Prop where
  requests : (s.idents.map Ident.request ++ later).Nodup
  numbered : s.Numbered

theorem Distinct.sublist {s : Station τ} {l m : List RequestId} (h : Distinct s m)
    (hl : l.Sublist m) : Distinct s l where
  requests := h.requests.sublist (hl.append_left _)
  numbered := h.numbered

/-- The requests that end and those that stay, together with those to be submitted later, are
distinct if those at the beginning are. -/
structure Divided (s : Station τ) (ended : List Finished) (s' : Station τ)
    (later : List RequestId) : Prop where
  requests : ((ended.map Finished.ident ++ s'.idents).map Ident.request ++ later).Nodup
  tickets : ((ended.map Finished.ident ++ s'.idents).map Ident.ticket).Nodup
  lt : ∀ i ∈ ended.map Finished.ident ++ s'.idents, i.ticket < s'.tickets
  numbered : s'.Numbered

theorem Transfer.divided {s s' : Station τ} {fresh : List Ident} {ended : List Finished}
    {later : List RequestId} (h : Transfer s fresh ended s')
    (hd : Distinct s (fresh.map Ident.request ++ later)) : Divided s ended s' later where
  requests := by
    have hp := (h.balance.map Ident.request).append_right later
    rw [List.map_append, List.append_assoc] at hp
    exact hp.nodup_iff.1 hd.requests
  tickets := h.nodup hd.numbered
  lt := h.lt hd.numbered
  numbered := h.keeps_numbered hd.numbered

theorem Divided.distinct {s s' : Station τ} {ended : List Finished} {later : List RequestId}
    (h : Divided s ended s' later) : Distinct s' later where
  requests := by
    have hr := h.requests
    rw [List.map_append, List.append_assoc] at hr
    exact hr.of_append_right
  numbered := h.numbered

/-! ### What a step tells -/

/-- What a step tells about a request is told of the requests that end in it. -/
theorem told_eq {step : Step τ} {fresh : List Ident} {ended : List Finished}
    (h : Transfer step.before fresh ended step.after) (x : Handle) :
    step.told x = ((ended.filter fun f => f.ticket = x.ticket).map (·.outcome),
      (ended.filter fun f => f.request = x.request).map (·.event step.before.id)) := by
  obtain ⟨ho, he⟩ := h.effects step
  have hr : ∀ f : Finished, (f.event step.before.id).request? = some f.request := fun _ => rfl
  unfold Step.told
  rw [ho, he, List.filter_map, List.filter_map, List.map_map]
  simp only [Function.comp_def, hr, Option.some.injEq]

theorem told_of_forall_ne (step : Step τ) {fresh : List Ident} {ended : List Finished}
    (h : Transfer step.before fresh ended step.after) {x : Handle}
    (hx : ∀ f ∈ ended, f.ticket ≠ x.ticket ∧ f.request ≠ x.request) :
    step.told x = ([], []) := by
  have ht : ended.filter (fun f => f.ticket = x.ticket) = [] :=
    List.filter_eq_nil_iff.2 fun f hf hc => (hx f hf).1 (of_decide_eq_true hc)
  have hr : ended.filter (fun f => f.request = x.request) = [] :=
    List.filter_eq_nil_iff.2 fun f hf hc => (hx f hf).2 (of_decide_eq_true hc)
  rw [told_eq h, ht, hr]
  rfl

theorem told_of_mem (step : Step τ) {fresh : List Ident} {ended : List Finished}
    {later : List RequestId} (h : Transfer step.before fresh ended step.after)
    (hd : Divided step.before ended step.after later) {x : Handle} {f : Finished} (hf : f ∈ ended)
    (hx : f.ident = x.ident) :
    step.told x = ([f.outcome],
      [.finished step.before.id x.agent x.request f.outcome.phase f.outcome]) := by
  have ht : f.ticket = x.ticket := congrArg Ident.ticket hx
  have hr : f.request = x.request := congrArg Ident.request hx
  have ha : f.agent = x.agent := congrArg Ident.agent hx
  have htickets : (ended.map fun f => f.ticket).Nodup := by
    have hn := hd.tickets
    rw [List.map_append, List.map_map] at hn
    exact hn.of_append_left
  have hrequests : (ended.map fun f => f.request).Nodup := by
    have hn := hd.requests
    rw [List.map_append, List.map_map, List.append_assoc] at hn
    exact hn.of_append_left
  rw [told_eq h, ← ht, ← hr, ← ha, filter_eq_singleton htickets hf,
    filter_eq_singleton hrequests hf]
  have hfit : f.phase = f.outcome.phase := h.fits f hf
  rw [← hfit]
  rfl

/-- A request that stays pending, or is not taken in yet, is not among those that end. -/
theorem Divided.ne_of_mem {s s' : Station τ} {ended : List Finished} {later : List RequestId}
    (h : Divided s ended s' later) {x : Handle} (hx : x.ident ∈ s'.idents) :
    ∀ f ∈ ended, f.ticket ≠ x.ticket ∧ f.request ≠ x.request := by
  intro f hf
  have hm : f.ident ∈ ended.map Finished.ident := List.mem_map_of_mem hf
  constructor
  · have hn := h.tickets
    rw [List.map_append] at hn
    intro hc
    have hc : x.ident.ticket = f.ident.ticket := hc.symm
    exact List.disjoint_of_nodup_append hn (List.mem_map_of_mem hm) (hc ▸ List.mem_map_of_mem hx)
  · have hn := h.requests
    rw [List.map_append, List.append_assoc] at hn
    intro hc
    have hc : x.ident.request = f.ident.request := hc.symm
    exact List.disjoint_of_nodup_append hn (List.mem_map_of_mem hm)
      (List.mem_append_left _ (hc ▸ List.mem_map_of_mem hx))

theorem Divided.ne_of_later {s s' : Station τ} {ended : List Finished} {later : List RequestId}
    (h : Divided s ended s' later) {x : Handle} (hr : x.request ∈ later)
    (ht : s'.tickets ≤ x.ticket) :
    ∀ f ∈ ended, f.ticket ≠ x.ticket ∧ f.request ≠ x.request := by
  intro f hf
  have hm : f.ident ∈ ended.map Finished.ident := List.mem_map_of_mem hf
  constructor
  · have hlt := h.lt f.ident (List.mem_append_left _ hm)
    exact fun hc => Nat.not_lt.2 ht (hc ▸ hlt)
  · have hn := h.requests
    rw [List.map_append, List.append_assoc] at hn
    intro hc
    have hc : x.request = f.ident.request := hc.symm
    exact List.disjoint_of_nodup_append hn (List.mem_map_of_mem hm)
      (List.mem_append_right _ (hc ▸ hr))

/-! ### Where a request is pending -/

theorem holders_of_mem {s : Station τ} {later : List RequestId} (hs : s.Sound)
    (hd : Distinct s later) {x : Handle} (hx : x.ident ∈ s.idents) :
    s.holders x.request = [x.agent] := by
  have hf : s.idents.filter (fun i => i.request = x.request) = [x.ident] :=
    filter_eq_singleton (g := Ident.request) hd.requests.of_append_left hx
  rw [holders_eq hs, hf]
  rfl

theorem holders_of_not_mem {s : Station τ} (hs : s.Sound) {request : RequestId}
    (hx : request ∉ s.idents.map Ident.request) : s.holders request = [] := by
  have hf : s.idents.filter (fun i => i.request = request) = [] :=
    List.filter_eq_nil_iff.2 fun i hi hc => hx (of_decide_eq_true hc ▸ List.mem_map_of_mem hi)
  rw [holders_eq hs, hf]
  rfl

/-! ### Requests that are away -/

/-- A request that is pending nowhere and is not submitted any more: nobody is told about it. -/
structure Away (s : Station τ) (later : List RequestId) (x : Handle) : Prop where
  request : x.request ∉ s.idents.map Ident.request ++ later
  ticket : x.ticket ∉ s.idents.map Ident.ticket
  numbered : x.ticket < s.tickets

theorem Transfer.away {s s' : Station τ} {fresh : List Ident} {ended : List Finished}
    {later : List RequestId} {x : Handle} (h : Transfer s fresh ended s')
    (hx : Away s (fresh.map Ident.request ++ later) x) :
    Away s' later x ∧ ∀ f ∈ ended, f.ticket ≠ x.ticket ∧ f.request ≠ x.request := by
  -- whatever was pending before or is taken in has another number and another ticket
  have hne : ∀ i ∈ ended.map Finished.ident ++ s'.idents,
      i.ticket ≠ x.ticket ∧ i.request ≠ x.request := by
    intro i hi
    rcases List.mem_append.1 (h.balance.mem_iff.2 hi) with hi | hi
    · exact ⟨fun hc => hx.ticket (hc ▸ List.mem_map_of_mem hi),
        fun hc => hx.request (List.mem_append_left _ (hc ▸ List.mem_map_of_mem hi))⟩
    · constructor
      · have hm : i.ticket ∈ fresh.map Ident.ticket := List.mem_map_of_mem hi
        rw [h.numbered] at hm
        have hle := (List.mem_range'_1.1 hm).1
        exact fun hc => Nat.not_lt.2 hle (hc ▸ hx.numbered)
      · have hm : i.request ∈ fresh.map Ident.request := List.mem_map_of_mem hi
        exact fun hc => hx.request
          (List.mem_append_right _ (List.mem_append_left _ (hc ▸ hm)))
  refine ⟨⟨?_, ?_, ?_⟩, ?_⟩
  · intro hm
    rcases List.mem_append.1 hm with hm | hm
    · obtain ⟨i, hi, hc⟩ := List.mem_map.1 hm
      exact (hne i (List.mem_append_right _ hi)).2 hc
    · exact hx.request (List.mem_append_right _ (List.mem_append_right _ hm))
  · intro hm
    obtain ⟨i, hi, hc⟩ := List.mem_map.1 hm
    exact (hne i (List.mem_append_right _ hi)).1 hc
  · rw [h.tickets]
    exact Nat.lt_of_lt_of_le hx.numbered (Nat.le_add_right _ _)
  · intro f hf
    exact hne f.ident (List.mem_append_left _ (List.mem_map_of_mem hf))

/-- The requests that end in a step are away afterwards. -/
theorem Divided.away {s s' : Station τ} {ended : List Finished} {later : List RequestId}
    (h : Divided s ended s' later) {x : Handle} (hx : x.ident ∈ ended.map Finished.ident) :
    Away s' later x where
  request := by
    have hn := h.requests
    rw [List.map_append, List.append_assoc] at hn
    exact List.disjoint_of_nodup_append hn (List.mem_map_of_mem hx)
  ticket := by
    have hn := h.tickets
    rw [List.map_append] at hn
    exact List.disjoint_of_nodup_append hn (List.mem_map_of_mem hx)
  numbered := h.lt x.ident (List.mem_append_left _ hx)

/-! ### Runs -/

theorem Unfinished.cons {step : Step τ} {steps : List (Step τ)} {s : Station τ} {x : Handle}
    (h : Unfinished steps s x) (hx : step.told x = ([], [])) : Unfinished (step :: steps) s x :=
  ⟨h.held, List.forall_mem_cons.2 ⟨hx, h.untold⟩⟩

theorem Completed.cons {step : Step τ} {steps : List (Step τ)} {s : Station τ} {x : Handle}
    (h : Completed steps s x) (hx : step.told x = ([], [])) : Completed (step :: steps) s x := by
  refine ⟨h.released, ?_⟩
  obtain ⟨before, ending, after, outcome, rfl, hb, ha, ht, ho⟩ := h.told
  exact ⟨step :: before, ending, after, outcome, rfl, hb, ha, ht,
    List.forall_mem_cons.2 ⟨hx, ho⟩⟩

section Run

variable [Carrier τ]

/-- The numbers of the requests an operation takes in are among those it submits. -/
theorem fresh_sublist {s s' : Station τ} {operation : Operation} {response : Result}
    (h : perform operation s = .ok response s') (rest : List Operation) :
    ((response.handle?.toList.map Handle.ident).map Ident.request ++ submitted rest).Sublist
      (submitted (operation :: rest)) := by
  rw [submitted_cons]
  refine List.Sublist.append_right ?_ _
  cases hx : response.handle? with
  | none => exact List.nil_sublist _
  | some x =>
    rw [submission_of_handle h hx]
    exact .refl _

/-- The numbers of the requests a run takes in are among those it submits. -/
theorem accepted_sublist {operations : List Operation} {s last : Station τ} {steps : List (Step τ)}
    (h : run operations s = .ok (steps, last)) :
    ((accepted steps).map Handle.request).Sublist (submitted operations) := by
  induction operations generalizing s steps with
  | nil =>
    cases h
    exact .refl _
  | cons operation rest ih =>
    obtain ⟨response, after, others, hp, hr, rfl⟩ := run_cons_eq_ok.1 h
    have hsub := fresh_sublist hp rest
    rw [List.map_map] at hsub
    rw [accepted_cons, List.map_append]
    exact ((ih hr).append_left _).trans hsub

/-- The requests of a run and those that are still to be submitted after it stay distinct. -/
theorem distinct_of_run {operations : List Operation} {s last : Station τ} {steps : List (Step τ)}
    {later : List RequestId} (hs : s.Sound) (hd : Distinct s (submitted operations ++ later))
    (h : run operations s = .ok (steps, last)) : Distinct last later := by
  obtain ⟨-, ended, ht⟩ := run_transfer hs h
  refine (ht.divided (hd.sublist (List.Sublist.append_right ?_ later))).distinct
  rw [List.map_map]
  exact accepted_sublist h

omit [Carrier τ] in
theorem mem_accepted_cons {step : Step τ} {steps : List (Step τ)} {x : Handle} :
    x ∈ accepted (step :: steps) ↔ step.response.handle? = some x ∨ x ∈ accepted steps := by
  rw [accepted_cons, List.mem_append, Option.mem_toList]

/-- A request that is taken in during a run has a number that is submitted and a new ticket. -/
theorem new_of_accepted {operations : List Operation} {s last : Station τ}
    {steps : List (Step τ)} (hs : s.Sound) (h : run operations s = .ok (steps, last))
    {x : Handle} (hx : x ∈ accepted steps) :
    x.request ∈ submitted operations ∧ s.tickets ≤ x.ticket := by
  constructor
  · obtain ⟨step, hm, hh⟩ := List.mem_filterMap.1 hx
    obtain ⟨ho, hp⟩ := perform_of_mem_run h hm
    refine List.mem_filterMap.2 ⟨step.operation, ho, ?_⟩
    rw [submission_of_handle hp hh]
    rfl
  · obtain ⟨-, ended, ht⟩ := run_transfer hs h
    have hm : x.ident.ticket ∈ ((accepted steps).map Handle.ident).map Ident.ticket :=
      List.mem_map_of_mem (List.mem_map_of_mem hx)
    rw [ht.numbered] at hm
    exact (List.mem_range'_1.1 hm).1

/-- Nobody is told anything about a request that is away, and it stays away. -/
theorem untold_of_away {operations : List Operation} {s last : Station τ}
    {steps : List (Step τ)} {x : Handle} (hs : s.Sound) (hx : Away s (submitted operations) x)
    (h : run operations s = .ok (steps, last)) :
    (∀ step ∈ steps, step.told x = ([], [])) ∧ last.holders x.request = [] := by
  induction operations generalizing s steps with
  | nil =>
    cases h
    refine ⟨fun step hm => absurd hm List.not_mem_nil, ?_⟩
    exact holders_of_not_mem hs fun hm => hx.request (List.mem_append_left _ hm)
  | cons operation rest ih =>
    obtain ⟨response, after, others, hp, hr, rfl⟩ := run_cons_eq_ok.1 h
    obtain ⟨hs₁, ended, ht⟩ := perform_transfer hs hp
    -- what is taken in now is among what is submitted, so it is another request
    have hx : Away s ((response.handle?.toList.map Handle.ident).map Ident.request ++
        submitted rest) x :=
      ⟨fun hm => hx.request (((fresh_sublist hp rest).append_left _).subset hm), hx.ticket,
        hx.numbered⟩
    obtain ⟨hx₁, hne⟩ := ht.away hx
    obtain ⟨huntold, hlast⟩ := ih hs₁ hx₁ hr
    exact ⟨List.forall_mem_cons.2
      ⟨told_of_forall_ne ⟨s, operation, response, after⟩ ht hne, huntold⟩, hlast⟩

/-! ### Exactly once -/

/-- A request that is pending, or is taken in during a run, is either still pending at the end, or
has ended in one step of the run. -/
theorem completion_of_run {operations : List Operation} {s last : Station τ}
    {steps : List (Step τ)} (hs : s.Sound) (hd : Distinct s (submitted operations))
    (h : run operations s = .ok (steps, last)) {x : Handle}
    (hx : x.ident ∈ s.idents ∨ x ∈ accepted steps) :
    Unfinished steps last x ∨ Completed steps last x := by
  induction operations generalizing s steps with
  | nil =>
    cases h
    have hx : x.ident ∈ last.idents := hx.resolve_right List.not_mem_nil
    exact .inl ⟨holders_of_mem hs hd hx, fun step hm => absurd hm List.not_mem_nil⟩
  | cons operation rest ih =>
    obtain ⟨response, after, others, hp, hr, rfl⟩ := run_cons_eq_ok.1 h
    obtain ⟨hs₁, ended, ht⟩ := perform_transfer hs hp
    have hdiv := ht.divided (hd.sublist (fresh_sublist hp rest))
    rw [mem_accepted_cons, ← or_assoc] at hx
    -- the request is pending or taken in at this operation, or taken in later
    rcases hx with hnow | hlater
    · have hm : x.ident ∈ ended.map Finished.ident ++ after.idents := by
        refine ht.balance.mem_iff.1 (List.mem_append.2 ?_)
        rcases hnow with hb | hh
        · exact .inl hb
        · rw [hh]
          exact .inr List.mem_cons_self
      rcases List.mem_append.1 hm with hend | hstay
      · obtain ⟨f, hf, hi⟩ := List.mem_map.1 hend
        -- it ends here: its end is told now, and nothing is told of it any more
        have haway := hdiv.away hend
        obtain ⟨huntold, hreleased⟩ := untold_of_away hs₁ haway hr
        obtain ⟨-, _, htrest⟩ := run_transfer hs₁ hr
        have hid : last.id = s.id :=
          congrArg NetworkSettings.id (htrest.settings.trans ht.settings)
        refine .inr ⟨hreleased, [], _, others, f.outcome, rfl, ?_, ?_, ?_, huntold⟩
        · rcases hnow with hb | hh
          · exact .inl (holders_of_mem hs hd hb)
          · exact .inr hh
        · exact holders_of_not_mem hs₁ fun hm => haway.request (List.mem_append_left _ hm)
        · rw [hid]
          exact told_of_mem ⟨s, operation, response, after⟩ ht hdiv hf hi
      · have hu := told_of_forall_ne ⟨s, operation, response, after⟩ ht
          (hdiv.ne_of_mem hstay)
        rcases ih hs₁ hdiv.distinct hr (.inl hstay) with hi | hi
        · exact .inl (hi.cons hu)
        · exact .inr (hi.cons hu)
    · obtain ⟨hreq, hticket⟩ := new_of_accepted hs₁ hr hlater
      have hu := told_of_forall_ne ⟨s, operation, response, after⟩ ht
        (hdiv.ne_of_later hreq hticket)
      rcases ih hs₁ hdiv.distinct hr (.inr hlater) with hi | hi
      · exact .inl (hi.cons hu)
      · exact .inr (hi.cons hu)

omit [Carrier τ] in
/-- A station that was shut down has no agents. -/
theorem agents_shutdown [Walk] {s s' : Station τ} {now : Instant} (h : shutdown now s = .ok () s') :
    s'.agents = ∅ := by
  obtain ⟨s₁, hf, rfl⟩ := shutdown_eq_ok.1 h
  have he : ∀ (entries : List (AgentId × Agent)) (t t' : Station τ),
      entries.forM (fun e => evict e.1 e.2 now) t = .ok () t' → t'.agents = t.agents := by
    intro entries
    induction entries with
    | nil =>
      intro t t' ht
      rw [Act.forM_nil_eq_ok.1 ht]
    | cons e rest ih =>
      intro t t' ht
      obtain ⟨u, he, hr⟩ := Act.forM_cons_eq_ok.1 ht
      obtain ⟨-, rfl⟩ := evict_eq_ok.1 he
      exact ih (t.evicted e.1 e.2 now) t' hr
  exact he _ _ _ hf

/-- Every request that was taken in is either unfinished or completed, the counters account for all
of them, and none is pending after the station was shut down. -/
structure ExactlyOnce (steps : List (Step τ)) (s : Station τ) : Prop where
  either : ∀ x ∈ accepted steps, Unfinished steps s x ∨ Completed steps s x
  not_both : ∀ x ∈ accepted steps, ¬ (Unfinished steps s x ∧ Completed steps s x)
  counted : s.tally.acked + s.tally.failed + s.tally.cancelled + s.queueDepth =
    (accepted steps).length
  closed : ∀ step ∈ steps, ∀ walk now, step.operation = .shutdown walk now →
    step.after.queueDepth = 0

/-- Whatever is asked of a station from its beginning on, in whatever order and at whatever times,
and whatever the link answers: each request that was taken in ends exactly once. -/
theorem exactly_once_completion {settings : NetworkSettings} {carrier : τ} {start : Instant}
    {operations : List Operation} {steps : List (Step τ)} {s : Station τ}
    (h : run operations (new settings carrier start) = .ok (steps, s))
    (hids : (submitted operations).Nodup) : ExactlyOnce steps s := by
  have hnew : (new settings carrier start).Sound := sound_new settings carrier start
  refine ⟨?_, ?_, ?_, ?_⟩
  · intro x hx
    have hd : Distinct (new settings carrier start) (submitted operations) :=
      ⟨hids, numbered_new settings carrier start⟩
    exact completion_of_run hnew hd h (.inr hx)
  · rintro x - ⟨hu, hc⟩
    have hn := hu.held.symm.trans hc.released
    cases hn
  · -- the balance of the whole run, counted
    obtain ⟨-, ended, ht⟩ := run_transfer hnew h
    have hl := ht.balance.length_eq
    have hq : s.idents.length = s.queueDepth := by
      unfold idents
      rw [List.length_map, length_requests]
    have ht : s.tally.ended = 0 + ended.length := ht.tally
    rw [List.length_append, List.length_append, List.length_map, List.length_map, hq] at hl
    have h0 : (new settings carrier start).idents.length = 0 := rfl
    unfold Tally.ended at ht
    omega
  · intro step hm walk now ho
    obtain ⟨-, hp⟩ := perform_of_mem_run h hm
    rw [ho] at hp
    obtain ⟨⟨⟩, s₁, hs, hf⟩ := Act.bind_eq_ok.1 hp
    have ha := agents_shutdown hs
    obtain ⟨-, hs₁⟩ := Act.pure_eq_ok.1 hf
    unfold queueDepth
    rw [← hs₁, ha]
    rfl

end Run

/-- Two requests for one agent, of which the first expects a reply. -/
def twoRequests : List Operation :=
  [.route (.heartbeat "alpha" 1) 0,
    .submit 1 1 (.expecting [7] 3) .normal 0 10,
    .submit 2 1 (.oneWay [8]) .normal 0 20,
    .deliver (.accepted "alpha" 1 3) 30]

theorem exactly_once_completion_twoRequests :
    ∃ steps s, run twoRequests (new { id := "alpha" } (Pipe.new "up" 4) 0) = .ok (steps, s) ∧
      (submitted twoRequests).Nodup ∧ (accepted steps).length = 2 ∧ ExactlyOnce steps s := by
  have hrun : (run twoRequests (new { id := "alpha" } (Pipe.new "up" 4) 0)).toOption.map
      (fun r => (accepted r.1).length) = some 2 := by decide +kernel
  cases h : run twoRequests (new { id := "alpha" } (Pipe.new "up" 4) 0) with
  | error fault =>
    rw [h] at hrun
    cases hrun
  | ok r =>
    obtain ⟨steps, s⟩ := r
    rw [h] at hrun
    have hids : (submitted twoRequests).Nodup := by decide
    exact ⟨steps, s, rfl, hids, Option.some.inj hrun, exactly_once_completion h hids⟩

end Station

end GroundControl
