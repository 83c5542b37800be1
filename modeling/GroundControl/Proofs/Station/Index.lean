import GroundControl.Proofs.Station.Books
import GroundControl.Proofs.Station.Completion

/-!
# The index of the pending requests

A station keeps an index of the pending requests, so that it need not search the backlogs.  The
index names each of them, with the agent whose backlog holds it, and nothing else; so a request can
be withdrawn exactly while it is pending, and until it ends it is either queued or waiting for its
reply.

* `Station.Indexed`; `indexed_of_run`: the index stays right along a run;
* `get?_pending_iff`: what the index says of the backlogs; `get?_pending_of_kept`: what a step does
  to it;
* `cancel_eq_true_iff`, `phaseOf_of_pending`, what follows for callers;
* `Ending`, when a request ends in a step; `indexed_of_run`.
-/

namespace GroundControl

namespace Backlog

/-- A request is found if it is pending. -/
theorem withdraw_eq_true_iff (b : Backlog) (id : RequestId) :
    (b.withdraw id).1 = true ↔ ∃ r ∈ b.requests, r.id = id := by
  unfold withdraw
  cases hf : b.inFlight.filter (fun r => r.id = id) with
  | some r =>
    obtain ⟨hr, hid⟩ := Option.filter_eq_some_iff.1 hf
    have hm : r ∈ b.requests := List.mem_append_left _ (Option.mem_toList.2 hr)
    exact ⟨fun _ => ⟨r, hm, of_decide_eq_true hid⟩, fun _ => rfl⟩
  | none =>
    have hne : ∀ r, b.inFlight = some r → r.id ≠ id := fun r hr hid =>
      Option.some_ne_none r ((Option.filter_eq_some_iff.2 ⟨hr, decide_eq_true hid⟩).symm.trans hf)
    unfold requests
    simp only [List.any_eq_true, decide_eq_true_eq, List.mem_append, Option.mem_toList]
    constructor
    · rintro ⟨r, hr, hid⟩
      exact ⟨r, .inr hr, hid⟩
    · rintro ⟨r, hr | hr, hid⟩
      · exact absurd hid (hne r hr)
      · exact ⟨r, hr, hid⟩

/-- Between two operations a pending request is queued or waits for its reply. -/
theorem Settled.phaseOf_of_mem {b : Backlog} (h : b.Settled) {id : RequestId}
    (hid : ∃ r ∈ b.requests, r.id = id) :
    b.phaseOf id = some .queued ∨ b.phaseOf id = some .awaitingAck := by
  unfold Backlog.phaseOf
  cases hr : b.requests.find? (fun r => r.id == id) with
  | none =>
    obtain ⟨r, hr', hid⟩ := hid
    exact absurd (beq_iff_eq.2 hid) (List.find?_eq_none.1 hr r hr')
  | some r =>
    rw [Option.map_some]
    rcases mem_requests.1 (List.mem_of_find?_eq_some hr) with hr | hr
    · exact .inr (congrArg some (h.inFlight r hr).phase)
    · exact .inl (congrArg some (h.waiting r hr).phase)

end Backlog

namespace Station

variable {τ : Type} {s : Station τ}

/-- The index names each pending request, with its agent, and nothing else. -/
def Indexed (s : Station τ) : Prop :=
  ∀ id agent, s.pending.get? id = some agent ↔ ∃ i ∈ s.idents, i.request = id ∧ i.agent = agent

theorem indexed_new (settings : NetworkSettings) (carrier : τ) (now : Instant) :
    (new settings carrier now).Indexed := by
  intro id agent
  constructor
  · intro h
    cases h
  · rintro ⟨i, hi, -⟩
    cases hi

/-! ### The index and the backlogs -/

theorem Sound.exists_ident_iff (hs : s.Sound) {id : RequestId} {agent : AgentId} :
    (∃ i ∈ s.idents, i.request = id ∧ i.agent = agent) ↔
      ∃ b, s.backlogOf agent = some b ∧ ∃ r ∈ b.requests, r.id = id := by
  constructor
  · rintro ⟨i, hi, rfl, rfl⟩
    obtain ⟨r, hr, hri⟩ := List.mem_map.1 (hs.mem_queueOf hi)
    cases hb : s.backlogOf i.agent with
    | none =>
      rw [queueOf_of_backlogOf_eq_none hb] at hr
      cases hr
    | some b =>
      rw [queueOf_of_backlogOf hb] at hr
      exact ⟨b, rfl, r, hr, congrArg Ident.request hri⟩
  · rintro ⟨b, hb, r, hr, rfl⟩
    rw [← queueOf_of_backlogOf hb] at hr
    have hm : r.ident ∈ (s.queueOf agent).idents := List.mem_map_of_mem hr
    exact ⟨r.ident, mem_idents_of_queueOf hm, rfl, hs.placed agent r.ident hm⟩

/-- The index names an agent for a request if the backlog of the agent holds the request. -/
theorem Indexed.get?_pending_iff (h : s.Indexed) (hs : s.Sound) (id : RequestId) (agent : AgentId) :
    s.pending.get? id = some agent ↔
      ∃ b, s.backlogOf agent = some b ∧ ∃ r ∈ b.requests, r.id = id :=
  (h id agent).trans hs.exists_ident_iff

theorem Indexed.exists_pending_iff (h : s.Indexed) (id : RequestId) :
    (∃ agent, s.pending.get? id = some agent) ↔ id ∈ s.idents.map Ident.request := by
  rw [List.mem_map]
  constructor
  · rintro ⟨agent, hp⟩
    obtain ⟨i, hi, hid, -⟩ := (h id agent).1 hp
    exact ⟨i, hi, hid⟩
  · rintro ⟨i, hi, hid⟩
    exact ⟨i.agent, (h id i.agent).2 ⟨i, hi, hid, rfl⟩⟩

/-- A request can be withdrawn exactly while it is pending. -/
theorem Indexed.cancel_eq_true_iff (h : s.Indexed) (hs : s.Sound) (id : RequestId) :
    (cancel id s).1 = true ↔ ∃ agent, s.pending.get? id = some agent := by
  unfold cancel
  cases hp : s.pending.get? id with
  | none => simp
  | some agent =>
    obtain ⟨b, hb, hr⟩ := (h.get?_pending_iff hs id agent).1 hp
    dsimp only
    rw [hb]
    exact iff_of_true (b.withdraw_eq_true_iff id |>.2 hr) ⟨agent, rfl⟩

theorem Indexed.phaseOf_of_pending (h : s.Indexed) (hs : s.Sound) {id : RequestId} {agent : AgentId}
    (hp : s.pending.get? id = some agent) :
    s.phaseOf id = some .queued ∨ s.phaseOf id = some .awaitingAck := by
  obtain ⟨b, hb, hr⟩ := (h.get?_pending_iff hs id agent).1 hp
  have hset := hs.settled agent
  rw [queueOf_of_backlogOf hb] at hset
  unfold phaseOf
  rw [hp]
  dsimp only
  rw [hb]
  exact hset.phaseOf_of_mem hr

/-! ### The index along a run -/

/-- The index once a request was taken in, if one was. -/
theorem Indexed.enter (h : s.Indexed) {x : Option Handle} {later : List RequestId}
    (hd : Distinct s ((x.toList.map Handle.ident).map Ident.request ++ later))
    (id : RequestId) (agent : AgentId) :
    (s.books.enter x).pending.get? id = some agent ↔
      ∃ i ∈ s.idents ++ x.toList.map Handle.ident, i.request = id ∧ i.agent = agent := by
  cases x with
  | none =>
    rw [Option.toList_none, List.map_nil, List.append_nil]
    exact h id agent
  | some x =>
    show (s.pending.insert x.request x.agent).get? id = some agent ↔ _
    have hnew : ∀ i ∈ s.idents, i.request ≠ x.request := fun i hi hc =>
      List.disjoint_of_nodup_append hd.requests (List.mem_map_of_mem hi)
        (hc ▸ List.mem_cons_self)
    simp only [Option.toList_some, List.map_cons, List.map_nil, List.mem_append,
      List.mem_singleton, or_and_right, exists_or, exists_eq_left]
    rw [Table.get?_insert]
    by_cases hid : id = x.request
    · rw [if_pos hid, Option.some.injEq]
      constructor
      · intro ha
        exact .inr ⟨hid.symm, ha⟩
      · rintro (⟨i, hi, hr, -⟩ | ⟨-, ha⟩)
        · exact absurd (hr.trans hid) (hnew i hi)
        · exact ha
    · rw [if_neg hid, h id agent]
      exact (or_iff_left fun hx => hid hx.1.symm).symm

@[simp] theorem pending_forget (b : Books) (past : Option Instant) :
    (b.forget past).pending = b.pending := by
  cases past <;> rfl

/-- What a step does to the index. -/
theorem get?_pending_of_kept {step : Step τ} (h : step.Kept) (id : RequestId) :
    step.after.pending.get? id =
      if id ∈ step.finished.map Prod.fst then none
      else (step.before.books.enter step.response.handle?).pending.get? id := by
  have hp : step.after.pending = _ := congrArg Books.pending h.books
  rw [hp, pending_forget]
  exact Table.get?_foldl_erase Prod.fst _ _ id

/-- The numbers of the requests of whose end a step tells. -/
theorem numbers_finished {step : Step τ} {fresh : List Ident} {ended : List Finished}
    (h : Transfer step.before fresh ended step.after) :
    step.finished.map Prod.fst = (ended.map Finished.ident).map Ident.request := by
  unfold Step.finished
  rw [finishes_of_ends (h.effects step).2, List.map_map, List.map_map]
  rfl

/-- A request ends in a step if it is pending before, or taken in, and not pending afterwards. -/
structure Ending (step : Step τ) (id : RequestId) : Prop where
  held : (∃ agent, step.before.pending.get? id = some agent) ∨
    ∃ x, step.response.handle? = some x ∧ x.request = id
  released : step.after.pending.get? id = none

/-- What a step does to the index: it goes on being right, and a request ends in the step if the
step tells so. -/
theorem Indexed.step (step : Step τ) (h : step.before.Indexed) (hk : step.Kept)
    {ended : List Finished} {later : List RequestId}
    (ht : Transfer step.before (step.response.handle?.toList.map Handle.ident) ended step.after)
    (hd : Distinct step.before
      ((step.response.handle?.toList.map Handle.ident).map Ident.request ++ later)) :
    step.after.Indexed ∧ ∀ id, id ∈ step.finished.map Prod.fst ↔ Ending step id := by
  have hfin := numbers_finished ht
  have hpending := get?_pending_of_kept hk
  have hnodup := (ht.divided hd).requests.of_append_left
  rw [List.map_append] at hnodup
  have hindexed : step.after.Indexed := by
    intro id agent
    rw [hpending, hfin]
    split
    · rename_i hid
      refine iff_of_false (Option.some_ne_none agent).symm ?_
      rintro ⟨i, hi, rfl, -⟩
      exact List.disjoint_of_nodup_append hnodup hid (List.mem_map_of_mem hi)
    · rename_i hid
      rw [h.enter hd]
      constructor
      · rintro ⟨i, hi, rfl, ha⟩
        rcases List.mem_append.1 (ht.balance.mem_iff.1 hi) with hi | hi
        · exact absurd (List.mem_map_of_mem hi) hid
        · exact ⟨i, hi, rfl, ha⟩
      · rintro ⟨i, hi, hr⟩
        exact ⟨i, ht.balance.mem_iff.2 (List.mem_append_right _ hi), hr⟩
  refine ⟨hindexed, fun id => ⟨fun hid => ?_, fun he => ?_⟩⟩
  · refine ⟨?_, by rw [hpending, if_pos hid]⟩
    rw [hfin] at hid
    obtain ⟨i, hi, rfl⟩ := List.mem_map.1 hid
    rcases List.mem_append.1 (ht.balance.mem_iff.2 (List.mem_append_left _ hi)) with hi | hi
    · exact .inl ⟨i.agent, (h _ _).2 ⟨i, hi, rfl, rfl⟩⟩
    · obtain ⟨x, hx, rfl⟩ := List.mem_map.1 hi
      exact .inr ⟨x, Option.mem_toList.1 hx, rfl⟩
  · -- whatever was there before and did not end is there afterwards
    by_contra hid
    have hn := he.released
    rw [hpending, if_neg hid] at hn
    have hgone : ∀ i ∈ step.before.idents ++ step.response.handle?.toList.map Handle.ident,
        i.request ≠ id := fun i hi hr =>
      Option.some_ne_none i.agent (((h.enter hd id i.agent).2 ⟨i, hi, hr, rfl⟩).symm.trans hn)
    rcases he.held with ⟨agent, hp⟩ | ⟨x, hx, hr⟩
    · obtain ⟨i, hi, hr, -⟩ := (h id agent).1 hp
      exact hgone i (List.mem_append_left _ hi) hr
    · exact hgone x.ident
        (List.mem_append_right _ (List.mem_map_of_mem (Option.mem_toList.2 hx))) hr

/-- The index stays right along a run, and the requests that end in a step are those it tells
of. -/
theorem indexed_of_run [Carrier τ] {operations : List Operation} {last : Station τ}
    {steps : List (Step τ)} (h : s.Indexed) (hs : s.Sound) (hd : Distinct s (submitted operations))
    (hrun : run operations s = .ok (steps, last)) :
    last.Indexed ∧ ∀ step ∈ steps, ∀ id, id ∈ step.finished.map Prod.fst ↔ Ending step id := by
  induction operations generalizing s steps with
  | nil =>
    cases hrun
    exact ⟨h, List.forall_mem_nil _⟩
  | cons operation rest ih =>
    obtain ⟨response, after, others, hp, hr, rfl⟩ := run_cons_eq_ok.1 hrun
    obtain ⟨hs₁, ended, ht⟩ := perform_transfer hs hp
    have hd := hd.sublist (fresh_sublist hp rest)
    obtain ⟨h₁, hend⟩ := Indexed.step ⟨s, operation, response, after⟩ h (perform_kept hp)
      ht hd
    obtain ⟨hlast, hends⟩ := ih h₁ hs₁ (ht.divided hd).distinct hr
    exact ⟨hlast, List.forall_mem_cons.2 ⟨hend, hends⟩⟩

end Station

end GroundControl
