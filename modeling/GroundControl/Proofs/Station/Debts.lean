import GroundControl.Proofs.Station.Endings
import GroundControl.Proofs.Station.Index

/-!
# What a station owes its submitters

A station owes an outcome for each request it has taken in, until it tells one.  It tells one
outcome for each request, one that it gives itself; and once it has been shut down it owes nothing.

* `Station.toldTo`, what the submitter with a ticket was told;
* `Station.Listed`: the index names pending requests only;
* `Station.Owes`, the balance since the station began; `Owes.perform`, `owes_of_run`;
* `Owes.told_of_pending`, `Owes.told_of_not_pending`: who has been told what;
* `Owes.cleared`: what a shutdown leaves.
-/

namespace GroundControl

namespace Station

variable {τ : Type} {s s' : Station τ}

/-- The outcomes that the submitter with a ticket was told. -/
def toldTo (s : Station τ) (ticket : Ticket) : List Outcome :=
  ((outcomes s.log).filter fun e => e.1 = ticket).map Prod.snd

/-- The index names pending requests only. -/
def Listed (s : Station τ) : Prop :=
  ∀ id agent, s.pending.get? id = some agent → id ∈ s.idents.map Ident.request

/-- The requests `fresh` were taken in since the station began.  Those in `ended` have ended and
their submitters were told, and the others are pending. -/
structure Owes (fresh : List Ident) (ended : List Finished) (s : Station τ) : Prop where
  sound : s.Sound
  balance : fresh.Perm (ended.map Finished.ident ++ s.idents)
  numbered : fresh.map Ident.ticket = List.range s.tickets
  told : outcomes s.log = ended.map fun f => (f.ticket, f.outcome)
  genuine : ∀ f ∈ ended, f.outcome.Genuine
  listed : s.Listed

theorem owes_new (settings : NetworkSettings) (carrier : τ) (now : Instant) :
    Owes [] [] (new settings carrier now) where
  sound := sound_new settings carrier now
  balance := .refl _
  numbered := rfl
  told := rfl
  genuine := List.forall_mem_nil _
  listed := nofun

/-! ### Operations -/

/-- What a step leaves in the index is pending. -/
theorem Listed.step (step : Step τ) (h : step.before.Listed) (hk : step.Kept)
    {ended : List Finished}
    (ht : Transfer step.before (step.response.handle?.toList.map Handle.ident) ended step.after) :
    step.after.Listed := by
  intro id agent hp
  rw [get?_pending_of_kept hk, numbers_finished ht] at hp
  split at hp
  · cases hp
  · rename_i hid
    -- whatever the index names was there before or is taken in, and it has not ended
    have hbefore : ∃ i ∈ step.before.idents ++ step.response.handle?.toList.map Handle.ident,
        i.request = id := by
      cases hx : step.response.handle? with
      | none =>
        rw [hx] at hp
        obtain ⟨i, hi, he⟩ := List.mem_map.1 (h id agent hp)
        exact ⟨i, List.mem_append_left _ hi, he⟩
      | some x =>
        rw [hx] at hp
        have hp : (step.before.pending.insert x.request x.agent).get? id = some agent := hp
        rw [Table.get?_insert] at hp
        by_cases he : id = x.request
        · exact ⟨x.ident, List.mem_append_right _ List.mem_cons_self, he.symm⟩
        · rw [if_neg he] at hp
          obtain ⟨i, hi, he⟩ := List.mem_map.1 (h id agent hp)
          exact ⟨i, List.mem_append_left _ hi, he⟩
    obtain ⟨i, hi, rfl⟩ := hbefore
    rcases List.mem_append.1 (ht.balance.mem_iff.1 hi) with hi | hi
    · exact absurd (List.mem_map_of_mem hi) hid
    · exact List.mem_map_of_mem hi

variable {fresh : List Ident} {ended : List Finished}

theorem Owes.next {fresh' : List Ident} {ended' : List Finished} (h : Owes fresh ended s)
    (ht : Transfer s fresh' ended' s') (hs : s'.Sound) (hg : ∀ f ∈ ended', f.outcome.Genuine)
    (hl : s'.Listed) : Owes (fresh ++ fresh') (ended ++ ended') s' where
  sound := hs
  balance := by
    rw [List.map_append, List.append_assoc]
    refine (h.balance.append_right fresh').trans ?_
    rw [List.append_assoc]
    exact ht.balance.append_left _
  numbered := by
    rw [List.map_append, h.numbered, ht.numbered, ht.tickets, List.range_eq_range',
      List.range_eq_range', ← List.range'_append_1, Nat.zero_add]
  told := by
    obtain ⟨effects, hlog, ho, -⟩ := ht.log
    rw [hlog, outcomes_append, h.told, ho, List.map_append]
  genuine := List.forall_mem_append.2 ⟨h.genuine, hg⟩
  listed := hl

theorem Owes.of_quiet (h : Owes fresh ended s) (hq : Quiet s s') (hb : s'.books = s.books) :
    Owes fresh ended s' := by
  have ht := Transfer.of_quiet hq
  have hp : s'.pending = s.pending := congrArg Books.pending hb
  have hi : s.idents.Perm s'.idents := by simpa using ht.balance
  have ho := h.next ht (h.sound.of_queueOf hq.queue) (List.forall_mem_nil _) fun id agent hid =>
    (hi.map Ident.request).mem_iff.1 (h.listed id agent (hp ▸ hid))
  rwa [List.append_nil, List.append_nil] at ho

section Perform

variable [Carrier τ]

/-- An operation takes a request in if it answers with its handle, and tells genuine outcomes. -/
theorem Owes.perform {operation : Operation} {response : Result} (h : Owes fresh ended s)
    (hp : Station.perform operation s = .ok response s') :
    ∃ ended', Owes (fresh ++ response.handle?.toList.map Handle.ident) (ended ++ ended') s' := by
  obtain ⟨ended', ht, hends⟩ := (perform_moves hp).endings h.sound
  rw [fresh_actions operation hp] at ht
  refine ⟨ended', h.next ht (perform_transfer h.sound hp).1 (fun f hf => ?_) ?_⟩
  · obtain ⟨before, a, after, t, -, -, hend⟩ := hends f hf
    exact hend.genuine
  · exact Listed.step ⟨s, operation, response, s'⟩ h.listed (perform_kept hp) ht

theorem owes_of_run {operations : List Operation} {steps : List (Step τ)}
    (h : Owes fresh ended s) (hr : run operations s = .ok (steps, s')) :
    ∃ ended', Owes (fresh ++ (accepted steps).map Handle.ident) (ended ++ ended') s' := by
  refine run_induction (P := fun past t => ∃ ended', Owes
    (fresh ++ (accepted past).map Handle.ident) (ended ++ ended') t) hr ⟨[], ?_⟩ ?_
  · rw [List.append_nil]
    exact (List.append_nil fresh).symm ▸ h
  · rintro past step - ⟨ended₁, ho⟩ hp
    obtain ⟨ended₂, ho⟩ := ho.perform hp
    have ha : accepted (past ++ [step]) = accepted past ++ step.response.handle?.toList :=
      filterMap_concat ..
    rw [List.append_assoc, List.append_assoc, ← List.map_append, ← ha] at ho
    exact ⟨ended₁ ++ ended₂, ho⟩

end Perform

/-! ### Who has been told what -/

theorem Owes.nodup (h : Owes fresh ended s) :
    ((ended.map Finished.ident ++ s.idents).map Ident.ticket).Nodup := by
  refine (h.balance.map Ident.ticket).nodup_iff.1 ?_
  rw [h.numbered]
  exact List.nodup_range

theorem Owes.toldTo_eq (h : Owes fresh ended s) (ticket : Ticket) :
    s.toldTo ticket = (ended.filter fun f => f.ticket = ticket).map (·.outcome) := by
  unfold toldTo
  rw [h.told, List.filter_map, List.map_map]
  rfl

/-- The submitter of a pending request has not been told anything. -/
theorem Owes.told_of_pending (h : Owes fresh ended s) {i : Ident} (hi : i ∈ s.idents) :
    s.toldTo i.ticket = [] := by
  have hn := h.nodup
  rw [List.map_append, List.map_map] at hn
  rw [h.toldTo_eq, List.filter_eq_nil_iff.2 fun f hf hc => ?_]
  · rfl
  · have hm : f.ticket ∈ ended.map (Ident.ticket ∘ Finished.ident) :=
      List.mem_map.2 ⟨f, hf, rfl⟩
    exact List.disjoint_of_nodup_append hn (of_decide_eq_true hc ▸ hm) (List.mem_map_of_mem hi)

/-- The submitter of a request that is pending no longer has been told one outcome. -/
theorem Owes.told_of_not_pending (h : Owes fresh ended s) {i : Ident} (hi : i ∈ fresh)
    (hn : i ∉ s.idents) : ∃ o, s.toldTo i.ticket = [o] ∧ o.Genuine := by
  have hm := (List.mem_append.1 (h.balance.mem_iff.1 hi)).resolve_right hn
  obtain ⟨f, hf, rfl⟩ := List.mem_map.1 hm
  have htickets : (ended.map fun f => f.ticket).Nodup := by
    have hnodup := h.nodup
    rw [List.map_append, List.map_map] at hnodup
    exact hnodup.of_append_left
  refine ⟨f.outcome, ?_, h.genuine f hf⟩
  have hone := filter_eq_singleton htickets hf
  rw [h.toldTo_eq]
  exact congrArg (List.map (·.outcome)) hone

/-- No submitter is told more than one outcome. -/
theorem Owes.length_toldTo (h : Owes fresh ended s) {i : Ident} (hi : i ∈ fresh) :
    (s.toldTo i.ticket).length ≤ 1 := by
  by_cases hp : i ∈ s.idents
  · simp [h.told_of_pending hp]
  · obtain ⟨o, ho, -⟩ := h.told_of_not_pending hi hp
    simp [ho]

/-! ### Shutdowns -/

/-- A station that is shut down has no agents and no requests. -/
structure Cleared (s : Station τ) : Prop where
  agents : s.agents = ∅
  pending : s.pending = ∅
  idents : s.idents = []
  queueDepth : s.queueDepth = 0

theorem Owes.cleared (h : Owes fresh ended s) (ha : s.agents = ∅) : s.Cleared := by
  have hi : s.idents = [] := by
    unfold Station.idents requests
    rw [ha]
    rfl
  refine ⟨ha, Table.ext_get? fun id => ?_, hi, ?_⟩
  · rw [Table.get?_empty]
    cases hp : s.pending.get? id with
    | none => rfl
    | some agent =>
      have hm := h.listed id agent hp
      rw [hi] at hm
      cases hm
  · unfold Station.queueDepth
    rw [ha]
    rfl

end Station

end GroundControl
