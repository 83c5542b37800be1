import GroundControl.Proofs.Station.Index

/-!
# What callers can learn about a request

A caller may ask for the phase of a request.  A station knows it while the request is pending, and
for a time afterwards: the result of a request that ended at an instant is kept until the first pass
over all agents, at that instant or later, for which the time it is to be kept is over.

* `Note`, a result that is kept; `remember`, the notes after a step;
* `Books.Say`: the books have what the notes have, as long as no two notes are about one request and
  those made earlier are to be kept no longer; `say_of_run`, along a run;
* `notes_sorted`: if time does not go back, notes are made in the order in which they expire;
  `mem_remembered_iff`: how long a note is kept;
* `Recalled`: what the books of a station say of the steps that have led to it, `recalled_of_run`;
* `Observed` and `requests_observed`: everything that can be learned about requests.
-/

namespace GroundControl

section Lists

variable {α : Type} {p : α → Bool} {l : List α}

/-- Where nothing that satisfies `p` comes after something that does not, what satisfies it is the
beginning of the list. -/
theorem takeWhile_eq_filter (h : l.Pairwise fun a b => p b = true → p a = true) :
    l.takeWhile p = l.filter p := by
  induction l with
  | nil => rfl
  | cons a rest ih =>
    obtain ⟨ha, hrest⟩ := List.pairwise_cons.1 h
    by_cases hp : p a = true
    · rw [List.takeWhile_cons_of_pos hp, List.filter_cons_of_pos hp, ih hrest]
    · rw [List.takeWhile_cons_of_neg hp, List.filter_cons_of_neg hp]
      exact (List.filter_eq_nil_iff.2 fun b hb hc => hp (ha b hb hc)).symm

theorem dropWhile_eq_filter (h : l.Pairwise fun a b => p b = true → p a = true) :
    l.dropWhile p = l.filter fun a => !p a := by
  induction l with
  | nil => rfl
  | cons a rest ih =>
    obtain ⟨ha, hrest⟩ := List.pairwise_cons.1 h
    by_cases hp : p a = true
    · rw [List.dropWhile_cons_of_pos hp, List.filter_cons_of_neg (by simp [hp]), ih hrest]
    · rw [List.dropWhile_cons_of_neg hp]
      refine (List.filter_eq_self.2 fun b hb => ?_).symm
      rcases List.mem_cons.1 hb with rfl | hb
      · simpa using hp
      · simpa using fun hc => hp (ha b hb hc)

end Lists

/-! ### Notes -/

/-- The result of a request, and until when it is kept. -/
structure Note where
  request : RequestId
  phase : Phase
  expires : Instant

/-- Whether an operation forgets a result that is kept until `expires`. -/
def Operation.forgets (operation : Operation) (expires : Instant) : Bool :=
  operation.forgets?.any fun now => expires ≤ now

/-- No two notes are about one request, and those made earlier are to be kept no longer. -/
structure Tidy (l : List Note) : Prop where
  requests : (l.map Note.request).Nodup
  expires : l.Pairwise fun m n => m.expires ≤ n.expires

theorem Tidy.sublist {l m : List Note} (h : Tidy m) (hl : l.Sublist m) : Tidy l where
  requests := h.requests.sublist (hl.map Note.request)
  expires := h.expires.sublist hl

/-- The books have the results that the notes have. -/
structure Books.Say (b : Books) (l : List Note) : Prop where
  expiry : b.expiry = l.map fun n => (n.request, n.expires)
  results : ∀ id phase, b.results.get? id = some phase ↔
    ∃ n ∈ l, n.request = id ∧ n.phase = phase

namespace Books.Say

variable {b : Books} {l : List Note}

theorem enter (h : b.Say l) (x : Option Handle) : (b.enter x).Say l := by
  cases x <;> exact ⟨h.expiry, h.results⟩

theorem file (h : b.Say l) (expires : Instant) (entries : List (RequestId × Phase))
    (hl : Tidy (l ++ entries.map fun e => ⟨e.1, e.2, expires⟩)) :
    (b.file expires entries).Say (l ++ entries.map fun e => ⟨e.1, e.2, expires⟩) where
  expiry := by
    rw [List.map_append, ← h.expiry, List.map_map]
    rfl
  results id phase := by
    have hn := hl.requests
    rw [List.map_append, List.map_map] at hn
    have hkeys : (entries.map Prod.fst).Nodup := hn.of_append_right
    have hnew : ∀ n ∈ l, n.request ∉ entries.map Prod.fst := fun n hm =>
      List.disjoint_of_nodup_append hn (List.mem_map_of_mem hm)
    refine (Table.get?_foldl_insert_eq_some_iff hkeys b.results).trans ?_
    simp only [List.mem_append, or_and_right, exists_or]
    rw [or_comm, h.results id phase]
    refine or_congr ⟨fun hp => hp.2, ?_⟩ ?_
    · rintro ⟨n, hm, rfl, hp⟩
      exact ⟨hnew n hm, n, hm, rfl, hp⟩
    · constructor
      · intro hm
        exact ⟨_, List.mem_map_of_mem hm, rfl, rfl⟩
      · rintro ⟨n, hm, rfl, rfl⟩
        obtain ⟨e, he, rfl⟩ := List.mem_map.1 hm
        exact he

theorem forget (h : b.Say l) (hl : Tidy l) (operation : Operation) :
    (b.forget operation.forgets?).Say (l.filter fun n => !operation.forgets n.expires) := by
  unfold Operation.forgets
  cases operation.forgets? with
  | none =>
    have hf : l.filter (fun n => !(none : Option Instant).any fun now => n.expires ≤ now) = l :=
      List.filter_eq_self.2 fun _ _ => rfl
    rw [hf]
    exact h
  | some now =>
    have hsorted : l.Pairwise fun m n =>
        decide (n.expires ≤ now) = true → decide (m.expires ≤ now) = true :=
      hl.expires.imp fun hmn hn => decide_eq_true (Nat.le_trans hmn (of_decide_eq_true hn))
    have hpast : b.expiry.takeWhile (fun e => e.2 ≤ now) =
        (l.filter fun n => n.expires ≤ now).map fun n => (n.request, n.expires) := by
      rw [h.expiry, List.takeWhile_map, ← takeWhile_eq_filter hsorted]
      rfl
    have hleft : b.expiry.dropWhile (fun e => e.2 ≤ now) =
        (l.filter fun n => !decide (n.expires ≤ now)).map fun n => (n.request, n.expires) := by
      rw [h.expiry, List.dropWhile_map, ← dropWhile_eq_filter hsorted]
      rfl
    refine ⟨hleft, fun id phase => ?_⟩
    show ((b.expiry.takeWhile fun e => e.2 ≤ now).foldl (fun t e => t.erase e.1)
      b.results).get? id = some phase ↔ _
    rw [hpast, Table.get?_foldl_erase Prod.fst, List.map_map]
    simp only [Option.any_some, List.mem_filter, Bool.not_eq_true', decide_eq_false_iff_not]
    split
    · rename_i hid
      obtain ⟨n, hn, rfl⟩ := List.mem_map.1 hid
      obtain ⟨hm, hdue⟩ := List.mem_filter.1 hn
      refine iff_of_false (Option.some_ne_none phase).symm ?_
      rintro ⟨m, ⟨hm', hlate⟩, hr, -⟩
      obtain rfl := List.inj_on_of_nodup_map hl.requests hm' hm hr
      exact hlate (of_decide_eq_true hdue)
    · rename_i hid
      rw [h.results]
      constructor
      · rintro ⟨n, hm, rfl, hp⟩
        refine ⟨n, ⟨hm, fun hdue => hid ?_⟩, rfl, hp⟩
        exact List.mem_map_of_mem (List.mem_filter.2 ⟨hm, decide_eq_true hdue⟩)
      · rintro ⟨n, ⟨hm, -⟩, hn⟩
        exact ⟨n, hm, hn⟩

theorem mem_keys_results (h : b.Say l) (id : RequestId) :
    id ∈ b.results.keys ↔ id ∈ l.map Note.request := by
  rw [Table.mem_keys_iff, Table.contains, Option.isSome_iff_exists, List.mem_map]
  constructor
  · rintro ⟨phase, hp⟩
    obtain ⟨n, hm, hr, -⟩ := (h.results id phase).1 hp
    exact ⟨n, hm, hr⟩
  · rintro ⟨n, hm, hr⟩
    exact ⟨n.phase, (h.results id n.phase).2 ⟨n, hm, hr, rfl⟩⟩

end Books.Say

namespace Step

variable {τ : Type}

/-- The notes of the results of a step, if they are kept for `grace`. -/
def notes (step : Step τ) (grace : Span) : List Note :=
  step.finished.map fun e => ⟨e.1, e.2, step.expires grace⟩

theorem requests_notes (step : Step τ) (grace : Span) :
    (step.notes grace).map Note.request = step.finished.map Prod.fst := by
  unfold notes
  rw [List.map_map]
  rfl

end Step

namespace Station

variable {τ : Type} {grace : Span}

/-- The notes kept after a step, of those kept before it and those it makes. -/
def remember (grace : Span) (l : List Note) (step : Step τ) : List Note :=
  (l ++ step.notes grace).filter fun n => !step.operation.forgets n.expires

theorem foldl_remember_sublist (grace : Span) (steps : List (Step τ)) (l : List Note) :
    (steps.foldl (remember grace) l).Sublist (l ++ steps.flatMap (·.notes grace)) := by
  induction steps generalizing l with
  | nil =>
    rw [List.flatMap_nil, List.append_nil]
    exact .refl l
  | cons step rest ih =>
    rw [List.foldl_cons, List.flatMap_cons, ← List.append_assoc]
    exact (ih _).trans (List.filter_sublist.append_right _)

/-- A note that is not made again is kept until an operation forgets it. -/
theorem mem_foldl_remember {steps : List (Step τ)} {l : List Note} {n : Note}
    (hn : n ∉ steps.flatMap (·.notes grace)) :
    n ∈ steps.foldl (remember grace) l ↔
      n ∈ l ∧ ∀ step ∈ steps, step.operation.forgets n.expires = false := by
  induction steps generalizing l with
  | nil => simp
  | cons step rest ih =>
    rw [List.flatMap_cons, List.mem_append, not_or] at hn
    rw [List.foldl_cons, ih hn.2, List.forall_mem_cons, remember, List.mem_filter,
      List.mem_append, or_iff_left hn.1, Bool.not_eq_true', and_assoc]

/-- How long a note is kept that a step makes. -/
theorem mem_remembered_iff (before : List (Step τ)) {after : List (Step τ)} {step : Step τ}
    {n : Note} (hn : n ∈ step.notes grace) (hafter : n ∉ after.flatMap (·.notes grace)) :
    n ∈ (before ++ step :: after).foldl (remember grace) [] ↔
      ∀ later ∈ step :: after, later.operation.forgets n.expires = false := by
  rw [List.foldl_append, List.foldl_cons, mem_foldl_remember hafter, List.forall_mem_cons,
    remember, List.mem_filter, Bool.not_eq_true']
  exact and_congr_left fun _ => and_iff_right (List.mem_append_right _ hn)

/-- What a step files and forgets. -/
theorem say_step {step : Step τ} {l : List Note} (hk : step.Kept)
    (hg : step.before.settings.resultGrace = grace) (hs : step.before.books.Say l)
    (hl : Tidy (l ++ step.notes grace)) : step.after.books.Say (remember grace l step) := by
  rw [hk.books, hg]
  exact ((hs.enter _).file (step.expires grace) step.finished hl).forget hl step.operation

/-! ### Notes along a run -/

section Run

variable [Carrier τ] {operations : List Operation} {s last : Station τ} {steps : List (Step τ)}

theorem kept_of_run (h : run operations s = .ok (steps, last)) : ∀ step ∈ steps, step.Kept :=
  fun _ hm => perform_kept (perform_of_mem_run h hm).2

/-- The books say what is remembered of the steps of a run. -/
theorem say_of_run {l : List Note} (h : run operations s = .ok (steps, last))
    (hg : s.settings.resultGrace = grace) (hs : s.books.Say l)
    (hl : Tidy (l ++ steps.flatMap (·.notes grace))) :
    last.books.Say (steps.foldl (remember grace) l) := by
  induction operations generalizing s steps l with
  | nil =>
    cases h
    exact hs
  | cons operation rest ih =>
    obtain ⟨response, after, others, hp, hr, rfl⟩ := run_cons_eq_ok.1 h
    rw [List.flatMap_cons, ← List.append_assoc] at hl
    have hk := perform_kept hp
    have hafter := say_step hk hg hs (hl.sublist (List.sublist_append_left _ _))
    rw [List.foldl_cons]
    exact ih hr ((congrArg NetworkSettings.resultGrace hk.settings).trans hg) hafter
      (hl.sublist (List.filter_sublist.append_right _))

/-- If time does not go back, notes are made in the order in which they expire. -/
theorem notes_sorted (h : run operations s = .ok (steps, last))
    (ht : (operations.filterMap Operation.time?).Pairwise (· ≤ ·)) :
    (steps.flatMap (·.notes grace)).Pairwise fun m n => m.expires ≤ n.expires := by
  rw [← operations_of_run h, List.filterMap_map, List.pairwise_filterMap] at ht
  refine List.pairwise_flatMap.2 ⟨fun step _ => ?_, ht.imp_of_mem ?_⟩
  · -- the results of one step are kept equally long
    exact List.pairwise_map.2 (List.pairwise_of_forall fun _ _ => Nat.le_refl _)
  · intro a b ha hb hab m hm n hn
    obtain ⟨e, he, rfl⟩ := List.mem_map.1 hm
    obtain ⟨e', he', rfl⟩ := List.mem_map.1 hn
    obtain ⟨t, hta⟩ := (kept_of_run h a ha).exists_time he
    obtain ⟨u, htb⟩ := (kept_of_run h b hb).exists_time he'
    show a.expires grace ≤ b.expires grace
    unfold Step.expires
    rw [hta, htb]
    exact Nat.add_le_add_right (hab t hta u htb) grace

/-- The requests that were taken in are those that ended and those that are pending. -/
theorem run_finished (hs : s.Sound) (h : run operations s = .ok (steps, last)) :
    last.Sound ∧ ∃ ended, Transfer s ((accepted steps).map Handle.ident) ended last ∧
      steps.flatMap Step.finished = ended.map Finished.entry := by
  obtain ⟨hlast, ended, ht⟩ := run_transfer hs h
  obtain ⟨effects, hl, -, he⟩ := ht.log
  have heffects : steps.flatMap Step.effects = effects :=
    List.append_cancel_left ((log_of_run hs h).symm.trans hl)
  refine ⟨hlast, ended, ht, ?_⟩
  rw [← finishes_of_ends he, ← heffects, finishes_flatMap]
  rfl

/-- The requests that end in a run end in a last phase. -/
theorem terminal_of_run (hs : s.Sound) (h : run operations s = .ok (steps, last)) :
    ∀ step ∈ steps, ∀ e ∈ step.finished, e.2.isTerminal = true := by
  obtain ⟨-, ended, ht, hf⟩ := run_finished hs h
  intro step hm e he
  have he := List.mem_flatMap_of_mem hm he
  rw [hf] at he
  obtain ⟨f, hmem, rfl⟩ := List.mem_map.1 he
  have hfits : f.phase = f.outcome.phase := ht.fits f hmem
  show f.phase.isTerminal = true
  rw [hfits]
  exact f.outcome.isTerminal_phase

end Run

/-! ### What is recalled of a run -/

/-- What the books of a station say of the steps that have led to it. -/
structure Recalled (grace : Span) (steps : List (Step τ)) (s : Station τ) : Prop where
  sound : s.Sound
  indexed : s.Indexed
  say : s.books.Say (steps.foldl (remember grace) [])
  tidy : Tidy (steps.flatMap (·.notes grace))
  kept : ∀ step ∈ steps, step.Kept
  ending : ∀ step ∈ steps, ∀ id, id ∈ step.finished.map Prod.fst ↔ Ending step id
  terminal : ∀ step ∈ steps, ∀ e ∈ step.finished, e.2.isTerminal = true
  balance : ((accepted steps).map Handle.request).Perm
    ((steps.flatMap Step.finished).map Prod.fst ++ s.idents.map Ident.request)
  nodup : ((steps.flatMap Step.finished).map Prod.fst ++ s.idents.map Ident.request).Nodup

theorem requests_flatMap_notes (steps : List (Step τ)) (grace : Span) :
    (steps.flatMap (·.notes grace)).map Note.request =
      (steps.flatMap Step.finished).map Prod.fst := by
  rw [List.map_flatMap, List.map_flatMap]
  simp only [Step.requests_notes]

/-- A run from the beginning is recalled, if the numbers of the requests differ and time does not
go back. -/
theorem recalled_of_run [Carrier τ] {settings : NetworkSettings} {carrier : τ} {start : Instant}
    {operations : List Operation} {steps : List (Step τ)} {s : Station τ}
    (h : run operations (new settings carrier start) = .ok (steps, s))
    (hids : (submitted operations).Nodup)
    (ht : (operations.filterMap Operation.time?).Pairwise (· ≤ ·)) :
    Recalled settings.resultGrace steps s := by
  have hnew : (new settings carrier start).Sound := sound_new settings carrier start
  obtain ⟨hs, ended, htransfer, hfinished⟩ := run_finished hnew h
  obtain ⟨hindexed, hending⟩ := indexed_of_run (indexed_new settings carrier start) hnew
    ⟨hids, numbered_new settings carrier start⟩ h
  have hperm : ((accepted steps).map Handle.request).Perm
      ((steps.flatMap Step.finished).map Prod.fst ++ s.idents.map Ident.request) := by
    have hb := htransfer.balance.map Ident.request
    rw [List.map_append, List.map_append, List.map_map, List.map_map] at hb
    rw [hfinished, List.map_map]
    exact hb
  have hnodup := hperm.nodup_iff.1 ((accepted_sublist h).nodup hids)
  have htidy : Tidy (steps.flatMap (·.notes settings.resultGrace)) :=
    ⟨requests_flatMap_notes steps _ ▸ hnodup.of_append_left, notes_sorted h ht⟩
  exact {
    sound := hs
    indexed := hindexed
    say := say_of_run h rfl ⟨rfl, fun id phase => iff_of_false nofun nofun⟩ htidy
    tidy := htidy
    kept := kept_of_run h
    ending := hending
    terminal := terminal_of_run hnew h
    balance := hperm
    nodup := hnodup }

section Recalled

variable {steps : List (Step τ)} {s : Station τ}

theorem phaseOf_of_not_pending {id : RequestId} (h : s.pending.get? id = none) :
    s.phaseOf id = s.books.results.get? id := by
  unfold phaseOf
  rw [h]
  rfl

theorem Recalled.mem_finished_iff (h : Recalled grace steps s) (id : RequestId) :
    id ∈ (steps.flatMap Step.finished).map Prod.fst ↔ ∃ step ∈ steps, Ending step id := by
  rw [List.map_flatMap, List.mem_flatMap]
  exact exists_congr fun step => and_congr_right fun hm => h.ending step hm id

/-- A request that was taken in is pending or has ended. -/
theorem Recalled.mem_accepted_iff (h : Recalled grace steps s) (id : RequestId) :
    id ∈ (accepted steps).map Handle.request ↔
      (∃ agent, s.pending.get? id = some agent) ∨ ∃ step ∈ steps, Ending step id := by
  rw [h.balance.mem_iff, List.mem_append, h.mem_finished_iff, h.indexed.exists_pending_iff,
    or_comm]

/-- A request that has ended is not pending. -/
theorem Recalled.not_pending (h : Recalled grace steps s) {id : RequestId}
    (hid : ∃ step ∈ steps, Ending step id) : s.pending.get? id = none := by
  refine Option.eq_none_iff_forall_ne_some.2 fun agent hp => ?_
  exact List.disjoint_of_nodup_append h.nodup ((h.mem_finished_iff id).2 hid)
    ((h.indexed.exists_pending_iff id).1 ⟨agent, hp⟩)

theorem Recalled.remembered_sublist (h : Recalled grace steps s) :
    (s.expiry.map Prod.fst).Sublist ((steps.flatMap Step.finished).map Prod.fst) := by
  have he : s.expiry = _ := h.say.expiry
  have hs := (foldl_remember_sublist grace steps []).map Note.request
  rw [List.nil_append, requests_flatMap_notes] at hs
  rw [he, List.map_map]
  exact hs

/-- The results are those that expire. -/
theorem Recalled.mem_results_iff (h : Recalled grace steps s) (id : RequestId) :
    id ∈ s.results.keys ↔ id ∈ s.expiry.map Prod.fst := by
  have he : s.expiry = _ := h.say.expiry
  rw [he, List.map_map]
  exact h.say.mem_keys_results id

/-- What is kept has ended. -/
theorem Recalled.ended_of_kept (h : Recalled grace steps s) {id : RequestId}
    (hid : id ∈ s.expiry.map Prod.fst) : ∃ step ∈ steps, Ending step id :=
  (h.mem_finished_iff id).1 (h.remembered_sublist.subset hid)

/-- Nothing is known of a request that was never taken in. -/
theorem Recalled.phaseOf_of_unknown (h : Recalled grace steps s) {id : RequestId}
    (hid : id ∉ (accepted steps).map Handle.request) : s.phaseOf id = none := by
  rw [h.mem_accepted_iff, not_or] at hid
  rw [phaseOf_of_not_pending
    (Option.eq_none_iff_forall_ne_some.2 fun agent hp => hid.1 ⟨agent, hp⟩)]
  refine Option.eq_none_iff_forall_ne_some.2 fun phase hr => hid.2 (h.ended_of_kept ?_)
  rw [← h.mem_results_iff, Table.mem_keys_iff]
  exact Option.isSome_iff_exists.2 ⟨phase, hr⟩

/-- The phase of a request that has ended is known until a pass forgets it, and not afterwards. -/
theorem Recalled.phaseOf_of_finished {before after : List (Step τ)} {step : Step τ}
    (h : Recalled grace (before ++ step :: after) s) {id : RequestId} {phase : Phase}
    (hf : (id, phase) ∈ step.finished) (hp : s.pending.get? id = none) :
    s.phaseOf id =
      if (step :: after).any (·.operation.forgets (step.expires grace)) then none
      else some phase := by
  have hn : ⟨id, phase, step.expires grace⟩ ∈ step.notes grace := List.mem_map_of_mem hf
  have hm : ⟨id, phase, step.expires grace⟩ ∈
      (before ++ step :: after).flatMap (·.notes grace) :=
    List.mem_flatMap.2 ⟨step, List.mem_append_right _ List.mem_cons_self, hn⟩
  have hafter : ⟨id, phase, step.expires grace⟩ ∉ after.flatMap (·.notes grace) := by
    intro hc
    have hd := h.tidy.requests
    rw [List.flatMap_append, List.flatMap_cons, List.map_append, List.map_append] at hd
    exact List.disjoint_of_nodup_append hd.of_append_right (List.mem_map_of_mem hn)
      (List.mem_map_of_mem hc)
  have hkept := mem_remembered_iff before hn hafter
  rw [phaseOf_of_not_pending hp]
  split
  · rename_i hany
    obtain ⟨later, hlater, hforgets⟩ := List.any_eq_true.1 hany
    refine Option.eq_none_iff_forall_ne_some.2 fun phase' hr => ?_
    -- a note that is left would be the one that was forgotten
    obtain ⟨m, hleft, hr, -⟩ := (h.say.results id phase').1 hr
    have hmade := (foldl_remember_sublist grace _ []).subset hleft
    rw [List.nil_append] at hmade
    obtain rfl := List.inj_on_of_nodup_map h.tidy.requests hmade hm hr
    exact absurd ((hkept.1 hleft later hlater).symm.trans hforgets) Bool.false_ne_true
  · rename_i hany
    refine (h.say.results id phase).2 ⟨_, hkept.2 fun later hlater => ?_, rfl, rfl⟩
    exact Bool.eq_false_iff.2 fun hf => hany (List.any_eq_true.2 ⟨later, hlater, hf⟩)

end Recalled

/-! ### What can be learned -/

/-- What callers can learn about requests at a station after `steps` from its beginning, if results
are kept for `grace`. -/
structure Observed (grace : Span) (steps : List (Step τ)) (s : Station τ) : Prop where
  /-- the index names an agent for a request if the backlog of the agent holds the request -/
  index : ∀ id agent, s.pending.get? id = some agent ↔
    ∃ b, s.backlogOf agent = some b ∧ ∃ r ∈ b.requests, r.id = id
  withdrawable : ∀ id, (cancel id s).1 = true ↔ ∃ agent, s.pending.get? id = some agent
  /-- a request that was taken in is pending or has ended -/
  known : ∀ id, id ∈ (accepted steps).map Handle.request ↔
    (∃ agent, s.pending.get? id = some agent) ∨ ∃ step ∈ steps, Ending step id
  unknown : ∀ id, id ∉ (accepted steps).map Handle.request → s.phaseOf id = none
  pending : ∀ id agent, s.pending.get? id = some agent →
    s.phaseOf id = some .queued ∨ s.phaseOf id = some .awaitingAck
  /-- a request that has ended is pending no more, and its last phase is known until the first pass
  over all agents, at the end of this step or later, for which the time it is kept is over -/
  ended : ∀ before step after id, steps = before ++ step :: after → Ending step id →
    s.pending.get? id = none ∧ ∃ now phase, step.operation.time? = some now ∧
      (id, phase) ∈ step.finished ∧ phase.isTerminal = true ∧
        s.phaseOf id =
          if (step :: after).any (·.operation.forgets (now + grace)) then none else some phase
  /-- the results that are kept are those that expire, each once, and none of them is pending -/
  kept : ∀ id, id ∈ s.results.keys ↔ id ∈ s.expiry.map Prod.fst
  once : (s.expiry.map Prod.fst).Nodup
  settled : ∀ id ∈ s.expiry.map Prod.fst, s.pending.get? id = none

/-- Whatever is asked of a station from its beginning on, if the numbers of the requests differ and
time does not go back: callers learn where each request is, and how it ended. -/
theorem requests_observed [Carrier τ] {settings : NetworkSettings} {carrier : τ} {start : Instant}
    {operations : List Operation} {steps : List (Step τ)} {s : Station τ}
    (h : run operations (new settings carrier start) = .ok (steps, s))
    (hids : (submitted operations).Nodup)
    (ht : (operations.filterMap Operation.time?).Pairwise (· ≤ ·)) :
    Observed settings.resultGrace steps s := by
  have hr := recalled_of_run h hids ht
  refine {
    index := hr.indexed.get?_pending_iff hr.sound
    withdrawable := hr.indexed.cancel_eq_true_iff hr.sound
    known := hr.mem_accepted_iff
    unknown := fun id => hr.phaseOf_of_unknown
    pending := fun id agent => hr.indexed.phaseOf_of_pending hr.sound
    ended := fun before step after id hsteps hend => ?_
    kept := hr.mem_results_iff
    once := hr.nodup.of_append_left.sublist hr.remembered_sublist
    settled := fun id hid => hr.not_pending (hr.ended_of_kept hid) }
  subst hsteps
  have hm : step ∈ before ++ step :: after := List.mem_append_right _ List.mem_cons_self
  have hp := hr.not_pending ⟨step, hm, hend⟩
  obtain ⟨⟨request, phase⟩, hf, rfl⟩ := List.mem_map.1 ((hr.ending step hm id).2 hend)
  obtain ⟨now, htime⟩ := (hr.kept step hm).exists_time hf
  have hphase := hr.phaseOf_of_finished hf hp
  rw [Step.expires, htime] at hphase
  exact ⟨hp, now, phase, htime, hf, hr.terminal step hm _ hf, hphase⟩

/-- Three requests: at the end the result of the first one is forgotten, that of the second one is
known, and the third one waits for its reply. -/
def threeAges : List Operation :=
  [.route (.heartbeat "alpha" 1) 0,
    .submit 1 1 (.oneWay [7]) .normal 0 10,
    .submit 2 1 (.oneWay [8]) .normal 0 20000000000,
    .submit 3 1 (.expecting [9] 3) .normal 0 21000000000,
    .tick .ascending 21000000000]

theorem requests_observed_threeAges :
    ∃ steps s, run threeAges (new { id := "alpha" } (Pipe.new "up" 4) 0) = .ok (steps, s) ∧
      (submitted threeAges).Nodup ∧ (threeAges.filterMap Operation.time?).Pairwise (· ≤ ·) ∧
        [1, 2, 3].map s.phaseOf = [none, some .acked, some .awaitingAck] ∧
          Observed 10000000000 steps s := by
  have hrun : (run threeAges (new { id := "alpha" } (Pipe.new "up" 4) 0)).toOption.map
      (fun r => [1, 2, 3].map r.2.phaseOf) =
        some [none, some .acked, some .awaitingAck] := by decide +kernel
  cases h : run threeAges (new { id := "alpha" } (Pipe.new "up" 4) 0) with
  | error fault =>
    rw [h] at hrun
    cases hrun
  | ok r =>
    obtain ⟨steps, s⟩ := r
    rw [h] at hrun
    have hids : (submitted threeAges).Nodup := by decide
    have ht : (threeAges.filterMap Operation.time?).Pairwise (· ≤ ·) := by decide
    exact ⟨steps, s, rfl, hids, ht, Option.some.inj hrun, requests_observed h hids ht⟩

end Station

end GroundControl
