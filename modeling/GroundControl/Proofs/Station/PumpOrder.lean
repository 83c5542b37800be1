import Mathlib.Data.List.Perm.Basic
import Mathlib.Data.List.TakeWhile
import GroundControl.Proofs.Pump.Links
import GroundControl.Proofs.Station.Alike
import GroundControl.Proofs.Station.Attempts

/-!
# The order of pumps

If nothing is throttled and the link takes every frame, the pumps of different agents commute,
however many requests each of them times out, withdraws, retries or hands over: a pump looks at
nothing that the pump of another agent changes, and what it changes in common adds up.  So the
agents can be pumped in any order.  Only where the pending requests of two agents have one number
does the order show: of two ends under one number the later one is kept as its result.

* `Act.Interchange`, acts that can be done in any order; `Act.Interchange.forM_perm`;
* `Station.Reordered`, what two stations have in common that did the same in another order;
* `Pass.charge`, `Pass.effects`, what a pump adds to the counters and to the log;
* `Reordered.pump`: a pump of the same agent keeps two such stations so;
* `reordered_pumps`: two pumps in either order; `interchange_pump`, of any agents;
* `reordered_pumpAll`: the pumps of all agents, whichever way the table of agents is walked;
* `pump_order_irrelevant`: after any operations, and `pump_order_of_shared_number`, two orders of
  which one keeps another result than the other.
-/

namespace GroundControl

/-! ### Acts in another order -/

namespace Act

variable {τ α : Type}

/-- Acts that can be done in any order: two of them that are apart lead to related stations in
either order, and of related stations an act makes related ones. -/
structure Interchange (f : α → Act τ Unit) (Apart : α → α → Prop) (Fit : Station τ → Prop)
    (R : Station τ → Station τ → Prop) : Prop where
  symm : ∀ {a b}, Apart a b → Apart b a
  refl : ∀ {s}, Fit s → R s s
  trans : ∀ {s t u}, R s t → R t u → R s u
  fit : ∀ {a s s'}, Fit s → f a s = .ok () s' → Fit s'
  same : ∀ {a s t s'}, R s t → f a s = .ok () s' → ∃ t', f a t = .ok () t' ∧ R s' t'
  swap : ∀ {a b s t u}, Apart a b → Fit s → f a s = .ok () t → f b t = .ok () u →
    ∃ t' u', f b s = .ok () t' ∧ f a t' = .ok () u' ∧ R u u'

variable {f : α → Act τ Unit} {Apart : α → α → Prop} {Fit : Station τ → Prop}
  {R : Station τ → Station τ → Prop} {l m : List α} {s t s' : Station τ}

theorem Interchange.forM_same (hf : Interchange f Apart Fit R) (h : R s t)
    (hp : l.forM f s = .ok () s') : ∃ t', l.forM f t = .ok () t' ∧ R s' t' := by
  induction l generalizing s t with
  | nil =>
    obtain rfl := forM_nil_eq_ok.1 hp
    exact ⟨t, forM_nil_eq_ok.2 rfl, h⟩
  | cons a rest ih =>
    obtain ⟨s₁, hfirst, hrest⟩ := forM_cons_eq_ok.1 hp
    obtain ⟨t₁, hfirst', h₁⟩ := hf.same h hfirst
    obtain ⟨t', hrest', h'⟩ := ih h₁ hrest
    exact ⟨t', forM_cons_eq_ok.2 ⟨t₁, hfirst', hrest'⟩, h'⟩

/-- The acts, in any two orders. -/
theorem Interchange.forM_perm (hf : Interchange f Apart Fit R) (hperm : l.Perm m)
    (hl : l.Pairwise Apart) (hs : Fit s) (h : R s t) (hp : l.forM f s = .ok () s') :
    ∃ t', m.forM f t = .ok () t' ∧ R s' t' := by
  induction hperm generalizing s t s' with
  | nil => exact hf.forM_same h hp
  | cons a _ ih =>
    obtain ⟨s₁, hfirst, hrest⟩ := forM_cons_eq_ok.1 hp
    obtain ⟨t₁, hfirst', h₁⟩ := hf.same h hfirst
    obtain ⟨t', hrest', h'⟩ := ih hl.of_cons (hf.fit hs hfirst) h₁ hrest
    exact ⟨t', forM_cons_eq_ok.2 ⟨t₁, hfirst', hrest'⟩, h'⟩
  | swap a b rest =>
    obtain ⟨s₁, hfirst, hp⟩ := forM_cons_eq_ok.1 hp
    obtain ⟨s₂, hsecond, hrest⟩ := forM_cons_eq_ok.1 hp
    have hapart : Apart b a := List.rel_of_pairwise_cons hl List.mem_cons_self
    -- first in the other order, and then in the other station
    obtain ⟨u₁, u₂, hfirst', hsecond', h₂⟩ := hf.swap hapart hs hfirst hsecond
    obtain ⟨t₁, hfirst'', h₁⟩ := hf.same h hfirst'
    obtain ⟨t₂, hsecond'', h₃⟩ := hf.same h₁ hsecond'
    obtain ⟨t', hrest', h'⟩ := hf.forM_same (hf.trans h₂ h₃) hrest
    exact ⟨t', forM_cons_eq_ok.2 ⟨t₁, hfirst'', forM_cons_eq_ok.2 ⟨t₂, hsecond'', hrest'⟩⟩, h'⟩
  | trans hperm _ ih ih' =>
    obtain ⟨s₂, hp₂, h₂⟩ := ih hl hs (hf.refl hs) hp
    obtain ⟨t', hp', h'⟩ := ih' ((hperm.pairwise_iff hf.symm).1 hl) hs h hp₂
    exact ⟨t', hp', hf.trans h₂ h'⟩

end Act

/-! ### Bookings in another order -/

/-- Finished requests can be counted in any order. -/
instance : RightCommutative fun (t : Tally) (f : Finished) => t.recordFinished f.phase where
  right_comm t f g := by
    cases f.phase <;> cases g.phase <;> rfl

theorem foldl_erase_perm {l m : List Finished} (h : l.Perm m) (t : Table RequestId AgentId) :
    l.foldl (fun t f => t.erase f.request) t = m.foldl (fun t f => t.erase f.request) t := by
  refine Table.ext_get? fun k => ?_
  rw [Table.get?_foldl_erase, Table.get?_foldl_erase]
  exact if_congr (h.map _).mem_iff rfl rfl

theorem get?_foldl_insert_of_not_mem {l : List Finished} {k : RequestId}
    (hk : k ∉ l.map Finished.request) (t : Table RequestId Phase) :
    (l.foldl (fun t f => t.insert f.request f.phase) t).get? k = t.get? k := by
  induction l generalizing t with
  | nil => rfl
  | cons f rest ih =>
    rw [List.foldl_cons, ih (List.not_mem_of_not_mem_cons hk), Table.get?_insert,
      if_neg (List.ne_of_not_mem_cons hk)]

theorem get?_foldl_insert_congr (l : List Finished) {k : RequestId} {t t' : Table RequestId Phase}
    (h : t'.get? k = t.get? k) :
    (l.foldl (fun t f => t.insert f.request f.phase) t').get? k =
      (l.foldl (fun t f => t.insert f.request f.phase) t).get? k := by
  induction l generalizing t t' with
  | nil => exact h
  | cons f rest ih =>
    refine ih ?_
    rw [Table.get?_insert, Table.get?_insert, h]

/-- A result can be kept before or after others if they have other numbers. -/
theorem get?_foldl_insert_append_comm {l m : List Finished} {k : RequestId}
    (hk : ((l ++ m).map Finished.request).count k ≤ 1) (t : Table RequestId Phase) :
    ((m ++ l).foldl (fun t f => t.insert f.request f.phase) t).get? k =
      ((l ++ m).foldl (fun t f => t.insert f.request f.phase) t).get? k := by
  rw [List.map_append, List.count_append] at hk
  rw [List.foldl_append, List.foldl_append]
  by_cases hl : k ∈ l.map Finished.request
  · have hm : k ∉ m.map Finished.request := fun hm => by
      have := List.count_pos_iff.2 hl
      have := List.count_pos_iff.2 hm
      omega
    rw [get?_foldl_insert_of_not_mem hm]
    exact get?_foldl_insert_congr l (get?_foldl_insert_of_not_mem hm t)
  · rw [get?_foldl_insert_of_not_mem hl]
    exact (get?_foldl_insert_congr m (get?_foldl_insert_of_not_mem hl t)).symm

/-- Two lists of which one is filtered out can be filtered in either order. -/
theorem filter_append_comm {α : Type} {p : α → Bool} {l m : List α}
    (h : l.filter p = [] ∨ m.filter p = []) : (l ++ m).filter p = (m ++ l).filter p := by
  rw [List.filter_append, List.filter_append]
  rcases h with h | h <;> rw [h, List.nil_append, List.append_nil]

namespace Pass

variable {τ : Type}

/-- The counters after a pass. -/
def charge (p : Pass τ) (t : Tally) : Tally :=
  { t with
    unicastSent := t.unicastSent + p.taken
    sendFailures := t.sendFailures + p.refused
    retries := t.retries + p.retries }

/-- What a pass does to the world. -/
def effects (p : Pass τ) (network : NetworkId) : List Effect :=
  (p.frames.map fun f => .sent f.1 f.2) ++
    (p.finished.map fun f => .delivered f.ticket f.outcome) ++
    List.replicate p.retries (.measured (.retries network) .count) ++
    p.finished.flatMap (Station.notices network)

/-- A pass hands over frames for one agent, and ends requests of that agent. -/
structure IsOf (agent : AgentId) (p : Pass τ) : Prop where
  frames : ∀ f ∈ p.frames, f.1.destination = .agent agent
  finished : ∀ f ∈ p.finished, f.agent = agent

/-- A pass of one agent does not reach another. -/
theorem IsOf.unreached {agent target : AgentId} {p : Pass τ} (h : p.IsOf agent)
    (network : NetworkId) (ha : agent ≠ target) :
    (p.effects network).filter (Effect.reaches target) = [] := by
  refine List.filter_eq_nil_iff.2 fun e he => Bool.eq_false_iff.1 ?_
  unfold effects at he
  rcases List.mem_append.1 he with he | he
  · rcases List.mem_append.1 he with he | he
    · rcases List.mem_append.1 he with he | he
      · obtain ⟨f, hf, rfl⟩ := List.mem_map.1 he
        refine decide_eq_false fun hd => ha ?_
        exact Destination.agent.inj ((h.frames f hf).symm.trans hd)
      · obtain ⟨f, -, rfl⟩ := List.mem_map.1 he
        rfl
    · rw [List.eq_of_mem_replicate he]
      rfl
  · obtain ⟨f, hf, he⟩ := List.mem_flatMap.1 he
    rcases List.mem_cons.1 he with rfl | he
    · rfl
    · obtain rfl := List.mem_singleton.1 he
      exact decide_eq_false fun hd => ha ((h.finished f hf).symm.trans hd)

theorem charge_comm (p q : Pass τ) (t : Tally) : p.charge (q.charge t) = q.charge (p.charge t) := by
  unfold charge
  dsimp only
  rw [Nat.add_right_comm t.unicastSent, Nat.add_right_comm t.sendFailures,
    Nat.add_right_comm t.retries]

theorem foldl_recordFinished_charge (p : Pass τ) (l : List Finished) (t : Tally) :
    l.foldl (fun t f => t.recordFinished f.phase) (p.charge t) =
      p.charge (l.foldl (fun t f => t.recordFinished f.phase) t) := by
  induction l generalizing t with
  | nil => rfl
  | cons f rest ih =>
    have hstep : (p.charge t).recordFinished f.phase = p.charge (t.recordFinished f.phase) := by
      cases f.phase <;> rfl
    rw [List.foldl_cons, hstep, ih]
    rfl

theorem outcomes_effects (p : Pass τ) (network : NetworkId) :
    Station.outcomes (p.effects network) = p.finished.map fun f => (f.ticket, f.outcome) := by
  have h := (Station.told_of_idle network p.finished
    (l := p.frames.map fun f => .sent f.1 f.2)
    (m := List.replicate p.retries (.measured (.retries network) .count)) (n := [])
    (List.forall_mem_map.2 fun _ _ => trivial)
    (fun e he => List.eq_of_mem_replicate he ▸ trivial) (List.forall_mem_nil _)).1
  rwa [List.append_nil] at h

end Pass

namespace Station

variable {τ : Type} [Carrier τ] {s t u s' t' : Station τ} {agent other : AgentId} {now : Instant}
  {single : RequestId → Prop}

/-! ### Stations that did the same in another order -/

/-- At most one of the pending requests has a number. -/
def Unshared (s : Station τ) (request : RequestId) : Prop :=
  (s.idents.map Ident.request).count request ≤ 1

/-- Two stations have done the same in another order: what they keep is the same, but for the order
in which results are to be forgotten, and but for results under numbers that are not `single`; and
so is what they have done to the world, where the order of the frames for each agent and of the ends
of its requests is the same, and each submitter has been told the same. -/
structure Reordered (single : RequestId → Prop) (s t : Station τ) : Prop where
  settings : t.settings = s.settings
  agents : t.agents = s.agents
  watch : t.watch = s.watch
  estimator : t.estimator = s.estimator
  epoch : t.epoch = s.epoch
  tally : t.tally = s.tally
  pending : t.pending = s.pending
  results : ∀ request, single request → t.results.get? request = s.results.get? request
  tickets : t.tickets = s.tickets
  refusals : t.refusals = s.refusals
  expiry : t.expiry.Perm s.expiry
  /-- frames, outcomes, events and measurements -/
  log : t.log.Perm s.log
  /-- the frames for an agent, with the answers of the link, and the ends of its requests -/
  reached : ∀ agent, t.log.filter (Effect.reaches agent) = s.log.filter (Effect.reaches agent)
  outcomes : ∀ ticket, (outcomes t.log).filter (·.1 = ticket) =
    (outcomes s.log).filter (·.1 = ticket)
  left : s.Free
  right : t.Free

theorem Reordered.refl (h : s.Free) : Reordered single s s :=
  ⟨rfl, rfl, rfl, rfl, rfl, rfl, rfl, fun _ _ => rfl, rfl, rfl, .refl _, .refl _, fun _ => rfl,
    fun _ => rfl, h, h⟩

theorem Reordered.trans (h : Reordered single s t) (h' : Reordered single t u) :
    Reordered single s u where
  settings := h'.settings.trans h.settings
  agents := h'.agents.trans h.agents
  watch := h'.watch.trans h.watch
  estimator := h'.estimator.trans h.estimator
  epoch := h'.epoch.trans h.epoch
  tally := h'.tally.trans h.tally
  pending := h'.pending.trans h.pending
  results request hr := (h'.results request hr).trans (h.results request hr)
  tickets := h'.tickets.trans h.tickets
  refusals := h'.refusals.trans h.refusals
  expiry := h'.expiry.trans h.expiry
  log := h'.log.trans h.log
  reached agent := (h'.reached agent).trans (h.reached agent)
  outcomes ticket := (h'.outcomes ticket).trans (h.outcomes ticket)
  left := h.left
  right := h'.right

omit [Carrier τ] in
theorem log_pumped (s : Station τ) (agent : AgentId) (p : Pass τ) (now : Instant) :
    (s.pumped agent p now).log = s.log ++ p.effects s.id := by
  show s.log ++ _ ++ _ ++ _ ++ _ = s.log ++ (_ ++ _ ++ _ ++ _)
  simp only [List.append_assoc]
  rfl

omit [Carrier τ] in
theorem tally_pumped (s : Station τ) (agent : AgentId) (p : Pass τ) (now : Instant) :
    (s.pumped agent p now).tally =
      p.charge (p.finished.foldl (fun t f => t.recordFinished f.phase) s.tally) :=
  p.foldl_recordFinished_charge p.finished s.tally

theorem free_pumped {p : Pass τ} (hp : p.Free) (s : Station τ) (agent : AgentId) (now : Instant) :
    (s.pumped agent p now).Free :=
  ⟨hp.throttle, hp.link⟩

/-! ### One pump -/

/-- The same pass, booked in two such stations. -/
theorem Reordered.pumped (h : Reordered single s t) {p : Pass τ} {c : τ} (hp : p.Free)
    (hc : Carrier.TakesAll c) (agent : AgentId) (now : Instant) :
    Reordered single (s.pumped agent p now) (t.pumped agent (p.withLink c) now) where
  settings := h.settings
  agents := by
    show t.agents.modify agent _ = s.agents.modify agent _
    rw [h.agents]
    rfl
  watch := h.watch
  estimator := h.estimator
  epoch := h.epoch
  tally := by
    rw [tally_pumped, tally_pumped, h.tally]
    rfl
  pending := by
    show p.finished.foldl _ t.pending = p.finished.foldl _ s.pending
    rw [h.pending]
  results request hr := get?_foldl_insert_congr p.finished (h.results request hr)
  tickets := h.tickets
  refusals := h.refusals
  expiry := by
    show (t.expiry ++ p.finished.map fun f => (f.request, now + t.settings.resultGrace)).Perm
      (s.expiry ++ _)
    rw [h.settings]
    exact h.expiry.append_right _
  log := by
    have hid : t.id = s.id := congrArg NetworkSettings.id h.settings
    rw [log_pumped, log_pumped, hid]
    exact h.log.append_right _
  reached target := by
    have hid : t.id = s.id := congrArg NetworkSettings.id h.settings
    rw [log_pumped, log_pumped, List.filter_append, List.filter_append, h.reached, hid]
    rfl
  outcomes ticket := by
    rw [log_pumped, log_pumped, outcomes_append, outcomes_append, List.filter_append,
      List.filter_append, h.outcomes, Pass.outcomes_effects, Pass.outcomes_effects]
    rfl
  left := free_pumped hp s agent now
  right := free_pumped (hp.withLink hc) t agent now

theorem Reordered.backlogOf (h : Reordered single s t) (agent : AgentId) :
    t.backlogOf agent = s.backlogOf agent := by
  unfold Station.backlogOf
  rw [h.agents]

theorem Free.firstPass (h : s.Free) (b : Backlog) (now : Instant) : (s.firstPass b now).Free :=
  ⟨h.throttle, h.link⟩

/-- A pass begins alike in stations that differ in the link. -/
theorem firstPass_withLink (hs : s.Free) (ht : t.Free) (b : Backlog) (now : Instant) :
    t.firstPass b now = (s.firstPass b now).withLink t.carrier := by
  show (⟨_, t.throttle, _, _, _, _, _, _⟩ : Pass τ) = ⟨_, s.throttle, _, _, _, _, _, _⟩
  rw [hs.throttle, ht.throttle]
  rfl

/-- A pump of an agent goes the same way wherever its backlog is the same, and what it looks up. -/
theorem run_transferred (hs : s.Free) (ht : t.Free) {b : Backlog} {p : Pass τ}
    (hrun : Pass.run (s.passContext agent now) (s.firstPass b now) = (none, p))
    (hcontext : t.passContext agent now = s.passContext agent now) :
    p.Free ∧ ∃ c, Carrier.TakesAll c ∧
      Pass.run (t.passContext agent now) (t.firstPass b now) = (none, p.withLink c) := by
  refine ⟨Pass.free_run (hs.firstPass b now) hrun, ?_⟩
  rw [hcontext, firstPass_withLink hs ht]
  exact Pass.run_withLink (hs.firstPass b now) ht.link hrun

theorem Reordered.passContext (h : Reordered single s t) (agent : AgentId) (now : Instant) :
    t.passContext agent now = s.passContext agent now := by
  unfold Station.passContext Station.id
  rw [h.settings, h.estimator, h.epoch]

theorem Reordered.pump (h : Reordered single s t) (hp : pump agent now s = .ok () s') :
    ∃ t', pump agent now t = .ok () t' ∧ Reordered single s' t' := by
  rcases pump_eq_ok.1 hp with ⟨hb, rfl⟩ | ⟨b, p, hb, hrun, hn, rfl⟩
  · exact ⟨t, pump_eq_ok.2 (.inl ⟨(h.backlogOf agent).trans hb, rfl⟩), h⟩
  · obtain ⟨hfree, c, hc, hq⟩ := run_transferred h.left h.right hrun (h.passContext agent now)
    refine ⟨_, pump_eq_ok.2 (.inr ⟨b, _, (h.backlogOf agent).trans hb, hq, ?_, rfl⟩),
      h.pumped hfree hc agent now⟩
    rw [h.settings]
    exact hn

/-! ### Two pumps -/

omit [Carrier τ] in
theorem agents_pumped_comm (s : Station τ) (ha : agent ≠ other) (p q p' q' : Pass τ)
    (hp : p'.backlog = p.backlog) (hq : q'.backlog = q.backlog) :
    ((s.pumped agent p now).pumped other q' now).agents =
      ((s.pumped other q now).pumped agent p' now).agents := by
  show (s.agents.modify agent fun a => { a with backlog := some p.backlog }).modify other
      (fun a => { a with backlog := some q'.backlog }) =
    (s.agents.modify other fun a => { a with backlog := some q.backlog }).modify agent
      fun a => { a with backlog := some p'.backlog }
  rw [hp, hq]
  refine Table.ext_get? fun k => ?_
  rw [Table.get?_modify, Table.get?_modify, Table.get?_modify, Table.get?_modify]
  by_cases hk : k = agent
  · subst hk
    rw [if_neg ha, if_pos rfl, if_pos rfl, if_neg ha]
  · rw [if_neg hk, if_neg hk]

/-- Two passes of different agents, booked in either order. -/
theorem reordered_pumped (ha : agent ≠ other) {p q : Pass τ} {c d : τ} (hp : p.Free)
    (hq : q.Free) (hc : Carrier.TakesAll c) (hd : Carrier.TakesAll d)
    (hpto : p.IsOf agent) (hqto : q.IsOf other)
    (hrequests : ∀ request, single request →
      ((p.finished ++ q.finished).map Finished.request).count request ≤ 1)
    (htickets : ((p.finished ++ q.finished).map Finished.ticket).Nodup) :
    Reordered single ((s.pumped agent p now).pumped other (q.withLink c) now)
      ((s.pumped other q now).pumped agent (p.withLink d) now) where
  settings := rfl
  agents := (agents_pumped_comm s ha p q (p.withLink d) (q.withLink c) rfl rfl).symm
  watch := rfl
  estimator := rfl
  epoch := rfl
  tally := by
    rw [tally_pumped, tally_pumped, tally_pumped, tally_pumped]
    show p.charge (p.finished.foldl _ (q.charge _)) = q.charge (q.finished.foldl _ (p.charge _))
    rw [Pass.foldl_recordFinished_charge, Pass.foldl_recordFinished_charge, Pass.charge_comm,
      ← List.foldl_append, ← List.foldl_append, List.perm_append_comm.foldl_eq]
  pending := by
    show p.finished.foldl _ (q.finished.foldl _ s.pending) =
      q.finished.foldl _ (p.finished.foldl _ s.pending)
    rw [← List.foldl_append, ← List.foldl_append]
    exact foldl_erase_perm List.perm_append_comm s.pending
  results request hr := by
    show (p.finished.foldl _ (q.finished.foldl _ s.results)).get? request =
      (q.finished.foldl _ (p.finished.foldl _ s.results)).get? request
    rw [← List.foldl_append, ← List.foldl_append]
    exact get?_foldl_insert_append_comm (hrequests request hr) s.results
  tickets := rfl
  refusals := rfl
  expiry := by
    show (s.expiry ++ _ ++ _).Perm (s.expiry ++ _ ++ _)
    rw [List.append_assoc, List.append_assoc]
    exact List.perm_append_comm.append_left _
  log := by
    rw [log_pumped, log_pumped, log_pumped, log_pumped, List.append_assoc, List.append_assoc]
    exact List.perm_append_comm.append_left _
  reached target := by
    rw [log_pumped, log_pumped, log_pumped, log_pumped, List.append_assoc, List.append_assoc,
      List.filter_append, List.filter_append s.log]
    refine congrArg _ (filter_append_comm ?_)
    by_cases ht : agent = target
    · exact .inl (hqto.unreached s.id fun h => ha (ht.trans h.symm))
    · exact .inr (hpto.unreached s.id ht)
  outcomes ticket := by
    rw [log_pumped, log_pumped, log_pumped, log_pumped, List.append_assoc, List.append_assoc,
      outcomes_append, outcomes_append s.log, List.filter_append, List.filter_append,
      outcomes_append, outcomes_append, Pass.outcomes_effects, Pass.outcomes_effects,
      Pass.outcomes_effects, Pass.outcomes_effects]
    refine congrArg _ (filter_append_comm ?_)
    -- a ticket is that of one request at most
    by_contra hboth
    obtain ⟨hq, hp⟩ := not_or.1 hboth
    obtain ⟨x, hx⟩ := List.exists_mem_of_ne_nil _ hq
    obtain ⟨y, hy⟩ := List.exists_mem_of_ne_nil _ hp
    obtain ⟨hx, hxt⟩ := List.mem_filter.1 hx
    obtain ⟨hy, hyt⟩ := List.mem_filter.1 hy
    obtain ⟨f, hf, rfl⟩ := List.mem_map.1 hx
    obtain ⟨g, hg, rfl⟩ := List.mem_map.1 hy
    rw [List.map_append] at htickets
    refine List.disjoint_of_nodup_append htickets (List.mem_map_of_mem hg) ?_
    have he : g.ticket = f.ticket := (of_decide_eq_true hyt).trans (of_decide_eq_true hxt).symm
    rw [he]
    exact List.mem_map_of_mem hf
  left := free_pumped (hq.withLink hc) _ other now
  right := free_pumped (hp.withLink hd) _ agent now

theorem pump_transfer (hs : s.Sound) (h : pump agent now s = .ok () s') :
    s'.Sound ∧ ∃ ended, Transfer s [] ended s' := by
  rcases pump_eq_ok.1 h with ⟨-, rfl⟩ | ⟨b, p, hb, hrun, -, rfl⟩
  · exact ⟨hs, [], .of_quiet (.refl _)⟩
  · exact ⟨(transfer_pumped hs hb hrun).1, _, (transfer_pumped hs hb hrun).2⟩

omit [Carrier τ] in
/-- A number is that of as many requests that end and that stay as it was before. -/
theorem Transfer.count_request {ended : List Finished} (h : Transfer s [] ended s')
    (request : RequestId) : (s.idents.map Ident.request).count request =
      (ended.map Finished.request).count request +
        (s'.idents.map Ident.request).count request := by
  have hcount := (h.balance.map Ident.request).count_eq request
  rwa [List.append_nil, List.map_append, List.count_append, List.map_map] at hcount

/-- A station that can be pumped in any order: nothing is throttled, the link takes every frame, and
no two pending requests have a number that is `single`. -/
structure Poised (single : RequestId → Prop) (s : Station τ) : Prop where
  sound : s.Sound
  numbered : s.Numbered
  free : s.Free
  unshared : ∀ request, single request → s.Unshared request

theorem Poised.pump (h : Poised single s) (hp : pump agent now s = .ok () s') :
    Poised single s' := by
  obtain ⟨hs', ended, ht⟩ := pump_transfer h.sound hp
  refine ⟨hs', ht.keeps_numbered h.numbered, ?_, fun request hr => ?_⟩
  · rcases pump_eq_ok.1 hp with ⟨-, rfl⟩ | ⟨b, p, -, hrun, -, rfl⟩
    · exact h.free
    · exact free_pumped (Pass.free_run (h.free.firstPass b now) hrun) s agent now
  · have hcount := ht.count_request request
    have hone := h.unshared request hr
    unfold Unshared at hone ⊢
    omega

omit [Carrier τ] in
theorem backlogOf_pumped_of_ne (s : Station τ) (ha : other ≠ agent) (p : Pass τ) (now : Instant) :
    (s.pumped agent p now).backlogOf other = s.backlogOf other := by
  show ((s.agents.modify agent _).get? other).bind _ = (s.agents.get? other).bind _
  rw [Table.get?_modify, if_neg ha]

theorem isOf_of_run (hs : s.Sound) {b : Backlog} (hb : s.backlogOf agent = some b) {p : Pass τ}
    (hp : Pass.run (s.passContext agent now) (s.firstPass b now) = (none, p)) : p.IsOf agent where
  frames := destination_of_run (queueOf_of_backlogOf hb ▸ hs.settled agent) hp
  finished f hf := hs.placed agent f.ident (ident_mem_of_finished hs hb hp f hf)

/-- Two pumps of different agents, in either order. -/
theorem reordered_pumps (hs : Poised single s) (ha : agent ≠ other)
    (h : pump agent now s = .ok () t) (h' : pump other now t = .ok () u) :
    ∃ t' u', pump other now s = .ok () t' ∧ pump agent now t' = .ok () u' ∧
      Reordered single u u' := by
  have hfree := hs.free
  rcases pump_eq_ok.1 h with ⟨hb, rfl⟩ | ⟨b, p, hb, hp, hn, rfl⟩
  · -- the first agent has no backlog, which the pump of the other one does not change
    rcases pump_eq_ok.1 h' with ⟨-, rfl⟩ | ⟨c, q, hc, hq, -, rfl⟩
    · exact ⟨_, _, h', h, .refl hfree⟩
    · have hb' := (backlogOf_pumped_of_ne t ha q now).trans hb
      exact ⟨_, _, h', pump_eq_ok.2 (.inl ⟨hb', rfl⟩),
        .refl (free_pumped (Pass.free_run (hfree.firstPass c now) hq) t other now)⟩
  · have hpfree := Pass.free_run (hfree.firstPass b now) hp
    have htfree := free_pumped hpfree s agent now
    rcases pump_eq_ok.1 h' with ⟨hc, rfl⟩ | ⟨c, q, hc, hq, hm, rfl⟩
    · rw [backlogOf_pumped_of_ne s ha.symm] at hc
      exact ⟨s, _, pump_eq_ok.2 (.inl ⟨hc, rfl⟩), h, .refl htfree⟩
    · -- the pass of the other agent goes the same way before the pump of the first one
      obtain ⟨hqfree, d, hlink, hq₀⟩ := run_transferred htfree hfree hq (t := s) rfl
      rw [backlogOf_pumped_of_ne s ha.symm] at hc
      have hfirst := pump_eq_ok.2 (.inr ⟨c, q.withLink d, hc, hq₀, hm, rfl⟩)
      have ht'free := free_pumped (hqfree.withLink hlink) s other now
      obtain ⟨-, e, hlink', hp₀⟩ := run_transferred hfree ht'free hp rfl
      have hb' := (backlogOf_pumped_of_ne s ha (q.withLink d) now).trans hb
      have hsecond := pump_eq_ok.2 (.inr ⟨b, p.withLink e, hb', hp₀, hn, rfl⟩)
      refine ⟨_, _, hfirst, hsecond, ?_⟩
      -- what the two passes have ended are different requests
      obtain ⟨hsound, htp⟩ := transfer_pumped hs.sound hb hp
      have hcq := (backlogOf_pumped_of_ne s ha.symm p now).trans hc
      obtain ⟨-, htq⟩ := transfer_pumped hsound hcq hq
      have htransfer := htp.trans htq
      have hrequests : ∀ request, single request →
          ((p.finished ++ q.finished).map Finished.request).count request ≤ 1 := by
        intro request hr
        have hcount := htransfer.count_request request
        have hone := hs.unshared request hr
        unfold Unshared at hone
        omega
      have htickets := htransfer.nodup hs.numbered
      rw [List.map_append, List.map_map] at htickets
      show Reordered single
        ((s.pumped agent p now).pumped other ((q.withLink d).withLink q.carrier) now) _
      exact reordered_pumped ha hpfree (hqfree.withLink hlink) hqfree.link hlink'
        (isOf_of_run hs.sound hb hp) (isOf_of_run hs.sound hc hq₀) hrequests
        htickets.of_append_left

/-! ### All pumps -/

/-- The pumps of different agents can be done in any order. -/
theorem interchange_pump (single : RequestId → Prop) (now : Instant) :
    Act.Interchange (fun agent => (Station.pump agent now : Act τ Unit)) (· ≠ ·) (Poised single)
      (Reordered single) where
  symm := Ne.symm
  refl h := .refl h.free
  trans := .trans
  fit := Poised.pump
  same := Reordered.pump
  swap ha hs h h' := reordered_pumps hs ha h h'

/-! ### Results to forget -/

/-- The results of pumps at one instant are all to be forgotten at one instant. -/
theorem expiry_forM_pump {l : List AgentId} (h : l.forM (pump · now) s = .ok () s') :
    s'.settings = s.settings ∧ ∃ new, s'.expiry = s.expiry ++ new ∧
      ∀ e ∈ new, e.2 = now + s.settings.resultGrace := by
  induction l generalizing s with
  | nil =>
    obtain rfl := Act.forM_nil_eq_ok.1 h
    exact ⟨rfl, [], (List.append_nil _).symm, List.forall_mem_nil _⟩
  | cons agent rest ih =>
    obtain ⟨s₁, hfirst, hrest⟩ := Act.forM_cons_eq_ok.1 h
    obtain ⟨hset, new, hnew, htime⟩ := ih hrest
    rcases pump_eq_ok.1 hfirst with ⟨-, rfl⟩ | ⟨b, p, -, -, -, rfl⟩
    · exact ⟨hset, new, hnew, htime⟩
    · refine ⟨hset, _, hnew.trans (List.append_assoc ..), List.forall_mem_append.2 ⟨?_, htime⟩⟩
      exact List.forall_mem_map.2 fun f _ => rfl

omit [Carrier τ] in
/-- What is dropped of a list, and what is kept, if the order of its end changes, which is dropped
or kept as a whole. -/
theorem while_perm {α : Type} {p : α → Bool} {base x y : List α} (hperm : y.Perm x)
    (hx : (∀ e ∈ x, p e = true) ∨ ∀ e ∈ x, p e = false) :
    ((base ++ y).takeWhile p).Perm ((base ++ x).takeWhile p) ∧
      ((base ++ y).dropWhile p).Perm ((base ++ x).dropWhile p) := by
  induction base with
  | nil =>
    rw [List.nil_append, List.nil_append]
    rcases hx with hx | hx
    · have hy : ∀ e ∈ y, p e = true := fun e he => hx e (hperm.mem_iff.1 he)
      rw [List.takeWhile_eq_self_iff.2 hx, List.takeWhile_eq_self_iff.2 hy,
        List.dropWhile_eq_nil_iff.2 hx, List.dropWhile_eq_nil_iff.2 hy]
      exact ⟨hperm, .refl _⟩
    · have hkept : ∀ l : List α, (∀ e ∈ l, p e = false) →
          l.takeWhile p = [] ∧ l.dropWhile p = l := by
        intro l hl
        cases l with
        | nil => exact ⟨rfl, rfl⟩
        | cons e rest =>
          have he := hl e List.mem_cons_self
          rw [List.takeWhile_cons, List.dropWhile_cons, he]
          exact ⟨rfl, rfl⟩
      obtain ⟨htake, hdrop⟩ := hkept x hx
      obtain ⟨htake', hdrop'⟩ := hkept y fun e he => hx e (hperm.mem_iff.1 he)
      rw [htake, hdrop, htake', hdrop']
      exact ⟨.refl _, hperm⟩
  | cons e rest ih =>
    simp only [List.cons_append, List.takeWhile_cons, List.dropWhile_cons]
    cases p e with
    | true => exact ⟨ih.1.cons e, ih.2⟩
    | false => exact ⟨.refl _, (hperm.append_left rest).cons e⟩

theorem Reordered.expireResults (h : Reordered single s t) {base x y : List (RequestId × Instant)}
    {time : Instant} (hs : s.expiry = base ++ x) (ht : t.expiry = base ++ y)
    (hx : ∀ e ∈ x, e.2 = time) (now : Instant) :
    Reordered single (s.expireResults now) (t.expireResults now) := by
  have hperm : y.Perm x := by
    have hp := h.expiry
    rw [hs, ht] at hp
    exact (List.perm_append_left_iff base).1 hp
  have hpast : (∀ e ∈ x, decide (e.2 ≤ now) = true) ∨ ∀ e ∈ x, decide (e.2 ≤ now) = false := by
    by_cases htime : time ≤ now
    · exact .inl fun e he => decide_eq_true ((hx e he).symm ▸ htime)
    · exact .inr fun e he => decide_eq_false ((hx e he).symm ▸ htime)
  obtain ⟨htake, hdrop⟩ := while_perm (p := fun e => decide (e.2 ≤ now)) hperm hpast
  rw [← hs, ← ht] at htake hdrop
  exact { h with
    results := fun request hr => by
      show (List.foldl _ t.results _).get? request = (List.foldl _ s.results _).get? request
      rw [Table.get?_foldl_erase, Table.get?_foldl_erase, h.results request hr]
      exact if_congr (htake.map _).mem_iff rfl rfl
    expiry := hdrop
    left := ⟨h.left.throttle, h.left.link⟩
    right := ⟨h.right.throttle, h.right.link⟩ }

theorem Reordered.depth (h : Reordered single s t) :
    Reordered single (s.level (.queueDepth s.id) s.queueDepth)
      (t.level (.queueDepth t.id) t.queueDepth) := by
  have hid : t.id = s.id := congrArg NetworkSettings.id h.settings
  have hdepth : t.queueDepth = s.queueDepth :=
    congrArg (fun agents => total Agent.pendingLen (Table.values agents)) h.agents
  have hunseen : ∀ (u : Station τ) (series : Series) (value : Nat),
      Station.outcomes (u.level series value).log = Station.outcomes u.log ∧ ∀ agent,
        (u.level series value).log.filter (Effect.reaches agent) =
          u.log.filter (Effect.reaches agent) := fun u _ _ =>
    ⟨(outcomes_append u.log _).trans (List.append_nil _), fun _ =>
      (List.filter_append ..).trans (List.append_nil _)⟩
  exact { h with
    log := by
      rw [hid, hdepth]
      exact h.log.append_right _
    reached := fun agent => by rw [(hunseen t _ _).2, (hunseen s _ _).2, h.reached]
    outcomes := fun ticket => by rw [(hunseen t _ _).1, (hunseen s _ _).1, h.outcomes]
    left := ⟨h.left.throttle, h.left.link⟩
    right := ⟨h.right.throttle, h.right.link⟩ }

omit [Carrier τ] in
/-- The same agents are busy, whichever way the table of agents is walked. -/
theorem busyAgents_perm (s : Station τ) (walk walk' : Walk) :
    (@busyAgents τ walk s).Perm (@busyAgents τ walk' s) :=
  (((@Walk.entries_perm _ walk s.agents).trans
    (@Walk.entries_perm _ walk' s.agents).symm).filter _).map _

/-- The pumps of all agents, whichever way the table of agents is walked. -/
theorem reordered_pumpAll (hs : Poised single s) (walk walk' : Walk)
    (h : @pumpAll τ _ walk now s = .ok () s') :
    ∃ t', @pumpAll τ _ walk' now s = .ok () t' ∧ Reordered single s' t' := by
  obtain ⟨s₁, hp, rfl⟩ := (@pumpAll_eq_ok τ _ walk s s' now).1 h
  obtain ⟨t₁, hp', h₁⟩ := (interchange_pump single now).forM_perm (busyAgents_perm s walk walk')
    (@nodup_busyAgents τ walk s) hs (.refl hs.free) hp
  obtain ⟨-, x, hx, htime⟩ := expiry_forM_pump hp
  obtain ⟨-, y, hy, -⟩ := expiry_forM_pump hp'
  exact ⟨_, (@pumpAll_eq_ok τ _ walk' s _ now).2 ⟨t₁, hp', rfl⟩,
    (h₁.expireResults hx hy htime now).depth⟩

/-- After any operations on a station without a limiter, if the link takes every frame from then on:
the pumps of all agents come to the same in every order, and so do those of all agents with pending
requests, after which old results are forgotten, in whichever order the table of agents is walked.
Results are the same under every number that is that of at most one pending request. -/
theorem pump_order_irrelevant {settings : NetworkSettings} {carrier : τ} {start : Instant}
    {operations : List Operation} {steps : List (Step τ)} (hrate : settings.rateLimit = none)
    (hrun : run operations (new settings carrier start) = .ok (steps, s))
    (hlink : Carrier.TakesAll s.carrier) (now : Instant) :
    (∀ l m : List AgentId, l.Perm s.agents.keys → m.Perm s.agents.keys →
      ∀ s', l.forM (pump · now) s = .ok () s' →
        ∃ t', m.forM (pump · now) s = .ok () t' ∧ Reordered s.Unshared s' t') ∧
      ∀ walk walk' s', @pumpAll τ _ walk now s = .ok () s' →
        ∃ t', @pumpAll τ _ walk' now s = .ok () t' ∧ Reordered s.Unshared s' t' := by
  obtain ⟨hsound, ended, htransfer⟩ := run_transfer (sound_new settings carrier start) hrun
  have hset : s.settings.rateLimit = none := by
    rw [htransfer.settings]
    exact hrate
  have hposed : Poised s.Unshared s :=
    ⟨hsound, htransfer.keeps_numbered (numbered_new settings carrier start),
      ⟨(tuned_of_run hrun).throttle hset, hlink⟩, fun _ hr => hr⟩
  refine ⟨fun l m hl hm s' hp => ?_, fun walk walk' s' hp =>
    reordered_pumpAll hposed walk walk' hp⟩
  have hkeys : s.agents.keys.Nodup := List.pairwise_map.2 (s.agents.sorted.imp Nat.ne_of_lt)
  exact (interchange_pump s.Unshared now).forM_perm (hl.trans hm.symm) (hl.nodup_iff.2 hkeys)
    hposed (.refl hposed.free) hp

end Station

/-- A link that takes every frame. -/
structure Sink where

instance : Carrier Sink := ⟨fun c _ => (.ok (), c), fun _ => "sink"⟩

theorem Sink.takesAll (c : Sink) : Carrier.TakesAll c := fun _ _ => rfl

namespace Station

/-- Two agents: one with an overdue request and one that waits behind it, the other with a request
that is withdrawn and one that goes out. -/
def crowdedTick : List Operation :=
  [.route (.heartbeat "alpha" 1) 0, .route (.heartbeat "alpha" 2) 0,
    .submit 1 1 (.expecting [7] 3) .normal 1 10,
    .enqueue 2 1 (.oneWay [8]) .normal 1,
    .enqueue 3 2 (.oneWay [9]) .normal 1,
    .enqueue 4 2 (.expecting [10] 4) .normal 2,
    .cancel 3]

/-- How many requests have ended once the agents are pumped in an order. -/
def endedAfter (agents : List AgentId) (s : Station Sink) : Option Nat :=
  match agents.forM (pump · 90000000000) s with
  | .ok _ s' => some s'.tally.ended
  | .error .. => none

theorem pump_order_irrelevant_crowdedTick :
    ∃ steps s s' t', run crowdedTick (new { id := "alpha" } Sink.mk 0) = .ok (steps, s) ∧
      [1, 2].forM (pump · 90000000000) s = .ok () s' ∧
      [2, 1].forM (pump · 90000000000) s = .ok () t' ∧
      s'.tally.ended = 3 ∧ Reordered s.Unshared s' t' := by
  have hrun : (run crowdedTick (new { id := "alpha" } Sink.mk 0)).toOption.map (fun r =>
      (r.2.agents.keys, endedAfter [1, 2] r.2)) = some ([1, 2], some 3) := by decide +kernel
  obtain ⟨steps, s, h, hq⟩ := exists_run_of_map hrun
  have hkeys : s.agents.keys = [1, 2] := congrArg Prod.fst hq
  have hended : endedAfter [1, 2] s = some 3 := congrArg Prod.snd hq
  unfold endedAfter at hended
  cases hp : [1, 2].forM (pump · 90000000000) s with
  | error fault s' =>
    rw [hp] at hended
    cases hended
  | ok _ s' =>
    rw [hp] at hended
    obtain ⟨t', hp', hsame⟩ := (pump_order_irrelevant rfl h (Sink.takesAll _) _).1
      [1, 2] [2, 1] (hkeys ▸ .refl _) (hkeys ▸ .swap 1 2 []) s' hp
    exact ⟨steps, s, s', t', h, hp, hp', Option.some.inj hended, hsame⟩

/-- Two agents with a request of one number each, the second of which is withdrawn. -/
def sharedNumber : List Operation :=
  [.route (.heartbeat "alpha" 1) 0, .route (.heartbeat "alpha" 2) 0,
    .enqueue 7 1 (.oneWay [8]) .normal 1,
    .enqueue 7 2 (.oneWay [9]) .normal 1,
    .cancel 7]

/-- What is known of a request once the agents are pumped in an order. -/
def resultAfter (agents : List AgentId) (request : RequestId) (s : Station Sink) : Option Phase :=
  match agents.forM (pump · 10) s with
  | .ok _ s' => s'.results.get? request
  | .error .. => none

/-- Of two ends under one number the later one is kept as its result. -/
theorem pump_order_of_shared_number :
    ∃ steps s, run sharedNumber (new { id := "alpha" } Sink.mk 0) = .ok (steps, s) ∧
      s.agents.keys = [1, 2] ∧
      resultAfter [1, 2] 7 s = some .cancelled ∧ resultAfter [2, 1] 7 s = some .acked := by
  have hrun : (run sharedNumber (new { id := "alpha" } Sink.mk 0)).toOption.map (fun r =>
      (r.2.agents.keys, resultAfter [1, 2] 7 r.2, resultAfter [2, 1] 7 r.2)) =
        some ([1, 2], some .cancelled, some .acked) := by decide +kernel
  obtain ⟨steps, s, h, hq⟩ := exists_run_of_map hrun
  exact ⟨steps, s, h, congrArg (·.1) hq, congrArg (·.2.1) hq, congrArg (·.2.2) hq⟩

end Station

end GroundControl
