import Mathlib.Data.List.Nodup
import GroundControl.Proofs.Station.Course

/-!
# The balance of an operation

An operation takes requests in, ends requests, and keeps the others: the requests that were pending
before it and those it takes in are those that end in it and those that are pending after it.  Each
end is told once to the subscribers, once to the submitter, and counted once.

* `Station.Sound`: every backlog is settled and holds the requests of its agent alone;
* `Station.outcomes`, `Station.ends`, what a list of effects tells submitters and subscribers;
* `Transfer`, the balance; `Transfer.trans`;
* `perform_transfer`: every operation keeps a sound station sound, and keeps the balance;
* `Numbered`: the pending requests have different tickets.
-/

namespace GroundControl

/-- The event that tells of the end of a request. -/
def Finished.event (f : Finished) (network : NetworkId) : Event :=
  .finished network f.agent f.request f.phase f.outcome

/-- The end of a request that subscribers were told of. -/
def Effect.end? : Effect → Option Event
  | .published (.finished network agent request phase outcome) =>
      some (.finished network agent request phase outcome)
  | _ => none

namespace Station

variable {τ : Type}

/-- The identities of the pending requests of all agents. -/
def idents (s : Station τ) : List Ident := s.requests.map Request.ident

/-- The outcomes that submitters were told. -/
def outcomes (effects : List Effect) : List (Ticket × Outcome) := effects.filterMap Effect.outcome?

/-- The ends of requests that subscribers were told of. -/
def ends (effects : List Effect) : List Event := effects.filterMap Effect.end?

theorem outcomes_append (l m : List Effect) : outcomes (l ++ m) = outcomes l ++ outcomes m :=
  List.filterMap_append

theorem ends_append (l m : List Effect) : ends (l ++ m) = ends l ++ ends m :=
  List.filterMap_append

theorem delivered_mem_of_outcomes {l : List Effect} {ticket : Ticket} {outcome : Outcome}
    (h : (ticket, outcome) ∈ outcomes l) : .delivered ticket outcome ∈ l := by
  obtain ⟨e, he, ho⟩ := List.mem_filterMap.1 h
  cases e with
  | delivered t o =>
    cases ho
    exact he
  | sent | published | measured => cases ho

theorem published_mem_of_ends {l : List Effect} {event : Event} (h : event ∈ ends l) :
    .published event ∈ l := by
  obtain ⟨e, he, ho⟩ := List.mem_filterMap.1 h
  cases e with
  | published e =>
    cases e with
    | finished =>
      cases ho
      exact he
    | registered | evicted | presence => cases ho
  | sent | delivered | measured => cases ho

theorem outcomes_of_idle {l : List Effect} (h : ∀ e ∈ l, e.Idle) : outcomes l = [] := by
  refine List.filterMap_eq_nil_iff.2 fun e he => ?_
  have hi := h e he
  cases e with
  | delivered => cases hi
  | _ => rfl

theorem ends_of_idle {l : List Effect} (h : ∀ e ∈ l, e.Idle) : ends l = [] := by
  refine List.filterMap_eq_nil_iff.2 fun e he => ?_
  have hi := h e he
  cases e with
  | published event =>
    cases event with
    | finished => cases hi
    | _ => rfl
  | _ => rfl

theorem outcomes_delivered (l : List Finished) :
    outcomes (l.map fun f => .delivered f.ticket f.outcome) =
      l.map fun f => (f.ticket, f.outcome) := by
  unfold outcomes
  rw [List.filterMap_map]
  exact congrFun List.filterMap_eq_map l

theorem ends_delivered (l : List Finished) :
    ends (l.map fun f => .delivered f.ticket f.outcome) = [] := by
  unfold ends
  rw [List.filterMap_map]
  exact List.filterMap_eq_nil_iff.2 fun f _ => rfl

theorem outcomes_notices (network : NetworkId) (l : List Finished) :
    outcomes (l.flatMap (notices network)) = [] := by
  induction l with
  | nil => rfl
  | cons f rest ih => exact ih

theorem ends_notices (network : NetworkId) (l : List Finished) :
    ends (l.flatMap (notices network)) = l.map fun f => f.event network := by
  induction l with
  | nil => rfl
  | cons f rest ih => exact congrArg (f.event network :: ·) ih

/-- How the ends of requests are told: the outcomes first, then the notices. -/
theorem told_of_idle (network : NetworkId) (ended : List Finished) {l m n : List Effect}
    (hl : ∀ e ∈ l, e.Idle) (hm : ∀ e ∈ m, e.Idle) (hn : ∀ e ∈ n, e.Idle) :
    outcomes (l ++ (ended.map fun f => .delivered f.ticket f.outcome) ++ m ++
        ended.flatMap (notices network) ++ n) = ended.map (fun f => (f.ticket, f.outcome)) ∧
      ends (l ++ (ended.map fun f => .delivered f.ticket f.outcome) ++ m ++
        ended.flatMap (notices network) ++ n) = ended.map fun f => f.event network := by
  constructor
  · simp only [outcomes_append, outcomes_of_idle hl, outcomes_of_idle hm, outcomes_of_idle hn,
      outcomes_delivered, outcomes_notices, List.nil_append, List.append_nil]
  · simp only [ends_append, ends_of_idle hl, ends_of_idle hm, ends_of_idle hn, ends_delivered,
      ends_notices, List.nil_append, List.append_nil]

/-! ### Sound stations -/

/-- Every backlog is settled and holds the requests of its agent alone. -/
structure Sound (s : Station τ) : Prop where
  settled : ∀ agent, (s.queueOf agent).Settled
  placed : ∀ agent, ∀ i ∈ (s.queueOf agent).idents, i.agent = agent

theorem sound_new (settings : NetworkSettings) (carrier : τ) (now : Instant) :
    (new settings carrier now).Sound where
  settled agent := Backlog.settled_new agent settings.queueDepth
  placed _ := List.forall_mem_nil _

theorem Sound.of_queueOf {s s' : Station τ} (h : s.Sound)
    (hq : ∀ agent, s'.queueOf agent = s.queueOf agent) : s'.Sound where
  settled agent := hq agent ▸ h.settled agent
  placed agent := hq agent ▸ h.placed agent

/-- A station stays sound if one backlog is replaced by a settled one with requests of its agent. -/
theorem Sound.replace {s s' : Station τ} (h : s.Sound) {agent : AgentId} {b : Backlog}
    (hq : ∀ other, s'.queueOf other = if other = agent then b else s.queueOf other)
    (hb : b.Settled) (hi : ∀ i ∈ b.idents, i.agent = agent) : s'.Sound where
  settled other := by
    rw [hq]
    split
    · exact hb
    · exact h.settled other
  placed other := by
    rw [hq]
    split
    · rename_i ho
      rw [ho]
      exact hi
    · exact h.placed other

/-! ### Counting the ends -/

theorem ended_recordFinished (t : Tally) {f : Finished} (h : f.Fits) :
    (t.recordFinished f.phase).ended = t.ended + 1 := by
  have hp : f.phase = f.outcome.phase := h
  rw [hp]
  unfold Tally.ended
  cases f.outcome with
  | success attempts roundTrip =>
    show t.acked + 1 + t.failed + t.cancelled = _
    omega
  | failure cause attempts detail =>
    cases cause with
    | cancelled => rfl
    | _ =>
      show t.acked + (t.failed + 1) + t.cancelled = _
      omega

theorem ended_foldl_recordFinished {l : List Finished} (h : ∀ f ∈ l, f.Fits) (t : Tally) :
    (l.foldl (fun t f => t.recordFinished f.phase) t).ended = t.ended + l.length := by
  induction l generalizing t with
  | nil => rfl
  | cons f rest ih =>
    obtain ⟨hf, hrest⟩ := List.forall_mem_cons.1 h
    rw [List.foldl_cons, ih hrest, ended_recordFinished t hf, List.length_cons]
    omega

/-! ### The balance -/

/-- A change of a station in which the requests `fresh` are taken in and the requests `ended`
end. -/
structure Transfer (s : Station τ) (fresh : List Ident) (ended : List Finished)
    (s' : Station τ) : Prop where
  settings : s'.settings = s.settings
  balance : (s.idents ++ fresh).Perm (ended.map Finished.ident ++ s'.idents)
  numbered : fresh.map Ident.ticket = List.range' s.tickets fresh.length
  tickets : s'.tickets = s.tickets + fresh.length
  fits : ∀ f ∈ ended, f.Fits
  tally : s'.tally.ended = s.tally.ended + ended.length
  log : ∃ effects, s'.log = s.log ++ effects ∧
    outcomes effects = ended.map (fun f => (f.ticket, f.outcome)) ∧
      ends effects = ended.map fun f => f.event s.id

theorem Transfer.of_quiet {s s' : Station τ} (h : Quiet s s') : Transfer s [] [] s' where
  settings := h.settings
  balance := by
    rw [List.append_nil]
    exact (h.requests.map Request.ident).symm
  numbered := rfl
  tickets := h.tickets
  fits := List.forall_mem_nil _
  tally := h.ended
  log := by
    obtain ⟨effects, hl, hi⟩ := h.log
    exact ⟨effects, hl, outcomes_of_idle hi, ends_of_idle hi⟩

theorem Transfer.trans {s t u : Station τ} {fresh fresh' : List Ident}
    {ended ended' : List Finished}
    (h : Transfer s fresh ended t) (h' : Transfer t fresh' ended' u) :
    Transfer s (fresh ++ fresh') (ended ++ ended') u where
  settings := h'.settings.trans h.settings
  balance := by
    rw [List.map_append, List.append_assoc, ← List.append_assoc]
    refine (h.balance.append_right fresh').trans ?_
    rw [List.append_assoc]
    exact h'.balance.append_left _
  numbered := by
    rw [List.map_append, h.numbered, h'.numbered, h.tickets, List.length_append]
    exact List.range'_append_1 ..
  tickets := by
    rw [h'.tickets, h.tickets, List.length_append, Nat.add_assoc]
  fits := List.forall_mem_append.2 ⟨h.fits, h'.fits⟩
  tally := by
    rw [h'.tally, h.tally, List.length_append, Nat.add_assoc]
  log := by
    obtain ⟨l, hl, ho, he⟩ := h.log
    obtain ⟨m, hm, ho', he'⟩ := h'.log
    have hid : t.id = s.id := congrArg NetworkSettings.id h.settings
    refine ⟨l ++ m, ?_, ?_, ?_⟩
    · rw [hm, hl, List.append_assoc]
    · rw [outcomes_append, ho, ho', List.map_append]
    · rw [ends_append, he, he', hid, List.map_append]

/-- Each end is told to the submitter and to the subscribers. -/
theorem Transfer.tells {s s' : Station τ} {fresh : List Ident} {ended : List Finished}
    (h : Transfer s fresh ended s') :
    ∃ effects, s'.log = s.log ++ effects ∧ ∀ f ∈ ended,
      .delivered f.ticket f.outcome ∈ effects ∧ .published (f.event s.id) ∈ effects := by
  obtain ⟨effects, hl, ho, he⟩ := h.log
  refine ⟨effects, hl, fun f hf => ⟨delivered_mem_of_outcomes ?_, published_mem_of_ends ?_⟩⟩
  · rw [ho]
    exact List.mem_map_of_mem hf
  · rw [he]
    exact List.mem_map_of_mem hf

theorem Step.effects_of_log {step : Step τ} {effects : List Effect}
    (h : step.after.log = step.before.log ++ effects) : step.effects = effects := by
  unfold Step.effects
  rw [h, List.drop_left]

/-- What a step tells is how the requests ended that did so in it. -/
theorem Transfer.effects (step : Step τ) {fresh : List Ident} {ended : List Finished}
    (h : Transfer step.before fresh ended step.after) :
    outcomes step.effects = ended.map (fun f => (f.ticket, f.outcome)) ∧
      ends step.effects = ended.map fun f => f.event step.before.id := by
  obtain ⟨effects, hl, ho, he⟩ := h.log
  rw [Step.effects_of_log hl]
  exact ⟨ho, he⟩

/-- The balance of one backlog is the balance of the station. -/
theorem balance_of_replaced {s s' : Station τ} {agent : AgentId} {a : Agent} {b : Backlog}
    {fresh : List Ident} {ended : List Finished} (ha : s.agents.get? agent = some a)
    (hs : s'.agents = (s.setBacklog agent b).agents)
    (hb : ((s.queueOf agent).idents ++ fresh).Perm (ended.map Finished.ident ++ b.idents)) :
    (s.idents ++ fresh).Perm (ended.map Finished.ident ++ s'.idents) := by
  have hbefore := (requests_perm_of_get? ha).map Request.ident
  have hafter := (requests_setBacklog ha b).map Request.ident
  have hr : (s.setBacklog agent b).requests = s'.requests := by
    unfold requests
    rw [hs]
  rw [requests_queueOf ha, List.map_append] at hbefore
  rw [hr, List.map_append] at hafter
  generalize ((s.agents.erase agent).entries.flatMap fun e => e.2.requests).map
    Request.ident = others at hbefore hafter
  -- the requests of the other agents stand on both sides
  calc s.idents ++ fresh
    _ |>.Perm (((s.queueOf agent).idents ++ others) ++ fresh) := hbefore.append_right fresh
    _ |>.Perm (((s.queueOf agent).idents ++ fresh) ++ others) := by
      rw [List.append_assoc, List.append_assoc]
      exact List.perm_append_comm.append_left _
    _ |>.Perm ((ended.map Finished.ident ++ b.idents) ++ others) := hb.append_right others
    _ |>.Perm (ended.map Finished.ident ++ s'.idents) := by
      rw [List.append_assoc]
      exact hafter.symm.append_left _

/-- The requests of one agent are among those of all agents. -/
theorem mem_requests_of_queueOf {s : Station τ} {agent : AgentId} {r : Request}
    (h : r ∈ (s.queueOf agent).requests) : r ∈ s.requests := by
  cases ha : s.agents.get? agent with
  | none =>
    rw [queueOf_of_get?_eq_none ha] at h
    cases h
  | some a =>
    rw [← requests_queueOf ha] at h
    exact (requests_perm_of_get? ha).mem_iff.2 (List.mem_append_left _ h)

theorem mem_idents_of_queueOf {s : Station τ} {agent : AgentId} {i : Ident}
    (h : i ∈ (s.queueOf agent).idents) : i ∈ s.idents := by
  obtain ⟨r, hr, rfl⟩ := List.mem_map.1 h
  exact List.mem_map_of_mem (mem_requests_of_queueOf hr)

/-- Each pending request is in the backlog of its agent. -/
theorem Sound.mem_queueOf {s : Station τ} (hs : s.Sound) {i : Ident} (h : i ∈ s.idents) :
    i ∈ (s.queueOf i.agent).idents := by
  obtain ⟨r, hr, rfl⟩ := List.mem_map.1 h
  obtain ⟨e, he, hr⟩ := List.mem_flatMap.1 hr
  rw [requests_queueOf (Table.mem_entries_iff.1 he)] at hr
  have hm : r.ident ∈ (s.queueOf e.1).idents := List.mem_map_of_mem hr
  rwa [hs.placed e.1 r.ident hm]

/-- What ends in a change is not pending after it. -/
theorem not_mem_of_ended {s' : Station τ} {ended : List Finished}
    (hn : ((ended.map Finished.ident ++ s'.idents).map Ident.ticket).Nodup) {i : Ident}
    (hi : i ∈ ended.map Finished.ident) : i ∉ s'.idents := by
  rw [List.map_append] at hn
  exact fun hm => List.disjoint_of_nodup_append hn (List.mem_map_of_mem hi)
    (List.mem_map_of_mem hm)

/-! ### The balance of each move -/

section Moves

variable {s : Station τ} {agent : AgentId}

theorem exists_of_backlogOf {b : Backlog} (h : s.backlogOf agent = some b) :
    ∃ a, s.agents.get? agent = some a := by
  obtain ⟨a, ha, -⟩ := Option.bind_eq_some_iff.1 h
  exact ⟨a, ha⟩

theorem transfer_admitted (hs : s.Sound) {a : Agent} {r : Request} {b : Backlog}
    (ha : s.agents.get? r.agent = some a) (hr : r.Waiting) (ht : r.ticket = s.tickets)
    (hb : (s.queueOf r.agent).submit r = some b) :
    (s.admitted r b).Sound ∧ Transfer s [r.ident] [] (s.admitted r b) := by
  have hi := Backlog.idents_submit hb
  constructor
  · refine hs.replace (queueOf_of_setBacklog ha rfl rfl)
      ((hs.settled r.agent).submit hr hb) fun i hm => ?_
    rcases List.mem_cons.1 (hi.mem_iff.1 hm) with rfl | hm
    · rfl
    · exact hs.placed r.agent i hm
  · exact {
      settings := rfl
      balance := balance_of_replaced ha rfl
        (List.perm_append_comm.trans (hi.symm.trans (.of_eq rfl)))
      numbered := congrArg (fun t => [t]) ht
      tickets := rfl
      fits := List.forall_mem_nil _
      tally := rfl
      log := ⟨[], (List.append_nil _).symm, rfl, rfl⟩ }

theorem transfer_answered (hs : s.Sound) {b b' : Backlog} {key : ReplyKey} {verdict : Verdict}
    {found : Match} {now : Instant} (estimator : Estimator TrafficClass)
    (hb : s.backlogOf agent = some b) (ha : b.answer key verdict now = (some found, b')) :
    (s.answered agent b' found estimator now).Sound ∧
      Transfer s [] [found.finished] (s.answered agent b' found estimator now) := by
  obtain ⟨a, hg⟩ := exists_of_backlogOf hb
  have hq := queueOf_of_backlogOf hb
  have hi := Backlog.idents_answer ha
  obtain ⟨hset, hfit⟩ := (hq ▸ hs.settled agent).answer ha
  constructor
  · refine hs.replace (queueOf_of_setBacklog hg rfl rfl) hset
      fun i hm => ?_
    refine hs.placed agent i ?_
    rw [hq, hi]
    exact List.mem_cons_of_mem _ hm
  · have hfits : ∀ f ∈ [found.finished], f.Fits := List.forall_mem_singleton.2 hfit
    exact {
      settings := rfl
      balance := balance_of_replaced hg rfl (by rw [List.append_nil, hq, hi]; exact .refl _)
      numbered := rfl
      tickets := rfl
      fits := hfits
      tally := ended_foldl_recordFinished hfits s.tally
      log := by
        refine ⟨_, ?_, told_of_idle s.id [found.finished] (l := [])
          (m := found.sample.toList.map fun x => .measured (.roundTrip s.id x.1) (.time x.2))
          (n := []) (List.forall_mem_nil _) ?_ (List.forall_mem_nil _)⟩
        · simp only [List.append_nil, List.nil_append, ← List.append_assoc]
          rfl
        · intro e he
          obtain ⟨x, -, rfl⟩ := List.mem_map.1 he
          trivial }

/-- The pass with which a pump begins has the requests of the backlog. -/
theorem sound_firstPass {b : Backlog} (hb : b.Settled) (now : Instant) :
    (s.firstPass b now).Sound ∧ b.idents.Perm (s.firstPass b now).idents :=
  ⟨⟨(hb.review now).1, (hb.review now).2⟩, b.idents_review now⟩

theorem transfer_pumped [Carrier τ] (hs : s.Sound) {b : Backlog} {p : Pass τ} {now : Instant}
    (hb : s.backlogOf agent = some b)
    (hp : Pass.run (s.passContext agent now) (s.firstPass b now) = (none, p)) :
    (s.pumped agent p now).Sound ∧ Transfer s [] p.finished (s.pumped agent p now) := by
  obtain ⟨a, hg⟩ := exists_of_backlogOf hb
  have hq := queueOf_of_backlogOf hb
  obtain ⟨hfirst, hi⟩ := sound_firstPass (s := s) (hq ▸ hs.settled agent) now
  obtain ⟨hsound, hi'⟩ := Pass.sound_rounds hfirst hp
  have hi := hi.trans hi'
  constructor
  · refine hs.replace (queueOf_of_setBacklog hg rfl rfl) hsound.settled
      fun i hm => ?_
    refine hs.placed agent i ?_
    rw [hq]
    exact hi.mem_iff.2 (List.mem_append_right _ hm)
  · exact {
      settings := rfl
      balance := balance_of_replaced hg rfl (by rw [List.append_nil, hq]; exact hi)
      numbered := rfl
      tickets := rfl
      fits := hsound.fits
      tally := ended_foldl_recordFinished hsound.fits _
      log := by
        refine ⟨_, ?_, told_of_idle s.id p.finished (l := p.frames.map fun f => .sent f.1 f.2)
          (m := List.replicate p.retries (.measured (.retries s.id) .count)) (n := []) ?_ ?_
          (List.forall_mem_nil _)⟩
        · simp only [List.append_nil, ← List.append_assoc]
          rfl
        · intro e he
          obtain ⟨x, -, rfl⟩ := List.mem_map.1 he
          trivial
        · intro e he
          rw [List.eq_of_mem_replicate he]
          trivial }

theorem transfer_withdrawn (hs : s.Sound) {b : Backlog} (request : RequestId)
    (hb : s.backlogOf agent = some b) :
    (s.setBacklog agent (b.withdraw request).2).Sound ∧
      Transfer s [] [] (s.setBacklog agent (b.withdraw request).2) := by
  obtain ⟨a, hg⟩ := exists_of_backlogOf hb
  have hq := queueOf_of_backlogOf hb
  have hi := b.idents_withdraw request
  constructor
  · refine hs.replace (queueOf_of_setBacklog hg rfl rfl)
      ((hq ▸ hs.settled agent).withdraw request) fun i hm => ?_
    refine hs.placed agent i ?_
    rwa [hq, ← hi]
  · exact {
      settings := rfl
      balance := balance_of_replaced hg rfl (by rw [List.append_nil, hq, hi]; exact .refl _)
      numbered := rfl
      tickets := rfl
      fits := List.forall_mem_nil _
      tally := rfl
      log := ⟨[], (List.append_nil _).symm, rfl, rfl⟩ }

theorem queueOf_removed (a : Agent) (now : Instant) (other : AgentId) :
    (s.removed agent a now).queueOf other =
      if other = agent then .new agent s.settings.queueDepth else s.queueOf other := by
  show (((s.agents.erase agent).get? other).bind (·.backlog)).getD
    (.new other s.settings.queueDepth) = _
  rw [Table.get?_erase]
  split
  · rename_i ho
    rw [ho]
    rfl
  · rfl

/-- The requests that end with an agent are those it has. -/
theorem idents_dissolved (a : Agent) :
    (dissolved a).1.map Finished.ident = a.requests.map Request.ident := by
  unfold dissolved Agent.requests
  cases a.backlog with
  | none => rfl
  | some b => exact b.idents_dissolve.1

theorem Sound.fits_dissolved (hs : s.Sound) {a : Agent} (ha : s.agents.get? agent = some a) :
    ∀ f ∈ (dissolved a).1, f.Fits := by
  unfold dissolved
  cases hb : a.backlog with
  | none => exact List.forall_mem_nil _
  | some b =>
    have hq : s.queueOf agent = b := by
      refine queueOf_of_backlogOf ?_
      unfold backlogOf
      rw [ha]
      exact hb
    exact ((hq ▸ hs.settled agent).dissolve).2

theorem transfer_removed (hs : s.Sound) {a : Agent} (now : Instant)
    (ha : s.agents.get? agent = some a) :
    (s.removed agent a now).Sound ∧
      Transfer s [] (dissolved a).1 (s.removed agent a now) := by
  have hfits := hs.fits_dissolved ha
  constructor
  · exact hs.replace (queueOf_removed a now)
      (Backlog.settled_new agent s.settings.queueDepth) (List.forall_mem_nil _)
  · exact {
      settings := rfl
      balance := by
        rw [List.append_nil, idents_dissolved]
        have hp := (requests_perm_of_get? ha).map Request.ident
        rwa [List.map_append] at hp
      numbered := rfl
      tickets := rfl
      fits := hfits
      tally := ended_foldl_recordFinished hfits s.tally
      log := by
        refine ⟨_, ?_, told_of_idle s.id (dissolved a).1 (l := []) (m := [])
          (n := [.published (.evicted s.id agent)]) (List.forall_mem_nil _)
          (List.forall_mem_nil _) ?_⟩
        · simp only [List.append_nil, List.nil_append, ← List.append_assoc]
          rfl
        · exact List.forall_mem_singleton.2 trivial }

end Moves

/-! ### The balance of an operation -/

/-- The request an action takes in. -/
def Action.fresh : Action → List Ident
  | .enter handle => [handle.ident]
  | _ => []

section Operations

variable [Carrier τ] {now : Instant} {s s' : Station τ}

theorem Move.transfer {a : Action} (h : Move now a s s') (hs : s.Sound) :
    s'.Sound ∧ ∃ ended, Transfer s a.fresh ended s' := by
  cases h with
  | enter id agent payload urgency maxAttempts hr ha hb =>
    subst hr
    have ht := transfer_admitted hs ha (Request.new_waiting ..) rfl hb
    exact ⟨ht.1, [], ht.2⟩
  | @answer _ _ _ _ _ _ _ estimator hb ha he =>
    have ht := transfer_answered hs estimator hb ha
    exact ⟨ht.1, _, ht.2⟩
  | pump hb hp =>
    have ht := transfer_pumped hs hb hp
    exact ⟨ht.1, _, ht.2⟩
  | idle hb => exact ⟨hs, [], .of_quiet (.refl s)⟩
  | @withdraw _ request agent b hp hb =>
    have ht := transfer_withdrawn hs request hb
    exact ⟨ht.1, [], ht.2⟩
  | gone => exact ⟨hs, [], .of_quiet (.refl s)⟩
  | remove ha =>
    have ht := transfer_removed hs now ha
    exact ⟨ht.1, _, ht.2⟩
  | unknown ha => exact ⟨hs, [], .of_quiet (.refl s)⟩

theorem Moves.transfer {l : List Action} (h : Moves now l s s') (hs : s.Sound) :
    s'.Sound ∧ ∃ ended, Transfer s (l.flatMap Action.fresh) ended s' := by
  induction h with
  | nil => exact ⟨hs, [], .of_quiet (.refl _)⟩
  | quiet hq _ ih =>
    obtain ⟨hs', ended, ht⟩ := ih (hs.of_queueOf hq.queue)
    exact ⟨hs', ended, (Transfer.of_quiet hq).trans ht⟩
  | cons hm _ ih =>
    obtain ⟨hs₁, ended₁, ht₁⟩ := hm.transfer hs
    obtain ⟨hs', ended, ht⟩ := ih hs₁
    exact ⟨hs', ended₁ ++ ended, ht₁.trans ht⟩

/-- What the actions of an operation take in is what the operation answers with. -/
theorem fresh_actions (operation : Operation) {response : Result}
    (h : perform operation s = .ok response s') :
    (s.actions operation response).flatMap Action.fresh =
      response.handle?.toList.map Handle.ident := by
  have hnone : ∀ {α : Type} {l : List α} {f : α → Action}, (∀ a, (f a).fresh = []) →
      (l.map f).flatMap Action.fresh = [] := by
    intro α l f hf
    rw [List.flatMap_map, List.flatMap_eq_nil_iff]
    exact fun a _ => hf a
  cases operation with
  | adoptEpoch epoch =>
    cases h
    rfl
  | submit request agent payload urgency maxAttempts now
  | enqueue request agent payload urgency maxAttempts =>
    obtain ⟨result, -, rfl⟩ := Act.bind_pure_eq_ok.1 h
    cases result <;> rfl
  | deliver m now | route m now =>
    obtain ⟨result, -, rfl⟩ := Act.bind_pure_eq_ok.1 h
    dsimp only [actions]
    split <;> rfl
  | pumpAll walk now | tick walk now | shutdown walk now =>
    obtain ⟨result, -, rfl⟩ := Act.bind_pure_eq_ok.1 h
    exact hnone fun _ => rfl
  | _ =>
    obtain ⟨result, -, rfl⟩ := Act.bind_pure_eq_ok.1 h
    rfl

/-- Only a submission is answered with a handle, and it is the handle of its request. -/
theorem submission_of_handle {operation : Operation} {response : Result}
    (h : perform operation s = .ok response s') {x : Handle} (hx : response.handle? = some x) :
    operation.submission? = some (x.request, x.agent) := by
  cases operation with
  | adoptEpoch epoch =>
    cases h
    cases hx
  | submit request agent payload urgency maxAttempts now =>
    obtain ⟨result, hs, rfl⟩ := Act.bind_pure_eq_ok.1 h
    cases result with
    | error e => cases hx
    | ok handle =>
      cases hx
      obtain ⟨s₁, he, -⟩ := submit_eq_ok.1 hs
      obtain ⟨-, ha, hr⟩ := move_enqueue now he
      rw [ha, hr]
      rfl
  | enqueue request agent payload urgency maxAttempts =>
    obtain ⟨result, hs, rfl⟩ := Act.bind_pure_eq_ok.1 h
    cases result with
    | error e => cases hx
    | ok handle =>
      cases hx
      obtain ⟨-, ha, hr⟩ := move_enqueue 0 (Act.modifyGet_eq_ok.1 hs)
      rw [ha, hr]
      rfl
  | _ =>
    obtain ⟨result, -, rfl⟩ := Act.bind_pure_eq_ok.1 h
    cases hx

/-- Every operation keeps a sound station sound, and keeps the balance. -/
theorem perform_transfer {operation : Operation} {response : Result} (hs : s.Sound)
    (h : perform operation s = .ok response s') :
    s'.Sound ∧ ∃ ended, Transfer s (response.handle?.toList.map Handle.ident) ended s' := by
  have ht := (perform_moves h).transfer hs
  rwa [fresh_actions operation h] at ht

theorem log_of_perform {operation : Operation} {response : Result} (hs : s.Sound)
    (h : perform operation s = .ok response s') :
    s'.log = s.log ++ (⟨s, operation, response, s'⟩ : Step τ).effects := by
  obtain ⟨-, ended, ht⟩ := perform_transfer hs h
  obtain ⟨effects, hl, -⟩ := ht.log
  rw [Step.effects_of_log hl]
  exact hl

theorem submitted_cons (operation : Operation) (rest : List Operation) :
    submitted (operation :: rest) =
      (operation.submission?.map (·.1)).toList ++ submitted rest := by
  unfold submitted
  rw [List.filterMap_cons]
  cases operation.submission?.map (·.1) <;> rfl

omit [Carrier τ] in
theorem accepted_cons (step : Step τ) (steps : List (Step τ)) :
    accepted (step :: steps) = step.response.handle?.toList ++ accepted steps := by
  unfold accepted
  rw [List.filterMap_cons]
  cases step.response.handle? <;> rfl

/-- A run keeps a sound station sound, and keeps the balance. -/
theorem run_transfer {operations : List Operation} {s last : Station τ} {steps : List (Step τ)}
    (hs : s.Sound) (h : run operations s = .ok (steps, last)) :
    last.Sound ∧ ∃ ended, Transfer s ((accepted steps).map Handle.ident) ended last := by
  induction operations generalizing s steps with
  | nil =>
    cases h
    exact ⟨hs, [], .of_quiet (.refl last)⟩
  | cons operation rest ih =>
    obtain ⟨response, after, others, hp, hr, rfl⟩ := run_cons_eq_ok.1 h
    obtain ⟨hs₁, ended₁, ht₁⟩ := perform_transfer hs hp
    obtain ⟨hlast, ended, ht⟩ := ih hs₁ hr
    rw [accepted_cons, List.map_append]
    exact ⟨hlast, ended₁ ++ ended, ht₁.trans ht⟩

/-- What a station has done in a run is what it did in the steps. -/
theorem log_of_run {operations : List Operation} {s last : Station τ} {steps : List (Step τ)}
    (hs : s.Sound) (h : run operations s = .ok (steps, last)) :
    last.log = s.log ++ steps.flatMap Step.effects := by
  induction operations generalizing s steps with
  | nil =>
    cases h
    exact (List.append_nil last.log).symm
  | cons operation rest ih =>
    obtain ⟨response, after, others, hp, hr, rfl⟩ := run_cons_eq_ok.1 h
    rw [ih (perform_transfer hs hp).1 hr, log_of_perform hs hp, List.flatMap_cons,
      List.append_assoc]

/-! ### Tickets -/

/-- The pending requests have different tickets, all of them given out already. -/
structure Numbered (s : Station τ) : Prop where
  nodup : (s.idents.map Ident.ticket).Nodup
  lt : ∀ i ∈ s.idents, i.ticket < s.tickets

omit [Carrier τ] in
theorem numbered_new (settings : NetworkSettings) (carrier : τ) (now : Instant) :
    (new settings carrier now).Numbered :=
  ⟨List.nodup_nil, List.forall_mem_nil _⟩

omit [Carrier τ] in
/-- The tickets of the requests of one agent differ. -/
theorem Numbered.queue {s : Station τ} (h : s.Numbered) (agent : AgentId) :
    ((s.queueOf agent).idents.map Ident.ticket).Nodup := by
  cases ha : s.agents.get? agent with
  | none =>
    rw [queueOf_of_get?_eq_none ha]
    exact List.nodup_nil
  | some a =>
    have hp := (requests_perm_of_get? ha).map (fun r => r.ident.ticket)
    rw [requests_queueOf ha, List.map_append] at hp
    have hn : (s.requests.map fun r => r.ident.ticket).Nodup := by
      have hn := h.nodup
      unfold idents at hn
      rwa [List.map_map] at hn
    unfold Backlog.idents
    rw [List.map_map]
    exact (hp.nodup_iff.1 hn).of_append_left

omit [Carrier τ] in
/-- The tickets of the requests that end and of those that stay differ. -/
theorem Transfer.nodup {fresh : List Ident} {ended : List Finished} (h : Transfer s fresh ended s')
    (hs : s.Numbered) : ((ended.map Finished.ident ++ s'.idents).map Ident.ticket).Nodup := by
  have hp := h.balance.map Ident.ticket
  rw [List.map_append, h.numbered] at hp
  refine hp.nodup_iff.1 (hs.nodup.append (List.nodup_range' ..) ?_)
  intro t ht hm
  obtain ⟨i, hi, rfl⟩ := List.mem_map.1 ht
  exact Nat.not_lt.2 (List.mem_range'_1.1 hm).1 (hs.lt i hi)

omit [Carrier τ] in
theorem Transfer.lt {fresh : List Ident} {ended : List Finished} (h : Transfer s fresh ended s')
    (hs : s.Numbered) : ∀ i ∈ ended.map Finished.ident ++ s'.idents, i.ticket < s'.tickets := by
  intro i hi
  rw [h.tickets]
  rcases List.mem_append.1 (h.balance.mem_iff.2 hi) with hi | hi
  · exact Nat.lt_of_lt_of_le (hs.lt i hi) (Nat.le_add_right _ _)
  · have hm : i.ticket ∈ fresh.map Ident.ticket := List.mem_map_of_mem hi
    rw [h.numbered] at hm
    exact (List.mem_range'_1.1 hm).2

omit [Carrier τ] in
theorem Transfer.keeps_numbered {fresh : List Ident} {ended : List Finished}
    (h : Transfer s fresh ended s') (hs : s.Numbered) : s'.Numbered where
  nodup := by
    have hn := h.nodup hs
    rw [List.map_append] at hn
    exact hn.of_append_right
  lt i hi := h.lt hs i (List.mem_append_right _ hi)

end Operations

end Station

end GroundControl
