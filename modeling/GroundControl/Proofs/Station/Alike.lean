import GroundControl.Proofs.Pump.Likeness
import GroundControl.Proofs.Station.Transfer

/-!
# Stations that differ in one agent

Two stations of one network that differ in the requests of a single agent only: everything that the
others are told, and everything on which their requests depend, is the same.

* `Effect.Reaches`: a frame for an agent, or the end of one of its requests;
* `Station.Free`: nothing is throttled, and the link takes every frame;
* `Station.Alike`: two stations agree but for the requests of one agent;
* `Alike.left`: what is done to that agent leaves them so, if it is done to one of them only;
* `Alike.pump`, `Alike.route`, `Alike.enqueue` and so on: what is done to another agent, or to all
  of them, leaves them so if it is done to both.
-/

namespace GroundControl

/-- The effect is a frame for an agent, or the end of one of its requests. -/
def Effect.reaches (agent : AgentId) : Effect → Bool
  | .sent frame _ => decide (frame.destination = .agent agent)
  | .published (.finished _ target _ _ _) => decide (target = agent)
  | _ => false

/-- What can be seen of an agent while the requests of a hidden one, and all tickets, are not. -/
def Agent.masked (hidden agent : AgentId) (a : Agent) : Agent :=
  { a with backlog := if agent = hidden then none else a.backlog.map Backlog.plain }

namespace Station

variable {τ : Type}

/-- The agents, but for the requests of a hidden one. -/
def masked (s : Station τ) (hidden : AgentId) : Table AgentId Agent :=
  s.agents.mapKeyed (Agent.masked hidden)

variable [Carrier τ]

/-- Nothing is throttled, and the link takes every frame. -/
structure Free (s : Station τ) : Prop where
  throttle : s.throttle = none
  link : Carrier.TakesAll s.carrier

/-- Two stations agree but for the requests of a hidden agent, whose numbers are `own`. -/
structure Alike (hidden : AgentId) (own : List RequestId) (s t : Station τ) : Prop where
  settings : t.settings = s.settings
  estimator : t.estimator = s.estimator
  watch : t.watch = s.watch
  epoch : t.epoch = s.epoch
  agents : t.masked hidden = s.masked hidden
  pending : ∀ id, id ∉ own → t.pending.get? id = s.pending.get? id
  log : ∀ agent, agent ≠ hidden →
    t.log.filter (Effect.reaches agent) = s.log.filter (Effect.reaches agent)
  left : s.Free
  right : t.Free

section Alike

variable {hidden : AgentId} {own : List RequestId} {s t : Station τ}

theorem Alike.refl (h : s.Free) : Alike hidden own s s :=
  ⟨rfl, rfl, rfl, rfl, rfl, fun _ _ => rfl, fun _ _ => rfl, h, h⟩

theorem Alike.symm (h : Alike hidden own s t) : Alike hidden own t s where
  settings := h.settings.symm
  estimator := h.estimator.symm
  watch := h.watch.symm
  epoch := h.epoch.symm
  agents := h.agents.symm
  pending id hid := (h.pending id hid).symm
  log agent ha := (h.log agent ha).symm
  left := h.right
  right := h.left

theorem Alike.trans {u : Station τ} (h : Alike hidden own s t) (h' : Alike hidden own t u) :
    Alike hidden own s u where
  settings := h'.settings.trans h.settings
  estimator := h'.estimator.trans h.estimator
  watch := h'.watch.trans h.watch
  epoch := h'.epoch.trans h.epoch
  agents := h'.agents.trans h.agents
  pending id hid := (h'.pending id hid).trans (h.pending id hid)
  log agent ha := (h'.log agent ha).trans (h.log agent ha)
  left := h.left
  right := h'.right

/-! ### Questions with one answer -/

theorem Alike.id_eq (h : Alike hidden own s t) : t.id = s.id :=
  congrArg NetworkSettings.id h.settings

omit [Carrier τ] in
theorem get?_of_masked {agents agents' : Table AgentId Agent}
    (h : agents'.mapKeyed (Agent.masked hidden) = agents.mapKeyed (Agent.masked hidden))
    (agent : AgentId) : (agents'.get? agent).map (Agent.masked hidden agent) =
      (agents.get? agent).map (Agent.masked hidden agent) := by
  rw [← Table.get?_mapKeyed, h, Table.get?_mapKeyed]

theorem Alike.get? (h : Alike hidden own s t) (agent : AgentId) :
    (t.agents.get? agent).map (Agent.masked hidden agent) =
      (s.agents.get? agent).map (Agent.masked hidden agent) :=
  get?_of_masked h.agents agent

theorem Alike.contains (h : Alike hidden own s t) (agent : AgentId) :
    t.agents.contains agent = s.agents.contains agent := by
  have hg := congrArg Option.isSome (h.get? agent)
  rwa [Option.isSome_map, Option.isSome_map] at hg

theorem Alike.size (h : Alike hidden own s t) : t.agents.size = s.agents.size := by
  have hg := congrArg Table.size h.agents
  unfold masked at hg
  rwa [Table.size_mapKeyed, Table.size_mapKeyed] at hg

theorem Alike.admits (h : Alike hidden own s t) (agent : AgentId) :
    t.admits agent = s.admits agent := by
  unfold Station.admits
  rw [h.contains, h.size, h.settings]

theorem Alike.backlogOf (h : Alike hidden own s t) {agent : AgentId} (ha : agent ≠ hidden) :
    (t.backlogOf agent).map Backlog.plain = (s.backlogOf agent).map Backlog.plain := by
  have hm : ∀ u : Station τ, (u.backlogOf agent).map Backlog.plain =
      ((u.agents.get? agent).map (Agent.masked hidden agent)).bind (·.backlog) := by
    intro u
    unfold Station.backlogOf
    cases u.agents.get? agent with
    | none => rfl
    | some a =>
      show a.backlog.map Backlog.plain = (a.masked hidden agent).backlog
      unfold Agent.masked
      rw [if_neg ha]
  rw [hm, hm, h.get?]

theorem Alike.queueOf (h : Alike hidden own s t) {agent : AgentId} (ha : agent ≠ hidden) :
    (t.queueOf agent).plain = (s.queueOf agent).plain := by
  have hq : ∀ u : Station τ, (u.queueOf agent).plain =
      ((u.backlogOf agent).map Backlog.plain).getD
        (Backlog.new agent u.settings.queueDepth).plain := by
    intro u
    unfold Station.queueOf
    cases u.backlogOf agent <;> rfl
  rw [hq, hq, h.backlogOf ha, h.settings]

/-! ### Replacing agents -/

omit [Carrier τ] in
/-- Changing an agent in both tables in ways that cannot be told apart. -/
theorem masked_modify {agents agents' : Table AgentId Agent} {agent : AgentId} {f g : Agent → Agent}
    (h : agents'.mapKeyed (Agent.masked hidden) = agents.mapKeyed (Agent.masked hidden))
    (hfg : ∀ a a' : Agent, a'.masked hidden agent = a.masked hidden agent →
      (g a').masked hidden agent = (f a).masked hidden agent) :
    (agents'.modify agent g).mapKeyed (Agent.masked hidden) =
      (agents.modify agent f).mapKeyed (Agent.masked hidden) := by
  refine Table.ext_get? fun k => ?_
  have hk := get?_of_masked h k
  rw [Table.get?_mapKeyed, Table.get?_mapKeyed]
  rw [Table.get?_modify, Table.get?_modify]
  split
  · rename_i he
    subst he
    cases ha : agents.get? k with
    | none =>
      rw [ha] at hk
      rw [Option.map_eq_none_iff.1 hk]
      rfl
    | some a =>
      rw [ha] at hk
      obtain ⟨a', ha', hm⟩ := Option.map_eq_some_iff.1 hk
      rw [ha']
      exact congrArg some (hfg a a' hm)
  · exact hk

omit [Carrier τ] in
/-- The backlog of the hidden agent does not show. -/
theorem masked_setBacklog_hidden (s : Station τ) (b : Backlog) :
    (s.setBacklog hidden b).masked hidden = s.masked hidden := by
  refine Table.ext_get? fun k => ?_
  unfold masked setBacklog
  dsimp only
  rw [Table.get?_mapKeyed, Table.get?_mapKeyed, Table.get?_modify]
  split
  · rename_i he
    subst he
    cases s.agents.get? k with
    | none => rfl
    | some a =>
      show some (Agent.masked k k { a with backlog := some b }) = some (a.masked k k)
      unfold Agent.masked
      rw [if_pos rfl, if_pos rfl]
  · rfl

omit [Carrier τ] in
theorem capabilities_of_masked {agent : AgentId} {a a' : Agent}
    (h : a'.masked hidden agent = a.masked hidden agent) : a'.capabilities = a.capabilities := by
  have hc : (a'.masked hidden agent).capabilities = (a.masked hidden agent).capabilities := by
    rw [h]
  exact hc

omit [Carrier τ] in
theorem masked_setBacklog {agent : AgentId} {b c : Backlog}
    (h : t.masked hidden = s.masked hidden) (hbc : c.plain = b.plain) :
    (t.setBacklog agent c).masked hidden = (s.setBacklog agent b).masked hidden := by
  refine masked_modify h fun a a' ha => ?_
  have hc : a'.capabilities = a.capabilities := capabilities_of_masked ha
  unfold Agent.masked
  dsimp only [Option.map_some]
  rw [hbc, hc]

omit [Carrier τ] in
theorem masked_erase {agents agents' : Table AgentId Agent} (agent : AgentId)
    (h : agents'.mapKeyed (Agent.masked hidden) = agents.mapKeyed (Agent.masked hidden)) :
    (agents'.erase agent).mapKeyed (Agent.masked hidden) =
      (agents.erase agent).mapKeyed (Agent.masked hidden) := by
  refine Table.ext_get? fun k => ?_
  have hk := get?_of_masked h k
  rw [Table.get?_mapKeyed, Table.get?_mapKeyed]
  rw [Table.get?_erase, Table.get?_erase]
  split
  · rfl
  · exact hk

omit [Carrier τ] in
theorem masked_insert {agents agents' : Table AgentId Agent} (agent : AgentId) (a : Agent)
    (h : agents'.mapKeyed (Agent.masked hidden) = agents.mapKeyed (Agent.masked hidden)) :
    (agents'.insert agent a).mapKeyed (Agent.masked hidden) =
      (agents.insert agent a).mapKeyed (Agent.masked hidden) := by
  refine Table.ext_get? fun k => ?_
  have hk := get?_of_masked h k
  rw [Table.get?_mapKeyed, Table.get?_mapKeyed]
  rw [Table.get?_insert, Table.get?_insert]
  split
  · rfl
  · exact hk

theorem Alike.replace_agents (h : Alike hidden own s t) {agents agents' : Table AgentId Agent}
    (ha : agents'.mapKeyed (Agent.masked hidden) = agents.mapKeyed (Agent.masked hidden)) :
    Alike hidden own { s with agents := agents } { t with agents := agents' } :=
  ⟨h.settings, h.estimator, h.watch, h.epoch, ha, h.pending, h.log,
    ⟨h.left.throttle, h.left.link⟩, ⟨h.right.throttle, h.right.link⟩⟩

/-- Both replace a backlog. -/
theorem Alike.setBacklog (h : Alike hidden own s t) (agent : AgentId) {b c : Backlog}
    (hbc : c.plain = b.plain) :
    Alike hidden own (s.setBacklog agent b) (t.setBacklog agent c) :=
  h.replace_agents (masked_setBacklog h.agents hbc)

/-- One replaces the backlog of the hidden agent. -/
theorem Alike.setBacklog_left (h : Alike hidden own s t) (b : Backlog) :
    Alike hidden own (s.setBacklog hidden b) t :=
  ⟨h.settings, h.estimator, h.watch, h.epoch,
    h.agents.trans (masked_setBacklog_hidden s b).symm, h.pending, h.log,
    ⟨h.left.throttle, h.left.link⟩, h.right⟩

/-- Both take in a request of one number. -/
theorem Alike.insert_pending (h : Alike hidden own s t) (request : RequestId) (agent : AgentId)
    (tickets tickets' : Nat) :
    Alike hidden own { s with pending := s.pending.insert request agent, tickets }
      { t with pending := t.pending.insert request agent, tickets := tickets' } :=
  ⟨h.settings, h.estimator, h.watch, h.epoch, h.agents,
    fun id hid => by
      show (t.pending.insert request agent).get? id = (s.pending.insert request agent).get? id
      rw [Table.get?_insert, Table.get?_insert, h.pending id hid],
    h.log, ⟨h.left.throttle, h.left.link⟩, ⟨h.right.throttle, h.right.link⟩⟩

/-- One takes in a request of the hidden agent. -/
theorem Alike.insert_pending_left (h : Alike hidden own s t) {request : RequestId}
    (hr : request ∈ own) (agent : AgentId) (tickets : Nat) :
    Alike hidden own { s with pending := s.pending.insert request agent, tickets } t :=
  ⟨h.settings, h.estimator, h.watch, h.epoch, h.agents,
    fun id hid => by
      have hne : id ≠ request := fun hid' => hid (hid' ▸ hr)
      show t.pending.get? id = (s.pending.insert request agent).get? id
      rw [Table.get?_insert, if_neg hne, h.pending id hid],
    h.log, ⟨h.left.throttle, h.left.link⟩, h.right⟩

/-! ### Effects -/

omit [Carrier τ] in
theorem filter_eq_nil_of_unseen {agent : AgentId} {l : List Effect}
    (h : ∀ e ∈ l, e.reaches agent = false) : l.filter (Effect.reaches agent) = [] :=
  List.filter_eq_nil_iff.2 fun e he => Bool.eq_false_iff.1 (h e he)

/-- Two stations go on doing what looks the same. -/
theorem Alike.append (h : Alike hidden own s t) {l m : List Effect}
    (hlm : ∀ agent, agent ≠ hidden →
      m.filter (Effect.reaches agent) = l.filter (Effect.reaches agent)) :
    Alike hidden own { s with log := s.log ++ l } { t with log := t.log ++ m } where
  settings := h.settings
  estimator := h.estimator
  watch := h.watch
  epoch := h.epoch
  agents := h.agents
  pending := h.pending
  log agent ha := by
    rw [List.filter_append, List.filter_append, h.log agent ha, hlm agent ha]
  left := ⟨h.left.throttle, h.left.link⟩
  right := ⟨h.right.throttle, h.right.link⟩

theorem Alike.append_unseen (h : Alike hidden own s t) {l m : List Effect}
    (hl : ∀ agent, ∀ e ∈ l, e.reaches agent = false)
    (hm : ∀ agent, ∀ e ∈ m, e.reaches agent = false) :
    Alike hidden own { s with log := s.log ++ l } { t with log := t.log ++ m } :=
  h.append fun agent _ => by
    rw [filter_eq_nil_of_unseen (hl agent), filter_eq_nil_of_unseen (hm agent)]

theorem Alike.emit (h : Alike hidden own s t) {e e' : Effect}
    (he : ∀ agent, e.reaches agent = false) (he' : ∀ agent, e'.reaches agent = false) :
    Alike hidden own (s.emit e) (t.emit e') :=
  h.append_unseen (fun agent => List.forall_mem_singleton.2 (he agent)) fun agent =>
    List.forall_mem_singleton.2 (he' agent)

/-- What is told to submitters does not show. -/
theorem Alike.deliver (h : Alike hidden own s t) (l m : List Finished) :
    Alike hidden own (s.deliver l) (t.deliver m) := by
  refine h.append_unseen ?_ ?_
  · intro agent e he
    obtain ⟨f, -, rfl⟩ := List.mem_map.1 he
    rfl
  · intro agent e he
    obtain ⟨f, -, rfl⟩ := List.mem_map.1 he
    rfl

theorem Alike.retried (h : Alike hidden own s t) (n k : Nat) :
    Alike hidden own (s.retried n) (t.retried k) := by
  refine h.append_unseen ?_ ?_
  · intro agent e he
    rw [List.eq_of_mem_replicate he]
    rfl
  · intro agent e he
    rw [List.eq_of_mem_replicate he]
    rfl

/-- One of them does something that does not show. -/
theorem Alike.append_left (h : Alike hidden own s t) {l : List Effect}
    (hl : ∀ agent, agent ≠ hidden → ∀ e ∈ l, e.reaches agent = false) :
    Alike hidden own { s with log := s.log ++ l } t where
  settings := h.settings
  estimator := h.estimator
  watch := h.watch
  epoch := h.epoch
  agents := h.agents
  pending := h.pending
  log agent ha := by
    rw [List.filter_append, filter_eq_nil_of_unseen (hl agent ha), List.append_nil, h.log agent ha]
  left := ⟨h.left.throttle, h.left.link⟩
  right := h.right

/-! ### Booking finished requests -/

/-- Both book the same ends. -/
theorem Alike.concluded (h : Alike hidden own s t) {l m : List Finished}
    (hlm : m.map Finished.plain = l.map Finished.plain) (now : Instant) :
    Alike hidden own (s.concluded l now) (t.concluded m now) where
  settings := h.settings
  estimator := h.estimator
  watch := h.watch
  epoch := h.epoch
  agents := h.agents
  pending id hid := by
    have hr : m.map Finished.request = l.map Finished.request := by
      have hm := congrArg (List.map Finished.request) hlm
      rwa [List.map_map, List.map_map] at hm
    show (m.foldl (fun t f => t.erase f.request) t.pending).get? id =
      (l.foldl (fun t f => t.erase f.request) s.pending).get? id
    rw [Table.get?_foldl_erase Finished.request, Table.get?_foldl_erase Finished.request, hr,
      h.pending id hid]
  log agent ha := by
    have hn : m.flatMap (notices t.id) = l.flatMap (notices s.id) := by
      have hm := congrArg (List.flatMap (notices s.id)) hlm
      rw [List.flatMap_map, List.flatMap_map] at hm
      rw [h.id_eq]
      exact hm
    show (t.log ++ m.flatMap (notices t.id)).filter _ =
      (s.log ++ l.flatMap (notices s.id)).filter _
    rw [List.filter_append, List.filter_append, h.log agent ha, hn]
  left := ⟨h.left.throttle, h.left.link⟩
  right := ⟨h.right.throttle, h.right.link⟩

/-- One books ends of requests of the hidden agent. -/
theorem Alike.concluded_left (h : Alike hidden own s t) {l : List Finished}
    (hl : ∀ f ∈ l, f.agent = hidden ∧ f.request ∈ own) (now : Instant) :
    Alike hidden own (s.concluded l now) t where
  settings := h.settings
  estimator := h.estimator
  watch := h.watch
  epoch := h.epoch
  agents := h.agents
  pending id hid := by
    have hm : id ∉ l.map Finished.request := by
      intro hm
      obtain ⟨f, hf, rfl⟩ := List.mem_map.1 hm
      exact hid (hl f hf).2
    show t.pending.get? id = (l.foldl (fun t f => t.erase f.request) s.pending).get? id
    rw [Table.get?_foldl_erase Finished.request, if_neg hm, h.pending id hid]
  log agent ha := by
    have hn : (l.flatMap (notices s.id)).filter (Effect.reaches agent) = [] := by
      refine filter_eq_nil_of_unseen fun e he => ?_
      obtain ⟨f, hf, he⟩ := List.mem_flatMap.1 he
      rcases List.mem_cons.1 he with rfl | he
      · rfl
      · obtain rfl := List.mem_singleton.1 he
        exact decide_eq_false fun hag => ha (hag.symm.trans (hl f hf).1)
    show t.log.filter _ = (s.log ++ l.flatMap (notices s.id)).filter _
    rw [List.filter_append, hn, List.append_nil, h.log agent ha]
  left := ⟨h.left.throttle, h.left.link⟩
  right := h.right

/-! ### Pumping -/

/-- Both book passes that did the same. -/
theorem Alike.pumped (h : Alike hidden own s t) (agent : AgentId) {p q : Pass τ} (hpq : p.Like q)
    (hp : p.Free) (hq : q.Free) (now : Instant) :
    Alike hidden own (s.pumped agent p now) (t.pumped agent q now) := by
  have hsent : Alike hidden own
      { s.setBacklog agent p.backlog with
        throttle := p.throttle
        carrier := p.carrier
        log := s.log ++ p.frames.map fun f => .sent f.1 f.2 }
      { t.setBacklog agent q.backlog with
        throttle := q.throttle
        carrier := q.carrier
        log := t.log ++ q.frames.map fun f => .sent f.1 f.2 } :=
    { settings := h.settings
      estimator := h.estimator
      watch := h.watch
      epoch := h.epoch
      agents := masked_setBacklog h.agents hpq.backlog
      pending := h.pending
      log := fun other ho => by
        rw [List.filter_append, List.filter_append, h.log other ho, hpq.frames]
      left := ⟨hp.throttle, hp.link⟩
      right := ⟨hq.throttle, hq.link⟩ }
  have hbook : Alike hidden own (s.book agent p) (t.book agent q) := by
    have hd := hsent.deliver p.finished q.finished
    exact ⟨hd.settings, hd.estimator, hd.watch, hd.epoch, hd.agents, hd.pending, hd.log,
      ⟨hp.throttle, hp.link⟩, ⟨hq.throttle, hq.link⟩⟩
  exact (hbook.retried p.retries q.retries).concluded hpq.finished now

/-- One books a pass of the hidden agent. -/
theorem Alike.pumped_left (h : Alike hidden own s t) {p : Pass τ} (hp : p.Free)
    (hended : ∀ f ∈ p.finished, f.agent = hidden ∧ f.request ∈ own)
    (hsent : ∀ f ∈ p.frames, f.1.destination = .agent hidden) (now : Instant) :
    Alike hidden own (s.pumped hidden p now) t := by
  -- the changes of the pass one after the other, each out of sight of the other agents
  have hset : Alike hidden own
      { s.setBacklog hidden p.backlog with throttle := p.throttle, carrier := p.carrier } t :=
    have hb := h.setBacklog_left p.backlog
    ⟨hb.settings, hb.estimator, hb.watch, hb.epoch, hb.agents, hb.pending, hb.log,
      ⟨hp.throttle, hp.link⟩, h.right⟩
  have hframes := hset.append_left (l := p.frames.map fun f => .sent f.1 f.2)
    fun agent ha e he => by
    obtain ⟨f, hf, rfl⟩ := List.mem_map.1 he
    refine decide_eq_false fun hd => ha ?_
    have hd : f.1.destination = .agent agent := hd
    exact (Destination.agent.inj (hd.symm.trans (hsent f hf)))
  have hdelivered := hframes.append_left
    (l := p.finished.map fun f => .delivered f.ticket f.outcome) fun agent _ e he => by
      obtain ⟨f, -, rfl⟩ := List.mem_map.1 he
      rfl
  have hretried := hdelivered.append_left
    (l := List.replicate p.retries (.measured (.retries s.id) .count)) fun agent _ e he => by
      rw [List.eq_of_mem_replicate he]
      rfl
  have hconcluded := hretried.concluded_left hended now
  exact ⟨hconcluded.settings, hconcluded.estimator, hconcluded.watch, hconcluded.epoch,
    hconcluded.agents, hconcluded.pending, hconcluded.log, ⟨hp.throttle, hp.link⟩, h.right⟩

/-- The requests of the hidden agent have some of its numbers. -/
structure Owns (hidden : AgentId) (own : List RequestId) (s : Station τ) : Prop where
  sound : s.Sound
  numbered : s.Numbered
  ids : ∀ i ∈ s.idents, i.agent = hidden → i.request ∈ own

/-- The hidden agent has no requests. -/
structure Lacks (hidden : AgentId) (s : Station τ) : Prop where
  sound : s.Sound
  numbered : s.Numbered
  ids : ∀ i ∈ s.idents, i.agent ≠ hidden

omit [Carrier τ] in
theorem Lacks.owns (h : Lacks hidden s) (own : List RequestId) : Owns hidden own s :=
  ⟨h.sound, h.numbered, fun i hi ha => absurd ha (h.ids i hi)⟩

omit [Carrier τ] in
theorem Owns.transfer {s' : Station τ} (h : Owns hidden own s) (hs' : s'.Sound) {fresh : List Ident}
    {ended : List Finished} (ht : Transfer s fresh ended s')
    (hf : ∀ i ∈ fresh, i.agent = hidden → i.request ∈ own) : Owns hidden own s' where
  sound := hs'
  numbered := ht.keeps_numbered h.numbered
  ids i hi := by
    rcases List.mem_append.1 (ht.balance.mem_iff.2 (List.mem_append_right _ hi)) with hi | hi
    · exact h.ids i hi
    · exact hf i hi

omit [Carrier τ] in
theorem Lacks.transfer {s' : Station τ} (h : Lacks hidden s) (hs' : s'.Sound) {fresh : List Ident}
    {ended : List Finished} (ht : Transfer s fresh ended s')
    (hf : ∀ i ∈ fresh, i.agent ≠ hidden) : Lacks hidden s' where
  sound := hs'
  numbered := ht.keeps_numbered h.numbered
  ids i hi := by
    rcases List.mem_append.1 (ht.balance.mem_iff.2 (List.mem_append_right _ hi)) with hi | hi
    · exact h.ids i hi
    · exact hf i hi

/-- What takes no request in keeps the requests of the hidden agent its own. -/
theorem Owns.moves {s' : Station τ} (h : Owns hidden own s) {now : Instant} {l : List Action}
    (hm : Moves now l s s') (hl : ∀ a ∈ l, a.fresh = []) : Owns hidden own s' := by
  obtain ⟨hs', ended, ht⟩ := hm.transfer h.sound
  refine h.transfer hs' ht ?_
  rw [List.flatMap_eq_nil_iff.2 hl]
  exact List.forall_mem_nil _

theorem Lacks.moves {s' : Station τ} (h : Lacks hidden s) {now : Instant} {l : List Action}
    (hm : Moves now l s s') (hl : ∀ a ∈ l, a.fresh = []) : Lacks hidden s' := by
  obtain ⟨hs', ended, ht⟩ := hm.transfer h.sound
  refine h.transfer hs' ht ?_
  rw [List.flatMap_eq_nil_iff.2 hl]
  exact List.forall_mem_nil _

omit [Carrier τ] in
theorem Lacks.queueOf (h : Lacks hidden s) : (s.queueOf hidden).idents = [] := by
  refine List.eq_nil_iff_forall_not_mem.2 fun i hi => ?_
  exact h.ids i (mem_idents_of_queueOf hi) (h.sound.placed hidden i hi)

/-- What ends in a pass of an agent was pending at it. -/
theorem ident_mem_of_finished (hs : s.Sound) {agent : AgentId} {b : Backlog}
    (hb : s.backlogOf agent = some b) {now : Instant} {p : Pass τ}
    (hp : Pass.run (s.passContext agent now) (s.firstPass b now) = (none, p)) :
    ∀ f ∈ p.finished, f.ident ∈ (s.queueOf agent).idents := by
  intro f hf
  have hq := queueOf_of_backlogOf hb
  obtain ⟨hfirst, hi⟩ := sound_firstPass (s := s) (hq ▸ hs.settled agent) now
  obtain ⟨-, hi'⟩ := Pass.sound_rounds hfirst hp
  rw [hq]
  exact (hi.trans hi').mem_iff.2 (List.mem_append_left _ (List.mem_map_of_mem hf))

/-- The requests that end in a pass of an agent are its own. -/
theorem Owns.of_finished (h : Owns hidden own s) {b : Backlog} (hb : s.backlogOf hidden = some b)
    {now : Instant} {p : Pass τ}
    (hp : Pass.run (s.passContext hidden now) (s.firstPass b now) = (none, p)) :
    ∀ f ∈ p.finished, f.agent = hidden ∧ f.request ∈ own := by
  intro f hf
  have hm := ident_mem_of_finished h.sound hb hp f hf
  have ha := h.sound.placed hidden f.ident hm
  exact ⟨ha, h.ids f.ident (mem_idents_of_queueOf hm) ha⟩

theorem Alike.free_firstPass (h : Alike hidden own s t) (b : Backlog) (now : Instant) :
    (s.firstPass b now).Free :=
  ⟨h.left.throttle, h.left.link⟩

/-- One moves the requests of the hidden agent. -/
theorem Alike.pump_left (h : Alike hidden own s t) (hs : Owns hidden own s) {now : Instant}
    {s' : Station τ} (hp : Station.pump hidden now s = .ok () s') : Alike hidden own s' t := by
  rcases pump_eq_ok.1 hp with ⟨-, rfl⟩ | ⟨b, p, hb, hr, -, rfl⟩
  · exact h
  · have hfree := h.free_firstPass b now
    obtain ⟨-, -, -, hpfree, -⟩ := Pass.run_like ⟨rfl, rfl, rfl⟩ hfree hfree hr
    have hfirst := (sound_firstPass (s := s)
      (queueOf_of_backlogOf hb ▸ hs.sound.settled hidden) now).1
    refine h.pumped_left hpfree (hs.of_finished hb hr) ?_ now
    exact Pass.addressed_rounds hfirst (List.forall_mem_nil _) hr

/-- A pump of an agent without requests meets no fault. -/
theorem Lacks.pump (h : Lacks hidden s) (now : Instant) :
    ∃ s', Station.pump hidden now s = .ok () s' := by
  cases hb : s.backlogOf hidden with
  | none => exact ⟨s, pump_eq_ok.2 (.inl ⟨hb, rfl⟩)⟩
  | some b =>
    have hq := queueOf_of_backlogOf hb
    have hnil : b.idents = [] := hq ▸ h.queueOf
    obtain ⟨-, hi⟩ := sound_firstPass (s := s) (hq ▸ h.sound.settled hidden) now
    rw [hnil] at hi
    obtain ⟨hf, hw⟩ := List.append_eq_nil_iff.1 hi.symm.eq_nil
    have hf : (s.firstPass b now).finished = [] := List.map_eq_nil_iff.1 hf
    have hw : (s.firstPass b now).backlog.waiting = [] :=
      (List.append_eq_nil_iff.1 (List.map_eq_nil_iff.1 hw)).2
    have hrun : Pass.run (s.passContext hidden now) (s.firstPass b now) =
        (none, s.firstPass b now) := by
      unfold Pass.run
      rw [hw]
      rfl
    exact ⟨_, pump_eq_ok.2 (.inr ⟨b, _, hb, hrun, .inl hf, rfl⟩)⟩

/-- Both move the requests of an agent. -/
theorem Alike.pump (h : Alike hidden own s t) (hs : Owns hidden own s) (ht : Lacks hidden t)
    {agent : AgentId} {now : Instant} {s' : Station τ}
    (hp : Station.pump agent now s = .ok () s') :
    ∃ t', Station.pump agent now t = .ok () t' ∧ Alike hidden own s' t' := by
  by_cases ha : agent = hidden
  · subst ha
    -- the second station has nothing to move, and what the first one moves does not show
    obtain ⟨t', hp'⟩ := ht.pump now
    exact ⟨t', hp', ((h.pump_left hs hp).symm.pump_left (ht.owns own) hp').symm⟩
  · have hbacklog := h.backlogOf ha
    rcases pump_eq_ok.1 hp with ⟨hb, rfl⟩ | ⟨b, p, hb, hr, hn, rfl⟩
    · rw [hb] at hbacklog
      have hb' := Option.map_eq_none_iff.1 hbacklog
      exact ⟨t, pump_eq_ok.2 (.inl ⟨hb', rfl⟩), h⟩
    · rw [hb] at hbacklog
      obtain ⟨c, hc, hcb⟩ := Option.map_eq_some_iff.1 hbacklog
      -- the two backlogs differ in tickets only, so the passes do the same
      have hreview : Prod.map (List.map Finished.plain) Backlog.plain (c.review now) =
          Prod.map (List.map Finished.plain) Backlog.plain (b.review now) := by
        rw [← Backlog.plain_review, hcb, Backlog.plain_review]
      have hlike : (s.firstPass b now).Like (t.firstPass c now) :=
        ⟨congrArg Prod.snd hreview, congrArg Prod.fst hreview, rfl⟩
      obtain ⟨q, hq, hpq, hpfree, hqfree⟩ :=
        Pass.run_like hlike (h.free_firstPass b now) (h.symm.free_firstPass c now) hr
      have hctx : t.passContext agent now = s.passContext agent now := by
        unfold passContext
        rw [h.id_eq, h.estimator, h.settings, h.epoch]
      refine ⟨_, pump_eq_ok.2 (.inr ⟨c, q, hc, hctx ▸ hq, ?_, rfl⟩),
        h.pumped agent hpq hpfree hqfree now⟩
      rw [h.settings]
      refine hn.imp (fun hf => ?_) fun hg => hg
      rw [← List.map_eq_nil_iff (f := Finished.plain), hpq.finished, hf]
      rfl

/-! ### Hearing a message -/

theorem Alike.replace_tally (h : Alike hidden own s t) (tally tally' : Tally) :
    Alike hidden own { s with tally := tally } { t with tally := tally' } :=
  ⟨h.settings, h.estimator, h.watch, h.epoch, h.agents, h.pending, h.log,
    ⟨h.left.throttle, h.left.link⟩, ⟨h.right.throttle, h.right.link⟩⟩

theorem Alike.replace_watch (h : Alike hidden own s t) (watch : Watch) :
    Alike hidden own { s with watch } { t with watch } :=
  ⟨h.settings, h.estimator, rfl, h.epoch, h.agents, h.pending, h.log,
    ⟨h.left.throttle, h.left.link⟩, ⟨h.right.throttle, h.right.link⟩⟩

theorem Alike.announce (h : Alike hidden own s t) (change : PresenceChange) :
    Alike hidden own (s.announce change) (t.announce change) :=
  have hlevel : Alike hidden own (s.level (.agentsOnline s.id) s.watch.onlineCount)
      (t.level (.agentsOnline t.id) t.watch.onlineCount) := h.emit (fun _ => rfl) fun _ => rfl
  hlevel.emit (fun _ => rfl) fun _ => rfl

theorem Alike.register (h : Alike hidden own s t) (agent : AgentId) :
    Alike hidden own (s.register agent) (t.register agent) := by
  unfold Station.register
  rw [h.contains]
  split
  · exact h
  · exact (h.replace_agents (masked_insert agent ⟨.none, none⟩ h.agents)).emit (fun _ => rfl)
      fun _ => rfl

theorem Alike.counted (h : Alike hidden own s t) (m : Message) :
    Alike hidden own (s.counted m) (t.counted m) :=
  (h.replace_tally _ _).emit (fun _ => rfl) fun _ => rfl

theorem Alike.flagged (h : Alike hidden own s t) (m : Message) :
    Alike hidden own (s.flagged m) (t.flagged m) := by
  unfold Station.flagged
  cases m.capabilities with
  | none => exact h
  | some capabilities =>
    refine h.replace_agents (masked_modify h.agents fun a a' ha => ?_)
    unfold Agent.masked at ha ⊢
    exact congrArg (Agent.mk capabilities) (congrArg Agent.backlog ha)

theorem Alike.observed (h : Alike hidden own s t) (m : Message) (now : Instant) :
    Alike hidden own (s.observed m now) (t.observed m now) := by
  unfold Station.observed
  rw [h.watch]
  cases (s.watch.observe m.agent now m.kind.signal).1 with
  | none => exact h.replace_watch _
  | some change => exact (h.replace_watch _).announce change

theorem Alike.hear (h : Alike hidden own s t) (m : Message) (now : Instant) :
    Alike hidden own (s.hear m now) (t.hear m now) := by
  rw [hear_eq, hear_eq]
  exact ((h.counted m).flagged m).observed m now

theorem Alike.heard (h : Alike hidden own s t) (m : Message) (now : Instant) :
    Alike hidden own (s.heard m now) (t.heard m now) :=
  (h.register m.agent).hear m now

/-- Both take in a message that answers no request. -/
theorem Alike.unanswered (h : Alike hidden own s t) (m : Message) (now : Instant) :
    Alike hidden own (s.unanswered m now) (t.unanswered m now) := by
  unfold Station.unanswered
  rw [h.id_eq, h.admits]
  split
  · exact h.emit (fun _ => rfl) fun _ => rfl
  · split
    · exact (h.replace_tally _ _).emit (fun _ => rfl) fun _ => rfl
    · split
      · exact h.heard m now
      · exact (h.heard m now).replace_tally _ _

/-! ### Routing a message -/

/-- Both match a reply. -/
theorem Alike.answered (h : Alike hidden own s t) (agent : AgentId) {b c : Backlog} {x y : Match}
    (hbc : c.plain = b.plain) (hxy : y.plain = x.plain) (estimator : Estimator TrafficClass)
    (now : Instant) :
    Alike hidden own (s.answered agent b x estimator now) (t.answered agent c y estimator now) := by
  have hdelivered := (h.setBacklog agent hbc).deliver [x.finished] [y.finished]
  have hsampled : Alike hidden own
      (((s.setBacklog agent b).deliver [x.finished]).sampled x.sample estimator)
      (((t.setBacklog agent c).deliver [y.finished]).sampled y.sample estimator) := by
    have hunseen : ∀ (network : NetworkId) (measured : Option (TrafficClass × Span)) agent,
        ∀ e ∈ measured.toList.map fun x => Effect.measured (.roundTrip network x.1) (.time x.2),
          e.reaches agent = false := by
      intro network measured agent e he
      obtain ⟨x, -, rfl⟩ := List.mem_map.1 he
      rfl
    have hlog := hdelivered.append_unseen (hunseen s.id x.sample) (hunseen t.id y.sample)
    exact ⟨hlog.settings, rfl, hlog.watch, hlog.epoch, hlog.agents, hlog.pending, hlog.log,
      ⟨hlog.left.throttle, hlog.left.link⟩, ⟨hlog.right.throttle, hlog.right.link⟩⟩
  refine hsampled.concluded ?_ now
  exact congrArg (fun x : Match => [x.finished]) hxy

/-- A message answers a request in both, or in neither. -/
theorem Alike.answers (h : Alike hidden own s t) (ht : Lacks hidden t) {m : Message}
    (hm : m.agent = hidden → s.answers m = false) : t.answers m = s.answers m := by
  by_cases ha : m.agent = hidden
  · rw [hm ha]
    refine Bool.eq_false_iff.2 fun htrue => ?_
    obtain ⟨-, hany⟩ := Bool.and_eq_true_iff.1 htrue
    obtain ⟨reply, -, hw⟩ := (Option.any_eq_true _ _).1 hany
    obtain ⟨b, r, hb, hr, -⟩ := awaits_eq_true_iff.1 hw
    -- an agent without requests awaits nothing
    have hnil := ht.queueOf
    rw [← ha, queueOf_of_backlogOf hb, Backlog.idents_of_inFlight hr] at hnil
    cases hnil
  · have hawaits : ∀ (u : Station τ) (key : ReplyKey), u.awaits m.agent key =
        ((u.backlogOf m.agent).map Backlog.plain).any fun b => b.inFlight.any (·.awaits key) := by
      intro u key
      unfold awaits
      cases u.backlogOf m.agent with
      | none => rfl
      | some b =>
        show b.inFlight.any (·.awaits key) =
          (b.inFlight.map Request.plain).any (·.awaits key)
        cases b.inFlight <;> rfl
    unfold Station.answers
    rw [h.id_eq]
    cases m.reply with
    | none => rfl
    | some reply =>
      dsimp only [Option.any_some]
      rw [hawaits, hawaits, h.backlogOf ha]

/-- Both route a message. -/
theorem Alike.route (h : Alike hidden own s t) (ht : Lacks hidden t) {m : Message}
    (hm : m.agent = hidden → s.answers m = false) {now : Instant} {found : Option AgentId}
    {s' : Station τ} (hr : Station.route m now s = .ok found s') :
    ∃ t', Station.route m now t = .ok found t' ∧ Alike hidden own s' t' := by
  have hans := h.answers ht hm
  cases ha : s.answers m with
  | false =>
    rw [route_of_answers_eq_false ha, EStateM.Result.ok.injEq] at hr
    obtain ⟨rfl, rfl⟩ := hr
    exact ⟨_, route_of_answers_eq_false (hans.trans ha) now, h.unanswered m now⟩
  | true =>
    have hne : m.agent ≠ hidden := fun he => by
      rw [hm he] at ha
      cases ha
    obtain ⟨reply, b, -, x, b', -, hreply, hb, -, -, hx, hok⟩ := route_of_answers ha now
    obtain ⟨reply', c, -, y, c', -, hreply', hc, -, -, hy, hok'⟩ :=
      route_of_answers (hans.trans ha) now
    obtain rfl := Option.some.inj (hreply.symm.trans hreply')
    have hbc := h.backlogOf hne
    rw [hb, hc] at hbc
    have hbc : c.plain = b.plain := Option.some.inj hbc
    have hanswer : Prod.map (Option.map Match.plain) Backlog.plain
        (c.answer reply.key reply.verdict now) =
        Prod.map (Option.map Match.plain) Backlog.plain
          (b.answer reply.key reply.verdict now) := by
      rw [← Backlog.plain_answer, hbc, Backlog.plain_answer]
    rw [hx, hy] at hanswer
    obtain ⟨hxy, hbc'⟩ := Prod.mk.inj hanswer
    have hxy : y.plain = x.plain := Option.some.inj hxy
    have hsample : y.sample = x.sample := by
      have hs : y.plain.sample = x.plain.sample := by rw [hxy]
      exact hs
    obtain ⟨rfl, estimator, hsampled, hn, rfl⟩ := (hok found s').1 hr
    refine ⟨_, (hok' _ _).2 ⟨rfl, estimator, ?_, ?_, rfl⟩,
      (h.heard m now).answered m.agent hbc' hxy estimator now⟩
    · rw [hsample, h.estimator]
      exact hsampled
    · rw [h.settings]
      exact hn

end Alike

end Station

end GroundControl
