import GroundControl.Proofs.Station.PumpOrder
import GroundControl.Proofs.Station.Queues

/-!
# Operations on alike stations

What is asked of two stations that are alike but for a hidden agent, of which only one has requests
of that agent: if it meets no fault at the one that has them, it meets none at the other, and the
two stay alike.

* `Alike.pumpAll`, `Alike.tick`, `Alike.broadcast`, `Alike.correction`;
* `Alike.enqueue`, `Alike.submit`, `Alike.cancel`, for an agent that is not hidden;
* `Alike.enqueue_left`, `Alike.submit_left`, `Alike.cancel_left`, for the hidden agent, at one of
  the two;
* `Alike.deregister`, `Alike.shutdown`.
-/

namespace GroundControl

namespace Station

variable {τ : Type} [Carrier τ] {hidden : AgentId} {own : List RequestId} {s t s' : Station τ}
  {now : Instant}

/-! ### Messages and pumps -/

theorem Alike.deliverInbound (h : Alike hidden own s t) (hs : Owns hidden own s)
    (ht : Lacks hidden t) {m : Message} (hm : m.agent = hidden → s.answers m = false)
    (hd : Station.deliverInbound m now s = .ok () s') :
    ∃ t', Station.deliverInbound m now t = .ok () t' ∧ Alike hidden own s' t' := by
  obtain ⟨found, s₁, hr, hp⟩ := Act.bind_eq_ok.1 hd
  obtain ⟨t₁, hr', h₁⟩ := h.route ht hm hr
  have hfresh : ∀ u : Station τ, ∀ a ∈ if u.answers m then [Action.answer m.agent] else [],
      a.fresh = [] := by
    intro u a ha
    split at ha
    · obtain rfl := List.mem_singleton.1 ha
      rfl
    · cases ha
  have hs₁ := hs.moves (moves_route hr).1 (hfresh s)
  have ht₁ := ht.moves (moves_route hr').1 (hfresh t)
  cases found with
  | none =>
    cases hp
    exact ⟨t₁, Act.bind_eq_ok.2 ⟨none, t₁, hr', rfl⟩, h₁⟩
  | some agent =>
    obtain ⟨t', hp', h'⟩ := h₁.pump hs₁ ht₁ hp
    exact ⟨t', Act.bind_eq_ok.2 ⟨some agent, t₁, hr', hp'⟩, h'⟩

/-- One moves the requests of several agents, and the other those of all of them that are not
hidden. -/
theorem Alike.forM_pump (h : Alike hidden own s t) (hs : Owns hidden own s) (ht : Lacks hidden t)
    {l : List AgentId} (hl : l.forM (Station.pump · now) s = .ok () s') :
    ∃ t', (l.filter (· ≠ hidden)).forM (Station.pump · now) t = .ok () t' ∧
      Alike hidden own s' t' := by
  have hfresh : ∀ agent, ∀ a ∈ [Action.pump agent], a.fresh = [] :=
    fun agent => List.forall_mem_singleton.2 rfl
  induction l generalizing s t with
  | nil =>
    obtain rfl := Act.forM_nil_eq_ok.1 hl
    exact ⟨t, Act.forM_nil_eq_ok.2 rfl, h⟩
  | cons agent rest ih =>
    obtain ⟨s₁, hp, hr⟩ := Act.forM_cons_eq_ok.1 hl
    have hs₁ := hs.moves (moves_pump hp) (hfresh agent)
    by_cases ha : agent = hidden
    · subst ha
      rw [List.filter_cons_of_neg (by simp)]
      exact ih (h.pump_left hs hp) hs₁ ht hr
    · rw [List.filter_cons_of_pos (by simpa using ha)]
      obtain ⟨t₁, hp', h₁⟩ := h.pump hs ht hp
      have ht₁ := ht.moves (moves_pump hp') (hfresh agent)
      obtain ⟨t', hr', h'⟩ := ih h₁ hs₁ ht₁ hr
      exact ⟨t', Act.forM_cons_eq_ok.2 ⟨t₁, hp', hr'⟩, h'⟩

omit [Carrier τ] in
/-- A hidden agent or not, the agents come up in the same order if the tables are walked alike. -/
theorem entries_masked [Walk] (s : Station τ) (hidden : AgentId) :
    Walk.entries (s.masked hidden) =
      (Walk.entries s.agents).map fun e => (e.1, e.2.masked hidden e.1) := by
  unfold Walk.entries masked
  have hkeys : (s.agents.mapKeyed (Agent.masked hidden)).keys = s.agents.keys := List.map_map
  rw [hkeys, List.map_filterMap]
  refine List.filterMap_congr fun agent _ => ?_
  rw [Table.get?_mapKeyed]
  cases s.agents.get? agent <;> rfl

omit [Carrier τ] in
theorem pendingLen_masked (agent : AgentId) (a : Agent) :
    (a.masked hidden agent).pendingLen = if agent = hidden then 0 else a.pendingLen := by
  unfold Agent.masked Agent.pendingLen
  dsimp only
  split
  · rfl
  · cases a.backlog with
    | none => rfl
    | some b => exact b.pendingLen_plain

omit [Carrier τ] in
/-- The agents with pending requests, but for the hidden one. -/
theorem filter_busyAgents [Walk] (s : Station τ) (hidden : AgentId) :
    s.busyAgents.filter (· ≠ hidden) =
      ((Walk.entries (s.masked hidden)).filter fun e => e.2.pendingLen ≠ 0).map (·.1) := by
  rw [entries_masked]
  unfold Station.busyAgents
  rw [List.filter_map, List.filter_map, List.map_map, List.filter_filter]
  congr 1
  refine List.filter_congr fun e _ => ?_
  dsimp only [Function.comp]
  rw [pendingLen_masked]
  by_cases he : e.1 = hidden
  · rw [if_pos he]
    simp [he]
  · rw [if_neg he]
    simp [he]

theorem Alike.busyAgents [Walk] (h : Alike hidden own s t) (ht : Lacks hidden t) :
    t.busyAgents = s.busyAgents.filter (· ≠ hidden) := by
  rw [filter_busyAgents, ← h.agents, ← filter_busyAgents, List.filter_eq_self.2]
  intro agent ha
  refine decide_eq_true fun he => ?_
  subst he
  refine mem_busyAgents.1 ha ?_
  rw [← Backlog.length_requests, ← List.length_map (f := Request.ident)]
  exact congrArg List.length ht.queueOf

/-- Stations that did the same in another order are alike. -/
theorem Reordered.alike {single : RequestId → Prop} (h : Reordered single s t) :
    Alike hidden own s t where
  settings := h.settings
  estimator := h.estimator
  watch := h.watch
  epoch := h.epoch
  agents := congrArg (Table.mapKeyed (Agent.masked hidden)) h.agents
  pending _ _ := by rw [h.pending]
  log agent _ := h.reached agent
  left := h.left
  right := h.right

/-- Both move the requests of all agents, whichever way each of them walks its table. -/
theorem Alike.pumpAll (h : Alike hidden own s t) (hs : Owns hidden own s) (ht : Lacks hidden t)
    (walk walk' : Walk) (hp : @Station.pumpAll τ _ walk now s = .ok () s') :
    ∃ t', @Station.pumpAll τ _ walk' now t = .ok () t' ∧ Alike hidden own s' t' := by
  obtain ⟨s₁, hl, rfl⟩ := (@pumpAll_eq_ok τ _ walk s s' now).1 hp
  -- first the same station on the other walk, then the other station
  have hposed : Poised (fun _ => False) s := ⟨hs.sound, hs.numbered, h.left, nofun⟩
  obtain ⟨s₂, hl₂, h₂⟩ := (interchange_pump _ now).forM_perm (busyAgents_perm s walk walk')
    (@nodup_busyAgents τ walk s) hposed (.refl h.left) hl
  obtain ⟨t₁, hl', h₁⟩ := h.forM_pump hs ht hl₂
  have h₁ : Alike hidden own s₁ t₁ := h₂.alike.trans h₁
  have hexpire : Alike hidden own (s₁.expireResults now) (t₁.expireResults now) :=
    ⟨h₁.settings, h₁.estimator, h₁.watch, h₁.epoch, h₁.agents, h₁.pending, h₁.log,
      ⟨h₁.left.throttle, h₁.left.link⟩, ⟨h₁.right.throttle, h₁.right.link⟩⟩
  refine ⟨_, (@pumpAll_eq_ok τ _ walk' t _ now).2 ⟨t₁, ?_, rfl⟩,
    hexpire.emit (fun _ => rfl) fun _ => rfl⟩
  rw [@Alike.busyAgents τ _ hidden own s t walk' h ht]
  exact hl'

theorem Alike.swept (h : Alike hidden own s t) (walk walk' : Walk) (now : Instant) :
    Alike hidden own (@Station.swept τ walk s now) (@Station.swept τ walk' t now) := by
  have hunseen : ∀ (u : Station τ) (online : Nat) (changes : List PresenceChange) (agent : AgentId),
      ∀ e ∈ changes.flatMap (tidings u.id online), e.reaches agent = false := by
    intro u online changes agent e he
    obtain ⟨c, -, he⟩ := List.mem_flatMap.1 he
    rcases List.mem_cons.1 he with rfl | he
    · rfl
    · obtain rfl := List.mem_singleton.1 he
      rfl
  have hwatch : (@Watch.sweep walk' s.watch now).2 = (@Watch.sweep walk s.watch now).2 := rfl
  rw [@swept_eq τ walk s now, @swept_eq τ walk' t now, h.watch, hwatch]
  exact (h.replace_watch (@Watch.sweep walk s.watch now).2).append_unseen (hunseen s _ _)
    (hunseen t _ _)

theorem Alike.tick (h : Alike hidden own s t) (hs : Owns hidden own s) (ht : Lacks hidden t)
    (walk walk' : Walk) (hp : @Station.tick τ _ walk now s = .ok () s') :
    ∃ t', @Station.tick τ _ walk' now t = .ok () t' ∧ Alike hidden own s' t' := by
  have hquiet : ∀ (w : Walk) (u : Station τ), Moves now [] u (@Station.swept τ w u now) :=
    fun _ u => .of_quiet (quiet_swept u now)
  have hs₁ := hs.moves (hquiet walk s) (List.forall_mem_nil _)
  have ht₁ := ht.moves (hquiet walk' t) (List.forall_mem_nil _)
  exact (h.swept walk walk' now).pumpAll hs₁ ht₁ walk walk' hp

/-! ### Broadcasts -/

theorem Alike.transmitAll (h : Alike hidden own s t) (bulletin : Bulletin) :
    Alike hidden own (Station.transmitAll bulletin s).2 (Station.transmitAll bulletin t).2 := by
  have hsend : ∀ u : Station τ, u.Free → (Station.transmitAll bulletin u).2 =
      ({ u with
        carrier := (Carrier.send u.carrier ⟨u.id, .everyone, bulletin.body, none, u.epoch⟩).2
        tally := { u.tally with broadcasts := u.tally.broadcasts.record bulletin.kind } }.emit
        (.sent ⟨u.id, .everyone, bulletin.body, none, u.epoch⟩ (.ok ()))).count
          (.broadcasts u.id bulletin.kind) := by
    intro u hu
    unfold Station.transmitAll
    dsimp only
    rw [hu.link.send_eq]
    rfl
  rw [hsend s h.left, hsend t h.right]
  have hcarrier : Alike hidden own
      { s with
        carrier := (Carrier.send s.carrier ⟨s.id, .everyone, bulletin.body, none, s.epoch⟩).2
        tally := { s.tally with broadcasts := s.tally.broadcasts.record bulletin.kind } }
      { t with
        carrier := (Carrier.send t.carrier ⟨t.id, .everyone, bulletin.body, none, t.epoch⟩).2
        tally := { t.tally with broadcasts := t.tally.broadcasts.record bulletin.kind } } :=
    ⟨h.settings, h.estimator, h.watch, h.epoch, h.agents, h.pending, h.log,
      ⟨h.left.throttle, h.left.link.after _⟩, ⟨h.right.throttle, h.right.link.after _⟩⟩
  exact (hcarrier.emit (fun _ => rfl) fun _ => rfl).emit (fun _ => rfl) fun _ => rfl

theorem Alike.broadcast (h : Alike hidden own s t) {wake : Instant → Instant} {bulletin : Bulletin}
    {deadline : Instant} {answer : Except DispatchError Unit × Instant}
    (hb : Station.broadcast wake bulletin deadline now s = .ok answer s') :
    ∃ answer' t', Station.broadcast wake bulletin deadline now t = .ok answer' t' ∧
      Alike hidden own s' t' := by
  rw [broadcast_of_throttle_eq_none h.left.throttle, EStateM.Result.ok.injEq] at hb
  obtain ⟨-, rfl⟩ := hb
  exact ⟨_, _, broadcast_of_throttle_eq_none h.right.throttle wake bulletin deadline now,
    h.transmitAll bulletin⟩

theorem Alike.correction (h : Alike hidden own s t) {wake : Instant → Instant}
    {bulletin : Bulletin} {skipIfIdle : Bool} {deadline : Instant}
    {answer : Except DispatchError Bool × Instant}
    (hb : Station.correction wake bulletin skipIfIdle deadline now s = .ok answer s') :
    ∃ answer' t', Station.correction wake bulletin skipIfIdle deadline now t = .ok answer' t' ∧
      Alike hidden own s' t' := by
  have ht : t.takesCorrection skipIfIdle = s.takesCorrection skipIfIdle := by
    unfold takesCorrection
    rw [h.settings, h.watch]
  unfold Station.correction at hb ⊢
  obtain ⟨u, s₁, hg, hb⟩ := Act.bind_eq_ok.1 hb
  cases hg
  split at hb
  · rename_i htakes
    obtain ⟨result, hsend, rfl⟩ := Act.bind_pure_eq_ok.1 hb
    obtain ⟨result', t', hsend', h'⟩ := h.broadcast hsend
    refine ⟨(result'.1.map fun () => true, result'.2), t',
      Act.bind_eq_ok.2 ⟨t, t, rfl, ?_⟩, h'⟩
    rw [ht, if_pos htakes]
    exact Act.bind_pure_eq_ok.2 ⟨result', hsend', rfl⟩
  · rename_i htakes
    cases hb
    refine ⟨(.ok false, now), t, Act.bind_eq_ok.2 ⟨t, t, rfl, ?_⟩, h⟩
    rw [ht, if_neg htakes]
    rfl

/-! ### Submission -/

section Submission

variable {request : RequestId} {agent : AgentId} {payload : Payload} {urgency : Urgency}
  {maxAttempts : Nat} {result : Except DispatchError Handle}

/-- Both queue a command, or neither does. -/
theorem Alike.enqueue (h : Alike hidden own s t) (ha : agent ≠ hidden)
    (he : Station.enqueue request agent payload urgency maxAttempts s = (result, s')) :
    ∃ result' t', Station.enqueue request agent payload urgency maxAttempts t = (result', t') ∧
      result'.isOk = result.isOk ∧ Alike hidden own s' t' := by
  have hg := h.get? agent
  unfold Station.enqueue at he ⊢
  cases hs : s.agents.get? agent with
  | none =>
    rw [hs] at hg he
    rw [Option.map_eq_none_iff.1 hg]
    cases he
    exact ⟨_, _, rfl, rfl, h⟩
  | some a =>
    rw [hs] at hg he
    obtain ⟨a', ha', -⟩ := Option.map_eq_some_iff.1 hg
    rw [ha']
    dsimp only at he ⊢
    have hb := h.queueOf ha
    rw [← queueOf_of_get? hs] at he
    rw [← queueOf_of_get? ha', h.settings, h.id_eq]
    generalize s.queueOf agent = b at he hb
    generalize t.queueOf agent = c at hb
    generalize hn : (if maxAttempts = 0 then s.settings.attempts else maxAttempts) = attempts at he
    have hsubmit : (c.submit (.new request s.id agent payload urgency attempts t.tickets)).map
        Backlog.plain =
        (b.submit (.new request s.id agent payload urgency attempts s.tickets)).map
          Backlog.plain := by
      rw [← Backlog.plain_submit, ← Backlog.plain_submit, hb]
      rfl
    cases hx : b.submit (.new request s.id agent payload urgency attempts s.tickets) with
    | none =>
      rw [hx] at hsubmit he
      rw [Option.map_eq_none_iff.1 hsubmit]
      cases he
      exact ⟨_, _, rfl, rfl, h.setBacklog agent hb⟩
    | some b' =>
      rw [hx] at hsubmit he
      obtain ⟨c', hc', hbc'⟩ := Option.map_eq_some_iff.1 hsubmit
      rw [hc']
      cases he
      exact ⟨_, _, rfl, rfl, (h.setBacklog agent hbc').insert_pending request agent _ _⟩

/-- One queues a command for the hidden agent. -/
theorem Alike.enqueue_left (h : Alike hidden own s t) (hr : request ∈ own)
    (he : Station.enqueue request hidden payload urgency maxAttempts s = (result, s')) :
    Alike hidden own s' t := by
  unfold Station.enqueue at he
  split at he
  · cases he
    exact h
  · dsimp only at he
    split at he
    · cases he
      exact h.setBacklog_left _
    · rename_i b' _
      cases he
      exact (h.setBacklog_left b').insert_pending_left hr hidden _

theorem Owns.enqueue (h : Owns hidden own s) (hr : agent = hidden → request ∈ own)
    (he : Station.enqueue request agent payload urgency maxAttempts s = (result, s')) :
    Owns hidden own s' := by
  have hm := move_enqueue 0 he
  cases result with
  | error e =>
    exact h.transfer (h.sound.of_queueOf hm.queue) (.of_quiet hm) (List.forall_mem_nil _)
  | ok handle =>
    obtain ⟨hm, ha, hreq⟩ := hm
    obtain ⟨hs', ended, ht⟩ := hm.transfer h.sound
    refine h.transfer hs' ht (List.forall_mem_singleton.2 fun hi => ?_)
    show handle.request ∈ own
    rw [hreq]
    exact hr (ha.symm.trans hi)

theorem Lacks.enqueue (h : Lacks hidden s) (ha : agent ≠ hidden)
    (he : Station.enqueue request agent payload urgency maxAttempts s = (result, s')) :
    Lacks hidden s' := by
  have hm := move_enqueue 0 he
  cases result with
  | error e =>
    exact h.transfer (h.sound.of_queueOf hm.queue) (.of_quiet hm) (List.forall_mem_nil _)
  | ok handle =>
    obtain ⟨hm, hag, -⟩ := hm
    obtain ⟨hs', ended, ht⟩ := hm.transfer h.sound
    exact h.transfer hs' ht (List.forall_mem_singleton.2 fun hi => ha (hag.symm.trans hi))

theorem Alike.submit (h : Alike hidden own s t) (hs : Owns hidden own s) (ht : Lacks hidden t)
    (ha : agent ≠ hidden)
    (hsub : Station.submit request agent payload urgency maxAttempts now s = .ok result s') :
    ∃ result' t', Station.submit request agent payload urgency maxAttempts now t =
      .ok result' t' ∧ Alike hidden own s' t' := by
  obtain ⟨s₁, he, hp⟩ := submit_eq_ok.1 hsub
  obtain ⟨result', t₁, he', hok, h₁⟩ := h.enqueue ha he
  rcases hp with ⟨hf, rfl⟩ | ⟨hf, hp⟩
  · exact ⟨result', t₁, submit_eq_ok.2 ⟨t₁, he', .inl ⟨hok.trans hf, rfl⟩⟩, h₁⟩
  · have hs₁ := hs.enqueue (fun hh => absurd hh ha) he
    obtain ⟨t', hp', h'⟩ := h₁.pump hs₁ (ht.enqueue ha he') hp
    exact ⟨result', t', submit_eq_ok.2 ⟨t₁, he', .inr ⟨hok.trans hf, hp'⟩⟩, h'⟩

theorem Alike.submit_left (h : Alike hidden own s t) (hs : Owns hidden own s) (hr : request ∈ own)
    (hsub : Station.submit request hidden payload urgency maxAttempts now s = .ok result s') :
    Alike hidden own s' t := by
  obtain ⟨s₁, he, hp⟩ := submit_eq_ok.1 hsub
  have h₁ := h.enqueue_left hr he
  rcases hp with ⟨-, rfl⟩ | ⟨-, hp⟩
  · exact h₁
  · exact h₁.pump_left (hs.enqueue (fun _ => hr) he) hp

end Submission

/-! ### Withdrawal and removal -/

/-- Both withdraw a request of an agent that is not hidden. -/
theorem Alike.cancel (h : Alike hidden own s t) {request : RequestId} (hr : request ∉ own)
    (ha : ∀ agent, s.pending.get? request = some agent → agent ≠ hidden) :
    Alike hidden own (Station.cancel request s).2 (Station.cancel request t).2 := by
  unfold Station.cancel
  rw [h.pending request hr]
  cases hp : s.pending.get? request with
  | none => exact h
  | some agent =>
    dsimp only
    have hb := h.backlogOf (ha agent hp)
    cases hx : s.backlogOf agent with
    | none =>
      rw [hx] at hb
      rw [Option.map_eq_none_iff.1 hb]
      exact h
    | some b =>
      rw [hx] at hb
      obtain ⟨c, hc, hbc⟩ := Option.map_eq_some_iff.1 hb
      rw [hc]
      refine h.setBacklog agent ?_
      have hw : Prod.map (fun found => found) Backlog.plain (c.withdraw request) =
          Prod.map (fun found => found) Backlog.plain (b.withdraw request) := by
        rw [← Backlog.plain_withdraw, hbc, Backlog.plain_withdraw]
      exact congrArg Prod.snd hw

/-- One withdraws a request of the hidden agent. -/
theorem Alike.cancel_left (h : Alike hidden own s t) {request : RequestId}
    (ha : ∀ agent, s.pending.get? request = some agent → agent = hidden) :
    Alike hidden own (Station.cancel request s).2 t := by
  unfold Station.cancel
  cases hp : s.pending.get? request with
  | none => exact h
  | some agent =>
    dsimp only
    obtain rfl := ha agent hp
    cases s.backlogOf agent with
    | none => exact h
    | some b =>
      exact h.setBacklog_left _

theorem Alike.forgotten (h : Alike hidden own s t) (agent : AgentId) :
    Alike hidden own (s.forgotten agent) (t.forgotten agent) := by
  unfold Station.forgotten
  rw [h.watch]
  exact (h.replace_watch _).emit (fun _ => rfl) fun _ => rfl

theorem Alike.replace_refusals (h : Alike hidden own s t)
    (refusals refusals' : List Phase.IllegalStep) :
    Alike hidden own { s with refusals } { t with refusals := refusals' } :=
  ⟨h.settings, h.estimator, h.watch, h.epoch, h.agents, h.pending, h.log,
    ⟨h.left.throttle, h.left.link⟩, ⟨h.right.throttle, h.right.link⟩⟩

omit [Carrier τ] in
/-- The same requests end with an agent that is not hidden. -/
theorem dissolved_of_masked {agent : AgentId} {a a' : Agent} (ha : agent ≠ hidden)
    (h : a'.masked hidden agent = a.masked hidden agent) :
    (dissolved a').1.map Finished.plain = (dissolved a).1.map Finished.plain := by
  have hm : (a'.masked hidden agent).backlog = (a.masked hidden agent).backlog := by rw [h]
  unfold Agent.masked at hm
  rw [if_neg ha, if_neg ha] at hm
  unfold dissolved
  cases hx : a.backlog with
  | none =>
    rw [hx] at hm
    rw [Option.map_eq_none_iff.1 hm]
  | some b =>
    rw [hx] at hm
    obtain ⟨c, hc, hbc⟩ := Option.map_eq_some_iff.1 hm
    rw [hc]
    have hd : Prod.map (List.map Finished.plain) Backlog.plain c.dissolve =
        Prod.map (List.map Finished.plain) Backlog.plain b.dissolve := by
      rw [← Backlog.plain_dissolve, hbc, Backlog.plain_dissolve]
    exact congrArg Prod.fst hd

/-- Both let go of an agent that is not hidden. -/
theorem Alike.evicted (h : Alike hidden own s t) {agent : AgentId} {a a' : Agent}
    (hd : (dissolved a').1.map Finished.plain = (dissolved a).1.map Finished.plain)
    (now : Instant) : Alike hidden own (s.evicted agent a now) (t.evicted agent a' now) :=
  (((h.replace_refusals _ _).deliver _ _).concluded hd now).forgotten agent

/-- Both let go of the hidden agent. -/
theorem Alike.evicted_hidden (h : Alike hidden own s t) {a a' : Agent}
    (ha : ∀ f ∈ (dissolved a).1, f.agent = hidden ∧ f.request ∈ own)
    (ha' : ∀ f ∈ (dissolved a').1, f.agent = hidden ∧ f.request ∈ own) (now : Instant) :
    Alike hidden own (s.evicted hidden a now) (t.evicted hidden a' now) := by
  have hd := (h.replace_refusals (s.refusals ++ (dissolved a).2)
    (t.refusals ++ (dissolved a').2)).deliver (dissolved a).1 (dissolved a').1
  exact (((hd.concluded_left ha now).symm.concluded_left ha' now).symm).forgotten hidden

omit [Carrier τ] in
theorem mem_idents_of_dissolved {agent : AgentId} {a : Agent} (ha : s.agents.get? agent = some a)
    {f : Finished} (hf : f ∈ (dissolved a).1) : f.ident ∈ (s.queueOf agent).idents := by
  unfold Backlog.idents
  rw [← requests_queueOf ha, ← idents_dissolved]
  exact List.mem_map_of_mem hf

omit [Carrier τ] in
theorem Owns.of_dissolved (h : Owns hidden own s) {a : Agent}
    (ha : s.agents.get? hidden = some a) :
    ∀ f ∈ (dissolved a).1, f.agent = hidden ∧ f.request ∈ own := by
  intro f hf
  have hm := mem_idents_of_dissolved ha hf
  have hag := h.sound.placed hidden f.ident hm
  exact ⟨hag, h.ids f.ident (mem_idents_of_queueOf hm) hag⟩

omit [Carrier τ] in
theorem Lacks.of_dissolved (h : Lacks hidden s) {a : Agent} (ha : s.agents.get? hidden = some a) :
    (dissolved a).1 = [] := by
  refine List.eq_nil_iff_forall_not_mem.2 fun f hf => ?_
  have hm := mem_idents_of_dissolved ha hf
  rw [h.queueOf] at hm
  cases hm

/-- Both let go of an agent. -/
theorem Alike.evict (h : Alike hidden own s t) {agent : AgentId} {a a' : Agent}
    (hm : a'.masked hidden agent = a.masked hidden agent)
    (ha : agent = hidden → ∀ f ∈ (dissolved a).1, f.agent = hidden ∧ f.request ∈ own)
    (ha' : agent = hidden → (dissolved a').1 = [])
    (he : Station.evict agent a now s = .ok () s') :
    ∃ t', Station.evict agent a' now t = .ok () t' ∧ Alike hidden own s' t' := by
  obtain ⟨hn, rfl⟩ := evict_eq_ok.1 he
  by_cases hag : agent = hidden
  · have hnil := ha' hag
    refine ⟨_, evict_eq_ok.2 ⟨.inl hnil, rfl⟩, ?_⟩
    subst hag
    refine h.evicted_hidden (ha rfl) ?_ now
    rw [hnil]
    exact List.forall_mem_nil _
  · have hd := dissolved_of_masked hag hm
    refine ⟨_, evict_eq_ok.2 ⟨?_, rfl⟩, h.evicted hd now⟩
    rw [h.settings]
    refine hn.imp (fun hnil => ?_) fun hg => hg
    rw [← List.map_eq_nil_iff (f := Finished.plain), hd, hnil]
    rfl

theorem Alike.deregister (h : Alike hidden own s t) (hs : Owns hidden own s) (ht : Lacks hidden t)
    {agent : AgentId} {result : Except DispatchError Unit}
    (hd : Station.deregister agent now s = .ok result s') :
    ∃ result' t', Station.deregister agent now t = .ok result' t' ∧ Alike hidden own s' t' := by
  have hg := h.get? agent
  cases hx : s.agents.get? agent with
  | none =>
    rw [hx] at hg
    rw [deregister_of_unknown hx, EStateM.Result.ok.injEq] at hd
    obtain ⟨-, rfl⟩ := hd
    exact ⟨_, t, deregister_of_unknown (Option.map_eq_none_iff.1 hg) now, h⟩
  | some a =>
    rw [hx] at hg
    obtain ⟨a', ha', hm⟩ := Option.map_eq_some_iff.1 hg
    obtain ⟨-, hn, rfl⟩ := (deregister_of_known hx).1 hd
    have herase : Alike hidden own ({ s with agents := s.agents.erase agent } : Station τ)
        ({ t with agents := t.agents.erase agent } : Station τ) :=
      h.replace_agents (masked_erase agent h.agents)
    obtain ⟨t', he, h'⟩ := herase.evict hm
      (fun hag => by
        subst hag
        exact hs.of_dissolved hx)
      (fun hag => by
        subst hag
        exact ht.of_dissolved ha')
      (evict_eq_ok.2 ⟨hn, rfl⟩)
    obtain ⟨hn', rfl⟩ := evict_eq_ok.1 he
    exact ⟨.ok (), _, (deregister_of_known ha').2 ⟨rfl, hn', rfl⟩, h'⟩

/-- Both let go of several agents. -/
theorem Alike.forM_evict (h : Alike hidden own s t) {l l' : List (AgentId × Agent)}
    (hm : l'.map (fun e => (e.1, e.2.masked hidden e.1)) =
      l.map fun e => (e.1, e.2.masked hidden e.1))
    (hl : ∀ e ∈ l, e.1 = hidden → ∀ f ∈ (dissolved e.2).1, f.agent = hidden ∧ f.request ∈ own)
    (hl' : ∀ e ∈ l', e.1 = hidden → (dissolved e.2).1 = [])
    (he : l.forM (fun e => Station.evict e.1 e.2 now) s = .ok () s') :
    ∃ t', l'.forM (fun e => Station.evict e.1 e.2 now) t = .ok () t' ∧
      Alike hidden own s' t' := by
  induction l generalizing s t l' with
  | nil =>
    obtain rfl := Act.forM_nil_eq_ok.1 he
    obtain rfl := List.map_eq_nil_iff.1 hm
    exact ⟨t, Act.forM_nil_eq_ok.2 rfl, h⟩
  | cons e rest ih =>
    cases l' with
    | nil => cases hm
    | cons e' rest' =>
      obtain ⟨hhead, htail⟩ := List.cons.inj hm
      obtain ⟨hkey, hmask⟩ := Prod.mk.inj hhead
      obtain ⟨s₁, he, hr⟩ := Act.forM_cons_eq_ok.1 he
      obtain ⟨agent, a⟩ := e
      obtain ⟨agent', a'⟩ := e'
      obtain rfl : agent' = agent := hkey
      obtain ⟨hfirst, hl⟩ := List.forall_mem_cons.1 hl
      obtain ⟨hfirst', hl'⟩ := List.forall_mem_cons.1 hl'
      obtain ⟨t₁, he', h₁⟩ := h.evict hmask hfirst hfirst' he
      obtain ⟨t', hr', h'⟩ := ih h₁ htail hl hl' hr
      exact ⟨t', Act.forM_cons_eq_ok.2 ⟨t₁, he', hr'⟩, h'⟩

/-- Two agents that differ, with requests of their own only. -/
structure Apart (e e' : AgentId × Agent) : Prop where
  ne : e.1 ≠ e'.1
  left : ∀ f ∈ (dissolved e.2).1, f.agent = e.1
  right : ∀ f ∈ (dissolved e'.2).1, f.agent = e'.1

/-- Letting go of an agent does not reach another. -/
theorem unreached_parting (network : NetworkId) {agent target : AgentId} {a : Agent}
    (ha : ∀ f ∈ (dissolved a).1, f.agent = agent) (hne : agent ≠ target) :
    (partingEffects network agent a).filter (Effect.reaches target) = [] := by
  refine filter_eq_nil_of_unseen fun e he => ?_
  unfold partingEffects at he
  rcases List.mem_append.1 he with he | he
  · rcases List.mem_append.1 he with he | he
    · obtain ⟨f, -, rfl⟩ := List.mem_map.1 he
      rfl
    · obtain ⟨f, hf, he⟩ := List.mem_flatMap.1 he
      rcases List.mem_cons.1 he with rfl | he
      · rfl
      · obtain rfl := List.mem_singleton.1 he
        exact decide_eq_false fun hd => hne ((ha f hf).symm.trans hd)
  · obtain rfl := List.mem_singleton.1 he
    rfl

/-- Two agents are let go of in either order. -/
theorem alike_evicted (hs : s.Free) {e e' : AgentId × Agent} (h : Apart e e') (now : Instant) :
    Alike hidden own ((s.evicted e.1 e.2 now).evicted e'.1 e'.2 now)
      ((s.evicted e'.1 e'.2 now).evicted e.1 e.2 now) where
  settings := rfl
  estimator := rfl
  watch := by
    have herase : (s.watch.sightings.erase e'.1).erase e.1 =
        (s.watch.sightings.erase e.1).erase e'.1 := Table.ext_get? fun k => by
      rw [Table.get?_erase, Table.get?_erase, Table.get?_erase, Table.get?_erase]
      split <;> split <;> rfl
    exact congrArg (Watch.mk s.watch.onlineTimeout) herase
  epoch := rfl
  agents := rfl
  pending id _ := by
    show ((dissolved e.2).1.foldl _ ((dissolved e'.2).1.foldl _ s.pending)).get? id =
      ((dissolved e'.2).1.foldl _ ((dissolved e.2).1.foldl _ s.pending)).get? id
    rw [← List.foldl_append, ← List.foldl_append, foldl_erase_perm List.perm_append_comm]
  log agent _ := by
    rw [log_evicted, log_evicted, log_evicted, log_evicted, List.append_assoc, List.append_assoc,
      List.filter_append, List.filter_append s.log]
    refine congrArg _ (filter_append_comm ?_)
    by_cases ha : e.1 = agent
    · exact .inl (unreached_parting s.id h.right fun he => h.ne (ha.trans he.symm))
    · exact .inr (unreached_parting s.id h.left ha)
  left := ⟨hs.throttle, hs.link⟩
  right := ⟨hs.throttle, hs.link⟩

/-- Agents can be let go of in any order. -/
theorem interchange_evict (hidden : AgentId) (own : List RequestId) (now : Instant) :
    Act.Interchange (fun e => (Station.evict e.1 e.2 now : Act τ Unit)) Apart Free
      (Alike hidden own) where
  symm h := ⟨h.ne.symm, h.right, h.left⟩
  refl := .refl
  trans := .trans
  fit hs he := by
    obtain ⟨-, rfl⟩ := evict_eq_ok.1 he
    exact ⟨hs.throttle, hs.link⟩
  same h he := by
    obtain ⟨hn, rfl⟩ := evict_eq_ok.1 he
    exact ⟨_, evict_eq_ok.2 ⟨h.settings ▸ hn, rfl⟩, h.evicted rfl now⟩
  swap ha hs he he' := by
    obtain ⟨hn, rfl⟩ := evict_eq_ok.1 he
    obtain ⟨hn', rfl⟩ := evict_eq_ok.1 he'
    exact ⟨_, _, evict_eq_ok.2 ⟨hn', rfl⟩, evict_eq_ok.2 ⟨hn, rfl⟩, alike_evicted hs ha now⟩

omit [Carrier τ] in
theorem pairwise_apart [Walk] (hs : s.Sound) :
    (Walk.entries s.agents).Pairwise Apart := by
  have hplaced : ∀ e ∈ Walk.entries s.agents, ∀ f ∈ (dissolved e.2).1, f.agent = e.1 := by
    intro e he f hf
    exact hs.placed e.1 f.ident (mem_idents_of_dissolved (Walk.mem_entries_iff.1 he) hf)
  refine (List.pairwise_map.1 (Walk.nodup_entries s.agents)).imp_of_mem ?_
  exact fun he he' hne => ⟨hne, hplaced _ he, hplaced _ he'⟩

/-- Both let go of all agents, whichever way each of them walks its table. -/
theorem Alike.shutdown (h : Alike hidden own s t) (hs : Owns hidden own s) (ht : Lacks hidden t)
    (walk walk' : Walk) (hd : @Station.shutdown τ walk now s = .ok () s') :
    ∃ t', @Station.shutdown τ walk' now t = .ok () t' ∧ Alike hidden own s' t' := by
  obtain ⟨s₁, hf, rfl⟩ := (@shutdown_eq_ok τ walk s s' now).1 hd
  have hempty : Alike hidden own ({ s with agents := ∅ } : Station τ)
      ({ t with agents := ∅ } : Station τ) := h.replace_agents rfl
  -- first the same station on the other walk, then the other station
  obtain ⟨s₂, hf₂, h₂⟩ := (interchange_evict hidden own now).forM_perm
    ((@Walk.entries_perm _ walk s.agents).trans (@Walk.entries_perm _ walk' s.agents).symm)
    (@pairwise_apart τ s walk hs.sound) hempty.left (.refl hempty.left) hf
  have hentries := congrArg (@Walk.entries _ walk') h.agents
  rw [@entries_masked τ walk' t, @entries_masked τ walk' s] at hentries
  obtain ⟨t₁, hf', h₁⟩ := hempty.forM_evict hentries
    (fun e he hag => by
      have hx : s.agents.get? e.1 = some e.2 := (@Walk.mem_entries_iff _ walk' _ _ _).1 he
      rw [hag] at hx
      exact hs.of_dissolved hx)
    (fun e he hag => by
      have hx : t.agents.get? e.1 = some e.2 := (@Walk.mem_entries_iff _ walk' _ _ _).1 he
      rw [hag] at hx
      exact ht.of_dissolved hx)
    hf₂
  exact ⟨_, (@shutdown_eq_ok τ walk' t _ now).2 ⟨t₁, hf', rfl⟩,
    (h₂.trans h₁).emit (fun _ => rfl) fun _ => rfl⟩

theorem Alike.adoptEpoch (h : Alike hidden own s t) (epoch : Nat) :
    Alike hidden own (s.adoptEpoch epoch) (t.adoptEpoch epoch) :=
  ⟨h.settings, h.estimator, h.watch, congrArg (max · epoch) h.epoch, h.agents, h.pending, h.log,
    ⟨h.left.throttle, h.left.link⟩, ⟨h.right.throttle, h.right.link⟩⟩

end Station

end GroundControl
