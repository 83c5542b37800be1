import GroundControl.Proofs.Station.Course

/-!
# The epochs of frames

Every frame carries the epoch the station is at, also a frame that was handed to the link in an
operation that meets a fault later on; and only the order to adopt an epoch changes it.

* `Pass.Stamps`, what a pump makes of its frames; `Pass.stamps_run`;
* `Station.Stamps`, a change after which every new frame carries the epoch, which stays as it is;
* `Station.Leaves`, what holds of the station an act leaves, fault or not; `Station.Stamped`, an act
  that stamps its frames, with `stamped_bind`, `stamped_forM` and one lemma for each act, up to
  `stamped_perform`.
-/

namespace GroundControl

variable {τ : Type}

namespace Pass

/-- The new frames of a pass carry the epoch of its context. -/
def Stamps (ctx : PassContext) (p q : Pass τ) : Prop :=
  ∃ new, q.frames = p.frames ++ new ∧ ∀ f ∈ new, f.1.epoch = ctx.epoch

theorem Stamps.of_frames {ctx : PassContext} {p q : Pass τ} (h : q.frames = p.frames) :
    Stamps ctx p q :=
  ⟨[], by rw [h, List.append_nil], List.forall_mem_nil _⟩

theorem Stamps.trans {ctx : PassContext} {p q r : Pass τ} (h : Stamps ctx p q)
    (h' : Stamps ctx q r) : Stamps ctx p r := by
  obtain ⟨l, hl, he⟩ := h
  obtain ⟨m, hm, he'⟩ := h'
  exact ⟨l ++ m, by rw [hm, hl, List.append_assoc], List.forall_mem_append.2 ⟨he, he'⟩⟩

/-- The pass a round leaves. -/
def Round.pass : Round τ → Pass τ
  | .next p | .stop p | .fault _ p => p

section Rounds

variable [Carrier τ] (ctx : PassContext)

theorem stamps_transmit (p : Pass τ) (launch : Launch) :
    Stamps ctx p (Round.pass (transmit ctx p launch)) := by
  unfold transmit
  split
  · exact .of_frames rfl
  · -- the frame is handed over first, and whatever follows leaves the frames as they are
    have hsent : ∀ answer : Except LinkError Unit,
        ∃ new, p.frames ++ [(frameOf ctx launch, answer)] = p.frames ++ new ∧
          ∀ f ∈ new, f.1.epoch = ctx.epoch :=
      fun answer => ⟨_, rfl, List.forall_mem_singleton.2 rfl⟩
    dsimp only
    split
    · split
      · exact hsent _
      · split <;> exact hsent _
    · exact hsent _

theorem stamps_round (p : Pass τ) : Stamps ctx p (Round.pass (round ctx p)) := by
  unfold round
  cases p.backlog.nextClass with
  | none => exact .of_frames rfl
  | some c =>
    obtain ⟨paid, throttle, hp⟩ := p.pay_eq c ctx.now
    dsimp only
    rw [hp]
    cases paid with
    | false => exact .of_frames rfl
    | true =>
      dsimp only
      cases p.backlog.launch with
      | none => exact .of_frames rfl
      | some x => exact (Stamps.of_frames rfl).trans (stamps_transmit ctx _ x.1)

theorem stamps_rounds (n : Nat) (p : Pass τ) : Stamps ctx p (rounds ctx n p).2 := by
  induction n generalizing p with
  | zero => exact .of_frames rfl
  | succ n ih =>
    have hr := stamps_round ctx p
    unfold rounds
    cases hc : round ctx p with
    | next q =>
      rw [hc] at hr
      exact hr.trans (ih q)
    | stop q | fault f q =>
      rw [hc] at hr
      exact hr

theorem stamps_run (p : Pass τ) : Stamps ctx p (run ctx p).2 := stamps_rounds ctx _ p

end Rounds

end Pass

namespace Station

/-- Every new frame carries the epoch, which stays as it is. -/
structure Stamps (s s' : Station τ) : Prop where
  settings : s'.settings = s.settings
  epoch : s'.epoch = s.epoch
  frames : ∃ new, sendings s'.log = sendings s.log ++ new ∧ ∀ f ∈ new, f.1.epoch = s.epoch

theorem Stamps.trans {s t u : Station τ} (h : Stamps s t) (h' : Stamps t u) : Stamps s u where
  settings := h'.settings.trans h.settings
  epoch := h'.epoch.trans h.epoch
  frames := by
    obtain ⟨l, hl, he⟩ := h.frames
    obtain ⟨m, hm, he'⟩ := h'.frames
    rw [h.epoch] at he'
    exact ⟨l ++ m, by rw [hm, hl, List.append_assoc], List.forall_mem_append.2 ⟨he, he'⟩⟩

/-- What hands nothing to the link stamps its frames. -/
theorem Stamps.of_wire {s s' : Station τ} (hs : s'.settings = s.settings)
    (he : s'.epoch = s.epoch) (hw : s'.wire = s.wire) : Stamps s s' :=
  ⟨hs, he, [], by rw [List.append_nil]; exact congrArg Wire.frames hw, List.forall_mem_nil _⟩

theorem Stamps.of_log {s s' : Station τ} (hs : s'.settings = s.settings)
    (he : s'.epoch = s.epoch) {l : List Effect} (hl : s'.log = s.log ++ l)
    (hf : ∀ f ∈ sendings l, f.1.epoch = s.epoch) : Stamps s s' :=
  ⟨hs, he, sendings l, by rw [hl, sendings_append], hf⟩

theorem Stamps.refl (s : Station τ) : Stamps s s := .of_wire rfl rfl rfl

theorem stamps_emit (s : Station τ) {e : Effect} (h : e.sending? = none) : Stamps s (s.emit e) :=
  .of_wire rfl rfl (wire_emit s h)

theorem stamps_heard (s : Station τ) (m : Message) (now : Instant) : Stamps s (s.heard m now) :=
  .of_wire (settings_heard s m now) (by rw [heard_eq]) (still_heard s m now).wire

theorem stamps_swept [Walk] (s : Station τ) (now : Instant) : Stamps s (s.swept now) :=
  .of_wire (by rw [swept_eq]) (by rw [swept_eq]) (still_swept s now).wire

theorem stamps_deliver (s : Station τ) (l : List Finished) : Stamps s (s.deliver l) :=
  .of_wire rfl rfl (wire_deliver s l)

theorem stamps_transmitAll [Carrier τ] (s : Station τ) (bulletin : Bulletin) :
    Stamps s (transmitAll bulletin s).2 := by
  have hframe : ∀ answer : Except LinkError Unit,
      ∀ f ∈ [((⟨s.id, .everyone, bulletin.body, none, s.epoch⟩ : Frame), answer)],
        f.1.epoch = s.epoch :=
    fun answer => List.forall_mem_singleton.2 rfl
  unfold transmitAll
  dsimp only
  cases (Carrier.send s.carrier ⟨s.id, .everyone, bulletin.body, none, s.epoch⟩).1 with
  | error e => exact .of_log rfl rfl rfl (hframe (.error e))
  | ok _ =>
    exact .of_log rfl rfl (l := [.sent _ (.ok ()), .measured _ _])
      (List.append_assoc _ _ _) (hframe (.ok ()))

theorem stamps_rateLimited (s : Station τ) : Stamps s (rateLimited s).2 :=
  .of_log rfl rfl (List.append_nil _).symm (List.forall_mem_nil _)

theorem stamps_book {s : Station τ} {agent : AgentId} {p : Pass τ}
    (h : ∀ f ∈ p.frames, f.1.epoch = s.epoch) : Stamps s (s.book agent p) := by
  unfold book
  refine Stamps.trans ?_ (stamps_deliver _ p.finished)
  refine .of_log rfl rfl rfl ?_
  rw [sendings_sent]
  exact h

/-! ### Acts -/

/-- What holds of the station an act leaves, whether or not it meets a fault. -/
def Leaves {α : Type} (P : Station τ → Prop) : EStateM.Result Fault (Station τ) α → Prop
  | .ok _ s | .error _ s => P s

/-- However an act ends, it has stamped its frames. -/
def Stamped {α : Type} (x : Act τ α) : Prop := ∀ s, Leaves (Stamps s) (x s)

section Acts

variable {α β : Type}

theorem Stamps.leaves {s t : Station τ} (h : Stamps s t) {r : EStateM.Result Fault (Station τ) α}
    (hr : Leaves (Stamps t) r) : Leaves (Stamps s) r := by
  cases r with
  | ok a s' => exact h.trans hr
  | error fault s' => exact h.trans hr

theorem leaves_bind {P : Station τ → Prop} {x : Act τ α} {f : α → Act τ β} {s : Station τ}
    (hx : Leaves P (x s)) (hf : ∀ a s', P s' → Leaves P (f a s')) : Leaves P ((x >>= f) s) := by
  show Leaves P (EStateM.bind x f s)
  unfold EStateM.bind
  cases hr : x s with
  | ok a s' =>
    rw [hr] at hx
    exact hf a s' hx
  | error fault s' =>
    rw [hr] at hx
    exact hx

theorem stamped_bind {x : Act τ α} {f : α → Act τ β} (hx : Stamped x)
    (hf : ∀ a, Stamped (f a)) : Stamped (x >>= f) :=
  fun s => leaves_bind (hx s) fun a s' hs => hs.leaves (hf a s')

theorem stamped_pure (a : α) : Stamped (pure a : Act τ α) := Stamps.refl

theorem stamped_map {x : Act τ α} (hx : Stamped x) (f : α → β) :
    Stamped (x >>= fun a => pure (f a)) :=
  stamped_bind hx fun a => stamped_pure (f a)

theorem stamped_modify {f : Station τ → Station τ} (h : ∀ s, Stamps s (f s)) :
    Stamped (modify f : Act τ PUnit) := h

theorem stamped_modifyGet {f : Station τ → α × Station τ} (h : ∀ s, Stamps s (f s).2) :
    Stamped (modifyGet f : Act τ α) := h

theorem stamped_forM {f : α → Act τ Unit} (hf : ∀ a, Stamped (f a)) (l : List α) :
    Stamped (l.forM f) := by
  induction l with
  | nil => exact stamped_pure ()
  | cons a rest ih => exact stamped_bind (hf a) fun _ => ih

/-! ### Bookings and replies -/

theorem stamped_conclude (f : Finished) (now : Instant) :
    Stamped (conclude f now : Act τ Unit) := by
  intro s
  unfold conclude
  dsimp only
  split
  · exact .of_log rfl rfl rfl (List.forall_mem_nil _)
  · exact .of_log rfl rfl (List.append_assoc _ _ _) (List.forall_mem_nil _)

theorem stamped_concludeAll (finished : List Finished) (now : Instant) :
    Stamped (concludeAll finished now : Act τ Unit) :=
  stamped_forM (fun f => stamped_conclude f now) finished

theorem stamped_sample (c : TrafficClass) (measured : Span) :
    Stamped (sample c measured : Act τ Unit) := by
  intro s
  dsimp only [sample]
  split
  · exact .refl s
  · exact .of_log rfl rfl rfl (List.forall_mem_nil _)

theorem stamped_settle (found : Match) (now : Instant) :
    Stamped (settle found now : Act τ Bool) := by
  have hc : Stamped (conclude found.finished now >>= fun _ => pure true : Act τ Bool) :=
    stamped_map (stamped_conclude found.finished now) _
  unfold settle
  cases found.sample with
  | none => exact hc
  | some x => exact stamped_bind (stamped_sample x.1 x.2) fun _ => hc

theorem stamped_matchReply (agent : AgentId) (reply : Reply) (now : Instant) :
    Stamped (matchReply agent reply now : Act τ Bool) := by
  intro s
  cases hw : s.awaits agent reply.key with
  | false =>
    rw [matchReply_of_awaits_eq_false hw]
    exact .of_wire rfl rfl rfl
  | true =>
    obtain ⟨b, r, hb, hr, ha⟩ := awaits_eq_true_iff.1 hw
    obtain ⟨found, b', hans⟩ := exists_answer reply.verdict now hr ha
    rw [matchReply_of_answer hb hans]
    have hset : Stamps s (s.setBacklog agent b') := .of_wire rfl rfl rfl
    exact (hset.trans (stamps_deliver _ _)).leaves (stamped_settle found now _)

theorem stamped_route (m : Message) (now : Instant) :
    Stamped (route m now : Act τ (Option AgentId)) := by
  intro s
  by_cases hn : m.network = s.id
  · cases ha : s.admits m.agent with
    | false =>
      rw [route_of_capped hn ha]
      exact .of_log rfl rfl rfl (List.forall_mem_nil _)
    | true =>
      rw [route_of_admits hn ha]
      refine (stamps_heard s m now).leaves ?_
      cases m.reply with
      | none => exact stamped_pure none _
      | some reply => exact stamped_map (stamped_matchReply m.agent reply now) _ _
  · rw [route_of_foreign hn]
    exact stamps_emit s rfl

/-! ### Removals -/

theorem stamped_evict (agent : AgentId) (a : Agent) (now : Instant) :
    Stamped (evict agent a now : Act τ Unit) := by
  have hforget : Stamped (modify (forgotten · agent) : Act τ PUnit) :=
    stamped_modify fun s => .of_log rfl rfl rfl (List.forall_mem_nil _)
  unfold evict
  cases a.backlog with
  | none => exact hforget
  | some b =>
    refine stamped_bind (stamped_modify fun s => .of_log rfl rfl rfl ?_) fun _ =>
      stamped_bind (stamped_concludeAll b.dissolve.1 now) fun _ => hforget
    rw [sendings_delivered]
    exact List.forall_mem_nil _

theorem stamped_deregister (agent : AgentId) (now : Instant) :
    Stamped (deregister agent now : Act τ (Except DispatchError Unit)) := by
  intro s
  unfold deregister
  rw [Act.get_bind]
  cases s.agents.get? agent with
  | none => exact .refl s
  | some a =>
    have hs : Stamps s { s with agents := s.agents.erase agent } := .of_wire rfl rfl rfl
    exact hs.leaves (stamped_map (stamped_evict agent a now) _ _)

theorem stamped_shutdown [Walk] (now : Instant) : Stamped (shutdown now : Act τ Unit) := by
  intro s
  have hs : Stamps s { s with agents := ∅ } := .of_wire rfl rfl rfl
  have hlevel : Stamped (modify fun s : Station τ => s.level (.queueDepth s.id) 0 : Act τ PUnit) :=
    stamped_modify fun s => stamps_emit s rfl
  exact hs.leaves (stamped_bind
    (stamped_forM (fun e : AgentId × Agent => stamped_evict e.1 e.2 now) (Walk.entries s.agents))
    (fun _ => hlevel) _)

theorem stamps_cancel (s : Station τ) (request : RequestId) : Stamps s (cancel request s).2 := by
  unfold cancel
  split
  · exact .refl s
  · split
    · exact .refl s
    · exact .of_wire rfl rfl rfl

/-! ### Pumps and submissions -/

theorem stamps_enqueue (s : Station τ) (request : RequestId) (agent : AgentId)
    (payload : Payload) (urgency : Urgency) (maxAttempts : Nat) :
    Stamps s (enqueue request agent payload urgency maxAttempts s).2 := by
  unfold enqueue
  split
  · exact .refl s
  · dsimp only
    split <;> exact .of_wire rfl rfl rfl

variable [Carrier τ]

theorem stamped_pump (agent : AgentId) (now : Instant) : Stamped (pump agent now : Act τ Unit) := by
  intro s
  cases hb : s.backlogOf agent with
  | none =>
    rw [pump_of_backlogOf_eq_none hb]
    exact .refl s
  | some b =>
    cases hp : Pass.run (s.passContext agent now) (s.firstPass b now) with
    | mk fault p =>
      obtain ⟨new, hf, he⟩ := Pass.stamps_run (s.passContext agent now) (s.firstPass b now)
      rw [hp] at hf
      -- the first pass of a pump has no frames
      have hbook : Stamps s (s.book agent p) := stamps_book (hf ▸ he)
      rw [pump_of_backlogOf_eq_some hb hp]
      cases fault with
      | some fault => exact hbook
      | none =>
        have hretried : Stamps s ((s.book agent p).retried p.retries) := by
          refine hbook.trans (.of_log rfl rfl rfl ?_)
          rw [sendings_eq_nil fun e h => by rw [List.eq_of_mem_replicate h]; rfl]
          exact List.forall_mem_nil _
        exact hretried.leaves (stamped_concludeAll p.finished now _)

theorem stamped_pumpAll [Walk] (now : Instant) : Stamped (pumpAll now : Act τ Unit) := by
  intro s
  have hpumps : Stamped (s.busyAgents.forM (pump · now) : Act τ Unit) :=
    stamped_forM (fun agent => stamped_pump agent now) _
  have hexpire : Stamped (modify (·.expireResults now) : Act τ PUnit) :=
    stamped_modify fun s => .of_wire rfl rfl rfl
  have hlevel : Stamped
      (modify fun s : Station τ => s.level (.queueDepth s.id) s.queueDepth : Act τ PUnit) :=
    stamped_modify fun s => stamps_emit s rfl
  exact stamped_bind hpumps (fun _ => stamped_bind hexpire fun _ => hlevel) s

theorem stamped_deliverInbound (m : Message) (now : Instant) :
    Stamped (deliverInbound m now : Act τ Unit) := by
  refine stamped_bind (stamped_route m now) fun found => ?_
  cases found with
  | none => exact stamped_pure ()
  | some agent => exact stamped_pump agent now

theorem stamped_submit (request : RequestId) (agent : AgentId) (payload : Payload)
    (urgency : Urgency) (maxAttempts : Nat) (now : Instant) :
    Stamped (submit request agent payload urgency maxAttempts now :
      Act τ (Except DispatchError Handle)) := by
  have he := stamped_modifyGet fun s : Station τ =>
    stamps_enqueue s request agent payload urgency maxAttempts
  refine stamped_bind he fun result => ?_
  cases result with
  | error e => exact stamped_pure _
  | ok handle => exact stamped_map (stamped_pump agent now) _

theorem stamped_tick [Walk] (now : Instant) : Stamped (tick now : Act τ Unit) := by
  intro s
  rw [tick_eq]
  exact (stamps_swept s now).leaves (stamped_pumpAll now _)

/-! ### Broadcasts -/

theorem stamped_tryBroadcast (bulletin : Bulletin) (deadline now : Instant) :
    Stamped (tryBroadcast bulletin deadline now : Act τ (Attempt Unit)) := by
  have htransmit : Stamped (modifyGet (transmitAll bulletin) >>=
      fun a => pure (.done a) : Act τ (Attempt Unit)) :=
    stamped_map (stamped_modifyGet fun s => stamps_transmitAll s bulletin) _
  intro s
  unfold tryBroadcast
  rw [Act.get_bind]
  cases s.throttle with
  | none => exact htransmit s
  | some bucket =>
    have hs : Stamps s { s with throttle := some (bucket.claim 1 deadline now).2 } :=
      .of_log rfl rfl (List.append_nil _).symm (List.forall_mem_nil _)
    refine hs.leaves ?_
    dsimp only
    cases (bucket.claim 1 deadline now).1 with
    | error fault => exact .refl _
    | ok claim =>
      cases claim with
      | granted => exact htransmit _
      | denied => exact stamped_map (stamped_modifyGet stamps_rateLimited) _ _
      | wait ready => exact .refl _

theorem stamped_broadcastRounds (wake : Instant → Instant) (bulletin : Bulletin)
    (deadline now : Instant) (n : Nat) :
    Stamped (broadcastRounds wake bulletin deadline n now :
      Act τ (Except DispatchError Unit × Instant)) := by
  induction n generalizing now with
  | zero => exact stamped_map (stamped_modifyGet stamps_rateLimited) _
  | succ n ih =>
    unfold broadcastRounds
    refine stamped_bind (stamped_tryBroadcast bulletin deadline now) fun attempt => ?_
    cases attempt with
    | done answer => exact stamped_pure _
    | wait ready => exact ih (wake ready)

theorem stamped_correction (wake : Instant → Instant) (bulletin : Bulletin) (skipIfIdle : Bool)
    (deadline now : Instant) :
    Stamped (correction wake bulletin skipIfIdle deadline now :
      Act τ (Except DispatchError Bool × Instant)) := by
  intro s
  unfold correction
  rw [Act.get_bind]
  split
  · exact stamped_map (stamped_broadcastRounds wake bulletin deadline now _) _ s
  · exact .refl s

/-- However an operation ends, its frames carry the epoch of the station, and only the order to
adopt one changes that. -/
theorem stamped_perform {operation : Operation} (h : ∀ epoch, operation ≠ .adoptEpoch epoch) :
    Stamped (perform operation : Act τ Result) := by
  cases operation with
  | deliver m now => exact stamped_map (stamped_deliverInbound m now) _
  | route m now => exact stamped_map (stamped_route m now) _
  | submit request agent payload urgency maxAttempts now =>
    exact stamped_map (stamped_submit request agent payload urgency maxAttempts now) _
  | enqueue request agent payload urgency maxAttempts =>
    exact stamped_map (stamped_modifyGet fun s =>
      stamps_enqueue s request agent payload urgency maxAttempts) _
  | pump agent now => exact stamped_map (stamped_pump agent now) _
  | pumpAll walk now => exact stamped_map (stamped_pumpAll now) _
  | sweep walk now => exact stamped_map (stamped_modifyGet fun s => stamps_swept s now) _
  | tick walk now => exact stamped_map (stamped_tick now) _
  | broadcast wake bulletin deadline now =>
    exact stamped_map (stamped_broadcastRounds wake bulletin deadline now _) _
  | correction wake bulletin skipIfIdle deadline now =>
    exact stamped_map (stamped_correction wake bulletin skipIfIdle deadline now) _
  | cancel request => exact stamped_map (stamped_modifyGet fun s => stamps_cancel s request) _
  | deregister agent now => exact stamped_map (stamped_deregister agent now) _
  | shutdown walk now => exact stamped_map (stamped_shutdown now) _
  | adoptEpoch epoch => exact absurd rfl (h epoch)

end Acts

end Station

end GroundControl
