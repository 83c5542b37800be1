import GroundControl.Proofs.Station.Transfer

/-!
# The books of a station

Besides the backlogs a station keeps three books about requests: which agent has a pending one, how
the finished ones ended, and when those are forgotten.  An operation may enter one request; it files
the requests it tells the ends of, all of them at one instant; and the regular pass over all agents
forgets what has been kept long enough.

* `Station.finishes`, the ends of requests that effects tell of;
* `Books`, with `Books.enter`, `Books.file`, `Books.forget`;
* `Files`, a change in which the requests that end are filed and nothing else is done to the books;
* `Kept` and `perform_kept`: all that an operation does to the books.
-/

namespace GroundControl

/-- The request whose end an event tells of, and its last phase. -/
def Event.finish? : Event → Option (RequestId × Phase)
  | .finished _ _ request phase _ => some (request, phase)
  | _ => none

/-- A finished request and its last phase. -/
def Finished.entry (f : Finished) : RequestId × Phase := (f.request, f.phase)

/-- The instant for which an operation looks for results to forget, if it does. -/
def Operation.forgets? : Operation → Option Instant
  | .pumpAll _ now | .tick _ now => some now
  | _ => none

/-- What a station keeps about requests besides the backlogs. -/
structure Books where
  /-- the agents with the pending requests -/
  pending : Table RequestId AgentId
  /-- the last phases of the finished requests -/
  results : Table RequestId Phase
  /-- when the finished requests are forgotten -/
  expiry : List (RequestId × Instant)

namespace Books

/-- The books after a request is taken in, if one is. -/
def enter (b : Books) : Option Handle → Books
  | none => b
  | some x => { b with pending := b.pending.insert x.request x.agent }

/-- The books after requests have ended whose results are kept until `expires`. -/
def file (b : Books) (expires : Instant) (l : List (RequestId × Phase)) : Books where
  pending := l.foldl (fun t e => t.erase e.1) b.pending
  results := l.foldl (fun t e => t.insert e.1 e.2) b.results
  expiry := b.expiry ++ l.map fun e => (e.1, expires)

/-- The books after results are forgotten that were to be kept until `now` at most. -/
def forget (b : Books) : Option Instant → Books
  | none => b
  | some now =>
      { b with
        results := (b.expiry.takeWhile fun e => e.2 ≤ now).foldl (fun t e => t.erase e.1) b.results
        expiry := b.expiry.dropWhile fun e => e.2 ≤ now }

@[simp] theorem file_nil (b : Books) (expires : Instant) : b.file expires [] = b := by
  unfold file
  simp only [List.foldl_nil, List.map_nil, List.append_nil]

theorem file_append (b : Books) (expires : Instant) (l m : List (RequestId × Phase)) :
    b.file expires (l ++ m) = (b.file expires l).file expires m := by
  unfold file
  simp only [List.foldl_append, List.map_append, List.append_assoc]

end Books

namespace Station

variable {τ : Type} {s s' : Station τ} {now : Instant}

/-- The books of a station. -/
def books (s : Station τ) : Books := ⟨s.pending, s.results, s.expiry⟩

/-- The requests whose ends effects tell of, with their last phases. -/
def finishes (effects : List Effect) : List (RequestId × Phase) :=
  (ends effects).filterMap Event.finish?

theorem finishes_append (l m : List Effect) : finishes (l ++ m) = finishes l ++ finishes m := by
  unfold finishes
  rw [ends_append, List.filterMap_append]

theorem finishes_flatMap {α : Type} (l : List α) (f : α → List Effect) :
    finishes (l.flatMap f) = l.flatMap fun a => finishes (f a) := by
  unfold finishes ends
  rw [List.filterMap_flatMap, List.filterMap_flatMap]

theorem finishes_of_ends {effects : List Effect} {network : NetworkId} {ended : List Finished}
    (h : ends effects = ended.map fun f => f.event network) :
    finishes effects = ended.map Finished.entry := by
  unfold finishes
  rw [h, List.filterMap_map]
  exact congrFun List.filterMap_eq_map ended

theorem finishes_of_idle {effects : List Effect} (h : ∀ e ∈ effects, e.Idle) :
    finishes effects = [] := by
  unfold finishes
  rw [ends_of_idle h]
  rfl

theorem finishes_delivered (l : List Finished) :
    finishes (l.map fun f => .delivered f.ticket f.outcome) = [] := by
  unfold finishes
  rw [ends_delivered]
  rfl

/-! ### Filing the requests that end -/

/-- A change in which the requests that end are filed, and nothing else is done to the books. -/
structure Files (now : Instant) (s s' : Station τ) : Prop where
  settings : s'.settings = s.settings
  booked : ∃ effects, s'.log = s.log ++ effects ∧
    s'.books = s.books.file (now + s.settings.resultGrace) (finishes effects)

theorem Files.of_log {effects : List Effect} (hs : s'.settings = s.settings)
    (hb : s'.books = s.books) (hl : s'.log = s.log ++ effects) (he : finishes effects = []) :
    Files now s s' where
  settings := hs
  booked := ⟨effects, hl, by rw [he, Books.file_nil, hb]⟩

theorem Files.of_quiet (h : Quiet s s') (hb : s'.books = s.books) : Files now s s' := by
  obtain ⟨effects, hl, hi⟩ := h.log
  exact .of_log h.settings hb hl (finishes_of_idle hi)

theorem Files.refl (now : Instant) (s : Station τ) : Files now s s := .of_quiet (.refl s) rfl

theorem Files.trans {t u : Station τ} (h : Files now s t) (h' : Files now t u) :
    Files now s u where
  settings := h'.settings.trans h.settings
  booked := by
    obtain ⟨l, hl, hb⟩ := h.booked
    obtain ⟨m, hm, hc⟩ := h'.booked
    refine ⟨l ++ m, ?_, ?_⟩
    · rw [hm, hl, List.append_assoc]
    · rw [hc, hb, h.settings, finishes_append, Books.file_append]

theorem files_concluded (s : Station τ) (l : List Finished) (now : Instant) :
    Files now s (s.concluded l now) where
  settings := rfl
  booked := by
    refine ⟨l.flatMap (notices s.id), rfl, ?_⟩
    rw [finishes_of_ends (ends_notices s.id l)]
    unfold Books.file books concluded
    simp only [List.foldl_map, List.map_map]
    rfl

theorem files_deliver (s : Station τ) (l : List Finished) (now : Instant) :
    Files now s (s.deliver l) :=
  .of_log rfl rfl rfl (finishes_delivered l)

theorem files_answered (s : Station τ) (agent : AgentId) (b : Backlog) (found : Match)
    (estimator : Estimator TrafficClass) (now : Instant) :
    Files now s (s.answered agent b found estimator now) := by
  have hset : Files now s (s.setBacklog agent b) :=
    .of_log rfl rfl (List.append_nil _).symm rfl
  have hsample : Files now ((s.setBacklog agent b).deliver [found.finished])
      (((s.setBacklog agent b).deliver [found.finished]).sampled found.sample estimator) := by
    refine .of_log rfl rfl rfl (finishes_of_idle fun e he => ?_)
    obtain ⟨x, -, rfl⟩ := List.mem_map.1 he
    trivial
  exact ((hset.trans (files_deliver _ _ now)).trans hsample).trans (files_concluded _ _ now)

theorem files_pumped (s : Station τ) (agent : AgentId) (p : Pass τ) (now : Instant) :
    Files now s (s.pumped agent p now) := by
  have hbook : Files now s (s.book agent p) := by
    refine .of_log rfl rfl (List.append_assoc _ _ _) ?_
    rw [finishes_append, finishes_delivered, List.append_nil]
    refine finishes_of_idle fun e he => ?_
    obtain ⟨x, -, rfl⟩ := List.mem_map.1 he
    trivial
  have hretried : Files now (s.book agent p) ((s.book agent p).retried p.retries) := by
    refine .of_log rfl rfl rfl (finishes_of_idle fun e he => ?_)
    rw [List.eq_of_mem_replicate he]
    trivial
  exact (hbook.trans hretried).trans (files_concluded _ _ now)

theorem files_evicted (s : Station τ) (agent : AgentId) (a : Agent) (now : Instant) :
    Files now s (s.evicted agent a now) := by
  have hgone : Files now s { s with refusals := s.refusals ++ (dissolved a).2 } :=
    .of_log rfl rfl (List.append_nil _).symm rfl
  have hforgotten (t : Station τ) : Files now t (t.forgotten agent) :=
    .of_log rfl rfl rfl rfl
  exact ((hgone.trans (files_deliver _ _ now)).trans (files_concluded _ _ now)).trans
    (hforgotten _)

/-! ### Changes that leave the books alone -/

theorem books_heard (s : Station τ) (m : Message) (now : Instant) :
    (s.heard m now).books = s.books := by
  rw [heard_eq]
  rfl

theorem books_unanswered (s : Station τ) (m : Message) (now : Instant) :
    (s.unanswered m now).books = s.books := by
  unfold unanswered
  split
  · rfl
  · split
    · rfl
    · split
      · exact books_heard s m now
      · exact books_heard s m now

theorem books_swept [Walk] (s : Station τ) (now : Instant) : (s.swept now).books = s.books := by
  rw [swept_eq]
  rfl

section Broadcasts

variable [Carrier τ]

theorem books_transmitAll (s : Station τ) (bulletin : Bulletin) :
    (transmitAll bulletin s).2.books = s.books := by
  unfold transmitAll
  dsimp only
  split <;> rfl

theorem books_tryBroadcast {bulletin : Bulletin} {deadline : Instant} {attempt : Attempt Unit}
    (h : tryBroadcast bulletin deadline now s = .ok attempt s') : s'.books = s.books := by
  obtain ⟨throttle, -, rfl | rfl | rfl⟩ := tryBroadcast_cases h
  · exact books_transmitAll _ bulletin
  · rfl
  · rfl

theorem books_broadcastRounds {wake : Instant → Instant} {bulletin : Bulletin}
    {deadline : Instant} {n : Nat} {answer : Except DispatchError Unit × Instant}
    (h : broadcastRounds wake bulletin deadline n now s = .ok answer s') : s'.books = s.books := by
  induction n generalizing s now with
  | zero =>
    cases h
    rfl
  | succ n ih =>
    unfold broadcastRounds at h
    obtain ⟨attempt, s₁, ht, h⟩ := Act.bind_eq_ok.1 h
    have hb := books_tryBroadcast ht
    cases attempt with
    | done answer =>
      cases h
      exact hb
    | wait ready => exact (ih h).trans hb

theorem books_correction {wake : Instant → Instant} {bulletin : Bulletin} {skipIfIdle : Bool}
    {deadline : Instant} {answer : Except DispatchError Bool × Instant}
    (h : correction wake bulletin skipIfIdle deadline now s = .ok answer s') :
    s'.books = s.books := by
  unfold correction at h
  rw [Act.get_bind] at h
  split at h
  · obtain ⟨answer, s₂, hb, h⟩ := Act.bind_eq_ok.1 h
    cases h
    exact books_broadcastRounds hb
  · cases h
    rfl

end Broadcasts

/-! ### Acts that file requests -/

theorem files_forM {α : Type} {f : α → Act τ Unit}
    (hf : ∀ a {t t' : Station τ}, f a t = .ok () t' → Files now t t') {l : List α}
    (h : l.forM f s = .ok () s') : Files now s s' := by
  induction l generalizing s with
  | nil =>
    obtain rfl := Act.forM_nil_eq_ok.1 h
    exact .refl now s
  | cons a rest ih =>
    obtain ⟨s₁, ha, hr⟩ := Act.forM_cons_eq_ok.1 h
    exact (hf a ha).trans (ih hr)

theorem files_route {m : Message} {found : Option AgentId} (h : route m now s = .ok found s') :
    Files now s s' := by
  cases ha : s.answers m with
  | false =>
    rw [route_of_answers_eq_false ha, EStateM.Result.ok.injEq] at h
    obtain ⟨-, rfl⟩ := h
    exact .of_quiet (quiet_unanswered s m now) (books_unanswered s m now)
  | true =>
    obtain ⟨-, -, -, found', b', -, -, -, -, -, -, hr⟩ := route_of_answers ha now
    obtain ⟨-, estimator, -, -, rfl⟩ := (hr found s').1 h
    exact (Files.of_quiet (quiet_heard s m now) (books_heard s m now)).trans
      (files_answered _ m.agent b' found' estimator now)

theorem files_deregister {agent : AgentId} {result : Except DispatchError Unit}
    (h : deregister agent now s = .ok result s') : Files now s s' := by
  cases ha : s.agents.get? agent with
  | none =>
    rw [deregister_of_unknown ha, EStateM.Result.ok.injEq] at h
    obtain ⟨-, rfl⟩ := h
    exact .refl now s
  | some a =>
    obtain ⟨-, -, rfl⟩ := (deregister_of_known ha).1 h
    have hs : Files now s { s with agents := s.agents.erase agent } :=
      .of_log rfl rfl (List.append_nil _).symm rfl
    exact hs.trans (files_evicted _ agent a now)

theorem files_shutdown [Walk] (h : shutdown now s = .ok () s') : Files now s s' := by
  obtain ⟨s₁, hf, rfl⟩ := shutdown_eq_ok.1 h
  have hs : Files now s { s with agents := ∅ } := .of_log rfl rfl (List.append_nil _).symm rfl
  have hevict : Files now { s with agents := ∅ } s₁ := files_forM (fun e _ _ he => by
    obtain ⟨-, rfl⟩ := evict_eq_ok.1 he
    exact files_evicted _ e.1 e.2 now) hf
  exact (hs.trans hevict).trans (.of_log rfl rfl rfl rfl)

section Pumps

variable [Carrier τ]

theorem files_pump {agent : AgentId} (h : pump agent now s = .ok () s') : Files now s s' := by
  rcases pump_eq_ok.1 h with ⟨-, rfl⟩ | ⟨b, p, -, -, -, rfl⟩
  · exact .refl now s'
  · exact files_pumped s agent p now

theorem files_deliverInbound {m : Message} (h : deliverInbound m now s = .ok () s') :
    Files now s s' := by
  obtain ⟨found, s₁, hr, hp⟩ := Act.bind_eq_ok.1 h
  have hf := files_route hr
  cases found with
  | none =>
    cases hp
    exact hf
  | some agent => exact hf.trans (files_pump hp)

end Pumps

end Station

/-! ### What an operation does to the books -/

namespace Step

variable {τ : Type}

/-- The requests that ended in a step, with their last phases. -/
def finished (step : Step τ) : List (RequestId × Phase) := Station.finishes step.effects

/-- Until when the results of a step are kept, if they are kept for `grace`. -/
def expires (step : Step τ) (grace : Span) : Instant := step.operation.time?.getD 0 + grace

/-- All that a step does to the books: it enters the request that is taken in, files those that
end, and forgets what has been kept long enough. -/
structure Kept (step : Step τ) : Prop where
  settings : step.after.settings = step.before.settings
  timed : step.operation.time? = none → step.finished = []
  books : step.after.books =
    ((step.before.books.enter step.response.handle?).file
      (step.expires step.before.settings.resultGrace) step.finished).forget step.operation.forgets?

/-- Requests end only in steps that are asked for at some time. -/
theorem Kept.exists_time {step : Step τ} (h : step.Kept) {e : RequestId × Phase}
    (he : e ∈ step.finished) : ∃ now, step.operation.time? = some now := by
  cases ht : step.operation.time? with
  | some now => exact ⟨now, rfl⟩
  | none =>
    rw [h.timed ht] at he
    cases he

end Step

namespace Station

variable {τ : Type} {s s' : Station τ} {now : Instant}

theorem kept_of_files {step : Step τ} (ht : step.operation.time? = some now)
    (hx : step.response.handle? = none) (hn : step.operation.forgets? = none)
    (h : Files now step.before step.after) : step.Kept := by
  obtain ⟨effects, hl, hb⟩ := h.booked
  refine ⟨h.settings, fun hc => absurd (ht.symm.trans hc) (Option.some_ne_none now), ?_⟩
  unfold Step.finished Step.expires
  rw [Step.effects_of_log hl, ht, hx, hn]
  exact hb

/-- A step in which no request ends. -/
theorem kept_of_log {step : Step τ} (hs : step.after.settings = step.before.settings)
    (hl : step.after.log = step.before.log)
    (hb : step.after.books = step.before.books.enter step.response.handle?)
    (hn : step.operation.forgets? = none) : step.Kept := by
  have hf : step.finished = [] := by
    unfold Step.finished
    rw [Step.effects_of_log (hl.trans (List.append_nil _).symm)]
    rfl
  refine ⟨hs, fun _ => hf, ?_⟩
  rw [hf, Books.file_nil, hn]
  exact hb

theorem books_enqueue {request : RequestId} {agent : AgentId} {payload : Payload}
    {urgency : Urgency} {maxAttempts : Nat} {result : Except DispatchError Handle}
    (h : enqueue request agent payload urgency maxAttempts s = (result, s')) :
    s'.settings = s.settings ∧ s'.log = s.log ∧
      s'.books = s.books.enter (Result.submitted result).handle? := by
  unfold enqueue at h
  cases ha : s.agents.get? agent with
  | none =>
    rw [ha] at h
    cases h
    exact ⟨rfl, rfl, rfl⟩
  | some a =>
    rw [ha] at h
    dsimp only at h
    split at h
    · cases h
      exact ⟨rfl, rfl, rfl⟩
    · cases h
      exact ⟨rfl, rfl, rfl⟩

theorem books_cancel (request : RequestId) (s : Station τ) :
    (cancel request s).2.settings = s.settings ∧ (cancel request s).2.log = s.log ∧
      (cancel request s).2.books = s.books := by
  unfold cancel
  split
  · exact ⟨rfl, rfl, rfl⟩
  · split
    · exact ⟨rfl, rfl, rfl⟩
    · exact ⟨rfl, rfl, rfl⟩

section Perform

variable [Carrier τ]

theorem kept_submit {request : RequestId} {agent : AgentId} {payload : Payload}
    {urgency : Urgency} {maxAttempts : Nat} {result : Except DispatchError Handle}
    (h : submit request agent payload urgency maxAttempts now s = .ok result s') :
    (Step.mk s (.submit request agent payload urgency maxAttempts now) (.submitted result)
      s').Kept := by
  obtain ⟨s₁, he, hp⟩ := submit_eq_ok.1 h
  obtain ⟨hs, hl, hb⟩ := books_enqueue he
  have hf : Files now s₁ s' := by
    rcases hp with ⟨-, rfl⟩ | ⟨-, hp⟩
    · exact .refl now s'
    · exact files_pump hp
  obtain ⟨effects, hl', hb'⟩ := hf.booked
  rw [hl] at hl'
  rw [hb, hs] at hb'
  refine ⟨hf.settings.trans hs, fun hc => absurd hc (Option.some_ne_none now), ?_⟩
  unfold Step.finished
  rw [Step.effects_of_log hl']
  exact hb'

/-- The pass over all agents, from a station with the same books. -/
theorem kept_pumpAll [Walk] {step : Step τ} (ht : step.operation.time? = some now)
    (hx : step.response.handle? = none) (hn : step.operation.forgets? = some now)
    (hs : Files now step.before s) (h : pumpAll now s = .ok () step.after) : step.Kept := by
  obtain ⟨s₁, hf, ha⟩ := pumpAll_eq_ok.1 h
  have hf := hs.trans (files_forM (fun _ _ _ hp => files_pump hp) hf)
  obtain ⟨effects, hl, hb⟩ := hf.booked
  have hl' : step.after.log = step.before.log ++
      (effects ++ [.measured (.queueDepth s₁.id) (.level s₁.queueDepth)]) := by
    rw [ha, ← List.append_assoc, ← hl]
    rfl
  have hfin : step.finished = finishes effects := by
    unfold Step.finished
    rw [Step.effects_of_log hl', finishes_append]
    exact List.append_nil _
  refine ⟨?_, fun hc => absurd (ht.symm.trans hc) (Option.some_ne_none now), ?_⟩
  · rw [ha]
    exact hf.settings
  · unfold Step.expires
    rw [hfin, ht, hx, hn, ha]
    exact congrArg (Books.forget · (some now)) hb

/-- What an operation does to the books. -/
theorem perform_kept {operation : Operation} {response : Result}
    (h : perform operation s = .ok response s') : (Step.mk s operation response s').Kept := by
  cases operation with
  | deliver m now =>
    obtain ⟨⟨⟩, hd, rfl⟩ := Act.bind_pure_eq_ok.1 h
    exact kept_of_files rfl rfl rfl (files_deliverInbound hd)
  | route m now =>
    obtain ⟨found, hr, rfl⟩ := Act.bind_pure_eq_ok.1 h
    exact kept_of_files rfl rfl rfl (files_route hr)
  | submit request agent payload urgency maxAttempts now =>
    obtain ⟨result, hs, rfl⟩ := Act.bind_pure_eq_ok.1 h
    exact kept_submit hs
  | enqueue request agent payload urgency maxAttempts =>
    obtain ⟨result, hs, rfl⟩ := Act.bind_pure_eq_ok.1 h
    obtain ⟨hs, hl, hb⟩ := books_enqueue (Act.modifyGet_eq_ok.1 hs)
    exact kept_of_log hs hl hb rfl
  | pump agent now =>
    obtain ⟨⟨⟩, hp, rfl⟩ := Act.bind_pure_eq_ok.1 h
    exact kept_of_files rfl rfl rfl (files_pump hp)
  | pumpAll walk now =>
    obtain ⟨⟨⟩, hp, rfl⟩ := Act.bind_pure_eq_ok.1 h
    exact kept_pumpAll rfl rfl rfl (.refl now s) hp
  | sweep walk now =>
    obtain ⟨changes, hs, rfl⟩ := Act.bind_pure_eq_ok.1 h
    cases hs
    exact kept_of_files rfl rfl rfl (.of_quiet (quiet_swept s now) (books_swept s now))
  | tick walk now =>
    obtain ⟨⟨⟩, ht, rfl⟩ := Act.bind_pure_eq_ok.1 h
    rw [tick_eq] at ht
    exact kept_pumpAll rfl rfl rfl (.of_quiet (quiet_swept s now) (books_swept s now)) ht
  | broadcast wake bulletin deadline now =>
    obtain ⟨answer, hb, rfl⟩ := Act.bind_pure_eq_ok.1 h
    exact kept_of_files rfl rfl rfl
      (.of_quiet (quiet_broadcastRounds hb) (books_broadcastRounds hb))
  | correction wake bulletin skipIfIdle deadline now =>
    obtain ⟨answer, hb, rfl⟩ := Act.bind_pure_eq_ok.1 h
    exact kept_of_files rfl rfl rfl (.of_quiet (quiet_correction hb) (books_correction hb))
  | cancel request =>
    obtain ⟨found, hc, rfl⟩ := Act.bind_pure_eq_ok.1 h
    obtain ⟨hs, hl, hb⟩ := books_cancel request s
    rw [Act.modifyGet_eq_ok.1 hc] at hs hl hb
    exact kept_of_log hs hl hb rfl
  | deregister agent now =>
    obtain ⟨result, hd, rfl⟩ := Act.bind_pure_eq_ok.1 h
    exact kept_of_files rfl rfl rfl (files_deregister hd)
  | shutdown walk now =>
    obtain ⟨⟨⟩, hs, rfl⟩ := Act.bind_pure_eq_ok.1 h
    exact kept_of_files rfl rfl rfl (files_shutdown hs)
  | adoptEpoch epoch =>
    cases h
    exact kept_of_log rfl rfl rfl rfl

end Perform

end Station

end GroundControl
