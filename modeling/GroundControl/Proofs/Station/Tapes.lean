import GroundControl.Proofs.Station.Acts

/-!
# Stations on tape

All a station learns of its link is the answers.  So whatever happens to a link in between, be it
that frames are read at its other end or that this end is given up, there is a list of answers with
which the station would have done the same over a link that nobody touches.

* `Tape`, a link whose answers are fixed beforehand;
* `Pass.onTape`, `Station.onTape`: the same pass or station with a tape in place of its link;
* `run_onTape`: a pump, whose link gives the answers of the tape;
* `Taped`, a piece of work that can be done on tape, with `Taped.bind` and `taped_forM`;
* `taped_deliverInbound`, `taped_submit`, `taped_pumpAll`, `taped_tick`, `taped_tryBroadcast`,
  `taped_deregister`, `taped_shutdown`: the operations of a station.
-/

namespace GroundControl

/-- A link whose answers are fixed beforehand; when there are no more it takes every frame. -/
structure Tape where
  answers : List (Except LinkError Unit)

namespace Tape

/-- The next answer, whatever the frame. -/
def send (t : Tape) (_ : Frame) : Except LinkError Unit × Tape :=
  match t.answers with
  | [] => (.ok (), t)
  | answer :: rest => (answer, ⟨rest⟩)

instance : Carrier Tape := ⟨send, fun _ => "tape"⟩

end Tape

variable {τ : Type} {α β : Type}

/-! ### Pumps -/

namespace Pass

/-- The pass with a tape in place of its link. -/
def onTape (p : Pass τ) (answers : List (Except LinkError Unit)) : Pass Tape :=
  { p with carrier := ⟨answers⟩ }

/-- The end of a round with a tape in place of the link. -/
def Round.onTape (answers : List (Except LinkError Unit)) : Round τ → Round Tape
  | .next p => .next (p.onTape answers)
  | .stop p => .stop (p.onTape answers)
  | .fault fault p => .fault fault (p.onTape answers)

@[simp] theorem backlog_onTape (p : Pass τ) (answers : List (Except LinkError Unit)) :
    (p.onTape answers).backlog = p.backlog :=
  rfl

variable [Carrier τ]

theorem transmit_onTape (ctx : PassContext) (p : Pass τ) (launch : Launch) :
    ∃ script, ∀ rest, transmit ctx (p.onTape (script ++ rest)) launch =
      Round.onTape rest (transmit ctx p launch) := by
  unfold transmit
  cases ctx.estimator.timeout launch.trafficClass with
  | error fault => exact ⟨[], fun rest => rfl⟩
  | ok base =>
    refine ⟨[(Carrier.send p.carrier (frameOf ctx launch)).1], fun rest => ?_⟩
    have hsend : Carrier.send (p.onTape ([(Carrier.send p.carrier (frameOf ctx launch)).1] ++
        rest)).carrier (frameOf ctx launch) =
          ((Carrier.send p.carrier (frameOf ctx launch)).1, ⟨rest⟩) := rfl
    dsimp only
    rw [hsend]
    generalize Carrier.send p.carrier (frameOf ctx launch) = sent
    obtain ⟨answer | ⟨⟩, carrier⟩ := sent
    · rfl
    · dsimp only
      rw [backlog_onTape]
      generalize p.backlog.transmitted ctx.now (backoff base p.backlog.timeouts ctx.maxTimeout) = x
      obtain ⟨_ | finished, b⟩ := x
      · rfl
      · dsimp only
        split <;> rfl

omit [Carrier τ] in
theorem pay_onTape (p : Pass τ) (c : TrafficClass) (now : Instant)
    (answers : List (Except LinkError Unit)) :
    (p.onTape answers).pay c now = ((p.pay c now).1, (p.pay c now).2.onTape answers) := by
  unfold pay
  have hthrottle : (p.onTape answers).throttle = p.throttle := rfl
  rw [hthrottle]
  split
  · split <;> rfl
  · rfl

theorem round_onTape (ctx : PassContext) (p : Pass τ) :
    ∃ script, ∀ rest, round ctx (p.onTape (script ++ rest)) =
      Round.onTape rest (round ctx p) := by
  unfold round
  simp only [backlog_onTape, pay_onTape]
  cases p.backlog.nextClass with
  | none => exact ⟨[], fun _ => rfl⟩
  | some c =>
    dsimp only
    generalize p.pay c ctx.now = paid
    obtain ⟨_ | _, q⟩ := paid
    · exact ⟨[], fun _ => rfl⟩
    · simp only [backlog_onTape]
      cases q.backlog.launch with
      | none => exact ⟨[], fun _ => rfl⟩
      | some x =>
        let launched : Pass τ := { q with
          backlog := x.2
          retries := if 1 < x.1.attempt then q.retries + 1 else q.retries }
        exact transmit_onTape ctx launched x.1

theorem rounds_onTape (ctx : PassContext) (n : Nat) (p : Pass τ) :
    ∃ script, ∀ rest, rounds ctx n (p.onTape (script ++ rest)) =
      ((rounds ctx n p).1, (rounds ctx n p).2.onTape rest) := by
  induction n generalizing p with
  | zero => exact ⟨[], fun rest => rfl⟩
  | succ n ih =>
    obtain ⟨script, h⟩ := round_onTape ctx p
    unfold rounds
    generalize round ctx p = ended at h ⊢
    cases ended with
    | next q =>
      obtain ⟨script', h'⟩ := ih q
      refine ⟨script ++ script', fun rest => ?_⟩
      rw [List.append_assoc, h]
      exact h' rest
    | stop q => exact ⟨script, fun rest => by rw [h]; rfl⟩
    | fault fault q => exact ⟨script, fun rest => by rw [h]; rfl⟩

theorem run_onTape (ctx : PassContext) (p : Pass τ) :
    ∃ script, ∀ rest, run ctx (p.onTape (script ++ rest)) =
      ((run ctx p).1, (run ctx p).2.onTape rest) :=
  rounds_onTape ctx p.backlog.waiting.length p

end Pass

/-! ### Work on tape -/

namespace Station

/-- The station with a tape in place of its link, after it has done other things before. -/
def onTape (s : Station τ) (before : List Effect) (answers : List (Except LinkError Unit)) :
    Station Tape :=
  { s with carrier := ⟨answers⟩, log := before ++ s.log }

variable (s : Station τ) (before : List Effect) (answers : List (Except LinkError Unit))

@[simp] theorem settings_onTape : (s.onTape before answers).settings = s.settings := rfl

@[simp] theorem id_onTape : (s.onTape before answers).id = s.id := rfl

@[simp] theorem agents_onTape : (s.onTape before answers).agents = s.agents := rfl

@[simp] theorem watch_onTape : (s.onTape before answers).watch = s.watch := rfl

@[simp] theorem estimator_onTape : (s.onTape before answers).estimator = s.estimator := rfl

@[simp] theorem throttle_onTape : (s.onTape before answers).throttle = s.throttle := rfl

@[simp] theorem pending_onTape : (s.onTape before answers).pending = s.pending := rfl

@[simp] theorem tickets_onTape : (s.onTape before answers).tickets = s.tickets := rfl

@[simp] theorem backlogOf_onTape (agent : AgentId) :
    (s.onTape before answers).backlogOf agent = s.backlogOf agent :=
  rfl

@[simp] theorem busyAgents_onTape [Walk] : (s.onTape before answers).busyAgents = s.busyAgents :=
  rfl

@[simp] theorem onTape_emit (effect : Effect) :
    (s.onTape before answers).emit effect = (s.emit effect).onTape before answers := by
  unfold onTape emit
  rw [List.append_assoc]

@[simp] theorem onTape_publish (event : Event) :
    (s.onTape before answers).publish event = (s.publish event).onTape before answers :=
  onTape_emit ..

@[simp] theorem onTape_count (series : Series) :
    (s.onTape before answers).count series = (s.count series).onTape before answers :=
  onTape_emit ..

@[simp] theorem onTape_level (series : Series) (value : Nat) :
    (s.onTape before answers).level series value =
      (s.level series value).onTape before answers :=
  onTape_emit ..

@[simp] theorem onTape_deliver (finished : List Finished) :
    (s.onTape before answers).deliver finished =
      (s.deliver finished).onTape before answers := by
  unfold onTape deliver
  rw [List.append_assoc]

end Station

/-- What a piece of work comes to, with a tape in place of the link. -/
def outcomeOnTape (before : List Effect) (answers : List (Except LinkError Unit)) :
    EStateM.Result Fault (Station τ) α → EStateM.Result Fault (Station Tape) α
  | .ok a s => .ok a (s.onTape before answers)
  | .error fault s => .error fault (s.onTape before answers)

/-- Work came to `r`, and with the right answers on the tape it comes to the same there. -/
def Replays (r : EStateM.Result Fault (Station τ) α)
    (r' : List Effect → List (Except LinkError Unit) → EStateM.Result Fault (Station Tape) α) :
    Prop :=
  ∃ script, ∀ before rest answers, answers = script ++ rest →
    r' before answers = outcomeOnTape before rest r

/-- The work `x` at the station `s` is the work `x'` on a tape with the right answers. -/
def Taped (x : Act τ α) (x' : Act Tape α) (s : Station τ) : Prop :=
  Replays (x s) fun before answers => x' (s.onTape before answers)

theorem taped_of_eq {x : Act τ α} {x' : Act Tape α} {s : Station τ}
    (h : ∀ before rest, x' (s.onTape before rest) = outcomeOnTape before rest (x s)) :
    Taped x x' s :=
  ⟨[], fun before rest _ ha => ha ▸ h before rest⟩

theorem taped_pure (a : α) (s : Station τ) : Taped (pure a) (pure a) s := taped_of_eq fun _ _ => rfl

theorem Taped.bind {x : Act τ α} {x' : Act Tape α} {f : α → Act τ β} {f' : α → Act Tape β}
    {s : Station τ} (h : Taped x x' s) (hf : ∀ a t, x s = .ok a t → Taped (f a) (f' a) t) :
    Taped (x >>= f) (x' >>= f') s := by
  obtain ⟨script, hx⟩ := h
  cases hr : x s with
  | error fault t =>
    refine ⟨script, fun before rest answers ha => ?_⟩
    have hx : x' (s.onTape before answers) = _ := hx before rest answers ha
    show EStateM.bind x' f' _ = outcomeOnTape before rest (EStateM.bind x f s)
    unfold EStateM.bind
    rw [hx, hr]
    rfl
  | ok a t =>
    obtain ⟨script', hf⟩ := hf a t hr
    refine ⟨script ++ script', fun before rest answers ha => ?_⟩
    have hx : x' (s.onTape before answers) = _ :=
      hx before (script' ++ rest) answers (ha.trans (List.append_assoc ..))
    show EStateM.bind x' f' _ = outcomeOnTape before rest (EStateM.bind x f s)
    unfold EStateM.bind
    rw [hx, hr]
    exact hf before rest _ rfl

/-- Work that begins with a look at the station. -/
theorem taped_get {f : Station τ → Act τ α} {f' : Station Tape → Act Tape α} {s : Station τ}
    (h : Replays (f s s) fun before answers =>
      f' (s.onTape before answers) (s.onTape before answers)) :
    Taped (get >>= f) (get >>= f') s :=
  h

section Replays

variable {s t : Station τ} {u v : List Effect → List (Except LinkError Unit) → Station Tape}

/-- Work that goes on from another station. -/
theorem replays_set {f : PUnit → Act τ α} {f' : PUnit → Act Tape α}
    (hu : ∀ before answers, u before answers = t.onTape before answers)
    (h : Taped (f ⟨⟩) (f' ⟨⟩) t) :
    Replays ((set t >>= f) s) fun before answers =>
      (set (u before answers) >>= f') (v before answers) := by
  obtain ⟨script, h⟩ := h
  refine ⟨script, fun before rest answers ha => ?_⟩
  show f' ⟨⟩ (u before answers) = _
  rw [hu]
  exact h before rest answers ha

/-- Work that depends on something the tape does not change. -/
theorem replays_ite {c : Prop} [Decidable c]
    {c' : List Effect → List (Except LinkError Unit) → Prop}
    [∀ before answers, Decidable (c' before answers)] {x y : Act τ α}
    {x' y' : List Effect → List (Except LinkError Unit) → Act Tape α}
    (hc : ∀ before answers, c' before answers ↔ c)
    (hx : Replays (x s) fun before answers => x' before answers (v before answers))
    (hy : Replays (y s) fun before answers => y' before answers (v before answers)) :
    Replays ((if c then x else y) s) fun before answers =>
      (if c' before answers then x' before answers else y' before answers) (v before answers) := by
  by_cases h : c
  · obtain ⟨script, hx⟩ := hx
    refine ⟨script, fun before rest answers ha => ?_⟩
    dsimp only
    rw [if_pos ((hc before answers).2 h), if_pos h]
    exact hx before rest answers ha
  · obtain ⟨script, hy⟩ := hy
    refine ⟨script, fun before rest answers ha => ?_⟩
    dsimp only
    rw [if_neg (fun h' => h ((hc before answers).1 h')), if_neg h]
    exact hy before rest answers ha

end Replays

theorem taped_modify {f : Station τ → Station τ} {f' : Station Tape → Station Tape}
    {s : Station τ} (h : ∀ before rest, f' (s.onTape before rest) = (f s).onTape before rest) :
    Taped (modify f) (modify f') s :=
  taped_of_eq fun before rest => congrArg (EStateM.Result.ok PUnit.unit) (h before rest)

theorem taped_modifyGet {f : Station τ → α × Station τ} {f' : Station Tape → α × Station Tape}
    {s : Station τ}
    (h : ∀ before rest, f' (s.onTape before rest) = ((f s).1, (f s).2.onTape before rest)) :
    Taped (modifyGet f) (modifyGet f') s := by
  refine taped_of_eq fun before rest => ?_
  show EStateM.Result.ok (f' (s.onTape before rest)).1 (f' (s.onTape before rest)).2 = _
  rw [h]
  rfl

theorem taped_forM {f : α → Act τ Unit} {f' : α → Act Tape Unit}
    (h : ∀ a s, Taped (f a) (f' a) s) (l : List α) (s : Station τ) :
    Taped (l.forM f) (l.forM f') s := by
  induction l generalizing s with
  | nil => exact taped_pure () s
  | cons a rest ih => exact (h a s).bind fun _ t _ => ih t

/-! ### The operations of a station -/

namespace Station

section Quiet

variable (s : Station τ) (before : List Effect) (answers : List (Except LinkError Unit))

theorem onTape_announce (change : PresenceChange) :
    (s.onTape before answers).announce change = (s.announce change).onTape before answers := by
  unfold announce
  rw [← onTape_publish, ← onTape_level]
  rfl

theorem onTape_foldl_announce (changes : List PresenceChange) :
    changes.foldl announce (s.onTape before answers) =
      (changes.foldl announce s).onTape before answers := by
  induction changes generalizing s with
  | nil => rfl
  | cons change rest ih =>
    rw [List.foldl_cons, List.foldl_cons, onTape_announce]
    exact ih _

theorem onTape_register (agent : AgentId) :
    (s.onTape before answers).register agent = (s.register agent).onTape before answers := by
  unfold register
  rw [apply_ite (onTape · before answers), ← onTape_publish]
  rfl

theorem onTape_dropCapped :
    (s.onTape before answers).dropCapped = s.dropCapped.onTape before answers := by
  unfold dropCapped
  rw [← onTape_count]
  rfl

theorem onTape_hear (m : Message) (now : Instant) :
    (s.onTape before answers).hear m now = (s.hear m now).onTape before answers := by
  rw [hear_eq, hear_eq]
  have hcounted : (s.onTape before answers).counted m = (s.counted m).onTape before answers := by
    unfold counted
    rw [← onTape_count]
    rfl
  have hflagged : ∀ t : Station τ,
      (t.onTape before answers).flagged m = (t.flagged m).onTape before answers := by
    intro t
    unfold flagged
    split <;> rfl
  have hobserved : ∀ t : Station τ,
      (t.onTape before answers).observed m now = (t.observed m now).onTape before answers := by
    intro t
    unfold observed
    rw [watch_onTape]
    split
    · rfl
    · rw [← onTape_announce]
      rfl
  rw [hcounted, hflagged, hobserved]

theorem onTape_repeat (series : Series) (n : Nat) :
    n.repeat (·.count series) (s.onTape before answers) =
      (n.repeat (·.count series) s).onTape before answers := by
  induction n with
  | zero => rfl
  | succ n ih =>
    show (n.repeat (·.count series) (s.onTape before answers)).count series = _
    rw [ih]
    exact onTape_count ..

/-- A pass over a tape is booked on what the tape still holds. -/
theorem onTape_book (agent : AgentId) (p : Pass τ) (rest : List (Except LinkError Unit)) :
    (s.onTape before answers).book agent (p.onTape rest) =
      (s.book agent p).onTape before rest := by
  unfold book
  rw [← onTape_deliver]
  dsimp only [onTape]
  rw [List.append_assoc]
  rfl

theorem onTape_sweep [Walk] (now : Instant) :
    (s.onTape before answers).sweep now =
      ((s.sweep now).1, (s.sweep now).2.onTape before answers) := by
  unfold sweep
  rw [watch_onTape]
  exact congrArg (Prod.mk _) (onTape_foldl_announce { s with watch := _ } before answers _)

theorem onTape_cancel (request : RequestId) :
    (s.onTape before answers).cancel request =
      ((s.cancel request).1, (s.cancel request).2.onTape before answers) := by
  unfold cancel
  rw [pending_onTape]
  cases s.pending.get? request with
  | none => rfl
  | some agent =>
    dsimp only
    rw [backlogOf_onTape]
    cases s.backlogOf agent <;> rfl

theorem onTape_enqueue (request : RequestId) (agent : AgentId) (payload : Payload)
    (urgency : Urgency) (maxAttempts : Nat) :
    (s.onTape before answers).enqueue request agent payload urgency maxAttempts =
      ((s.enqueue request agent payload urgency maxAttempts).1,
        (s.enqueue request agent payload urgency maxAttempts).2.onTape before answers) := by
  unfold enqueue
  rw [agents_onTape, id_onTape, settings_onTape, tickets_onTape]
  cases s.agents.get? agent with
  | none => rfl
  | some a =>
    dsimp only
    generalize Backlog.submit _ _ = queued
    cases queued <;> rfl

end Quiet

/-- What follows when a pass is booked. -/
def afterPass (fault : Option Fault) (p : Pass τ) (now : Instant) : Act τ Unit :=
  match fault with
  | some fault => throw fault
  | none => do
      modify fun s => p.retries.repeat (·.count (.retries s.id)) s
      concludeAll p.finished now

/-- What a link has answered to a broadcast. -/
def announced (bulletin : Bulletin) (frame : Frame) (answer : Except LinkError Unit)
    (s : Station τ) : Except DispatchError Unit × Station τ :=
  let s := s.emit (.sent frame answer)
  match answer with
  | .error source => (.error (.transport s.id source), s)
  | .ok () =>
      let tally := { s.tally with broadcasts := s.tally.broadcasts.record bulletin.kind }
      (.ok (), { s with tally }.count (.broadcasts s.id bulletin.kind))

section Acts

variable (s : Station τ) (now : Instant)

theorem taped_conclude (f : Finished) : Taped (conclude f now) (conclude f now) s := by
  refine taped_of_eq fun before rest => ?_
  dsimp only [conclude, count, emit, publish]
  rw [settings_onTape]
  cases now.after s.settings.resultGrace <;>
    · simp only [outcomeOnTape, onTape, List.append_assoc]
      rfl

theorem taped_concludeAll (finished : List Finished) :
    Taped (concludeAll finished now) (concludeAll finished now) s :=
  taped_forM (fun f t => taped_conclude t now f) finished s

theorem taped_sample (c : TrafficClass) (measured : Span) :
    Taped (sample c measured) (sample c measured) s := by
  refine taped_of_eq fun before rest => ?_
  unfold sample
  rw [estimator_onTape]
  cases s.estimator.sample c measured with
  | error fault => rfl
  | ok estimator =>
    exact congrArg (EStateM.Result.ok ()) (onTape_emit { s with estimator } before rest _)

theorem taped_matchReply (agent : AgentId) (reply : Reply) :
    Taped (matchReply agent reply now) (matchReply agent reply now) s := by
  unfold matchReply
  refine taped_get ?_
  simp only [backlogOf_onTape]
  cases (s.backlogOf agent).map (·.answer reply.key reply.verdict now) with
  | none => exact replays_set (fun _ _ => rfl) (taped_pure false _)
  | some x =>
    obtain ⟨_ | found, backlog⟩ := x
    · exact replays_set (fun _ _ => rfl) (taped_pure false _)
    · have hbook : ∀ t : Station τ, Taped (do conclude found.finished now; return true)
          (do conclude found.finished now; return true) t := fun t =>
        (taped_conclude t now found.finished).bind fun _ _ _ => taped_pure true _
      refine replays_set (fun before answers =>
        onTape_deliver (s.setBacklog agent backlog) before answers [found.finished]) ?_
      cases found.sample with
      | none => exact hbook _
      | some sample => exact (taped_sample _ sample.1 sample.2).bind fun _ t _ => hbook t

theorem taped_route (m : Message) : Taped (route m now) (route m now) s := by
  unfold route
  refine taped_get ?_
  refine replays_ite (fun _ _ => .rfl) ?_ (replays_ite (fun _ _ => .rfl) ?_ ?_)
  · exact replays_set (onTape_count s · · _) (taped_pure none _)
  · exact replays_set (onTape_dropCapped s) (taped_pure none _)
  · refine replays_set (t := (s.register m.agent).hear m now) (fun _ _ => ?_) ?_
    · rw [onTape_register, onTape_hear]
    · cases m.reply with
      | none => exact taped_pure none _
      | some reply =>
        exact (taped_matchReply _ now m.agent reply).bind fun _ _ _ => taped_pure _ _

variable [Carrier τ]

omit [Carrier τ] in
theorem taped_afterPass (fault : Option Fault) (p : Pass τ)
    (answers : List (Except LinkError Unit)) :
    Taped (afterPass fault p now) (afterPass fault (p.onTape answers) now) s := by
  unfold afterPass
  cases fault with
  | some fault => exact taped_of_eq fun _ _ => rfl
  | none =>
    refine (taped_modify fun before rest => ?_).bind fun _ t _ => taped_concludeAll t now p.finished
    exact onTape_repeat s before rest (.retries s.id) p.retries

theorem taped_pump (agent : AgentId) : Taped (pump agent now) (pump agent now) s := by
  unfold pump
  refine taped_get ?_
  simp only [backlogOf_onTape]
  cases s.backlogOf agent with
  | none => exact taped_pure PUnit.unit s
  | some backlog =>
    let start : Pass τ :=
      ⟨(backlog.review now).2, s.throttle, s.carrier, (backlog.review now).1, 0, 0, 0, []⟩
    obtain ⟨script, hrun⟩ := Pass.run_onTape (s.passContext agent now) start
    generalize hp : Pass.run (s.passContext agent now) start = ended at hrun
    obtain ⟨fault, p⟩ := ended
    obtain ⟨script', hafter⟩ := taped_afterPass (s.book agent p) now fault p []
    refine ⟨script ++ script', fun before rest answers ha => ?_⟩
    have hstart := hrun (script' ++ rest)
    rw [← List.append_assoc, ← ha] at hstart
    show afterPass (Pass.run (s.passContext agent now) (start.onTape answers)).1
      (Pass.run (s.passContext agent now) (start.onTape answers)).2 now
      ((s.onTape before answers).book agent
        (Pass.run (s.passContext agent now) (start.onTape answers)).2) =
      outcomeOnTape before rest (afterPass (Pass.run (s.passContext agent now) start).1
        (Pass.run (s.passContext agent now) start).2 now
        (s.book agent (Pass.run (s.passContext agent now) start).2))
    rw [hstart, hp, onTape_book]
    exact hafter before rest (script' ++ rest) rfl

theorem taped_pumpAll [Walk] : Taped (pumpAll now) (pumpAll now) s := by
  unfold pumpAll
  refine taped_get ?_
  simp only [busyAgents_onTape]
  refine Taped.bind (taped_forM (fun agent t => taped_pump t now agent) s.busyAgents s)
    fun _ t _ => ?_
  exact (taped_modify fun _ _ => rfl).bind fun _ u _ =>
    taped_modify fun before rest => onTape_level u before rest _ _

theorem taped_deliverInbound (m : Message) :
    Taped (deliverInbound m now) (deliverInbound m now) s := by
  unfold deliverInbound
  refine (taped_route s now m).bind fun found t _ => ?_
  cases found with
  | none => exact taped_pure PUnit.unit t
  | some agent => exact taped_pump t now agent

theorem taped_submit (request : RequestId) (agent : AgentId) (payload : Payload)
    (urgency : Urgency) (maxAttempts : Nat) :
    Taped (submit request agent payload urgency maxAttempts now)
      (submit request agent payload urgency maxAttempts now) s := by
  unfold submit
  refine (taped_modifyGet fun before rest => onTape_enqueue s before rest ..).bind
    fun result t _ => ?_
  cases result with
  | error e => exact taped_pure _ t
  | ok handle => exact (taped_pump t now agent).bind fun _ u _ => taped_pure _ u

omit [Carrier τ] in
theorem taped_sweep [Walk] : Taped (modifyGet (sweep now)) (modifyGet (sweep now)) s :=
  taped_modifyGet fun before rest => onTape_sweep s before rest now

theorem taped_tick [Walk] : Taped (tick now) (tick now) s :=
  (taped_sweep s now).bind fun _ t _ => taped_pumpAll t now

omit [Carrier τ] in
theorem onTape_announced (bulletin : Bulletin) (frame : Frame) (answer : Except LinkError Unit)
    (before : List Effect) (rest : List (Except LinkError Unit)) :
    announced bulletin frame answer (s.onTape before rest) =
      ((announced bulletin frame answer s).1,
        (announced bulletin frame answer s).2.onTape before rest) := by
  unfold announced
  rw [onTape_emit]
  cases answer with
  | error source => rfl
  | ok u =>
    dsimp only
    rw [← onTape_count]
    rfl

/-- A broadcast that is handed to the link. -/
theorem taped_transmitAll (bulletin : Bulletin) :
    Taped (modifyGet (transmitAll bulletin)) (modifyGet (transmitAll bulletin)) s := by
  let sent := Carrier.send s.carrier ⟨s.id, .everyone, bulletin.body, none, s.epoch⟩
  refine ⟨[sent.1], ?_⟩
  rintro before rest _ rfl
  exact congrArg (fun x => EStateM.Result.ok x.1 x.2) <|
    onTape_announced { s with carrier := sent.2 } bulletin _ sent.1 before rest

theorem taped_tryBroadcast (bulletin : Bulletin) (deadline : Instant) :
    Taped (tryBroadcast bulletin deadline now) (tryBroadcast bulletin deadline now) s := by
  unfold tryBroadcast
  refine taped_get ?_
  simp only [throttle_onTape]
  cases s.throttle with
  | none => exact (taped_transmitAll s bulletin).bind fun _ t _ => taped_pure _ t
  | some bucket =>
    refine replays_set (t := { s with throttle := some (bucket.claim 1 deadline now).2 })
      (fun _ _ => rfl) ?_
    cases (bucket.claim 1 deadline now).1 with
    | error fault => exact taped_of_eq fun _ _ => rfl
    | ok claim =>
      cases claim with
      | granted => exact (taped_transmitAll _ bulletin).bind fun _ t _ => taped_pure _ t
      | denied => exact (taped_modifyGet fun _ _ => rfl).bind fun _ t _ => taped_pure _ t
      | wait ready => exact taped_pure _ _

omit [Carrier τ] in
theorem taped_evict (agent : AgentId) (a : Agent) :
    Taped (evict agent a now) (evict agent a now) s := by
  unfold evict
  have hlast : ∀ t : Station τ,
      Taped (modify fun s => { s with watch := s.watch.forget agent }.publish (.evicted s.id agent))
        (modify fun s => { s with watch := s.watch.forget agent }.publish (.evicted s.id agent))
        t := fun t => taped_modify fun before rest =>
          onTape_publish { t with watch := t.watch.forget agent } before rest _
  cases a.backlog with
  | none => exact hlast s
  | some backlog =>
    refine Taped.bind (taped_modify fun before rest => ?_) fun _ t _ =>
      (taped_concludeAll t now _).bind fun _ u _ => hlast u
    exact onTape_deliver { s with refusals := s.refusals ++ backlog.dissolve.2.refusals } before
      rest backlog.dissolve.1

omit [Carrier τ] in
theorem taped_deregister (agent : AgentId) :
    Taped (deregister agent now) (deregister agent now) s := by
  unfold deregister
  refine taped_get ?_
  simp only [agents_onTape]
  cases s.agents.get? agent with
  | none => exact taped_pure _ s
  | some a =>
    refine replays_set (t := { s with agents := s.agents.erase agent }) (fun _ _ => rfl) ?_
    exact (taped_evict _ now agent a).bind fun _ t _ => taped_pure _ t

omit [Carrier τ] in
theorem taped_shutdown [Walk] : Taped (shutdown now) (shutdown now) s := by
  unfold shutdown
  refine taped_get ?_
  simp only [agents_onTape]
  refine replays_set (t := { s with agents := ∅ }) (fun _ _ => rfl) ?_
  exact (taped_forM (fun e t => taped_evict t now e.1 e.2) _ _).bind fun _ t _ =>
    taped_modify fun before rest => onTape_level t before rest _ _

end Acts

end Station

end GroundControl
