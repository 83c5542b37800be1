import GroundControl.Proofs.Service.Work
import GroundControl.Proofs.Station.Overdue

/-!
# Replies and deadlines

A reply may be there already when the task of a station is polled.  Messages come before the regular
passes, so no regular pass finds the request overdue before its reply is read.  Orders come before
messages, and two of them look for overdue requests themselves: the order to pass over all backlogs
as if it were a given instant, and a submission for the agent of the request.

* `Service.Waits`: a reply to a request in flight is there and not yet read;
* `Order.ChecksLate`: an order looks for overdue requests after the deadline of the request;
* `Order.Withdraws`: an order withdraws the request, or removes its agent;
* `During`: something holds of a poll in a run, up to which the reply has been waiting;
  `AnsweredIn`, `CheckedLateIn`, `WithdrawnIn`;
* `waiting_reply_wins_iff`: the reply finishes the request exactly if no order checks it late first.
-/

namespace GroundControl

/-- Carried out at `now`, an order looks for overdue requests of an agent after the deadline of its
request. -/
def Order.ChecksLate {τ : Type} (s : Station τ) (agent : AgentId) (r : Request) (now : Instant) :
    Order → Prop
  | .tick time => r.overdue time = true
  | .submit _ target _ _ _ =>
      target = agent ∧ (s.queueOf agent).pendingLen < (s.queueOf agent).depth ∧
        r.overdue now = true
  | _ => False

/-- An order withdraws a request, or removes its agent. -/
def Order.Withdraws (agent : AgentId) (r : Request) : Order → Prop
  | .cancel request => request = r.id
  | .deregister target => target = agent
  | _ => False

namespace Service

variable {τ : Type}

/-- The reply to the request of an agent in flight, which was not withdrawn, is there and not yet
read. -/
structure Waits (s : Service τ) (agent : AgentId) (r : Request) : Prop where
  running : s.Running
  flight : (s.station.queueOf agent).inFlight = some r
  kept : r.cancelRequested = false
  reply : ∃ m ∈ s.inbox, ∃ reply, m.Brings s.station.id agent r reply

/-- A poll at `now` reads the reply to a request: the submitter learns the outcome, and subscribers
are told of the end. -/
structure Answered (s : Service τ) (agent : AgentId) (r : Request) (now : Instant)
    (s' : Service τ) : Prop where
  no_order : s.next? = none
  read : ∃ m reply effects, s.inbox = m :: s'.inbox ∧ m.Brings s.station.id agent r reply ∧
    s'.station.log = s.station.log ++ effects ∧
    .delivered r.ticket (Backlog.verdictOutcome r.attempts (r.sentAt.map now.since) reply.verdict) ∈
      effects ∧
    .published (.finished s.station.id agent r.id (Backlog.verdictPhase reply.verdict)
      (Backlog.verdictOutcome r.attempts (r.sentAt.map now.since) reply.verdict)) ∈ effects

/-- The order that is taken up next checks a request late. -/
def ChecksLate (s : Service τ) (agent : AgentId) (r : Request) (now : Instant) : Prop :=
  ∃ order, s.next? = some order ∧ order.ChecksLate s.station agent r now

/-- The order that is taken up next withdraws a request, or removes its agent. -/
def Withdraws (s : Service τ) (agent : AgentId) (r : Request) : Prop :=
  ∃ order, s.next? = some order ∧ order.Withdraws agent r

section Runs

variable [Carrier τ]

/-- Something holds of a poll in a run, up to which the reply to a request has been waiting: of the
service before it, the instant, and the service after it. -/
def During (s : Service τ) (agent : AgentId) (r : Request) (l : List Turn)
    (P : Service τ → Instant → Service τ → Prop) : Prop :=
  ∃ l₁ host now rung l₂, l = l₁ ++ .poll host now rung :: l₂ ∧
    (∀ l', l' <+: l₁ → (s.turns l').Waits agent r) ∧
      P (s.turns l₁) now ((s.turns l₁).turn (.poll host now rung))

/-- The waiting reply finishes the request. -/
def AnsweredIn (s : Service τ) (agent : AgentId) (r : Request) (l : List Turn) : Prop :=
  s.During agent r l fun s now s' => s.Answered agent r now s'

/-- While the reply waits, an order checks the request late. -/
def CheckedLateIn (s : Service τ) (agent : AgentId) (r : Request) (l : List Turn) : Prop :=
  s.During agent r l fun s now _ => s.ChecksLate agent r now

/-- While the reply waits, an order withdraws the request, or removes its agent. -/
def WithdrawnIn (s : Service τ) (agent : AgentId) (r : Request) (l : List Turn) : Prop :=
  s.During agent r l fun s _ _ => s.Withdraws agent r

end Runs

/-! ### Turns in which the reply goes on waiting -/

theorem Waits.order {s : Service τ} {agent : AgentId} {r : Request} (h : s.Waits agent r)
    (c : Command) : (s.order c).Waits agent r := by
  have he : s.order c = { s with commands := s.commands ++ [c] } :=
    if_neg (Bool.eq_false_iff.1 h.running)
  rw [he]
  exact ⟨h.running, h.flight, h.kept, h.reply⟩

theorem Waits.receive {s : Service τ} {agent : AgentId} {r : Request} (h : s.Waits agent r)
    (m : Message) : (s.receive m).Waits agent r := by
  have he : s.receive m = { s with inbox := s.inbox ++ [m] } :=
    if_neg (Bool.eq_false_iff.1 h.running)
  rw [he]
  refine ⟨h.running, h.flight, h.kept, ?_⟩
  obtain ⟨m', hm, reply, hb⟩ := h.reply
  exact ⟨m', List.mem_append_left _ hm, reply, hb⟩

/-- A poll that takes up an order leaves the messages and the station as the order does. -/
theorem work?_of_next? [Walk] {s : Service τ} {order : Order} (h : s.next? = some order)
    (now rung : Instant) : s.work? now rung = order.operation? now := by
  unfold next? at h
  unfold work?
  cases ha : s.activity with
  | stopped | crashed fault | holding hold =>
    rw [ha] at h
    cases h
  | serving =>
    rw [ha] at h
    dsimp only at h ⊢
    cases hc : s.commands with
    | nil =>
      rw [hc] at h
      cases h
    | cons c rest =>
      rw [hc] at h
      cases h
      rfl

/-- With a message waiting, a poll that takes up no order reads the message or attempts a
broadcast. -/
theorem work?_of_inbox [Walk] {s : Service τ} {m : Message} {rest : List Message}
    (hn : s.next? = none) (hi : s.inbox = m :: rest) (now rung : Instant) :
    s.work? now rung = none ∨ s.work? now rung = some (.shutdown ‹Walk› now) ∨
      s.work? now rung = some (.deliver m now) := by
  unfold next? at hn
  unfold work?
  cases ha : s.activity with
  | stopped | crashed fault | holding hold => exact .inl rfl
  | serving =>
    rw [ha] at hn
    dsimp only at hn ⊢
    cases hc : s.commands with
    | cons c rest =>
      rw [hc] at hn
      cases hn
    | nil =>
      dsimp only
      split
      · exact .inr (.inl rfl)
      · rw [hi]
        exact .inr (.inr rfl)

section Polls

variable [Carrier τ] {host : Host} {s s' : Service τ} {agent : AgentId} {r : Request}
  {now rung : Instant}

/-- A submission that is accepted finds room in the backlog. -/
theorem room_of_accepted {s s' : Station τ} {request : RequestId} {agent : AgentId}
    {payload : Payload} {urgency : Urgency} {maxAttempts : Nat} {handle : Handle}
    (h : Station.perform (.submit request agent payload urgency maxAttempts now) s =
      .ok (.submitted (.ok handle)) s') :
    (s.queueOf agent).pendingLen < (s.queueOf agent).depth := by
  obtain ⟨result, hs, hresult⟩ := Act.bind_pure_eq_ok.1 h
  cases hresult
  obtain ⟨s₁, he, -⟩ := Station.submit_eq_ok.1 hs
  obtain ⟨hm, ha, -⟩ := Station.move_enqueue now he
  cases hm with
  | @enter _ a r b id target payload urgency maxAttempts hr hg hb =>
    subst hr
    have ha : target = agent := ha
    subst ha
    exact (Backlog.submit_eq_some_iff.1 hb).1

/-- An order that neither checks a request late nor withdraws it spares it. -/
theorem spares_of_order {s s' : Station τ} {order : Order} {operation : Operation}
    {response : Result} (ho : order.operation? now = some operation)
    (hp : Station.perform operation s = .ok response s')
    (hstop : ∀ walk time, operation ≠ .shutdown walk time) (hl : ¬ order.ChecksLate s agent r now)
    (hw : ¬ order.Withdraws agent r) :
    ∀ a ∈ s.actions operation response, a.Spares agent r (operation.time?.getD 0) := by
  cases order with
  | broadcast | correction | report | snapshots | presenceOf | phaseOf => cases ho
  | adoptEpoch epoch =>
    cases ho
    exact List.forall_mem_nil _
  | stop =>
    cases ho
    exact absurd rfl (hstop _ now)
  | cancel request =>
    cases ho
    exact List.forall_mem_singleton.2 hw
  | deregister target =>
    cases ho
    exact List.forall_mem_singleton.2 hw
  | tick time =>
    cases ho
    intro a ha
    obtain ⟨target, -, rfl⟩ := List.mem_map.1 ha
    exact fun _ => Bool.eq_false_iff.2 hl
  | submit request target payload urgency maxAttempts =>
    cases ho
    obtain ⟨result, -, rfl⟩ := Act.bind_pure_eq_ok.1 hp
    cases result with
    | error e => exact List.forall_mem_nil _
    | ok handle =>
      have hpump : ∀ h : target = agent, r.overdue now = false := by
        rintro rfl
        exact Bool.eq_false_iff.2 fun ho => hl ⟨rfl, room_of_accepted hp, ho⟩
      intro a ha
      rcases List.mem_cons.1 ha with rfl | ha
      · trivial
      · obtain rfl := List.mem_singleton.1 ha
        exact hpump

/-- What a station is asked to do leaves a request in flight that is spared. -/
theorem flight_of_perform {s s' : Station τ} {operation : Operation} {response : Result}
    (h : Station.perform operation s = .ok response s') (hs : s.Sound)
    (hr : (s.queueOf agent).inFlight = some r) (hc : r.cancelRequested = false)
    (ha : ∀ a ∈ s.actions operation response, a.Spares agent r (operation.time?.getD 0)) :
    (s'.queueOf agent).inFlight = some r ∧ s'.id = s.id := by
  refine ⟨(Station.perform_moves h).flight hs hr hc ha, ?_⟩
  obtain ⟨-, ended, ht⟩ := Station.perform_transfer hs h
  exact congrArg NetworkSettings.id ht.settings

/-- An order that neither checks a request late nor withdraws it leaves its reply waiting. -/
theorem waits_of_order (hs : s.station.Sound) (hw : s.Waits agent r) {order : Order}
    (ho : s.next? = some order) (h : s.poll now rung = some s') (hs' : s'.Running)
    (hl : ¬ order.ChecksLate s.station agent r now) (hc : ¬ order.Withdraws agent r) :
    s'.Waits agent r := by
  obtain ⟨hd, hi⟩ := poll_work h hs'
  rw [work?_of_next? ho] at hd hi
  rw [left_operation?] at hi
  cases hop : order.operation? now with
  | none =>
    rw [hop] at hd
    have hq : Station.Quiet s.station s'.station := hd
    refine ⟨hs', hq.queue agent ▸ hw.flight, hw.kept, ?_⟩
    have hid : s'.station.id = s.station.id := congrArg NetworkSettings.id hq.settings
    rw [hi, hid]
    exact hw.reply
  | some operation =>
    rw [hop] at hd
    have hstop := work?_ne_shutdown h hs' ((work?_of_next? ho now rung).trans hop)
    obtain ⟨response, hp⟩ := hd
    have hspares := spares_of_order hop hp hstop hl hc
    obtain ⟨hf, hid⟩ := flight_of_perform hp hs hw.flight hw.kept hspares
    refine ⟨hs', hf, hw.kept, ?_⟩
    rw [hi, hid]
    exact hw.reply

/-- A message that does not bring the reply leaves it waiting. -/
theorem waits_of_message (hs : s.station.Sound) (hw : s.Waits agent r) {m : Message}
    {rest : List Message} (hi : s.inbox = m :: rest)
    (hm : ¬ ∃ reply, m.Brings s.station.id agent r reply) {response : Result}
    (hp : Station.perform (.deliver m now) s.station = .ok response s'.station)
    (hi' : s'.inbox = rest) (hs' : s'.Running) : s'.Waits agent r := by
  have hspares : ∀ a ∈ s.station.actions (.deliver m now) response, a.Spares agent r now := by
    intro a ha
    have ha : a ∈ if s.station.answers m then
        [Station.Action.answer m.agent, .pump m.agent] else [] := ha
    split at ha
    · rename_i hans
      have hne : m.agent ≠ agent := fun he => hm ((Station.answers_iff hw.flight he).1 hans)
      rcases List.mem_cons.1 ha with rfl | ha
      · exact hne
      · obtain rfl := List.mem_singleton.1 ha
        exact fun he => absurd he hne
    · cases ha
  obtain ⟨hf, hid⟩ := flight_of_perform hp hs hw.flight hw.kept hspares
  refine ⟨hs', hf, hw.kept, ?_⟩
  obtain ⟨m', hm', reply, hb⟩ := hw.reply
  rw [hi] at hm'
  rw [hi', hid]
  rcases List.mem_cons.1 hm' with rfl | hm'
  · exact absurd ⟨reply, hb⟩ hm
  · exact ⟨m', hm', reply, hb⟩

/-- The message that brings the reply finishes the request. -/
theorem answered_of_message (hs : s.station.Sound) (hn : s.station.Numbered)
    (hw : s.Waits agent r) (hno : s.next? = none) {m : Message} {reply : Reply}
    (hi : s.inbox = m :: s'.inbox) (hm : m.Brings s.station.id agent r reply)
    {response : Result}
    (hp : Station.perform (.deliver m now) s.station = .ok response s'.station) :
    s.Answered agent r now s' ∧ (s'.station.queueOf agent).inFlight ≠ some r := by
  obtain ⟨⟨⟩, hd, rfl⟩ := Act.bind_pure_eq_ok.1 hp
  obtain ⟨found, t, hroute, hpump⟩ := Act.bind_eq_ok.1 hd
  have hans := (Station.answers_iff hw.flight hm.agent_eq).2 ⟨reply, hm⟩
  obtain ⟨reply', b, q, found', b', -, hreply, hb, hq, hk, hanswer, hok⟩ :=
    Station.route_of_answers hans now
  obtain rfl := Option.some.inj (hm.reply_eq.symm.trans hreply)
  rw [hm.agent_eq] at hb
  obtain rfl := Option.some.inj ((Station.backlogOf_of_flight hw.flight).symm.trans hb)
  obtain rfl := Option.some.inj (hw.flight.symm.trans hq)
  obtain ⟨rfl, estimator, -, -, rfl⟩ := (hok found t).1 hroute
  -- the sender is heard, its request is answered, and its other requests are moved
  have hheard := Station.quiet_heard s.station m now
  have hs₁ := hs.of_queueOf hheard.queue
  have hb₁ : (s.station.heard m now).backlogOf m.agent = some (s.station.queueOf agent) := by
    rw [Station.backlogOf_heard, hm.agent_eq]
    exact Station.backlogOf_of_flight hw.flight
  obtain ⟨hs₂, ht₂⟩ := Station.transfer_answered hs₁ estimator hb₁ hanswer
  obtain ⟨-, ended, ht₃⟩ := (Station.moves_pump hpump).transfer hs₂
  have hfound : found'.finished = r.ended (Backlog.verdictPhase reply.verdict)
      (Backlog.verdictOutcome r.attempts (r.sentAt.map now.since) reply.verdict) := by
    rw [Backlog.answer_eq hw.flight hk, hw.kept] at hanswer
    cases hanswer
    rfl
  have hagent : r.agent = agent := by
    refine hs.placed agent r.ident (List.mem_map_of_mem ?_)
    exact Backlog.mem_requests.2 (.inl hw.flight)
  have ht := (Station.Transfer.of_quiet hheard).trans (ht₂.trans ht₃)
  rw [hfound] at ht
  constructor
  · obtain ⟨effects, hl, htells⟩ := ht.tells
    obtain ⟨hd, hp⟩ := htells _ (List.mem_cons_self ..)
    refine ⟨hno, m, reply, effects, hi, hm, hl, hd, ?_⟩
    rw [← hagent]
    exact hp
  · intro hf
    have hpending : r.ident ∈ s'.station.idents := List.mem_map_of_mem
      (Station.mem_requests_of_queueOf (Backlog.mem_requests.2 (.inl hf)))
    exact Station.not_mem_of_ended (ht.nodup hn) (i := r.ident) (List.mem_cons_self ..) hpending

omit [Carrier τ] in
/-- A submission for a registered agent with room in its backlog is accepted. -/
theorem accepted_of_room {s : Station τ} {b : Backlog} (hb : s.backlogOf agent = some b)
    (hroom : b.pendingLen < b.depth) (request : RequestId) (payload : Payload)
    (urgency : Urgency) (maxAttempts : Nat) :
    ∃ handle s₁, Station.enqueue request agent payload urgency maxAttempts s =
      (.ok handle, s₁) := by
  obtain ⟨a, ha, hab⟩ := Option.bind_eq_some_iff.1 hb
  unfold Station.enqueue
  rw [ha]
  dsimp only
  rw [hab, Option.getD_some]
  rw [Backlog.submit_eq_some_iff.2 ⟨hroom, rfl⟩]
  exact ⟨_, _, rfl⟩

/-- An order that checks a request late gives up its attempt. -/
theorem past_of_late {s s' : Station τ} (hs : s.Sound) (hn : s.Numbered)
    (hr : (s.queueOf agent).inFlight = some r) (hc : r.cancelRequested = false) {order : Order}
    {operation : Operation} {response : Result} (hl : order.ChecksLate s agent r now)
    (ho : order.operation? now = some operation)
    (hp : Station.perform operation s = .ok response s') : (s'.queueOf agent).Past r := by
  have hb := Station.backlogOf_of_flight hr
  cases order with
  | tick time =>
    cases ho
    refine (Station.perform_moves hp).overdue hs hn ?_ ?_ hr hc hl
    · intro a ha
      obtain ⟨target, -, rfl⟩ := List.mem_map.1 ha
      exact ⟨target, rfl⟩
    · refine List.mem_map_of_mem (Station.mem_busyAgents.2 ?_)
      unfold Backlog.pendingLen
      rw [hr]
      exact Nat.succ_ne_zero _
  | submit request target payload urgency maxAttempts =>
    obtain ⟨rfl, hroom, hover⟩ := hl
    cases ho
    -- the new request has room, so the agent is pumped with the old one still in flight
    obtain ⟨handle, s₁, he⟩ := accepted_of_room hb hroom request payload urgency maxAttempts
    obtain ⟨result, hsub, rfl⟩ := Act.bind_pure_eq_ok.1 hp
    obtain ⟨s₂, he', hpump⟩ := Station.submit_eq_ok.1 hsub
    obtain ⟨rfl, rfl⟩ := Prod.mk.inj (he.symm.trans he')
    obtain ⟨-, hpump⟩ := hpump.resolve_left fun hr => Bool.false_ne_true hr.1.symm
    obtain ⟨hm, -, -⟩ := Station.move_enqueue now he
    obtain ⟨hs₁, ended, ht⟩ := hm.transfer hs
    have hr₁ := (hm.change target).flight (hs.settled target) hr hc trivial
    refine (Station.moves_pump hpump).overdue hs₁ (ht.keeps_numbered hn) ?_ ?_ hr₁ hc hover
    · exact List.forall_mem_singleton.2 ⟨target, rfl⟩
    · exact List.mem_singleton.2 rfl
  | _ => cases hl

/-- What a poll makes of a waiting reply: an order checks the request late, the reply is read, or
the reply goes on waiting. -/
inductive Fate (s : Service τ) (agent : AgentId) (r : Request) (now : Instant) (s' : Service τ) :
    Prop
  | late (h : s.ChecksLate agent r now) (hf : (s'.station.queueOf agent).inFlight ≠ some r)
  | answered (h : s.Answered agent r now s') (hf : (s'.station.queueOf agent).inFlight ≠ some r)
  | waits (hl : ¬ s.ChecksLate agent r now) (ha : ¬ s.Answered agent r now s')
      (h : s'.Waits agent r)

theorem fate_of_order (hs : s.station.Sound) (hn : s.station.Numbered) (hw : s.Waits agent r)
    (h : s.poll now rung = some s') (hs' : s'.Running) (hc : ¬ s.Withdraws agent r) {order : Order}
    (ho : s.next? = some order) : s.Fate agent r now s' := by
  by_cases hl : order.ChecksLate s.station agent r now
  · obtain ⟨hd, -⟩ := poll_work h hs'
    rw [work?_of_next? ho] at hd
    have hop : ∃ operation, order.operation? now = some operation := by
      cases order with
      | tick time => exact ⟨_, rfl⟩
      | submit request target payload urgency maxAttempts => exact ⟨_, rfl⟩
      | _ => cases hl
    obtain ⟨operation, hop⟩ := hop
    rw [hop] at hd
    obtain ⟨hsound, -⟩ := hd.sound hs hn
    obtain ⟨response, hp⟩ := hd
    exact .late ⟨order, ho, hl⟩
      ((past_of_late hs hn hw.flight hw.kept hl hop hp).not_flight (hsound.settled agent))
  · refine .waits ?_ ?_ (waits_of_order hs hw ho h hs' hl fun hwd => hc ⟨order, ho, hwd⟩)
    · rintro ⟨order', ho', hl'⟩
      obtain rfl := Option.some.inj (ho.symm.trans ho')
      exact hl hl'
    · intro ha
      rw [ha.no_order] at ho
      cases ho

theorem fate_of_no_order (hs : s.station.Sound) (hn : s.station.Numbered) (hw : s.Waits agent r)
    (h : s.poll now rung = some s') (hs' : s'.Running) (hno : s.next? = none) :
    s.Fate agent r now s' := by
  have hl : ¬ s.ChecksLate agent r now := by
    rintro ⟨order, ho, -⟩
    rw [hno] at ho
    cases ho
  obtain ⟨hd, hi'⟩ := poll_work h hs'
  obtain ⟨m₀, hm₀, reply₀, hb₀⟩ := hw.reply
  cases hi : s.inbox with
  | nil =>
    rw [hi] at hm₀
    cases hm₀
  | cons m rest =>
    -- the first message need not be the one that brings the reply
    rcases work?_of_inbox hno hi now rung with hwork | hwork | hwork
    · rw [hwork] at hd hi'
      have hq : Station.Quiet s.station s'.station := hd
      have hi' : s'.inbox = s.inbox := hi'
      refine .waits hl ?_ ⟨hs', hq.queue agent ▸ hw.flight, hw.kept, ?_⟩
      · intro ha
        obtain ⟨m', -, -, hm', -⟩ := ha.read
        rw [hi'] at hm'
        exact absurd (congrArg List.length hm') (Nat.ne_of_lt (Nat.lt_succ_self _))
      · have hid : s'.station.id = s.station.id := congrArg NetworkSettings.id hq.settings
        rw [hi', hid]
        exact ⟨m₀, hm₀, reply₀, hb₀⟩
    · exact absurd rfl (work?_ne_shutdown h hs' hwork _ now)
    · rw [hwork] at hd hi'
      obtain ⟨response, hp⟩ := hd
      have hi' : s'.inbox = rest := hi'.trans (congrArg List.tail hi)
      by_cases hm : ∃ reply, m.Brings s.station.id agent r reply
      · obtain ⟨reply, hm⟩ := hm
        obtain ⟨ha, hf⟩ := answered_of_message hs hn hw hno (hi' ▸ hi) hm hp
        exact .answered ha hf
      · refine .waits hl ?_ (waits_of_message hs hw hi hm hp hi' hs')
        intro ha
        obtain ⟨m', reply, -, hm', hb, -⟩ := ha.read
        rw [hi] at hm'
        obtain rfl := (List.cons.inj hm').1
        exact hm ⟨reply, hb⟩

theorem fate_of_poll (hs : s.station.Sound) (hn : s.station.Numbered) (hw : s.Waits agent r)
    (h : s.poll now rung = some s') (hs' : s'.Running) (hc : ¬ s.Withdraws agent r) :
    s.Fate agent r now s' := by
  cases ho : s.next? with
  | some order => exact fate_of_order hs hn hw h hs' hc ho
  | none => exact fate_of_no_order hs hn hw h hs' ho

/-! ### Runs -/

/-- A reply that waits no longer after a turn was waiting until a poll. -/
theorem poll_of_waits_over {t : Turn} (hw : s.Waits agent r) (h : ¬ (s.turn t).Waits agent r) :
    ∃ host now rung, t = .poll host now rung := by
  cases t with
  | order c => exact absurd (hw.order c) h
  | receive m => exact absurd (hw.receive m) h
  | close => exact absurd ⟨hw.running, hw.flight, hw.kept, hw.reply⟩ h
  | poll host now rung => exact ⟨host, now, rung, rfl⟩

/-- The first turn after which the reply waits no longer. -/
theorem exists_first_turn {l : List Turn} (hw : s.Waits agent r)
    (h : ¬ (s.turns l).Waits agent r) :
    ∃ l₁ t l₂, l = l₁ ++ t :: l₂ ∧ (∀ l', l' <+: l₁ → (s.turns l').Waits agent r) ∧
      ¬ ((s.turns l₁).turn t).Waits agent r := by
  induction l generalizing s with
  | nil => exact absurd hw h
  | cons t rest ih =>
    by_cases ht : (s.turn t).Waits agent r
    · obtain ⟨l₁, t', l₂, rfl, hl₁, hend⟩ := ih ht h
      refine ⟨t :: l₁, t', l₂, rfl, ?_, hend⟩
      intro l' hl'
      cases l' with
      | nil => exact hw
      | cons t'' l' =>
        obtain ⟨rfl, hp⟩ := List.cons_prefix_cons.1 hl'
        exact hl₁ l' hp
    · refine ⟨[], t, rest, rfl, ?_, ht⟩
      intro l' hl'
      rw [List.prefix_nil.1 hl']
      exact hw

theorem running_of_turns {l : List Turn} (h : (s.turns l).Running) : s.Running := by
  induction l generalizing s with
  | nil => exact h
  | cons t rest ih => exact running_of_turn (ih h)

/-- A task with an order to take up does so when it is polled. -/
theorem poll_of_next? [Host] {order : Order} (h : s.next? = some order) (now rung : Instant) :
    ∃ s', s.poll now rung = some s' := by
  unfold next? at h
  unfold poll
  cases ha : s.activity with
  | stopped | crashed fault | holding hold =>
    rw [ha] at h
    cases h
  | serving =>
    rw [ha] at h
    dsimp only at h ⊢
    cases hc : s.commands with
    | nil =>
      rw [hc] at h
      cases h
    | cons c rest => exact ⟨_, rfl⟩

theorem fate_of_turn (hs : s.Sound) (hw : s.Waits agent r)
    (hr : (s.turn (.poll host now rung)).Running) (hc : ¬ s.Withdraws agent r) :
    s.Fate agent r now (s.turn (.poll host now rung)) := by
  obtain ⟨hsound, hn⟩ := hs hw.running
  cases hp : s.poll now rung with
  | some s' =>
    rw [turn_poll_of_eq_some hp] at hr ⊢
    exact fate_of_poll hsound hn hw hp hr hc
  | none =>
    rw [turn_poll_of_eq_none hp]
    refine .waits ?_ ?_ hw
    · rintro ⟨order, ho, -⟩
      obtain ⟨s', hp'⟩ := poll_of_next? ho now rung
      rw [hp] at hp'
      cases hp'
    · intro ha
      obtain ⟨m, -, -, hm, -⟩ := ha.read
      exact absurd (congrArg List.length hm) (Nat.ne_of_lt (Nat.lt_succ_self _))

omit [Carrier τ] in
/-- The reply waits no longer once it is read, or the request is checked late. -/
theorem Fate.over (h : s.Fate agent r now s') (he : s.ChecksLate agent r now ∨
    s.Answered agent r now s') : ¬ s'.Waits agent r := by
  cases h with
  | late h hf => exact fun hw => hf hw.flight
  | answered h hf => exact fun hw => hf hw.flight
  | waits hl ha h => exact absurd he (not_or.2 ⟨hl, ha⟩)

end Polls

section Runs

variable [Carrier τ] {s : Service τ} {agent : AgentId} {r : Request} {l : List Turn}

/-- What a poll of a run makes of the reply that has been waiting so far. -/
theorem fate_of_run (hs : s.Sound) (hr : (s.turns l).Running) (hc : ¬ s.WithdrawnIn agent r l)
    {l₁ l₂ : List Turn} {host : Host} {now rung : Instant}
    (hl : l = l₁ ++ .poll host now rung :: l₂) (hw : ∀ l', l' <+: l₁ → (s.turns l').Waits agent r) :
    (s.turns l₁).Fate agent r now ((s.turns l₁).turn (.poll host now rung)) := by
  refine fate_of_turn (sound_of_turns hs l₁) (hw l₁ (List.prefix_refl _)) ?_ ?_
  · rw [hl, turns_append, turns_cons] at hr
    exact running_of_turns hr
  · exact fun h => hc ⟨l₁, host, now, rung, l₂, hl, hw, h⟩

/-- Only one turn can be the first after which a reply waits no longer. -/
theorem first_turn_unique {l₁ l₂ m₁ m₂ : List Turn} {t u : Turn}
    (h : l₁ ++ t :: l₂ = m₁ ++ u :: m₂)
    (hl : ∀ l', l' <+: l₁ → (s.turns l').Waits agent r)
    (hm : ∀ l', l' <+: m₁ → (s.turns l').Waits agent r)
    (ht : ¬ ((s.turns l₁).turn t).Waits agent r) (hu : ¬ ((s.turns m₁).turn u).Waits agent r) :
    l₁ = m₁ ∧ t = u := by
  have hp : l₁ ++ [t] <+: m₁ ++ u :: m₂ := ⟨l₂, by rw [← h, List.append_assoc]; rfl⟩
  have hq : m₁ ++ [u] <+: m₁ ++ u :: m₂ := ⟨m₂, by rw [List.append_assoc]; rfl⟩
  have ht : ¬ (s.turns (l₁ ++ [t])).Waits agent r := by
    rw [turns_append]
    exact ht
  have hu : ¬ (s.turns (m₁ ++ [u])).Waits agent r := by
    rw [turns_append]
    exact hu
  have he : l₁ ++ [t] = m₁ ++ [u] := by
    -- both are beginnings of the same turns, and the shorter one ends the wait
    rcases List.prefix_or_prefix_of_prefix hp hq with hpre | hpre
    · rcases List.prefix_concat_iff.1 hpre with he | hpre
      · exact he
      · exact absurd (hm _ hpre) ht
    · rcases List.prefix_concat_iff.1 hpre with he | hpre
      · exact he.symm
      · exact absurd (hl _ hpre) hu
  obtain ⟨he, ht⟩ := List.append_inj' he rfl
  exact ⟨he, (List.cons.inj ht).1⟩

/-- In a run of a single poll there is no other poll. -/
theorem during_poll {host : Host} {now rung : Instant}
    {P : Service τ → Instant → Service τ → Prop} :
    s.During agent r [.poll host now rung] P ↔
      s.Waits agent r ∧ P s now (s.turn (.poll host now rung)) := by
  constructor
  · rintro ⟨l₁, host', now', rung', l₂, hl, hw, h⟩
    cases l₁ with
    | nil =>
      obtain ⟨ht, -⟩ := List.cons.inj hl
      cases ht
      exact ⟨hw [] List.nil_prefix, h⟩
    | cons t rest =>
      obtain ⟨-, hrest⟩ := List.cons.inj hl
      exact absurd hrest.symm (List.append_ne_nil_of_right_ne_nil _ (List.cons_ne_nil _ _))
  · rintro ⟨hw, h⟩
    refine ⟨[], host, now, rung, [], rfl, ?_, h⟩
    intro l' hl'
    rw [List.prefix_nil.1 hl']
    exact hw

theorem withdrawnIn_poll {host : Host} {now rung : Instant} :
    s.WithdrawnIn agent r [.poll host now rung] ↔ s.Waits agent r ∧ s.Withdraws agent r :=
  during_poll

theorem checkedLateIn_poll {host : Host} {now rung : Instant} :
    s.CheckedLateIn agent r [.poll host now rung] ↔ s.Waits agent r ∧ s.ChecksLate agent r now :=
  during_poll

end Runs

end Service

/-- A reply that is there and not yet read finishes its request, unless an order that comes first
looks for overdue requests after its deadline.  No regular pass does so before the reply is read.

The turns `l` are what happens until the reply waits no longer, while the task goes on and no order
withdraws the request or removes its agent. -/
theorem waiting_reply_wins_iff {τ : Type} [Carrier τ] {s : Service τ} (hs : s.Reached)
    {agent : AgentId} {r : Request} (hw : s.Waits agent r) {l : List Turn}
    (hr : (s.turns l).Running) (hover : ¬ (s.turns l).Waits agent r)
    (hc : ¬ s.WithdrawnIn agent r l) :
    s.AnsweredIn agent r l ↔ ¬ s.CheckedLateIn agent r l := by
  constructor
  · rintro ⟨l₁, host, now, rung, l₂, hl, hw₁, ha⟩ ⟨m₁, host', now', rung', m₂, hm, hw₂, hlate⟩
    have hend := (Service.fate_of_run hs.sound hr hc hl hw₁).over (.inr ha)
    have hend' := (Service.fate_of_run hs.sound hr hc hm hw₂).over (.inl hlate)
    obtain ⟨rfl, -⟩ := Service.first_turn_unique (hl.symm.trans hm) hw₁ hw₂ hend hend'
    obtain ⟨order, ho, -⟩ := hlate
    rw [ha.no_order] at ho
    cases ho
  · intro hlate
    obtain ⟨l₁, t, l₂, hl, hw₁, hend⟩ := Service.exists_first_turn hw hover
    obtain ⟨host, now, rung, rfl⟩ :=
      Service.poll_of_waits_over (hw₁ l₁ (List.prefix_refl _)) hend
    cases Service.fate_of_run hs.sound hr hc hl hw₁ with
    | late h hf => exact absurd ⟨l₁, host, now, rung, l₂, hl, hw₁, h⟩ hlate
    | answered h hf => exact ⟨l₁, host, now, rung, l₂, hl, hw₁, h⟩
    | waits h ha hwaits => exact absurd hwaits hend

/-- A request is in flight, and the reply to it has come in. -/
def replyComes : List Turn :=
  [.receive (.heartbeat "alpha" 1), .poll .plain 0 0,
    .order ⟨.submit 1 1 (.expecting [7] 3) .normal 1, none⟩, .poll .plain 0 0,
    .receive (.accepted "alpha" 1 3)]

/-- After that, an order to check the deadlines comes in. -/
def checkComes : List Turn := replyComes ++ [.order ⟨.tick 2000000000, none⟩]

/-- The request that is in flight. -/
def onlyRequest : Request :=
  { Request.new 1 "alpha" 1 (.expecting [7] 3) .normal 1 0 with
    attempts := 1
    phase := .awaitingAck
    deadline := some 1000000000
    sentAt := some 0 }

/-- The service of a station on an empty pipe. -/
def pipeService : Service Pipe := .new (.new { id := "alpha" } (.new "up" 4) 0) 0

theorem reached_pipeService (history : List Turn) : (pipeService.turns history).Reached :=
  ⟨{ id := "alpha" }, .new "up" 4, 0, history, rfl⟩

theorem waits_pipeService (history : List Turn)
    (h : (pipeService.turns history).isOver = false ∧
      ((pipeService.turns history).station.queueOf 1).inFlight = some onlyRequest ∧
      (pipeService.turns history).station.id = "alpha" ∧
      (pipeService.turns history).inbox = [.accepted "alpha" 1 3]) :
    (pipeService.turns history).Waits 1 onlyRequest := by
  obtain ⟨hr, hf, hid, hi⟩ := h
  refine ⟨hr, hf, rfl, ?_⟩
  rw [hi, hid]
  exact ⟨_, List.mem_singleton.2 rfl, ⟨3, .accepted⟩, rfl, rfl, rfl, by decide⟩

/-- A poll after the deadline reads the reply, and the request is answered.  If an order to check
the deadlines has come in as well, the same poll gives the request up. -/
theorem waiting_reply_wins_iff_onlyRequest :
    (pipeService.turns replyComes).AnsweredIn 1 onlyRequest [.poll .plain 2000000000 0] ∧
      ¬ (pipeService.turns checkComes).AnsweredIn 1 onlyRequest [.poll .plain 2000000000 0] := by
  have hw := waits_pipeService replyComes (by decide +kernel)
  have hw' := waits_pipeService checkComes (by decide +kernel)
  have hn : (pipeService.turns replyComes).next?.isNone = true := by decide +kernel
  have hn' : (pipeService.turns checkComes).next?.any (· matches .tick 2000000000) = true := by
    decide +kernel
  constructor
  · refine (waiting_reply_wins_iff (reached_pipeService replyComes) hw ?_ ?_ ?_).2 ?_
    · unfold Service.Running
      decide +kernel
    · intro h
      exact absurd h.flight (by decide +kernel)
    · intro h
      obtain ⟨-, order, ho, -⟩ := Service.withdrawnIn_poll.1 h
      have ho : (pipeService.turns replyComes).next? = some order := ho
      rw [ho] at hn
      cases hn
    · intro h
      obtain ⟨-, order, ho, -⟩ := Service.checkedLateIn_poll.1 h
      have ho : (pipeService.turns replyComes).next? = some order := ho
      rw [ho] at hn
      cases hn
  · intro ha
    obtain ⟨order, ho, horder⟩ := Option.any_eq_true .. |>.1 hn'
    refine (waiting_reply_wins_iff (reached_pipeService checkComes) hw' ?_ ?_ ?_).1 ha ?_
    · unfold Service.Running
      decide +kernel
    · intro h
      exact absurd h.flight (by decide +kernel)
    · intro h
      obtain ⟨-, order', ho', hwd⟩ := Service.withdrawnIn_poll.1 h
      obtain rfl := Option.some.inj (ho.symm.trans ho')
      split at horder
      · exact hwd
      · cases horder
    · refine Service.checkedLateIn_poll.2 ⟨hw', order, ho, ?_⟩
      split at horder
      · show onlyRequest.overdue 2000000000 = true
        decide
      · cases horder

end GroundControl
