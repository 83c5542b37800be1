import GroundControl.Proofs.Pump.Landing
import GroundControl.Proofs.Station.Queues

/-!
# The ledger of a station

Everything a station posts about its traffic while its state changes: the requests that are taken
in, the frames that are handed to the link with the requests they are of, the requests that end, the
broadcasts, and the tokens that are denied.  Each counter of the station changes by what is posted.

* `unicasts`, `airings`, the frames for one agent and those for all of them; `Frame.Carries`, the
  frame of a request;
* `Ledger`, and `Ledger.Bills`: what it makes of the link;
* `Posts`, a change of a station with its ledger; `Posts.trans`;
* `Move.posts`, `Course.posts`, for all that happens to requests;
* `posts_broadcastRounds`, for broadcasts;
* `perform_accounts`, for every operation.
-/

namespace GroundControl

/-- Whether a frame is for one agent. -/
def Sending.isUnicast (f : Sending) : Bool := f.1.destination != .everyone

/-- Whether the link took a frame. -/
def Sending.isTaken (f : Sending) : Bool := f.2.isOk

/-- The frames for one agent that were handed to the link. -/
def unicasts (effects : List Effect) : List Sending := (sendings effects).filter Sending.isUnicast

/-- The frames for all agents that were handed to the link. -/
def airings (effects : List Effect) : List Sending :=
  (sendings effects).filter (!Sending.isUnicast ·)

/-- A frame of a network carries the command of a request to its agent. -/
structure Frame.Carries (network : NetworkId) (f : Frame) (r : Request) : Prop where
  network : f.network = network
  destination : f.destination = .agent r.agent
  body : f.body = r.payload.body
  key : f.key = r.payload.key

theorem Frame.Carries.isUnicast {network : NetworkId} {x : Shipment}
    (h : x.frame.Carries network x.request) : Sending.isUnicast x.sending = true := by
  unfold Sending.isUnicast Shipment.sending
  rw [h.destination]
  rfl

/-- What a station posts of its traffic. -/
structure Ledger where
  /-- the requests that are taken in -/
  fresh : List Request := []
  /-- the frames for one agent -/
  sent : List Shipment := []
  ended : List Finished := []
  /-- the requests that end -/
  gone : List Request := []
  /-- the frames for all agents -/
  aired : List Sending := []
  /-- the tokens that are denied -/
  denied : Nat := 0
  /-- the broadcasts that are given up -/
  limited : Nat := 0

namespace Ledger

instance : Append Ledger where
  append l m := {
    fresh := l.fresh ++ m.fresh
    sent := l.sent ++ m.sent
    ended := l.ended ++ m.ended
    gone := l.gone ++ m.gone
    aired := l.aired ++ m.aired
    denied := l.denied + m.denied
    limited := l.limited + m.limited }

theorem fresh_append (l m : Ledger) : (l ++ m).fresh = l.fresh ++ m.fresh := rfl

theorem sent_append (l m : Ledger) : (l ++ m).sent = l.sent ++ m.sent := rfl

/-- The frames of an agent that the link refused. -/
def refused (l : Ledger) (agent : AgentId) : Nat :=
  l.sent.countP fun x => decide (x.request.agent = agent) && !x.taken

theorem refused_append (l m : Ledger) (agent : AgentId) :
    (l ++ m).refused agent = l.refused agent + m.refused agent :=
  List.countP_append

theorem refused_of_forall_ne {l : Ledger} {agent : AgentId}
    (h : ∀ x ∈ l.sent, x.request.agent ≠ agent) : l.refused agent = 0 := by
  refine List.countP_eq_zero.2 fun x hx hc => ?_
  rw [decide_eq_false (h x hx)] at hc
  cases hc

/-- What a ledger makes of the link. -/
structure Bills (l : Ledger) (w w' : Wire) : Prop where
  frames : ∃ frames, w'.frames = w.frames ++ frames ∧
    frames.filter Sending.isUnicast = l.sent.map Shipment.sending ∧
      frames.filter (!Sending.isUnicast ·) = l.aired
  taken : w'.traffic.unicastSent = w.traffic.unicastSent + l.sent.countP Shipment.taken
  refused : w'.traffic.sendFailures = w.traffic.sendFailures + l.sent.countP (!·.taken)
  retries : w'.traffic.retries = w.traffic.retries + l.sent.countP Shipment.repeated
  broadcasts : w'.traffic.broadcasts.total =
    w.traffic.broadcasts.total + l.aired.countP Sending.isTaken
  limited : w'.traffic.broadcastsRateLimited = w.traffic.broadcastsRateLimited + l.limited
  toll : tokens w'.throttle = (tokens w.throttle).map fun t =>
    (t.1 + (l.sent.countP Shipment.bulk + l.aired.length), t.2 + l.denied)

/-- Whatever happens to requests without a frame leaves the link as it is. -/
theorem bills_of_eq {w w' : Wire} (h : w' = w) (fresh : List Request) (ended : List Finished)
    (gone : List Request) : Bills { fresh, ended, gone } w w' := by
  subst h
  exact {
    frames := ⟨[], (List.append_nil _).symm, rfl, rfl⟩
    taken := rfl
    refused := rfl
    retries := rfl
    broadcasts := rfl
    limited := rfl
    toll := (congrFun Option.map_id (tokens w'.throttle)).symm }

/-- A link that nothing is handed to: tokens are denied, and broadcasts are given up. -/
theorem bills_of_unsent {w w' : Wire} {denied limited : Nat} (hf : w'.frames = w.frames)
    (hc : w'.traffic = { w.traffic with
      broadcastsRateLimited := w.traffic.broadcastsRateLimited + limited })
    (ht : tokens w'.throttle = (tokens w.throttle).map fun t => (t.1, t.2 + denied)) :
    Bills { denied, limited } w w' where
  frames := ⟨[], by rw [hf, List.append_nil], rfl, rfl⟩
  taken := by rw [hc]; rfl
  refused := by rw [hc]; rfl
  retries := by rw [hc]; rfl
  broadcasts := by rw [hc]; rfl
  limited := by rw [hc]
  toll := ht

theorem Bills.trans {l m : Ledger} {u v w : Wire} (h : l.Bills u v) (h' : m.Bills v w) :
    (l ++ m).Bills u w where
  frames := by
    obtain ⟨x, hx, hu, ha⟩ := h.frames
    obtain ⟨y, hy, hu', ha'⟩ := h'.frames
    refine ⟨x ++ y, by rw [hy, hx, List.append_assoc], ?_, ?_⟩
    · rw [List.filter_append, hu, hu', sent_append, List.map_append]
    · rw [List.filter_append, ha, ha']
      rfl
  taken := by rw [h'.taken, h.taken, sent_append, List.countP_append, Nat.add_assoc]
  refused := by rw [h'.refused, h.refused, sent_append, List.countP_append, Nat.add_assoc]
  retries := by rw [h'.retries, h.retries, sent_append, List.countP_append, Nat.add_assoc]
  broadcasts := by
    show _ = _ + (l.aired ++ m.aired).countP _
    rw [h'.broadcasts, h.broadcasts, List.countP_append, Nat.add_assoc]
  limited := by
    show _ = _ + (l.limited + m.limited)
    rw [h'.limited, h.limited, Nat.add_assoc]
  toll := by
    show _ = (tokens u.throttle).map fun t =>
      (t.1 + ((l.sent ++ m.sent).countP Shipment.bulk + (l.aired ++ m.aired).length),
        t.2 + (l.denied + m.denied))
    rw [h'.toll, h.toll, Option.map_map, List.countP_append, List.length_append]
    refine congrFun (congrArg Option.map (funext fun t => Prod.ext ?_ ?_)) _
    · show t.1 + _ + _ = t.1 + _
      omega
    · show t.2 + _ + _ = t.2 + _
      omega

end Ledger

namespace Backlog

theorem Settled.viable {b : Backlog} (h : b.Settled) : b.Viable where
  waiting r hr := ⟨.inl (h.waiting r hr).phase, (h.waiting r hr).attempts⟩
  inFlight r hr := ⟨.inr (h.inFlight r hr).phase, (h.inFlight r hr).attempts⟩

end Backlog

namespace Station

variable {τ : Type}

/-- A change of a station with its ledger. -/
structure Posts (s : Station τ) (l : Ledger) (s' : Station τ) : Prop where
  transfer : Transfer s (l.fresh.map Request.ident) l.ended s'
  turnover : Turnover (s.requests ++ l.fresh) l.sent l.ended l.gone s'.requests
  bill : l.Bills s.wire s'.wire
  framed : ∀ x ∈ l.sent, x.frame.Carries s.id x.request

theorem Posts.trans {s t u : Station τ} {l m : Ledger} (h : Posts s l t) (h' : Posts t m u) :
    Posts s (l ++ m) u where
  transfer := by
    rw [Ledger.fresh_append, List.map_append]
    exact h.transfer.trans h'.transfer
  turnover := by
    have hl : Turnover (s.requests ++ l.fresh ++ m.fresh) l.sent l.ended l.gone
        (t.requests ++ m.fresh) := h.turnover.frame (.refl _) (.refl _)
    rw [List.append_assoc] at hl
    exact hl.trans h'.turnover
  bill := h.bill.trans h'.bill
  framed := by
    have hid : t.id = s.id := congrArg NetworkSettings.id h.transfer.settings
    exact List.forall_mem_append.2 ⟨h.framed, hid ▸ h'.framed⟩

theorem Posts.of_quiet {s s' : Station τ} {aired : List Sending} {denied limited : Nat}
    (h : Quiet s s') (hb : Ledger.Bills { aired, denied, limited } s.wire s'.wire) :
    Posts s { aired, denied, limited } s' where
  transfer := .of_quiet h
  turnover := by
    rw [List.append_nil]
    exact .of_perm (h.requests.symm.map Request.entry)
  bill := hb
  framed := List.forall_mem_nil _

theorem Still.posts {s s' : Station τ} (h : Still s s') : Posts s {} s' :=
  .of_quiet h.quiet (Ledger.bills_of_eq h.wire [] [] [])

theorem Posts.refl (s : Station τ) : Posts s {} s := (Still.refl s).posts

/-! ### What each move posts -/

/-- The turnover of one backlog is the turnover of the station. -/
theorem turnover_of_replaced {s s' : Station τ} {agent : AgentId} {a : Agent} {b : Backlog}
    {fresh gone : List Request} {sent : List Shipment} {ended : List Finished}
    (ha : s.agents.get? agent = some a) (hs : s'.agents = (s.setBacklog agent b).agents)
    (ht : Turnover ((s.queueOf agent).requests ++ fresh) sent ended gone b.requests) :
    Turnover (s.requests ++ fresh) sent ended gone s'.requests := by
  have hr : (s.setBacklog agent b).requests = s'.requests := by
    unfold requests
    rw [hs]
  have hbefore := requests_perm_of_get? ha
  rw [requests_queueOf ha] at hbefore
  refine ht.frame ?_ (hr ▸ requests_setBacklog ha b)
  -- the requests of the other agents stand on both sides
  refine (hbefore.append_right fresh).trans ?_
  rw [List.append_assoc, List.append_assoc]
  exact List.perm_append_comm.append_left _

theorem posts_admitted {s : Station τ} (hs : s.Sound) {a : Agent} {r : Request} {b : Backlog}
    (ha : s.agents.get? r.agent = some a) (hr : r.Waiting) (ht : r.ticket = s.tickets)
    (hb : (s.queueOf r.agent).submit r = some b) :
    Posts s { fresh := [r] } (s.admitted r b) where
  transfer := (transfer_admitted hs ha hr ht hb).2
  turnover := by
    refine turnover_of_replaced ha rfl (.of_perm (List.Perm.map Request.entry ?_))
    exact (List.perm_append_singleton r _).trans (Backlog.requests_submit_perm hb).symm
  bill := Ledger.bills_of_eq rfl [r] [] []
  framed := List.forall_mem_nil _

theorem posts_answered {s : Station τ} (hs : s.Sound) {agent : AgentId} {b b' : Backlog}
    {key : ReplyKey} {verdict : Verdict} {found : Match} {now : Instant}
    (estimator : Estimator TrafficClass) (hb : s.backlogOf agent = some b)
    (ha : b.answer key verdict now = (some found, b'))
    (hw : (s.answered agent b' found estimator now).wire = s.wire) :
    ∃ gone, Posts s { ended := [found.finished], gone }
      (s.answered agent b' found estimator now) := by
  obtain ⟨a, hg⟩ := exists_of_backlogOf hb
  have hq := queueOf_of_backlogOf hb
  have hset : b.Settled := hq ▸ hs.settled agent
  have hp := (Backlog.passage_answer hset.viable key verdict now).1
  rw [ha] at hp
  obtain ⟨gone, ht⟩ := Turnover.of_passage hp hset.viable
    (List.forall_mem_singleton.2 (Backlog.not_oneWay_of_answer hset ha))
  refine ⟨gone, (transfer_answered hs estimator hb ha).2, ?_, Ledger.bills_of_eq hw [] _ gone,
    List.forall_mem_nil _⟩
  refine turnover_of_replaced hg rfl ?_
  rw [List.append_nil, hq]
  exact ht

theorem posts_withdrawn {s : Station τ} (hs : s.Sound) {agent : AgentId} {b : Backlog}
    (request : RequestId) (hb : s.backlogOf agent = some b) :
    ∃ gone, Posts s { gone } (s.setBacklog agent (b.withdraw request).2) := by
  obtain ⟨a, hg⟩ := exists_of_backlogOf hb
  have hq := queueOf_of_backlogOf hb
  have hv : b.Viable := (hq ▸ hs.settled agent).viable
  obtain ⟨gone, ht⟩ := Turnover.of_passage (Backlog.passage_withdraw hv request).1 hv
    (List.forall_mem_nil _)
  refine ⟨gone, (transfer_withdrawn hs request hb).2, ?_, Ledger.bills_of_eq rfl [] [] gone,
    List.forall_mem_nil _⟩
  refine turnover_of_replaced hg rfl ?_
  rw [List.append_nil, hq]
  exact ht

theorem posts_removed {s : Station τ} (hs : s.Sound) {agent : AgentId} {a : Agent} (now : Instant)
    (ha : s.agents.get? agent = some a) (hw : (s.removed agent a now).wire = s.wire) :
    ∃ gone, Posts s { ended := (dissolved a).1, gone } (s.removed agent a now) := by
  have hgone : ∃ gone, Turnover a.requests [] (dissolved a).1 gone [] := by
    have hset := hs.settled agent
    rw [queueOf_of_get? ha] at hset
    unfold dissolved Agent.requests
    cases hb : a.backlog with
    | none => exact ⟨[], .refl []⟩
    | some b =>
      rw [hb, Option.getD_some] at hset
      have hv : b.Viable := Backlog.Settled.viable hset
      have ho : ∀ f ∈ b.dissolve.1, ¬ f.outcome.OneWay := by
        rw [Backlog.dissolve_eq hset]
        exact List.forall_mem_map.2 fun _ _ => not_false
      obtain ⟨gone, ht⟩ := Turnover.of_passage (Backlog.passage_dissolve hv).1 hv ho
      have hn : b.dissolve.2.requests = [] := by
        rw [Backlog.dissolve_eq hset]
        rfl
      exact ⟨gone, hn ▸ ht⟩
  obtain ⟨gone, ht⟩ := hgone
  refine ⟨gone, (transfer_removed hs now ha).2, ?_, Ledger.bills_of_eq hw [] _ gone,
    List.forall_mem_nil _⟩
  rw [List.append_nil]
  exact ht.frame (requests_perm_of_get? ha) (.refl _)

section Moves

variable [Carrier τ] {now : Instant} {s s' : Station τ}

/-- What a pump hands to the link of an agent with a backlog, and whether it was denied a token. -/
theorem posts_pumped (hs : s.Sound) {agent : AgentId} {b : Backlog} {p : Pass τ}
    (hb : s.backlogOf agent = some b)
    (hp : Pass.run (s.passContext agent now) (s.firstPass b now) = (none, p)) :
    ∃ sent gone, Posts s { sent, ended := p.finished, gone, denied := p.starved.toNat }
        (s.pumped agent p now) ∧
      (∀ x ∈ sent, x.request.agent = agent) ∧ p.refused = sent.countP (!·.taken) := by
  obtain ⟨a, hg⟩ := exists_of_backlogOf hb
  have hq := queueOf_of_backlogOf hb
  have hset : b.Settled := hq ▸ hs.settled agent
  have hwaited : ∀ f ∈ (b.review now).1, ¬ f.outcome.OneWay := by
    intro f hf
    obtain ⟨r, rfl | rfl⟩ := Backlog.end_of_review hset hf
    · exact not_false
    · exact not_false
  obtain ⟨gone, hreview⟩ := Turnover.of_passage (Backlog.passage_review hset.viable now).1
    hset.viable hwaited
  obtain ⟨sent, hships⟩ := Pass.ships_rounds (sound_firstPass (s := s) hset now).1 rfl
    (Nat.le_refl _) hp
  obtain ⟨ended, gone', hended, hrounds⟩ := hships.turnover
  have ht := hreview.trans hrounds
  have hended : (b.review now).1 ++ ended = p.finished := hended.symm
  rw [List.nil_append, Backlog.Response.finished, hended] at ht
  -- the senders are among the requests of the agent
  have hagent : ∀ x ∈ sent, x.request.agent = agent := by
    intro x hx
    obtain ⟨r, hr, ho⟩ := List.mem_map.1 (ht.senders x hx)
    have ha : r.origin.agent = x.request.origin.agent := congrArg Request.agent ho
    have ha : r.agent = x.request.agent := ha
    rw [← ha]
    exact hs.placed agent r.ident (hq ▸ List.mem_map_of_mem hr)
  have hframed : ∀ x ∈ sent, x.frame.Carries s.id x.request := by
    intro x hx
    rw [hships.framed x hx]
    exact ⟨rfl, congrArg Destination.agent (hagent x hx).symm, rfl, rfl⟩
  refine ⟨sent, gone ++ gone', ⟨(transfer_pumped hs hb hp).2, ?_, ?_, hframed⟩, hagent, ?_⟩
  · refine turnover_of_replaced hg rfl ?_
    rw [List.append_nil, hq]
    exact ht
  · have hframes : p.frames = sent.map Shipment.sending := hships.frames
    have hunicast : ∀ f ∈ p.frames, Sending.isUnicast f = true := by
      rw [hframes]
      exact List.forall_mem_map.2 fun x hx => (hframed x hx).isUnicast
    rw [wire_pumped]
    refine ⟨⟨p.frames, rfl, ?_, ?_⟩, ?_, ?_, ?_, rfl, rfl, hships.toll⟩
    · rw [List.filter_eq_self.2 hunicast, hframes]
    · exact List.filter_eq_nil_iff.2 fun f hf => by rw [hunicast f hf]; exact Bool.false_ne_true
    · exact congrArg _ (hships.taken.trans (Nat.zero_add _))
    · exact congrArg _ (hships.refused.trans (Nat.zero_add _))
    · exact congrArg _ (hships.retries.trans (Nat.zero_add _))
  · rw [hships.refused]
    exact Nat.zero_add _

/-- A ledger of actions alone: no request is taken in, nothing is broadcast, the frames are those of
the agents that are moved, and a token is denied for each of them that stopped for lack of one. -/
structure Routine (actions : List Action) (l : Ledger) (s' : Station τ) : Prop where
  fresh : l.fresh = []
  aired : l.aired = []
  limited : l.limited = 0
  senders : ∀ x ∈ l.sent, .pump x.request.agent ∈ actions
  denied : l.denied = (actions.filterMap Action.pumped?).countP fun agent =>
    (s'.queueOf agent).starved (l.refused agent)

omit [Carrier τ] in
theorem routine_of_unpumped {a : Action} (ha : a.pumped? = none) (s' : Station τ)
    (ended : List Finished) (gone : List Request) : Routine [a] { ended, gone } s' where
  fresh := rfl
  aired := rfl
  limited := rfl
  senders := List.forall_mem_nil _
  denied := by
    rw [List.filterMap_cons_none ha]
    rfl

/-- What a move posts that takes no request in. -/
theorem Move.posts {a : Action} (h : Move now a s s') (hs : s.Sound) (ha : a.fresh = []) :
    ∃ l, Posts s l s' ∧ Routine [a] l s' := by
  have hw := h.wire
  cases h with
  | enter => cases ha
  | @answer _ agent _ _ _ _ _ estimator hb hans =>
    obtain ⟨gone, hp⟩ := posts_answered hs estimator hb hans (hw nofun)
    exact ⟨_, hp, routine_of_unpumped rfl _ _ _⟩
  | @pump _ agent b p hb hp =>
    obtain ⟨sent, gone, hposts, hagent, hrefused⟩ := posts_pumped hs hb hp
    refine ⟨_, hposts, rfl, rfl, rfl, fun x hx => ?_, ?_⟩
    · rw [hagent x hx]
      exact List.mem_cons_self
    · have hq := queueOf_pumped hb p now
      have hc : sent.countP (fun x => decide (x.request.agent = agent) && !x.taken) =
          p.refused := by
        rw [hrefused]
        refine List.countP_congr fun x hx => ?_
        rw [hagent x hx, decide_eq_true rfl, Bool.true_and]
      have hstarved : ((s.pumped agent p now).queueOf agent).starved (Ledger.refused
          { sent, ended := p.finished, gone, denied := p.starved.toNat } agent) = p.starved := by
        rw [hq]
        exact congrArg p.backlog.starved hc
      show p.starved.toNat = [agent].countP fun agent =>
        ((s.pumped agent p now).queueOf agent).starved (Ledger.refused _ agent)
      rw [List.countP_singleton, hstarved]
      cases p.starved <;> rfl
  | @idle _ agent hb =>
    refine ⟨_, .refl s, rfl, rfl, rfl, List.forall_mem_nil _, ?_⟩
    show 0 = [agent].countP fun agent => (s.queueOf agent).starved _
    rw [List.countP_singleton, queueOf_of_backlogOf_eq_none hb]
    rfl
  | withdraw hp hb =>
    obtain ⟨gone, hp⟩ := posts_withdrawn hs _ hb
    exact ⟨_, hp, routine_of_unpumped rfl _ _ _⟩
  | remove hr =>
    obtain ⟨gone, hp⟩ := posts_removed hs now hr (hw nofun)
    exact ⟨_, hp, routine_of_unpumped rfl _ _ _⟩
  | gone | unknown => exact ⟨_, .refl s, routine_of_unpumped rfl _ _ _⟩

/-- What is pumped later leaves an agent as it is, and hands nothing over for it. -/
theorem Routine.starved_eq {l : List Action} {m : Ledger} {s₁ s' : Station τ}
    (h : Routine l m s') (hm : Moves now l s₁ s') {agent : AgentId}
    (ha : ∀ b ∈ l, b.Avoids agent) (n : Nat) :
    (s'.queueOf agent).starved (n + m.refused agent) = (s₁.queueOf agent).starved n := by
  have hn : m.refused agent = 0 := by
    refine Ledger.refused_of_forall_ne fun x hx he => ?_
    obtain ⟨other, hother, hne⟩ := ha _ (h.senders x hx)
    exact hne ((Option.some.inj hother).symm.trans he)
  rw [hn, hm.queueOf_of_avoids ha, Nat.add_zero]

/-- A ledger of one action, which comes before the others. -/
theorem Routine.cons {a : Action} {l : List Action} {s₁ s' : Station τ} {m₁ m₂ : Ledger}
    (h₁ : Routine [a] m₁ s₁) (h₂ : Routine l m₂ s') (hm : Moves now l s₁ s')
    (ho : ∀ b ∈ l, ∀ agent, a = .pump agent → b.Avoids agent) :
    Routine (a :: l) ({} ++ m₁ ++ m₂) s' := by
  have hsender : ∀ x ∈ m₁.sent, a = .pump x.request.agent := fun x hx =>
    (List.mem_singleton.1 (h₁.senders x hx)).symm
  -- the frames of the agents that are moved later are all in the later ledger
  have hlater : ∀ agent, .pump agent ∈ l → m₁.refused agent = 0 := by
    intro agent hm
    refine Ledger.refused_of_forall_ne fun x hx he => ?_
    obtain ⟨other, hother, hne⟩ := ho _ hm x.request.agent (hsender x hx)
    exact hne (he ▸ (Option.some.inj hother).symm)
  have hrefused : ∀ agent, ({} ++ m₁ ++ m₂ : Ledger).refused agent =
      m₁.refused agent + m₂.refused agent := by
    intro agent
    rw [Ledger.refused_append, Ledger.refused_append]
    exact congrArg (· + m₂.refused agent) (Nat.zero_add _)
  have hrest : (l.filterMap Action.pumped?).countP (fun agent =>
      (s'.queueOf agent).starved (({} ++ m₁ ++ m₂ : Ledger).refused agent)) = m₂.denied := by
    rw [h₂.denied]
    refine List.countP_congr fun agent hm => ?_
    rw [hrefused, hlater agent (mem_pumped.1 hm), Nat.zero_add]
  have hdenied : ({} ++ m₁ ++ m₂ : Ledger).denied = m₁.denied + m₂.denied :=
    congrArg (· + m₂.denied) (Nat.zero_add _)
  refine ⟨?_, ?_, ?_, ?_, ?_⟩
  · show [] ++ m₁.fresh ++ m₂.fresh = []
    rw [h₁.fresh, h₂.fresh]
    rfl
  · show [] ++ m₁.aired ++ m₂.aired = []
    rw [h₁.aired, h₂.aired]
    rfl
  · show 0 + m₁.limited + m₂.limited = 0
    rw [h₁.limited, h₂.limited]
  · show ∀ x ∈ [] ++ m₁.sent ++ m₂.sent, _
    rw [List.nil_append]
    refine List.forall_mem_append.2 ⟨fun x hx => ?_, fun x hx => ?_⟩
    · rw [hsender x hx]
      exact List.mem_cons_self
    · exact List.mem_cons_of_mem _ (h₂.senders x hx)
  · rw [hdenied, h₁.denied, ← hrest]
    cases ha : a.pumped? with
    | none =>
      rw [List.filterMap_cons_none ha, List.filterMap_cons_none ha, List.filterMap_nil,
        List.countP_nil, Nat.zero_add]
    | some agent =>
      obtain rfl : a = .pump agent := by
        cases a with
        | pump => exact congrArg Action.pump (Option.some.inj ha)
        | enter | answer | withdraw | remove => cases ha
      have hfirst := h₂.starved_eq hm (fun b hb => ho b hb agent rfl) (m₁.refused agent)
      rw [← hrefused] at hfirst
      rw [List.filterMap_cons_some ha, List.filterMap_cons_some ha, List.filterMap_nil,
        List.countP_cons, List.countP_nil, Nat.zero_add, Nat.add_comm, ← hfirst]
      exact List.countP_cons.symm

/-- What a course posts in which no request is taken in. -/
theorem Course.posts {l : List Action} (h : Course now l s s') (hs : s.Sound)
    (hl : ∀ a ∈ l, a.fresh = []) (ho : Ordered l) : ∃ m, Posts s m s' ∧ Routine l m s' := by
  induction l generalizing s with
  | nil =>
    exact ⟨_, h.of_nil.posts, rfl, rfl, rfl, List.forall_mem_nil _, rfl⟩
  | cons a l ih =>
    obtain ⟨s₁, s₂, hstill, hmove, hrest⟩ := h.of_cons
    obtain ⟨ha, hl⟩ := List.forall_mem_cons.1 hl
    obtain ⟨hfirst, ho⟩ := List.pairwise_cons.1 ho
    have hs₁ := hs.of_queueOf hstill.quiet.queue
    obtain ⟨m₁, hp₁, hr₁⟩ := hmove.posts hs₁ ha
    obtain ⟨m₂, hp₂, hr₂⟩ := ih hrest (hmove.transfer hs₁).1 hl ho
    refine ⟨_, (hstill.posts.trans hp₁).trans hp₂, ?_⟩
    exact hr₁.cons hr₂ hrest.moves fun b hb agent ha => avoids_of_pump (hfirst b hb agent ha)

/-! ### What a broadcast posts -/

/-- A broadcast that was paid for is handed to the link; it is counted if the link takes it. -/
theorem bills_transmitAll (t : Station τ) (bulletin : Bulletin) (throttle : Option (Bucket Float))
    (ht : tokens t.throttle = (tokens throttle).map fun x => (x.1 + 1, x.2)) :
    ∃ f, Ledger.Bills { aired := [f] } ⟨throttle, t.wire.traffic, t.wire.frames⟩
      (transmitAll bulletin t).2.wire := by
  unfold transmitAll
  dsimp only
  cases Carrier.send t.carrier ⟨t.id, .everyone, bulletin.body, none, t.epoch⟩ with
  | mk answer carrier =>
    refine ⟨(⟨t.id, .everyone, bulletin.body, none, t.epoch⟩, answer), ?_⟩
    cases answer with
    | error e =>
      exact {
        frames := ⟨_, sendings_append .., rfl, rfl⟩
        taken := rfl
        refused := rfl
        retries := rfl
        broadcasts := rfl
        limited := rfl
        toll := ht }
    | ok _ =>
      have hlog := sendings_append t.log
        [.sent ⟨t.id, .everyone, bulletin.body, none, t.epoch⟩ (.ok ()),
          .measured (.broadcasts t.id bulletin.kind) .count]
      rw [List.append_cons] at hlog
      exact {
        frames := ⟨_, hlog, rfl, rfl⟩
        taken := rfl
        refused := rfl
        retries := rfl
        broadcasts := BroadcastTally.total_record t.tally.broadcasts bulletin.kind
        limited := rfl
        toll := ht }

/-- What an attempt at a broadcast posts: a frame, a token that is denied, or nothing as long as the
broadcast waits for a token. -/
theorem posts_tryBroadcast {bulletin : Bulletin} {deadline : Instant} {attempt : Attempt Unit}
    (h : tryBroadcast bulletin deadline now s = .ok attempt s') :
    ∃ aired denied limited, Posts s { aired, denied, limited } s' ∧ denied = limited ∧
      ∀ ready, attempt = .wait ready → now < ready ∧ ready ≤ deadline := by
  have hq := quiet_tryBroadcast h
  unfold tryBroadcast at h
  rw [Act.get_bind] at h
  cases ht : s.throttle with
  | none =>
    rw [ht] at h
    obtain ⟨f, hb⟩ := bills_transmitAll s bulletin s.throttle (by rw [ht]; rfl)
    cases h
    exact ⟨_, _, _, .of_quiet hq hb, rfl, nofun⟩
  | some bucket =>
    have htokens : tokens s.throttle = some bucket.dealt := congrArg tokens ht
    have hdealt : ∀ claim bucket', bucket.claim 1 deadline now = (.ok claim, bucket') →
        claim.Deals 1 deadline now bucket.dealt bucket'.dealt := fun _ _ => bucket.dealt_claim
    rw [ht] at h
    dsimp only at h
    generalize bucket.claim 1 deadline now = result at h hdealt
    obtain ⟨result, bucket'⟩ := result
    obtain ⟨⟨⟩, s₁, hs, h⟩ := Act.bind_eq_ok.1 h
    cases hs
    cases result with
    | error fault => cases h
    | ok claim =>
      have hd := hdealt claim bucket' rfl
      cases claim with
      | granted =>
        have hpaid : tokens (some bucket') = (tokens s.throttle).map fun x => (x.1 + 1, x.2) := by
          rw [htokens]
          exact congrArg some hd
        obtain ⟨f, hb⟩ :=
          bills_transmitAll { s with throttle := some bucket' } bulletin s.throttle hpaid
        cases h
        exact ⟨_, _, _, .of_quiet hq hb, rfl, nofun⟩
      | denied =>
        have hdenied : tokens (some bucket') = (tokens s.throttle).map fun x => (x.1, x.2 + 1) := by
          rw [htokens]
          exact congrArg some hd
        cases h
        exact ⟨[], 1, 1, .of_quiet hq (Ledger.bills_of_unsent rfl rfl hdenied), rfl, nofun⟩
      | wait ready =>
        obtain ⟨hsame, hready⟩ := hd
        have hkept : tokens (some bucket') = (tokens s.throttle).map fun x => (x.1, x.2 + 0) := by
          rw [htokens, tokens, Option.map_some, hsame]
          rfl
        cases h
        refine ⟨[], 0, 0, .of_quiet hq (Ledger.bills_of_unsent rfl rfl hkept), rfl, fun t he => ?_⟩
        cases he
        exact hready

/-- What the attempts at a broadcast post.  If no sleeper wakes too early there are enough of them,
and the broadcast is given up only if a token is denied. -/
theorem posts_broadcastRounds {wake : Instant → Instant} {bulletin : Bulletin} {n : Nat}
    {deadline : Instant} {answer : Except DispatchError Unit × Instant}
    (h : broadcastRounds wake bulletin deadline n now s = .ok answer s') :
    ∃ aired denied limited, Posts s { aired, denied, limited } s' ∧
      ((∀ t, t ≤ wake t) → 0 < n → deadline + 2 ≤ now + n → denied = limited) := by
  induction n generalizing s now with
  | zero =>
    have hb : Ledger.Bills { denied := 0, limited := 1 } s.wire (rateLimited s).2.wire :=
      Ledger.bills_of_unsent rfl rfl (congrFun Option.map_id (tokens s.throttle)).symm
    cases h
    exact ⟨_, _, _, .of_quiet (quiet_rateLimited s) hb, fun _ h0 => absurd h0 (Nat.lt_irrefl 0)⟩
  | succ n ih =>
    unfold broadcastRounds at h
    obtain ⟨attempt, s₁, ht, h⟩ := Act.bind_eq_ok.1 h
    obtain ⟨aired, denied, limited, hp, hd, hready⟩ := posts_tryBroadcast ht
    cases attempt with
    | done answer =>
      cases h
      exact ⟨_, _, _, hp, fun _ _ _ => hd⟩
    | wait ready =>
      obtain ⟨aired', denied', limited', hp', hd'⟩ := ih h
      refine ⟨_, _, _, hp.trans hp', fun hwake _ hn => ?_⟩
      obtain ⟨hlt, hle⟩ := hready ready rfl
      have hw := hwake ready
      -- the clock has moved on by one at least, and it stayed before the deadline
      rw [hd, hd' hwake (by unfold Instant at *; omega) (by unfold Instant at *; omega)]

end Moves

end Station

/-! ### What an operation posts -/

/-- No sleeper of an operation wakes too early. -/
def Operation.Punctual : Operation → Prop
  | .broadcast wake _ _ _ | .correction wake _ _ _ _ => ∀ t, t ≤ wake t
  | _ => True

/-- The request an operation asks a station to take in. -/
def Operation.request? {τ : Type} (s : Station τ) : Operation → Option Request
  | .submit request agent payload urgency maxAttempts _
  | .enqueue request agent payload urgency maxAttempts =>
      some (.new request s.id agent payload urgency
        (if maxAttempts = 0 then s.settings.attempts else maxAttempts) s.tickets)
  | _ => none

namespace Step

variable {τ : Type}

/-- What a step does to the requests. -/
def actions (step : Step τ) : List Station.Action :=
  step.before.actions step.operation step.response

/-- The request a step took in, as it was then. -/
def entered? (step : Step τ) : Option Request :=
  step.response.handle?.bind fun _ => step.operation.request? step.before

theorem entered?_of_handle?_eq_none (step : Step τ) (h : step.response.handle? = none) :
    step.entered? = none := by
  unfold entered?
  rw [h]
  rfl

/-- The agents whose requests a step moved. -/
def pumped (step : Step τ) : List AgentId :=
  (step.before.actions step.operation step.response).filterMap Station.Action.pumped?

/-- The frames for an agent that the link refused in a step. -/
def refusedTo (step : Step τ) (agent : AgentId) : Nat :=
  (unicasts step.effects).countP fun f =>
    decide (f.1.destination = .agent agent) && !Sending.isTaken f

/-- The pumps of a step that stopped for lack of a token. -/
def starved (step : Step τ) : Nat :=
  step.pumped.countP fun agent => (step.after.queueOf agent).starved (step.refusedTo agent)

end Step

/-- The requests that were taken in, as they were then. -/
def entered {τ : Type} (steps : List (Step τ)) : List Request := steps.filterMap Step.entered?

namespace Station

variable {τ : Type}

/-- The ledger of a step. -/
structure Accounts (step : Step τ) (l : Ledger) : Prop where
  posts : Posts step.before l step.after
  fresh : l.fresh = step.entered?.toList
  handle : step.entered?.map Request.handle = step.response.handle?
  senders : ∀ x ∈ l.sent, x.request.agent ∈ step.pumped
  denied : step.operation.Punctual → l.denied = l.limited + step.starved

/-- The frames of a step are those in its ledger. -/
theorem Posts.handed {step : Step τ} {l : Ledger} (h : Posts step.before l step.after) :
    unicasts step.effects = l.sent.map Shipment.sending ∧ airings step.effects = l.aired := by
  obtain ⟨effects, hlog, -⟩ := h.transfer.log
  obtain ⟨frames, hframes, hunicast, haired⟩ := h.bill.frames
  have hsent : frames = sendings step.effects := by
    have hw : sendings step.after.log = sendings step.before.log ++ frames := hframes
    rw [hlog, sendings_append] at hw
    rw [Step.effects_of_log hlog]
    exact (List.append_cancel_left hw).symm
  unfold unicasts airings
  rw [← hsent]
  exact ⟨hunicast, haired⟩

/-- The frames that are refused in a step are those in its ledger. -/
theorem Posts.refusedTo {step : Step τ} {l : Ledger} (h : Posts step.before l step.after)
    (agent : AgentId) : step.refusedTo agent = l.refused agent := by
  unfold Step.refusedTo Ledger.refused
  rw [h.handed.1, List.countP_map]
  refine List.countP_congr fun x hx => ?_
  have hd : x.sending.1.destination = .agent x.request.agent := (h.framed x hx).destination
  show (decide (x.sending.1.destination = .agent agent) && !x.taken) = true ↔ _
  rw [hd]
  simp

/-- The ledger of a step that takes requests in, if any, and then carries out actions. -/
theorem accounts_of_routine {step : Step τ} {fresh : List Request} {s₁ : Station τ} {m : Ledger}
    {l : List Action} (hf : Posts step.before { fresh } s₁) (hp : Posts s₁ m step.after)
    (hr : Routine l m step.after) (hl : step.pumped = l.filterMap Action.pumped?)
    (he : step.entered?.toList = fresh)
    (hh : step.entered?.map Request.handle = step.response.handle?) :
    Accounts step ({ fresh } ++ m) where
  posts := hf.trans hp
  handle := hh
  fresh := by
    show fresh ++ m.fresh = _
    rw [hr.fresh, List.append_nil, he]
  senders x hx := by
    have hx : x ∈ [] ++ m.sent := hx
    rw [hl]
    exact mem_pumped.2 (hr.senders x (by rwa [List.nil_append] at hx))
  denied _ := by
    show 0 + m.denied = 0 + m.limited + step.starved
    unfold Step.starved
    rw [hr.denied, hr.limited, hl]
    congr 1
    refine List.countP_congr fun agent _ => ?_
    rw [(hf.trans hp).refusedTo agent, Ledger.refused_append]
    have h0 : Ledger.refused { fresh } agent = 0 := rfl
    rw [h0, Nat.zero_add]

/-- The ledger of a step that broadcasts. -/
theorem accounts_of_aired {step : Step τ} {aired : List Sending} {denied limited : Nat}
    (hp : Posts step.before { aired, denied, limited } step.after)
    (hh : step.response.handle? = none) (ha : step.pumped = [])
    (hd : step.operation.Punctual → denied = limited) :
    Accounts step { aired, denied, limited } where
  posts := hp
  fresh := by
    rw [step.entered?_of_handle?_eq_none hh]
    rfl
  handle := by
    rw [step.entered?_of_handle?_eq_none hh, hh]
    rfl
  senders := List.forall_mem_nil _
  denied h := by
    unfold Step.starved
    rw [ha]
    exact hd h

section Operations

variable [Carrier τ] {s s' : Station τ}

theorem posts_broadcast {wake : Instant → Instant} {bulletin : Bulletin} {deadline now : Instant}
    {answer : Except DispatchError Unit × Instant}
    (h : broadcast wake bulletin deadline now s = .ok answer s') :
    ∃ aired denied limited, Posts s { aired, denied, limited } s' ∧
      ((∀ t, t ≤ wake t) → denied = limited) := by
  obtain ⟨aired, denied, limited, hp, hd⟩ := posts_broadcastRounds h
  refine ⟨aired, denied, limited, hp, fun hwake => hd hwake (Nat.succ_pos _) ?_⟩
  unfold Instant at *
  omega

theorem posts_correction {wake : Instant → Instant} {bulletin : Bulletin} {skipIfIdle : Bool}
    {deadline now : Instant} {answer : Except DispatchError Bool × Instant}
    (h : correction wake bulletin skipIfIdle deadline now s = .ok answer s') :
    ∃ aired denied limited, Posts s { aired, denied, limited } s' ∧
      ((∀ t, t ≤ wake t) → denied = limited) := by
  unfold correction at h
  obtain ⟨s₀, s₁, hg, h⟩ := Act.bind_eq_ok.1 h
  cases hg
  split at h
  · obtain ⟨answer, s₂, hb, h⟩ := Act.bind_eq_ok.1 h
    cases h
    exact posts_broadcast hb
  · cases h
    exact ⟨[], 0, 0, .refl s, fun _ => rfl⟩

/-- What an operation posts if it takes no request in and is no broadcast. -/
theorem accounts_of_course {operation : Operation} {response : Result} (hs : s.Sound)
    (h : perform operation s = .ok response s') (ha : operation.airs = false)
    (hr : response.handle? = none) : ∃ l, Accounts ⟨s, operation, response, s'⟩ l := by
  have hfresh := fresh_actions operation h
  rw [hr] at hfresh
  obtain ⟨m, hp, hroutine⟩ := (perform_course h ha).posts hs (List.flatMap_eq_nil_iff.1 hfresh)
    (ordered_actions s operation response)
  have he := Step.entered?_of_handle?_eq_none (⟨s, operation, response, s'⟩ : Step τ) hr
  refine ⟨_, accounts_of_routine (.refl s) hp hroutine rfl ?_ ?_⟩
  · rw [he]
    rfl
  · rw [he]
    exact hr.symm

/-- Every operation has a ledger. -/
theorem perform_accounts {operation : Operation} {response : Result} (hs : s.Sound)
    (h : perform operation s = .ok response s') :
    ∃ l, Accounts ⟨s, operation, response, s'⟩ l := by
  cases hr : response.handle? with
  | none =>
    cases operation with
    | broadcast wake bulletin deadline now =>
      obtain ⟨answer, hb, rfl⟩ := Act.bind_pure_eq_ok.1 h
      obtain ⟨aired, denied, limited, hp, hd⟩ := posts_broadcast hb
      exact ⟨_, accounts_of_aired hp rfl rfl hd⟩
    | correction wake bulletin skipIfIdle deadline now =>
      obtain ⟨answer, hb, rfl⟩ := Act.bind_pure_eq_ok.1 h
      obtain ⟨aired, denied, limited, hp, hd⟩ := posts_correction hb
      exact ⟨_, accounts_of_aired hp rfl rfl hd⟩
    | _ => exact accounts_of_course hs h rfl hr
  | some handle =>
    cases operation with
    | submit request agent payload urgency maxAttempts now =>
      obtain ⟨result, hsub, rfl⟩ := Act.bind_pure_eq_ok.1 h
      cases result with
      | error e => cases hr
      | ok handle =>
        obtain ⟨s₁, he, hpump⟩ := submit_eq_ok.1 hsub
        obtain ⟨a, r, b, rfl, ha, hb, rfl, rfl⟩ := enqueue_cases he
        have hw := Request.new_waiting request s.id agent payload urgency
          (if maxAttempts = 0 then s.settings.attempts else maxAttempts) s.tickets
        rcases hpump with ⟨he, -⟩ | ⟨-, hpump⟩
        · cases he
        · obtain ⟨hs₁, -⟩ := transfer_admitted hs ha hw rfl hb
          obtain ⟨m, hp, hroutine⟩ := (course_pump hpump).posts hs₁
            (List.forall_mem_singleton.2 rfl) (List.pairwise_singleton _ _)
          exact ⟨_, accounts_of_routine (posts_admitted hs ha hw rfl hb) hp hroutine rfl rfl rfl⟩
    | enqueue request agent payload urgency maxAttempts =>
      obtain ⟨result, hsub, rfl⟩ := Act.bind_pure_eq_ok.1 h
      cases result with
      | error e => cases hr
      | ok handle =>
        obtain ⟨a, r, b, rfl, ha, hb, rfl, rfl⟩ := enqueue_cases (Act.modifyGet_eq_ok.1 hsub)
        have hw := Request.new_waiting request s.id agent payload urgency
          (if maxAttempts = 0 then s.settings.attempts else maxAttempts) s.tickets
        have hnil : ∀ t : Station τ, Course 0 [] t t := fun _ => .nil
        obtain ⟨m, hp, hroutine⟩ := (hnil _).posts (transfer_admitted hs ha hw rfl hb).1
          (List.forall_mem_nil _) .nil
        exact ⟨_, accounts_of_routine (posts_admitted hs ha hw rfl hb) hp hroutine rfl rfl rfl⟩
    | adoptEpoch epoch =>
      cases h
      cases hr
    | _ =>
      obtain ⟨result, -, rfl⟩ := Act.bind_pure_eq_ok.1 h
      cases hr

end Operations

end Station

end GroundControl
