import Mathlib.Data.List.Forall2
import GroundControl.Proofs.Link.Contact

/-!
# What a station says is what its vehicles did

If no two commands for one agent have the same key, each reply that a station takes in for a request
reports the execution of a frame of that very request.  So a request that waits for a reply ends
well only if its vehicle has completed it, and is rejected only with the words of its vehicle.

* `Request.correlation?`, the agent and the key of a command;
* `Contact.Faithful`, what the station says and what the vehicles did;
* `exists_causes`: each execution is of a frame of a request;
* `execution_of_answers`: the reply to a request reports the execution of one of its frames;
* `faithful_of_run`: whatever happens, and however long everything is on its way.
-/

namespace GroundControl

/-- The agent and the key of a command, if it expects a reply. -/
def Request.correlation? (r : Request) : Option (AgentId × ReplyKey) :=
  r.payload.key.map (r.agent, ·)

/-! ### Lists side by side -/

section Lists

variable {α β : Type} {R : α → β → Prop} {l l' : List α} {m : List β}

theorem sublistForall₂_of_sublist (hs : l'.Sublist l) (h : List.Forall₂ R l m) :
    List.SublistForall₂ R l' m := by
  induction hs generalizing m with
  | slnil => exact .nil
  | cons a _ ih =>
    cases h with
    | cons _ h => exact .cons_right (ih h)
  | cons_cons a _ ih =>
    cases h with
    | cons hab h => exact .cons hab (ih h)

theorem exists_mem_zip (h : List.Forall₂ R l m) {a : α} (ha : a ∈ l) :
    ∃ b ∈ m, (a, b) ∈ l.zip m ∧ R a b := by
  induction h with
  | nil => cases ha
  | @cons c b l m hcb _ ih =>
    rcases List.mem_cons.1 ha with rfl | ha
    · exact ⟨b, List.mem_cons_self, List.mem_cons_self, hcb⟩
    · obtain ⟨b', hb', hz, hr⟩ := ih ha
      exact ⟨b', List.mem_cons_of_mem b hb', List.mem_cons_of_mem (c, b) hz, hr⟩

theorem eq_of_nodup_filterMap {f : α → Option β} (h : (l.filterMap f).Nodup) {a a' : α}
    (ha : a ∈ l) (ha' : a' ∈ l) {b : β} (hb : f a = some b) (hb' : f a' = some b) : a = a' := by
  have hp := List.pairwise_filterMap.1 h
  have : Std.Symm fun a a' => ∀ b, f a = some b → ∀ b', f a' = some b' → b ≠ b' :=
    ⟨fun _ _ h b hb b' hb' => (h b' hb' b hb).symm⟩
  exact by_contra fun hne => hp.forall ha ha' hne b hb b hb' rfl

end Lists

/-- Among the frames that the carrier took, those for one agent are among those that were handed
over for one agent. -/
theorem sublist_unicasts {frames : List Frame} {effects : List Effect}
    (h : frames.Sublist (transmitted effects)) (hf : ∀ f ∈ frames, f.destination ≠ .everyone) :
    frames.Sublist ((unicasts effects).map Prod.fst) := by
  have hfilter : frames.filter (fun f => f.destination != .everyone) = frames :=
    List.filter_eq_self.2 fun f hm => bne_iff_ne.2 (hf f hm)
  rw [← hfilter]
  refine (h.filter _).trans ?_
  unfold transmitted
  rw [List.filter_map]
  exact (List.filter_sublist.filter Sending.isUnicast).map Prod.fst

namespace Contact

open Station

variable {τ : Type}

/-- What the vehicles have executed since the beginning of the contact. -/
def executions (settings : NetworkSettings) (link : LinkSettings) (c : Contact τ) :
    List Execution :=
  (RadioLink.new settings.id link).executions c.received

/-- What a station says of its requests is what the vehicles did.  The executions come with the
requests whose frames were executed, the `causes`. -/
structure Faithful (settings : NetworkSettings) (link : LinkSettings) (c : Contact τ)
    (causes : List Request) : Prop where
  frames : List.Forall₂ (fun e r => e.frame.Carries settings.id r) (c.executions settings link)
    causes
  known : ∀ r ∈ causes, r ∈ entered c.steps
  /-- a request that waits for a reply ends well only if its vehicle has completed it -/
  acked : ∀ r ∈ entered c.steps, r.payload.expectsReply = true → ∀ attempts roundTrip,
    (r.ticket, .success attempts roundTrip) ∈ outcomes c.station.log →
      ∃ e message, (e, r) ∈ (c.executions settings link).zip causes ∧ e.agent = r.agent ∧
        e.response = .completed message
  /-- a request is rejected only if its vehicle has rejected it, and with its words -/
  rejected : ∀ r ∈ entered c.steps, ∀ attempts detail,
    (r.ticket, .failure .rejected attempts detail) ∈ outcomes c.station.log →
      ∃ e message, (e, r) ∈ (c.executions settings link).zip causes ∧ e.agent = r.agent ∧
        e.response = .rejected message ∧ detail = some message
  /-- the link receives the frames in the order in which they were handed over -/
  order : transmitted c.station.log = c.received ++ c.uplink
  /-- a vehicle has executed the frames for it, in their order, and each of them once -/
  executed : ∀ agent ∈ link.agents,
    ((c.executions settings link).filter (·.agent = agent)).map Execution.frame =
        framesFor agent c.received ∧
      ((c.executions settings link).filter (·.agent = agent)).map Execution.response =
        ((Vehicle.new agent).history (bodiesFor agent c.received)).map Prod.fst ∧
      c.link.vehicles.get? agent = some ((Vehicle.new agent).after (bodiesFor agent c.received))
  /-- nobody else has executed anything -/
  nobody : ∀ e ∈ c.executions settings link, e.agent ∈ link.agents
  /-- the frames of a request are not executed more often than it was attempted -/
  bounded : ∀ r ∈ entered c.steps, causes.count r ≤ c.station.attemptsOf r.ticket ∧
    c.station.attemptsOf r.ticket ≤ r.maxAttempts
  /-- a broadcast, or a frame for a vehicle that is not there, changes nothing and is unanswered -/
  inert : ∀ f, (∀ agent ∈ link.agents, f.destination ≠ .agent agent) →
    c.link.receive f = (none, c.link)

section Runs

variable [Carrier τ] {settings : NetworkSettings} {link : LinkSettings} {carrier : τ}
  {start : Instant} {c : Contact τ} {causes : List Request}

/-- Each execution is of a frame of a request that was taken in. -/
theorem exists_causes
    (h : Coherent (.new settings carrier start) (.new settings.id link) c) :
    ∃ causes, List.Forall₂ (fun e r => e.frame.Carries settings.id r)
        (c.executions settings link) causes ∧
      (∀ r ∈ causes, r ∈ entered c.steps) ∧
        ∀ r ∈ entered c.steps, causes.count r ≤ c.station.attemptsOf r.ticket := by
  obtain ⟨senders, hsenders⟩ := (traffic_accounted h.steps).senders
  have hid : c.station.id = settings.id :=
    congrArg NetworkSettings.id (knows_of_run h.steps).2.2.1
  have hlog : c.station.log = c.steps.flatMap Step.effects :=
    log_of_run (sound_new settings carrier start) h.steps
  have hsub : ((c.executions settings link).map Execution.frame).Sublist
      (transmitted c.station.log) := by
    rw [hlog, h.traffic]
    exact (RadioLink.frames_sublist _ _).trans (List.sublist_append_left ..)
  have hsub := sublist_unicasts hsub (List.forall_mem_map.2 fun e he => by
    rw [RadioLink.destination_of_mem he]
    exact nofun)
  have hcarried : List.Forall₂ (fun f r => Frame.Carries settings.id f r)
      ((unicasts c.station.log).map Prod.fst) senders := by
    rw [List.forall₂_map_left_iff, ← hid]
    exact hsenders.frames
  obtain ⟨causes, hf, hc⟩ := List.sublistForall₂_iff.1 (sublistForall₂_of_sublist hsub hcarried)
  refine ⟨causes, List.forall₂_map_left_iff.1 hf, fun r hr => hsenders.known r (hc.subset hr),
    fun r hr => ?_⟩
  rw [← hsenders.count r hr]
  exact hc.count_le r

/-- The reply to a request reports the execution of one of its frames. -/
theorem execution_of_answers
    (h : Coherent (.new settings carrier start) (.new settings.id link) c)
    (hframes : List.Forall₂ (fun e r => e.frame.Carries settings.id r)
      (c.executions settings link) causes)
    (hknown : ∀ r ∈ causes, r ∈ entered c.steps)
    (hkeys : ((entered c.steps).filterMap Request.correlation?).Nodup) {r : Request}
    (hr : r ∈ entered c.steps) {step : Step τ} (hstep : step ∈ c.steps) {m : Message}
    {reply : Reply} {now : Instant} (hanswers : step.Answers r m reply now) :
    ∃ e, (e, r) ∈ (c.executions settings link).zip causes ∧ e.agent = r.agent ∧
      reply.verdict = e.response.verdict := by
  have hm : m.reply.isSome = true := by
    rw [hanswers.reply_eq]
    rfl
  obtain ⟨e, he, hreport⟩ := h.arrived step hstep m now hanswers.message hm
  obtain ⟨hagent, hkey, hverdict⟩ := RadioLink.reply_of_report? hreport hanswers.reply_eq
  obtain ⟨q, hq, hzip, hcarries⟩ := exists_mem_zip hframes he
  -- the frame is of a request for the same agent with the same key
  have hqagent : q.agent = e.agent := by
    have hd := RadioLink.destination_of_mem he
    rw [hcarries.destination] at hd
    exact Destination.agent.inj hd
  have hagents : e.agent = r.agent := hagent.symm.trans hanswers.agent_eq
  have hqkey : q.correlation? = some (r.agent, reply.key) := by
    unfold Request.correlation?
    rw [← hcarries.key, hkey, hqagent, hagents]
    rfl
  have hrkey : r.correlation? = some (r.agent, reply.key) := by
    unfold Request.correlation?
    rw [hanswers.key_eq]
    rfl
  obtain rfl : q = r := eq_of_nodup_filterMap hkeys (hknown q hq) hr hqkey hrkey
  exact ⟨e, hzip, hagents, hverdict⟩

/-- Whatever a station is asked to do, whatever its carrier takes and however long everything is on
its way: if no two of the commands that it takes in for one agent have the same key, what it says of
its requests is what the vehicles did. -/
theorem faithful_of_run {occurrences : List Occurrence} (hlink : ¬ 0 < link.packetLoss)
    (h : run occurrences (new settings link carrier start) = .ok c)
    (hkeys : ((entered c.steps).filterMap Request.correlation?).Nodup) :
    ∃ causes, Faithful settings link c causes := by
  have hl : (RadioLink.new settings.id link).isDead = false := decide_eq_false hlink
  have hc := (coherent_new settings link carrier start).run hl h
  obtain ⟨causes, hframes, hknown, hcount⟩ := exists_causes hc
  have hlog : c.station.log = c.steps.flatMap Step.effects :=
    log_of_run (sound_new settings carrier start) hc.steps
  -- what a submitter is told of a reply is how one of the frames was executed
  have htold : ∀ r ∈ entered c.steps, ∀ o : Outcome, (r.ticket, o) ∈ outcomes c.station.log →
      o.Replied → ∃ e, (e, r) ∈ (c.executions settings link).zip causes ∧ e.agent = r.agent ∧
        ∃ attempts roundTrip, o = Backlog.verdictOutcome attempts roundTrip e.response.verdict := by
    intro r hr o ht ho
    obtain ⟨step, hstep, m, reply, now, hanswers, attempts, roundTrip, hverdict⟩ :=
      verdict_of_told hc.steps hr ht ho
    obtain ⟨e, he, hagent, hresponse⟩ :=
      execution_of_answers hc hframes hknown hkeys hr hstep hanswers
    exact ⟨e, he, hagent, attempts, roundTrip, hresponse ▸ hverdict⟩
  refine ⟨causes, hframes, hknown, fun r hr hreply attempts roundTrip ht => ?_,
    fun r hr attempts detail ht => ?_, hlog ▸ hc.traffic, fun agent hagent => ?_, fun e he => ?_,
    fun r hr => ⟨hcount r hr, (traffic_accounted hc.steps).bounded r hr⟩, fun f hf => ?_⟩
  · obtain ⟨e, he, hagent, n, t, hresponse⟩ :=
      htold r hr _ ht (replied_of_success hc.steps hr hreply ht)
    cases hx : e.response with
    | completed message => exact ⟨e, message, he, hagent, hx⟩
    | rejected message =>
      rw [hx] at hresponse
      cases hresponse
  · obtain ⟨e, he, hagent, n, t, hresponse⟩ := htold r hr _ ht trivial
    cases hx : e.response with
    | completed message =>
      rw [hx] at hresponse
      cases hresponse
    | rejected message =>
      rw [hx] at hresponse
      cases hresponse
      exact ⟨e, message, he, hagent, hx, rfl⟩
  · have hv := RadioLink.get?_new settings.id link agent
    rw [if_pos hagent] at hv
    obtain ⟨hf, hr⟩ := RadioLink.executions_of_agent hl c.received hv
    refine ⟨hf, hr, ?_⟩
    rw [hc.link, RadioLink.get?_after hl, hv]
    rfl
  · have hv := RadioLink.agent_of_mem hl he
    rw [RadioLink.get?_new] at hv
    by_cases hagent : e.agent ∈ link.agents
    · exact hagent
    · rw [if_neg hagent] at hv
      cases hv
  · rw [hc.link]
    refine RadioLink.receive_of_unreached (RadioLink.isDead_after hl c.received) fun agent hd => ?_
    have hagent : agent ∉ link.agents := fun hagent => hf agent hagent hd
    rw [RadioLink.get?_after hl, RadioLink.get?_new, if_neg hagent]
    rfl

end Runs

/-- The vehicles 1 and 2. -/
def pair : LinkSettings := { agents := [1, 2] }

/-- Each of two vehicles gets a command under the same number.  The replies take so long that both
commands are attempted again, and then they arrive in another order than they were sent in: the
first reply that is heard comes from the second execution. -/
def lateReplies : List Occurrence :=
  [.beat, .arrive 0 true 0, .arrive 0 true 0,
    .operate (.submit 1 1 (Instruction.arm.payload 7 []) .normal 0 10),
    .operate (.submit 2 2 (Instruction.takeoff.payload 7 []) .normal 0 20),
    .operate (.broadcast (fun t => t) ⟨.command, [9]⟩ 40 30),
    .operate (.tick .ascending 20000000000),
    .receive, .receive, .receive, .receive, .receive,
    .arrive 2 true 20000000010, .arrive 1 false 20000000020, .arrive 0 true 20000000030]

theorem faithful_of_run_lateReplies :
    ∃ c causes, run lateReplies (new { id := "alpha" } pair (Pipe.new "up" 8) 0) = .ok c ∧
      outcomes c.station.log =
        [(0, .success 2 (some 10)), (1, .failure .rejected 2 (some "Not armed"))] ∧
      Faithful { id := "alpha" } pair c causes := by
  have hrun : (run lateReplies (new { id := "alpha" } pair (Pipe.new "up" 8) 0)).toOption.map
      (fun c => (outcomes c.station.log, (entered c.steps).filterMap Request.correlation?)) =
        some ([(0, .success 2 (some 10)), (1, .failure .rejected 2 (some "Not armed"))],
          [(1, 7), (2, 7)]) := by decide +kernel
  cases h : run lateReplies (new { id := "alpha" } pair (Pipe.new "up" 8) 0) with
  | error fault =>
    rw [h] at hrun
    cases hrun
  | ok c =>
    rw [h] at hrun
    obtain ⟨htold, hkeys⟩ := Prod.mk.inj (Option.some.inj hrun)
    have hkeys : ((entered c.steps).filterMap Request.correlation?).Nodup := by
      rw [hkeys]
      decide
    obtain ⟨causes, hc⟩ := faithful_of_run (by decide) h hkeys
    exact ⟨c, causes, rfl, htold, hc⟩

end Contact

end GroundControl
