import GroundControl.Proofs.Pump.Halts
import GroundControl.Proofs.Station.Lawful
import GroundControl.Proofs.Station.Queues

/-!
# No queue is stalled

Whatever was asked of a station before, a pump of an agent comes to an end by itself.  It hands over
no more frames than the agent has pending requests, and it leaves a request that could be handed
over only if the link has just refused one or the limiter has just denied one a token.

* `Station.Pumps`, what a pump comes to if nothing but a round ends its rounds; `pumps_iff`;
* `Station.Halted`, why a pump leaves the requests of an agent as they are;
* `Station.pump_halts`: after any operations.
-/

namespace GroundControl

namespace Station

variable {τ : Type} {s s' : Station τ} {agent : AgentId} {now : Instant}

/-- A pump after its rounds: it books the pass and reports the requests that have ended, unless a
round has met a fault. -/
def closing (s : Station τ) (agent : AgentId) (now : Instant) :
    Option Fault × Pass τ → EStateM.Result Fault (Station τ) Unit
  | (some fault, p) => .error fault (s.book agent p)
  | (none, p) => concludeAll p.finished now ((s.book agent p).retried p.retries)

/-- Why a pump of an agent that was begun in the station `s` leaves the agent's requests as they are
in the station `s'`. -/
inductive Halted (s : Station τ) (agent : AgentId) (now : Instant) (s' : Station τ) : Prop
  /-- the agent has no request -/
  | drained (h : (s'.queueOf agent).isEmpty = true)
  /-- the reply to the request in flight is awaited -/
  | awaiting (r : Request) (deadline : Instant) (h : (s'.queueOf agent).inFlight = some r)
      (hp : r.phase = .awaitingAck) (hd : r.deadline = some deadline) (hle : now ≤ deadline)
  /-- the link refused the last frame of the pump -/
  | refused (sent : List Sending) (frame : Frame) (e : LinkError)
      (h : sendings s'.log = sendings s.log ++ sent ++ [(frame, .error e)])
  /-- the first waiting request is bulk traffic, and the pump was denied a token -/
  | denied (r : Request) (rest : List Request) (hf : (s'.queueOf agent).inFlight = none)
      (hw : (s'.queueOf agent).waiting = r :: rest) (hb : r.trafficClass.isBulk = true)
      (ht : ∃ granted granted' denied, tokens s.throttle = some (granted, denied) ∧
        tokens s'.throttle = some (granted', denied + 1))

section Pump

variable [Carrier τ]

/-- What a pump of an agent comes to if nothing but a round ends its rounds. -/
inductive Pumps (s : Station τ) (agent : AgentId) (now : Instant) :
    EStateM.Result Fault (Station τ) Unit → Prop
  | absent (h : s.backlogOf agent = none) : Pumps s agent now (.ok () s)
  | rounds {b : Backlog} {out : Option Fault × Pass τ} (h : s.backlogOf agent = some b)
      (hl : Pass.Loop (s.passContext agent now) (s.firstPass b now) out) :
      Pumps s agent now (s.closing agent now out)

theorem pump_eq_closing {b : Backlog} (h : s.backlogOf agent = some b) :
    pump agent now s =
      s.closing agent now (Pass.run (s.passContext agent now) (s.firstPass b now)) := by
  cases hp : Pass.run (s.passContext agent now) (s.firstPass b now) with
  | mk fault p =>
    rw [pump_of_backlogOf_eq_some h hp]
    cases fault <;> rfl

/-- A pump comes to an end, and it is that of the pump whose rounds are counted. -/
theorem pumps_iff (hs : s.Sound) {result : EStateM.Result Fault (Station τ) Unit} :
    Pumps s agent now result ↔ pump agent now s = result := by
  cases hb : s.backlogOf agent with
  | none =>
    rw [pump_of_backlogOf_eq_none hb]
    constructor
    · intro h
      cases h with
      | absent => rfl
      | rounds h _ =>
        rw [hb] at h
        cases h
    · rintro rfl
      exact .absent hb
  | some b =>
    have hsound := (sound_firstPass (s := s)
      (queueOf_of_backlogOf hb ▸ hs.settled agent) now).1
    rw [pump_eq_closing hb]
    constructor
    · intro h
      cases h with
      | absent h =>
        rw [hb] at h
        cases h
      | rounds h hl =>
        rw [hb] at h
        cases h
        rw [(Pass.loop_iff hsound).1 hl]
    · rintro rfl
      exact .rounds hb ((Pass.loop_iff hsound).2 rfl)

/-! ### The number of frames -/

omit [Carrier τ] in
theorem sendings_conclude (f : Finished) (now : Instant) (s : Station τ) :
    Leaves (fun t => sendings t.log = sendings s.log) (conclude f now s) := by
  unfold conclude
  dsimp only
  split
  · show sendings (s.log ++ [_]) = _
    rw [sendings_append]
    exact List.append_nil _
  · show sendings (s.log ++ [_] ++ [_]) = _
    rw [sendings_append, sendings_append]
    exact (List.append_nil _).trans (List.append_nil _)

omit [Carrier τ] in
theorem sendings_concludeAll (finished : List Finished) (now : Instant) (s : Station τ) :
    Leaves (fun t => sendings t.log = sendings s.log) (concludeAll finished now s) := by
  induction finished generalizing s with
  | nil => exact rfl
  | cons f rest ih =>
    refine leaves_bind (sendings_conclude f now s) fun _ t ht => ?_
    have h : Leaves (fun u => sendings u.log = sendings t.log) (concludeAll rest now t) := ih t
    rw [ht] at h
    exact h

omit [Carrier τ] in
theorem sendings_book (s : Station τ) (agent : AgentId) (p : Pass τ) :
    sendings (s.book agent p).log = sendings s.log ++ p.frames := by
  show sendings ((s.log ++ p.frames.map fun f => .sent f.1 f.2) ++
    p.finished.map fun f => .delivered f.ticket f.outcome) = _
  rw [sendings_append, sendings_append, sendings_sent, sendings_delivered, List.append_nil]

omit [Carrier τ] in
theorem sendings_retried (s : Station τ) (n : Nat) :
    sendings (s.retried n).log = sendings s.log := by
  show sendings (s.log ++ _) = _
  rw [sendings_append, sendings_eq_nil fun e he => List.eq_of_mem_replicate he ▸ rfl,
    List.append_nil]

omit [Carrier τ] in
/-- The frames of a pump are those of its rounds, whether or not it meets a fault. -/
theorem sendings_closing (s : Station τ) (agent : AgentId) (now : Instant)
    (out : Option Fault × Pass τ) :
    Leaves (fun t => sendings t.log = sendings s.log ++ out.2.frames)
      (s.closing agent now out) := by
  obtain ⟨_ | fault, p⟩ := out
  · have h := sendings_concludeAll p.finished now ((s.book agent p).retried p.retries)
    rw [sendings_retried, sendings_book] at h
    exact h
  · exact sendings_book s agent p

/-- What holds of every station a pump can leave holds of the one it leaves. -/
theorem left_pump {P : Station τ → Prop} (h : Leaves P (pump agent now s)) :
    P (s.left (.pump agent now)) := by
  unfold left
  have hperform : perform (.pump agent now) s =
      EStateM.bind (pump agent now) (fun _ => pure Result.done) s := rfl
  rw [hperform]
  unfold EStateM.bind
  cases hp : pump agent now s with
  | ok u s' | error fault s' =>
    rw [hp] at h
    exact h

/-- A pump hands over no more frames than there are pending requests. -/
theorem sends_pump (hs : s.Sound) (agent : AgentId) (now : Instant) :
    ∃ sent, sendings (s.left (.pump agent now)).log = sendings s.log ++ sent ∧
      sent.length ≤ (s.queueOf agent).pendingLen := by
  cases hb : s.backlogOf agent with
  | none =>
    refine left_pump (P := fun t => ∃ sent, sendings t.log = sendings s.log ++ sent ∧
      sent.length ≤ (s.queueOf agent).pendingLen) ?_
    rw [pump_of_backlogOf_eq_none hb]
    exact ⟨[], (List.append_nil _).symm, Nat.zero_le _⟩
  | some b =>
    have hq := queueOf_of_backlogOf hb
    have hi := (sound_firstPass (s := s) (hq ▸ hs.settled agent) now).2.length_eq
    have hframes := Pass.frames_run (s.passContext agent now) (s.firstPass b now)
    have hsent := sendings_closing s agent now
      (Pass.run (s.passContext agent now) (s.firstPass b now))
    rw [← pump_eq_closing hb] at hsent
    refine ⟨_, left_pump hsent, Nat.le_trans hframes ?_⟩
    -- what the review leaves waiting was pending before
    have hlen : (s.firstPass b now).idents.length =
        (s.firstPass b now).finished.length + (s.firstPass b now).backlog.pendingLen := by
      unfold Pass.idents Backlog.idents
      rw [List.length_append, List.length_map, List.length_map, Backlog.length_requests]
    have hb : b.idents.length = b.pendingLen := by
      unfold Backlog.idents
      rw [List.length_map, Backlog.length_requests]
    have hw : (s.firstPass b now).backlog.waiting.length ≤
        (s.firstPass b now).backlog.pendingLen := Nat.le_add_right _ _
    have h0 : (s.firstPass b now).frames.length = 0 := rfl
    rw [hq]
    omega

/-! ### The end -/

theorem halted_pump (hs : s.Sound) (h : pump agent now s = .ok () s') : s.Halted agent now s' := by
  rcases pump_eq_ok.1 h with ⟨hb, rfl⟩ | ⟨b, p, hb, hrun, -, rfl⟩
  · refine .drained ?_
    rw [queueOf_of_backlogOf_eq_none hb]
    rfl
  · have hset := queueOf_of_backlogOf hb ▸ hs.settled agent
    have hq := queueOf_pumped hb p now
    have hwire := s.wire_pumped agent p now
    have hframes : sendings (s.pumped agent p now).log = sendings s.log ++ p.frames :=
      congrArg Wire.frames hwire
    have hthrottle : (s.pumped agent p now).throttle = p.throttle := congrArg Wire.throttle hwire
    cases Pass.halted_rounds (sound_firstPass (s := s) hset now).1
      (Backlog.timely_review hset now) (Nat.le_refl _) hrun with
    | drained h => exact .drained (hq ▸ h)
    | awaiting r d hf hp hd hle => exact .awaiting r d (hq ▸ hf) hp hd hle
    | refused frames frame e h =>
      refine .refused frames frame e ?_
      have hnone : (s.firstPass b now).frames = [] := rfl
      rw [hframes, h, hnone, List.nil_append, List.append_assoc]
    | denied r rest hf hw hbulk ht =>
      exact .denied r rest (hq ▸ hf) (hq ▸ hw) hbulk (hthrottle ▸ ht)

/-- After any operations a pump of an agent comes to an end by itself, it hands over no more frames
than the agent has pending requests, and it stalls no request. -/
theorem pump_halts {operations : List Operation} {settings : NetworkSettings} {carrier : τ}
    {start : Instant} {steps : List (Step τ)} {s : Station τ}
    (h : run operations (new settings carrier start) = .ok (steps, s)) (agent : AgentId)
    (now : Instant) :
    (∀ result, Pumps s agent now result ↔ pump agent now s = result) ∧
      (∃ sent, sendings (s.left (.pump agent now)).log = sendings s.log ++ sent ∧
        sent.length ≤ (s.queueOf agent).pendingLen) ∧
      ∀ s', pump agent now s = .ok () s' → s.Halted agent now s' := by
  have hs := (lawful_of_run h (lawful_new settings carrier start)).sound
  exact ⟨fun _ => pumps_iff hs, sends_pump hs agent now, fun _ => halted_pump hs⟩

end Pump

/-- Three pieces of bulk traffic, for a limiter that has two tokens. -/
def bulkTraffic : List Operation :=
  let bulk := fun p : Payload => p.withClass .fileTransfer
  [.route (.heartbeat "alpha" 1) 0,
    .enqueue 1 1 (bulk (.oneWay [7])) .normal 1,
    .enqueue 2 1 (bulk (.oneWay [8])) .normal 1,
    .enqueue 3 1 (bulk (.expecting [9] 3)) .normal 1]

theorem pump_halts_bulkTraffic :
    ∃ steps s, run bulkTraffic
        (new { id := "alpha", rateLimit := some ⟨1, 2⟩ } (Pipe.new "up" 9) 0) = .ok (steps, s) ∧
      (∀ result, Pumps s 1 10 result ↔ pump 1 10 s = result) ∧
      (∃ sent, sendings (s.left (.pump 1 10)).log = sendings s.log ++ sent ∧
        sent.length ≤ (s.queueOf 1).pendingLen) ∧
      (∀ s', pump 1 10 s = .ok () s' → s.Halted 1 10 s') ∧
      (s.queueOf 1).waiting.length = 3 ∧
      ((s.left (.pump 1 10)).queueOf 1).waiting.map (·.id) = [3] := by
  have hrun : (run bulkTraffic
      (new { id := "alpha", rateLimit := some ⟨1, 2⟩ } (Pipe.new "up" 9) 0)).toOption.map
      (fun r => ((r.2.queueOf 1).waiting.length,
        ((r.2.left (.pump 1 10)).queueOf 1).waiting.map (·.id))) = some (3, [3]) := by
    decide +kernel
  obtain ⟨steps, s, hr, hq⟩ := exists_run_of_map hrun
  obtain ⟨hends, hsends, hhalts⟩ := pump_halts hr 1 10
  exact ⟨steps, s, hr, hends, hsends, hhalts, congrArg Prod.fst hq, congrArg Prod.snd hq⟩

end Station

end GroundControl
