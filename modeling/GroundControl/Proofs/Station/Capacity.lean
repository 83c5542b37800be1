import GroundControl.Proofs.Station.Attempts
import GroundControl.Proofs.Station.Faultless

/-!
# Capacity

A command is turned away exactly if its agent is not registered or has as many pending requests as
there may be; then nothing at all has happened.  So no agent ever has more of them.

* `Backlog.Bounded`: a backlog keeps to its depth, and what each call does to it;
* `Station.Bounded`, with `Moves.bounded` and `bounded_of_run`: every backlog keeps to the depth of
  the settings;
* `enqueue_eq_error_iff`, `perform_eq_error_iff`: when a command is turned away;
* `Capacity` and `turned_away_without_trace`, for every run.
-/

namespace GroundControl

/-! ### The depth of a backlog -/

namespace Backlog

/-- A backlog of some depth has no more requests than that. -/
structure Bounded (n : Nat) (b : Backlog) : Prop where
  depth : b.depth = n
  room : b.pendingLen ≤ n

section Bounded

variable {n : Nat} {b b' : Backlog}

theorem bounded_new (agent : AgentId) (n : Nat) : (new agent n).Bounded n := ⟨rfl, Nat.zero_le n⟩

/-- A backlog turns a request away exactly if it has as many as there may be. -/
theorem Bounded.submit_eq_none_iff (h : b.Bounded n) {r : Request} :
    b.submit r = none ↔ b.pendingLen = n := by
  unfold Backlog.submit
  rw [h.depth]
  split
  · rename_i hfull
    exact iff_of_true rfl (Nat.le_antisymm h.room hfull)
  · rename_i hroom
    exact iff_of_false nofun fun he => hroom (Nat.le_of_eq he.symm)

theorem Bounded.submit (h : b.Bounded n) {r : Request} (hb : b.submit r = some b') :
    b'.Bounded n := by
  have hlen := (requests_submit_perm hb).length_eq
  rw [List.length_cons, length_requests, length_requests] at hlen
  obtain ⟨hroom, rfl⟩ := submit_eq_some_iff.1 hb
  refine ⟨h.depth, ?_⟩
  rw [hlen, ← h.depth]
  exact hroom

/-- What takes no request in keeps a backlog to its depth. -/
theorem Passage.bounded {ended : List Finished} (hp : Passage b ended b') (h : b.Bounded n) :
    b'.Bounded n :=
  ⟨hp.depth.trans h.depth, Nat.le_trans hp.pendingLen_le h.room⟩

end Bounded

end Backlog

namespace Pass

variable {τ : Type} [Carrier τ] {ctx : PassContext} {p q : Pass τ} {n : Nat}

/-- A request that goes to the link makes room for one. -/
theorem Handed.bounded {r : Request} {rest : List Request} {throttle : Option (Bucket Float)}
    {base : Span} {answer : Except LinkError Unit} {carrier : τ}
    (h : Handed ctx p r rest throttle base answer carrier) (hb : p.backlog.Bounded n)
    (waiting : List Request) (inFlight : Option Request)
    (hl : waiting.length + inFlight.toList.length ≤ rest.length + 1) :
    ({ p.backlog with waiting, inFlight } : Backlog).Bounded n := by
  refine ⟨hb.depth, Nat.le_trans hl ?_⟩
  have hroom := hb.room
  unfold Backlog.pendingLen at hroom
  rwa [h.head, h.idle] at hroom

theorem bounded_round (hs : p.Sound) (h : p.backlog.Bounded n) :
    Round.All (fun q => q.backlog.Bounded n) (round ctx p) := by
  have hc := round_case ctx hs.settled
  generalize round ctx p = result at hc ⊢
  cases hc with
  | idle | unpaid => exact h
  | fault => trivial
  | flying hh => exact hh.bounded h _ _ (Nat.le_refl _)
  | oneWay hh | failed hh =>
    refine hh.bounded h _ p.backlog.inFlight ?_
    rw [hh.idle]
    exact Nat.le_succ _
  | retried hh =>
    refine hh.bounded h _ p.backlog.inFlight ?_
    rw [hh.idle, (Backlog.requeue_perm ..).length_eq]
    exact Nat.le_refl _

theorem bounded_run (hs : p.Sound) (h : p.backlog.Bounded n) (hr : run ctx p = (none, q)) :
    q.backlog.Bounded n :=
  hs.rounds_induction (P := fun q => q.backlog.Bounded n) (fun _ => bounded_round) hr h

end Pass

namespace Station

variable {τ : Type}

/-! ### The depth of a station -/

/-- Every backlog keeps to the depth of the settings. -/
def Bounded (s : Station τ) : Prop :=
  ∀ agent, (s.queueOf agent).Bounded s.settings.queueDepth

section Moves

variable [Carrier τ] {now : Instant} {s s' : Station τ} {agent : AgentId}

theorem Change.bounded {a : Action} {b : Backlog} (h : Change now s agent a b) (hs : s.Sound)
    (hb : s.Bounded) : b.Bounded s.settings.queueDepth := by
  have hq := hb agent
  have hset := hs.settled agent
  have hv := hset.viable
  cases h with
  | same => exact hq
  | enter id payload urgency maxAttempts hr h => exact hq.submit h
  | @answer key verdict found b h =>
    have hp := (Backlog.passage_answer hv key verdict now).1
    rw [h] at hp
    exact hp.bounded hq
  | pump h =>
    have hfirst := (Backlog.passage_review hv now).1.bounded hq
    exact Pass.bounded_run (sound_firstPass (s := s) hset now).1 hfirst h
  | withdraw => exact (Backlog.passage_withdraw hv _).1.bounded hq
  | remove => exact Backlog.bounded_new agent _

theorem Moves.bounded {l : List Action} (h : Moves now l s s') (hs : s.Sound) (hb : s.Bounded) :
    s'.Bounded := by
  induction h with
  | nil => exact hb
  | quiet hq _ ih =>
    refine ih (hs.of_queueOf hq.queue) fun agent => ?_
    rw [hq.queue, hq.settings]
    exact hb agent
  | cons hm _ ih =>
    obtain ⟨hs₁, ended, ht⟩ := hm.transfer hs
    refine ih hs₁ fun agent => ?_
    rw [ht.settings]
    exact (hm.change agent).bounded hs hb

omit [Carrier τ] in
theorem bounded_new (settings : NetworkSettings) (carrier : τ) (start : Instant) :
    (new settings carrier start).Bounded := fun agent => Backlog.bounded_new agent _

theorem bounded_of_run {settings : NetworkSettings} {carrier : τ} {start : Instant}
    {operations : List Operation} {steps : List (Step τ)}
    (h : run operations (new settings carrier start) = .ok (steps, s)) : s.Bounded := by
  have hkept : s.Sound ∧ s.Bounded := by
    refine run_induction (P := fun _ s => s.Sound ∧ s.Bounded) h
      ⟨sound_new .., bounded_new settings carrier start⟩ ?_
    rintro _ step - ⟨hs, hb⟩ hp
    exact ⟨(perform_transfer hs hp).1, (perform_moves hp).bounded hs hb⟩
  exact hkept.2

end Moves

/-! ### Turning away a command -/

/-- Why a command for an agent is turned away, and the error it is answered with. -/
inductive Refuses (s : Station τ) (agent : AgentId) : DispatchError → Prop
  /-- the agent is not registered -/
  | unknown (ha : s.agents.contains agent = false) : Refuses s agent (.unknownAgent s.id agent)
  /-- the agent has as many pending requests as there may be -/
  | full (hn : (s.queueOf agent).pendingLen = s.settings.queueDepth) :
      Refuses s agent (.queueFull s.id agent s.settings.queueDepth)

section Refusals

variable {s s' : Station τ} {request : RequestId} {agent : AgentId} {payload : Payload}
  {urgency : Urgency} {maxAttempts : Nat} {e : DispatchError}

theorem refuses_unknown_iff :
    s.Refuses agent (.unknownAgent s.id agent) ↔ s.agents.contains agent = false :=
  ⟨fun h => by cases h; assumption, .unknown⟩

theorem refuses_full_iff :
    s.Refuses agent (.queueFull s.id agent s.settings.queueDepth) ↔
      (s.queueOf agent).pendingLen = s.settings.queueDepth :=
  ⟨fun h => by cases h; assumption, .full⟩

theorem setBacklog_of_backlogOf {b : Backlog} (h : s.backlogOf agent = some b) :
    s.setBacklog agent b = s := by
  obtain ⟨a, ha, hb⟩ := Option.bind_eq_some_iff.1 h
  have hagents : (s.agents.modify agent fun a => { a with backlog := some b }) = s.agents := by
    refine Table.ext_get? fun other => ?_
    rw [Table.get?_modify]
    split
    · rename_i ho
      rw [ho, ha, Option.map_some, ← hb]
    · rfl
  unfold setBacklog
  rw [hagents]

/-- An agent with a pending request has a backlog. -/
theorem backlogOf_of_pendingLen (h : (s.queueOf agent).pendingLen ≠ 0) :
    s.backlogOf agent = some (s.queueOf agent) := by
  cases hb : s.backlogOf agent with
  | none =>
    rw [queueOf_of_backlogOf_eq_none hb] at h
    exact absurd rfl h
  | some b => rw [queueOf_of_backlogOf hb]

theorem enqueue_of_unknown (ha : s.agents.contains agent = false) :
    enqueue request agent payload urgency maxAttempts s =
      (.error (.unknownAgent s.id agent), s) := by
  have hnone : s.agents.get? agent = none := by simpa [Table.contains] using ha
  unfold enqueue
  rw [hnone]

theorem enqueue_of_full (hb : s.Bounded) (hd : s.settings.queueDepth ≠ 0)
    (hn : (s.queueOf agent).pendingLen = s.settings.queueDepth) :
    enqueue request agent payload urgency maxAttempts s =
      (.error (.queueFull s.id agent s.settings.queueDepth), s) := by
  -- the agent has a backlog already, and it is put back as it is
  have hbacklog := backlogOf_of_pendingLen (hn ▸ hd)
  obtain ⟨a, ha⟩ := exists_of_backlogOf hbacklog
  unfold enqueue
  rw [ha]
  dsimp only
  rw [← queueOf_of_get? ha, (hb agent).submit_eq_none_iff.2 hn, (hb agent).depth,
    setBacklog_of_backlogOf hbacklog]

theorem refuses_of_enqueue (hb : s.Bounded)
    (h : enqueue request agent payload urgency maxAttempts s = (.error e, s')) :
    s.Refuses agent e := by
  unfold enqueue at h
  cases ha : s.agents.get? agent with
  | none =>
    rw [ha] at h
    cases h
    exact .unknown (by simp [Table.contains, ha])
  | some a =>
    rw [ha] at h
    dsimp only at h
    rw [← queueOf_of_get? ha, (hb agent).depth] at h
    split at h
    · rename_i hsubmit
      cases h
      exact .full ((hb agent).submit_eq_none_iff.1 hsubmit)
    · cases h

/-- A command is turned away for one of two reasons, and nothing happens. -/
theorem enqueue_eq_error_iff (hb : s.Bounded) (hd : s.settings.queueDepth ≠ 0) :
    enqueue request agent payload urgency maxAttempts s = (.error e, s') ↔
      s.Refuses agent e ∧ s' = s := by
  have hrefused : s.Refuses agent e →
      enqueue request agent payload urgency maxAttempts s = (.error e, s) := by
    rintro (ha | hn)
    · exact enqueue_of_unknown ha
    · exact enqueue_of_full hb hd hn
  constructor
  · intro h
    have hr := refuses_of_enqueue hb h
    exact ⟨hr, congrArg Prod.snd (h.symm.trans (hrefused hr))⟩
  · rintro ⟨hr, rfl⟩
    exact hrefused hr

/-- A command that is turned away is not followed by a pump. -/
theorem submit_eq_error_iff [Carrier τ] {now : Instant} :
    submit request agent payload urgency maxAttempts now s = .ok (.error e) s' ↔
      enqueue request agent payload urgency maxAttempts s = (.error e, s') := by
  rw [submit_eq_ok]
  constructor
  · rintro ⟨s₁, he, ⟨-, rfl⟩ | ⟨hok, -⟩⟩
    · exact he
    · cases hok
  · exact fun he => ⟨s', he, .inl ⟨rfl, rfl⟩⟩

/-- The same for every operation that submits a command. -/
theorem perform_eq_error_iff [Carrier τ] (hb : s.Bounded) (hd : s.settings.queueDepth ≠ 0)
    {operation : Operation} (ho : operation.submission? = some (request, agent)) :
    perform operation s = .ok (.submitted (.error e)) s' ↔ s.Refuses agent e ∧ s' = s := by
  have hanswer : ∀ x : Act τ (Except DispatchError Handle),
      (x >>= fun result => pure (Result.submitted result)) s = .ok (.submitted (.error e)) s' ↔
        x s = .ok (.error e) s' := by
    intro x
    rw [Act.bind_pure_eq_ok]
    constructor
    · rintro ⟨result, hx, hr⟩
      cases hr
      exact hx
    · exact fun hx => ⟨_, hx, rfl⟩
  cases operation with
  | submit _ _ payload urgency maxAttempts now =>
    cases ho
    exact (hanswer _).trans (submit_eq_error_iff.trans (enqueue_eq_error_iff hb hd))
  | enqueue _ _ payload urgency maxAttempts =>
    cases ho
    exact (hanswer _).trans (Act.modifyGet_eq_ok.trans (enqueue_eq_error_iff hb hd))
  | _ => cases ho

end Refusals

/-! ### A run -/

section Run

variable [Carrier τ] {settings : NetworkSettings} {carrier : τ} {start : Instant}
  {operations : List Operation} {steps : List (Step τ)} {s : Station τ}

/-- Which commands are turned away by a station with the given settings, and what that comes to. -/
structure Capacity (settings : NetworkSettings) (s : Station τ) : Prop where
  /-- a command is turned away as one for an unknown agent exactly if the agent is not registered,
  and nothing else happens -/
  unknown : ∀ operation request agent, operation.submission? = some (request, agent) → ∀ s',
    perform operation s =
        .ok (.submitted (.error (.unknownAgent settings.id agent))) s' ↔
      s.agents.contains agent = false ∧ s' = s
  /-- it is turned away as one too many exactly if as many requests of the agent are pending as
  there may be, and nothing else happens -/
  full : ∀ operation request agent, operation.submission? = some (request, agent) → ∀ s',
    perform operation s =
        .ok (.submitted (.error (.queueFull settings.id agent settings.queueDepth))) s' ↔
      (s.queueOf agent).requests.length = settings.queueDepth ∧ s' = s
  /-- there is no other reason to turn a command away -/
  reasons : ∀ operation request agent, operation.submission? = some (request, agent) → ∀ e s',
    perform operation s = .ok (.submitted (.error e)) s' →
      e = .unknownAgent settings.id agent ∨ e = .queueFull settings.id agent settings.queueDepth
  /-- no agent has more pending requests than there may be -/
  bounded : ∀ agent, (s.queueOf agent).requests.length ≤ settings.queueDepth

/-- Whatever is asked of a station with valid settings: a command that is turned away leaves no
trace, and the pending requests of an agent are never more than its queue holds. -/
theorem turned_away_without_trace (hv : settings.validate = .ok ())
    (h : run operations (new settings carrier start) = .ok (steps, s)) : Capacity settings s := by
  have hb := bounded_of_run h
  obtain ⟨-, -, hsettings, -⟩ := knows_of_run h
  have hd := NetworkSettings.queueDepth_of_validate hv
  obtain rfl := hsettings
  refine ⟨?_, ?_, ?_, fun agent => ?_⟩
  · intro operation request agent ho s'
    exact (perform_eq_error_iff hb hd ho).trans (and_congr_left fun _ => refuses_unknown_iff)
  · intro operation request agent ho s'
    rw [Backlog.length_requests]
    exact (perform_eq_error_iff hb hd ho).trans (and_congr_left fun _ => refuses_full_iff)
  · intro operation request agent ho e s' hp
    cases ((perform_eq_error_iff hb hd ho).1 hp).1 with
    | unknown => exact .inl rfl
    | full => exact .inr rfl
  · rw [Backlog.length_requests]
    exact (hb agent).room

end Run

/-- With room for one request: it is in flight and withdrawn, and another one is submitted. -/
def cramped : List Operation :=
  [.route (.heartbeat "alpha" 1) 0,
    .submit 1 1 (.expecting [7] 3) .normal 0 10,
    .cancel 1]

theorem turned_away_without_trace_cramped :
    NetworkSettings.validate { id := "alpha", queueDepth := 1 } = .ok () ∧
      ∃ steps s, run cramped (new { id := "alpha", queueDepth := 1 } (Pipe.new "up" 4) 0) =
          .ok (steps, s) ∧
        (s.queueOf 1).requests.map Request.cancelRequested = [true] ∧
          perform (.submit 2 1 (.oneWay [8]) .urgent 0 20) s =
              .ok (.submitted (.error (.queueFull "alpha" 1 1))) s ∧
            perform (.submit 2 5 (.oneWay [8]) .urgent 0 20) s =
                .ok (.submitted (.error (.unknownAgent "alpha" 5))) s ∧
              Capacity { id := "alpha", queueDepth := 1 } s := by
  have hv : NetworkSettings.validate { id := "alpha", queueDepth := 1 } = .ok () := rfl
  have hrun : (run cramped (new { id := "alpha", queueDepth := 1 }
      (Pipe.new "up" 4) 0)).toOption.map (fun r =>
        ((r.2.queueOf 1).requests.map Request.cancelRequested, r.2.agents.contains 5)) =
      some ([true], false) := by
    decide +kernel
  obtain ⟨steps, s, h, hread⟩ := exists_run_of_map hrun
  obtain ⟨hcancelled, hunknown⟩ := Prod.mk.inj hread
  have hcapacity := turned_away_without_trace hv h
  have hlen : (s.queueOf 1).requests.length = 1 := by
    have hmap := congrArg List.length hcancelled
    rwa [List.length_map] at hmap
  exact ⟨hv, steps, s, h, hcancelled, (hcapacity.full _ 2 1 rfl s).2 ⟨hlen, rfl⟩,
    (hcapacity.unknown _ 2 5 rfl s).2 ⟨hunknown, rfl⟩, hcapacity⟩

end Station

end GroundControl
