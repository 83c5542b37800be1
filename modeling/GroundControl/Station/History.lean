import GroundControl.Station.Operations

/-!
# Histories of a station

What can be asked of a station from outside, one request after the other, and what became of it.

* `Operation`, everything a station can be asked to do; `Result`, what it answers;
* `Station.perform`, one operation; `Station.run`, a list of them, which ends at the first fault;
* `Step τ`, an operation with the station before and after it; `Step.effects`, what the station did
  to the world in it;
* `submitted`, the numbers of the requests that were submitted; `accepted`, the handles of those
  that were taken in.
-/

namespace GroundControl

/-- What a station can be asked to do. -/
inductive Operation
  /-- take in a message, and move what its reply has set free -/
  | deliver (m : Message) (now : Instant)
  /-- take in a message -/
  | route (m : Message) (now : Instant)
  /-- queue a command and move the agent's requests -/
  | submit (request : RequestId) (agent : AgentId) (payload : Payload) (urgency : Urgency)
      (maxAttempts : Nat) (now : Instant)
  /-- queue a command -/
  | enqueue (request : RequestId) (agent : AgentId) (payload : Payload) (urgency : Urgency)
      (maxAttempts : Nat)
  | pump (agent : AgentId) (now : Instant)
  /-- move the requests of every agent; the agents come up in the order of `walk` -/
  | pumpAll (walk : Walk) (now : Instant)
  | sweep (walk : Walk) (now : Instant)
  | tick (walk : Walk) (now : Instant)
  /-- send a broadcast; a sleeper that wants to wake at `t` does so at `wake t` -/
  | broadcast (wake : Instant → Instant) (bulletin : Bulletin) (deadline now : Instant)
  | correction (wake : Instant → Instant) (bulletin : Bulletin) (skipIfIdle : Bool)
      (deadline now : Instant)
  | cancel (request : RequestId)
  | deregister (agent : AgentId) (now : Instant)
  | shutdown (walk : Walk) (now : Instant)
  | adoptEpoch (epoch : Nat)

/-- What a station answers. -/
inductive Result
  | submitted (result : Except DispatchError Handle)
  /-- the agent whose request a message has finished, if it has finished one -/
  | routed (agent : Option AgentId)
  | swept (changes : List PresenceChange)
  | broadcast (result : Except DispatchError Unit)
  | corrected (result : Except DispatchError Bool)
  | cancelled (found : Bool)
  | deregistered (result : Except DispatchError Unit)
  | done

namespace Operation

/-- The instant at which an operation is asked for, if it depends on the time. -/
def time? : Operation → Option Instant
  | .deliver _ now | .route _ now | .submit _ _ _ _ _ now | .pump _ now | .pumpAll _ now
  | .sweep _ now | .tick _ now | .broadcast _ _ _ now | .correction _ _ _ _ now
  | .deregister _ now | .shutdown _ now => some now
  | .enqueue .. | .cancel _ | .adoptEpoch _ => none

/-- The number of the request an operation submits, and the agent it is for. -/
def submission? : Operation → Option (RequestId × AgentId)
  | .submit request agent _ _ _ _ | .enqueue request agent _ _ _ => some (request, agent)
  | _ => none

end Operation

/-- The numbers of the requests that are submitted. -/
def submitted (operations : List Operation) : List RequestId :=
  operations.filterMap fun operation => operation.submission?.map (·.1)

/-- The handle of the request that was taken in, if one was. -/
def Result.handle? : Result → Option Handle
  | .submitted (.ok handle) => some handle
  | _ => none

/-- An operation, its answer, and the station before and after it. -/
structure Step (τ : Type) where
  before : Station τ
  operation : Operation
  response : Result
  after : Station τ

/-- What the station did to the world in a step. -/
def Step.effects {τ : Type} (step : Step τ) : List Effect :=
  step.after.log.drop step.before.log.length

/-- The handles of the requests that were taken in, in the order of their submission. -/
def accepted {τ : Type} (steps : List (Step τ)) : List Handle :=
  steps.filterMap fun step => step.response.handle?

namespace Station

variable {τ : Type} [Carrier τ]

/-- Carry out an operation. -/
def perform : Operation → Act τ Result
  | .deliver m now => do deliverInbound m now; return .done
  | .route m now => return .routed (← route m now)
  | .submit request agent payload urgency maxAttempts now =>
      return .submitted (← submit request agent payload urgency maxAttempts now)
  | .enqueue request agent payload urgency maxAttempts =>
      return .submitted (← modifyGet (enqueue request agent payload urgency maxAttempts))
  | .pump agent now => do pump agent now; return .done
  | .pumpAll _ now => do pumpAll now; return .done
  | .sweep _ now => return .swept (← modifyGet (sweep now))
  | .tick _ now => do tick now; return .done
  | .broadcast wake bulletin deadline now =>
      return .broadcast (← broadcast wake bulletin deadline now).1
  | .correction wake bulletin skipIfIdle deadline now =>
      return .corrected (← correction wake bulletin skipIfIdle deadline now).1
  | .cancel request => return .cancelled (← modifyGet (cancel request))
  | .deregister agent now => return .deregistered (← deregister agent now)
  | .shutdown _ now => do shutdown now; return .done
  | .adoptEpoch epoch => do modify (·.adoptEpoch epoch); return .done

/-- Carry out operations one after the other, unless one of them meets a fault. -/
def run : List Operation → Station τ → Except Fault (List (Step τ) × Station τ)
  | [], s => .ok ([], s)
  | operation :: rest, s =>
      match perform operation s with
      | .error fault _ => .error fault
      | .ok response after =>
          match run rest after with
          | .error fault => .error fault
          | .ok (steps, last) => .ok (⟨s, operation, response, after⟩ :: steps, last)

@[simp] theorem run_nil (s : Station τ) : run [] s = .ok ([], s) := rfl

theorem run_cons_eq_ok {operation : Operation} {rest : List Operation} {s last : Station τ}
    {steps : List (Step τ)} :
    run (operation :: rest) s = .ok (steps, last) ↔
      ∃ response after others, perform operation s = .ok response after ∧
        run rest after = .ok (others, last) ∧
          steps = ⟨s, operation, response, after⟩ :: others := by
  rw [run]
  constructor
  · intro h
    split at h
    · cases h
    · rename_i response after hp
      split at h
      · cases h
      · rename_i others last' hr
        cases h
        exact ⟨response, after, others, hp, hr, rfl⟩
  · rintro ⟨response, after, others, hp, hr, rfl⟩
    rw [hp]
    dsimp only
    rw [hr]

/-- The steps of a run are what the station did. -/
theorem perform_of_mem_run {operations : List Operation} {s last : Station τ}
    {steps : List (Step τ)} (h : run operations s = .ok (steps, last)) {step : Step τ}
    (hs : step ∈ steps) :
    step.operation ∈ operations ∧
      perform step.operation step.before = .ok step.response step.after := by
  induction operations generalizing s steps with
  | nil =>
    cases h
    cases hs
  | cons operation rest ih =>
    obtain ⟨response, after, others, hp, hr, rfl⟩ := run_cons_eq_ok.1 h
    rcases List.mem_cons.1 hs with rfl | hs
    · exact ⟨List.mem_cons_self, hp⟩
    · obtain ⟨hm, hp⟩ := ih hr hs
      exact ⟨List.mem_cons_of_mem _ hm, hp⟩

theorem operations_of_run {operations : List Operation} {s last : Station τ}
    {steps : List (Step τ)} (h : run operations s = .ok (steps, last)) :
    steps.map Step.operation = operations := by
  induction operations generalizing s steps with
  | nil =>
    cases h
    rfl
  | cons operation rest ih =>
    obtain ⟨response, after, others, -, hr, rfl⟩ := run_cons_eq_ok.1 h
    rw [List.map_cons, ih hr]

/-- A run of which something can be read off has come to its end. -/
theorem exists_run_of_map {α : Type} {operations : List Operation} {s : Station τ}
    {f : List (Step τ) × Station τ → α} {a : α}
    (h : (run operations s).toOption.map f = some a) :
    ∃ steps last, run operations s = .ok (steps, last) ∧ f (steps, last) = a := by
  cases hr : run operations s with
  | error fault =>
    rw [hr] at h
    cases h
  | ok r =>
    rw [hr] at h
    exact ⟨r.1, r.2, rfl, Option.some.inj h⟩

/-- One run after the other. -/
theorem run_append {l m : List Operation} {s t last : Station τ} {past later : List (Step τ)}
    (h : run l s = .ok (past, t)) (h' : run m t = .ok (later, last)) :
    run (l ++ m) s = .ok (past ++ later, last) := by
  induction l generalizing s past with
  | nil =>
    cases h
    exact h'
  | cons operation rest ih =>
    obtain ⟨response, after, others, hp, hr, rfl⟩ := run_cons_eq_ok.1 h
    exact run_cons_eq_ok.2 ⟨response, after, others ++ later, hp, ih hr, rfl⟩

/-- A run is what happened before one of its steps, the step, and what happened after it. -/
theorem run_split {operations : List Operation} {s last : Station τ} {past later : List (Step τ)}
    {step : Step τ} (h : run operations s = .ok (past ++ step :: later, last)) :
    run (past.map Step.operation) s = .ok (past, step.before) ∧
      perform step.operation step.before = .ok step.response step.after ∧
        run (later.map Step.operation) step.after = .ok (later, last) := by
  induction past generalizing operations s with
  | nil =>
    cases operations with
    | nil => cases h
    | cons operation rest =>
      obtain ⟨response, after, others, hp, hr, he⟩ := run_cons_eq_ok.1 h
      obtain ⟨rfl, rfl⟩ := List.cons.inj he
      exact ⟨rfl, hp, operations_of_run hr ▸ hr⟩
  | cons first past ih =>
    cases operations with
    | nil => cases h
    | cons operation rest =>
      obtain ⟨response, after, others, hp, hr, he⟩ := run_cons_eq_ok.1 h
      obtain ⟨rfl, rfl⟩ := List.cons.inj he
      obtain ⟨hpast, hstep, hlater⟩ := ih hr
      exact ⟨run_cons_eq_ok.2 ⟨response, after, past, hp, hpast, rfl⟩, hstep, hlater⟩

/-- A run can be cut off after each of its steps. -/
theorem run_upto {operations : List Operation} {s last : Station τ} {past later : List (Step τ)}
    {step : Step τ} (h : run operations s = .ok (past ++ step :: later, last)) :
    run ((past ++ [step]).map Step.operation) s = .ok (past ++ [step], step.after) := by
  obtain ⟨hpast, hstep, -⟩ := run_split h
  rw [List.map_append]
  exact run_append hpast (run_cons_eq_ok.2 ⟨step.response, step.after, [], hstep, rfl, rfl⟩)

/-- What holds at the beginning, and is carried on by every step, holds at the end. -/
theorem run_induction {operations : List Operation} {s last : Station τ} {steps : List (Step τ)}
    {P : List (Step τ) → Station τ → Prop} (h : run operations s = .ok (steps, last))
    (hnil : P [] s)
    (hstep : ∀ past step, (past ++ [step]) <+: steps → P past step.before →
      perform step.operation step.before = .ok step.response step.after →
        P (past ++ [step]) step.after) : P steps last := by
  -- the steps still to come are taken over one after the other
  suffices ∀ past later t, past ++ later = steps → P past t →
      run (later.map Step.operation) t = .ok (later, last) → P steps last from
    this [] steps s rfl hnil (by rwa [operations_of_run h])
  intro past later
  induction later generalizing past with
  | nil =>
    intro t hs hp hr
    cases hr
    rw [List.append_nil] at hs
    exact hs ▸ hp
  | cons step later ih =>
    intro t hs hp hr
    obtain ⟨response, after, others, hperform, hrest, he⟩ := run_cons_eq_ok.1 hr
    obtain ⟨hstep', rfl⟩ := List.cons.inj he
    have hb : step.before = t := congrArg Step.before hstep'
    have hx : step.response = response := congrArg Step.response hstep'
    have ha : step.after = after := congrArg Step.after hstep'
    subst hb hx ha
    rw [List.append_cons] at hs
    exact ih _ step.after hs (hstep past step ⟨later, hs⟩ hp hperform) hrest

end Station

end GroundControl
