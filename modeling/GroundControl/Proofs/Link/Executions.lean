import Mathlib.Data.List.Basic
import GroundControl.RadioLink

/-!
# What the vehicles of a link execute

A frame that a link receives is executed by the vehicle it is for, if the link has that vehicle, and
by no other one; the reply goes back to where the frame came from.  So each vehicle has executed the
frames for it in the order in which the link received them.

* `Vehicle.after`, a vehicle that has executed some commands;
* `Execution`, a frame with the vehicle that executed it and its response;
* `RadioLink.execution?`, what a link makes of a frame; `receive_cases`;
* `RadioLink.after`, `RadioLink.executions`, what it makes of many;
* `get?_after`, `executions_of_agent`: what becomes of each vehicle, and what it executes.
-/

namespace GroundControl

/-- The vehicle after it has executed the bodies of frames, one after the other. -/
def Vehicle.after (v : Vehicle) (bodies : List Bytes) : Vehicle :=
  bodies.foldl (fun v body => (v.execute body).2) v

/-- A frame that was executed. -/
structure Execution where
  frame : Frame
  /-- the vehicle that executed it -/
  agent : AgentId
  response : Response
  deriving DecidableEq, Repr

/-- Whether a frame is for one agent and no other. -/
def Frame.isFor (f : Frame) (agent : AgentId) : Bool := f.destination == .agent agent

/-- The frames for one agent. -/
def framesFor (agent : AgentId) (frames : List Frame) : List Frame := frames.filter (·.isFor agent)

/-- The bodies of the frames for one agent. -/
def bodiesFor (agent : AgentId) (frames : List Frame) : List Bytes :=
  (framesFor agent frames).map Frame.body

section Frames

variable {f : Frame} {agent : AgentId}

theorem framesFor_cons_of_isFor (h : f.isFor agent = true) (rest : List Frame) :
    framesFor agent (f :: rest) = f :: framesFor agent rest :=
  List.filter_cons_of_pos h

theorem framesFor_cons_of_not (h : f.isFor agent = false) (rest : List Frame) :
    framesFor agent (f :: rest) = framesFor agent rest :=
  List.filter_cons_of_neg (by rw [h]; exact Bool.false_ne_true)

end Frames

namespace RadioLink

variable {l : RadioLink} {f : Frame} {agent : AgentId}

/-- The execution of a frame by the vehicle it is for. -/
def execution? (l : RadioLink) (f : Frame) : Option Execution :=
  match f.destination with
  | .everyone => none
  | .agent agent =>
      (l.vehicles.get? agent).map fun v => ⟨f, agent, (v.execute f.body).1⟩

/-- The message that reports an execution, if a reply is expected. -/
def report? (l : RadioLink) (e : Execution) : Option Message :=
  e.frame.key.map fun key => l.reply e.agent key e.response

/-- The link after it has received some frames. -/
def after (l : RadioLink) (frames : List Frame) : RadioLink :=
  frames.foldl (fun l f => (l.receive f).2) l

/-- The executions of the frames that a link receives, in their order. -/
def executions (l : RadioLink) : List Frame → List Execution
  | [] => []
  | f :: rest => (l.execution? f).toList ++ executions (l.receive f).2 rest

/-! ### One frame -/

/-- A frame changes the vehicle it is for, and no other one; the reply to it reports how it was
executed.  A frame for nobody in reach changes nothing. -/
theorem receive_cases (hl : l.isDead = false) (f : Frame) :
    (l.execution? f = none ∧ l.receive f = (none, l) ∧
        ∀ agent, f.isFor agent = true → l.vehicles.get? agent = none) ∨
      ∃ agent v, f.destination = .agent agent ∧ l.vehicles.get? agent = some v ∧
        l.execution? f = some ⟨f, agent, (v.execute f.body).1⟩ ∧
          l.receive f = (l.report? ⟨f, agent, (v.execute f.body).1⟩,
            { l with vehicles := l.vehicles.insert agent (v.execute f.body).2 }) := by
  unfold receive execution? Frame.isFor
  rw [hl, if_neg Bool.false_ne_true]
  cases f.destination with
  | everyone => exact .inl ⟨rfl, rfl, nofun⟩
  | agent target =>
    cases hv : l.vehicles.get? target with
    | none =>
      refine .inl ⟨by dsimp only; rw [hv]; rfl, by dsimp only; rw [hv], fun agent ha => ?_⟩
      obtain rfl : target = agent := Destination.agent.inj (eq_of_beq ha)
      exact hv
    | some v =>
      refine .inr ⟨target, v, rfl, hv, by dsimp only; rw [hv]; rfl, ?_⟩
      dsimp only
      rw [hv]
      rfl

section Alive

variable (hl : l.isDead = false)

include hl

/-- A frame leaves the link as it is, apart from the vehicles. -/
theorem receive_eq (f : Frame) :
    ∃ vehicles, (l.receive f).2 = { l with vehicles } := by
  rcases receive_cases hl f with ⟨-, hr, -⟩ | ⟨agent, v, -, -, -, hr⟩
  · exact ⟨l.vehicles, by rw [hr]⟩
  · exact ⟨_, by rw [hr]⟩

theorem isDead_receive (f : Frame) : (l.receive f).2.isDead = false := by
  obtain ⟨vehicles, h⟩ := receive_eq hl f
  rw [h]
  exact hl

theorem report?_receive (f : Frame) : (l.receive f).2.report? = l.report? := by
  obtain ⟨vehicles, h⟩ := receive_eq hl f
  rw [h]
  rfl

/-- The reply to a frame is the report of its execution. -/
theorem reply_receive (f : Frame) : (l.receive f).1 = (l.execution? f).bind l.report? := by
  rcases receive_cases hl f with ⟨he, hr, -⟩ | ⟨agent, v, -, -, he, hr⟩
  · rw [he, hr]
    rfl
  · rw [he, hr]
    rfl

/-- A vehicle executes the frames for it. -/
theorem get?_receive (f : Frame) (agent : AgentId) :
    (l.receive f).2.vehicles.get? agent =
      if f.isFor agent then (l.vehicles.get? agent).map fun v => (v.execute f.body).2
      else l.vehicles.get? agent := by
  rcases receive_cases hl f with ⟨-, hr, hn⟩ | ⟨target, v, hd, hv, -, hr⟩
  · rw [hr]
    split
    · rename_i ha
      rw [hn agent ha]
      rfl
    · rfl
  · rw [hr, Table.get?_insert]
    unfold Frame.isFor
    by_cases ha : agent = target
    · subst ha
      rw [hd, if_pos rfl, if_pos (beq_self_eq_true _), hv]
      rfl
    · have hne : Destination.agent target ≠ .agent agent := fun he =>
        ha (Destination.agent.inj he).symm
      rw [hd, if_neg ha, beq_false_of_ne hne, if_neg Bool.false_ne_true]

end Alive

theorem destination_of_execution? {e : Execution} (h : l.execution? f = some e) :
    e.frame = f ∧ f.destination = .agent e.agent ∧ ∃ v, l.vehicles.get? e.agent = some v ∧
      e.response = (v.execute f.body).1 := by
  unfold execution? at h
  cases hd : f.destination with
  | everyone =>
    rw [hd] at h
    cases h
  | agent target =>
    rw [hd] at h
    obtain ⟨v, hv, rfl⟩ := Option.map_eq_some_iff.1 h
    exact ⟨rfl, rfl, v, hv, rfl⟩

/-- A frame for a vehicle in reach is executed by that vehicle. -/
theorem execution?_of_isFor {v : Vehicle} (hv : l.vehicles.get? agent = some v)
    (hf : f.isFor agent = true) : l.execution? f = some ⟨f, agent, (v.execute f.body).1⟩ := by
  unfold execution?
  rw [show f.destination = .agent agent from eq_of_beq hf]
  dsimp only
  rw [hv]
  rfl

/-- A frame for somebody else is not executed by a vehicle. -/
theorem filter_execution? (hf : f.isFor agent = false) :
    (l.execution? f).toList.filter (·.agent = agent) = [] := by
  refine List.filter_eq_nil_iff.2 fun e he ha => ?_
  obtain ⟨-, hd, -⟩ := destination_of_execution? (Option.mem_toList.1 he)
  rw [of_decide_eq_true ha] at hd
  unfold Frame.isFor at hf
  rw [hd, beq_self_eq_true] at hf
  cases hf

/-! ### Many frames -/

theorem after_append (l : RadioLink) (frames later : List Frame) :
    l.after (frames ++ later) = (l.after frames).after later :=
  List.foldl_append

theorem executions_append (l : RadioLink) (frames later : List Frame) :
    l.executions (frames ++ later) = l.executions frames ++ (l.after frames).executions later := by
  induction frames generalizing l with
  | nil => rfl
  | cons f rest ih =>
    show (l.execution? f).toList ++ (l.receive f).2.executions (rest ++ later) = _
    rw [ih]
    exact (List.append_assoc ..).symm

/-- Each frame is executed once at most, and in its turn. -/
theorem frames_sublist (l : RadioLink) (frames : List Frame) :
    ((l.executions frames).map Execution.frame).Sublist frames := by
  induction frames generalizing l with
  | nil => exact .slnil
  | cons f rest ih =>
    unfold executions
    rw [List.map_append]
    cases he : l.execution? f with
    | none => exact (ih _).cons f
    | some e =>
      obtain ⟨rfl, -⟩ := destination_of_execution? he
      exact (ih _).cons_cons e.frame

/-- A frame is executed by the vehicle it is for. -/
theorem destination_of_mem {frames : List Frame} {e : Execution} (h : e ∈ l.executions frames) :
    e.frame.destination = .agent e.agent := by
  induction frames generalizing l with
  | nil => cases h
  | cons f rest ih =>
    rcases List.mem_append.1 h with hf | hm
    · obtain ⟨rfl, hd, -⟩ := destination_of_execution? (Option.mem_toList.1 hf)
      exact hd
    · exact ih hm

section Alive

variable (hl : l.isDead = false)

include hl

theorem isDead_after (frames : List Frame) : (l.after frames).isDead = false := by
  induction frames generalizing l with
  | nil => exact hl
  | cons f rest ih => exact ih (isDead_receive hl f)

theorem report?_after (frames : List Frame) : (l.after frames).report? = l.report? := by
  induction frames generalizing l with
  | nil => rfl
  | cons f rest ih => exact (ih (isDead_receive hl f)).trans (report?_receive hl f)

/-- Each vehicle has executed the frames for it. -/
theorem get?_after (frames : List Frame) (agent : AgentId) :
    (l.after frames).vehicles.get? agent =
      (l.vehicles.get? agent).map fun v => v.after (bodiesFor agent frames) := by
  induction frames generalizing l with
  | nil => exact (congrFun Option.map_id _).symm
  | cons f rest ih =>
    have hrest := ih (isDead_receive hl f)
    rw [get?_receive hl] at hrest
    refine hrest.trans ?_
    unfold bodiesFor
    cases hf : f.isFor agent with
    | false => rw [if_neg Bool.false_ne_true, framesFor_cons_of_not hf]
    | true =>
      rw [if_pos rfl, framesFor_cons_of_isFor hf, Option.map_map]
      rfl

/-- A vehicle in reach executes every frame for it, in their order, and answers as it does. -/
theorem executions_of_agent (frames : List Frame) {agent : AgentId} {v : Vehicle}
    (hv : l.vehicles.get? agent = some v) :
    ((l.executions frames).filter (·.agent = agent)).map Execution.frame =
        framesFor agent frames ∧
      ((l.executions frames).filter (·.agent = agent)).map Execution.response =
        (v.history (bodiesFor agent frames)).map Prod.fst := by
  induction frames generalizing l v with
  | nil => exact ⟨rfl, rfl⟩
  | cons f rest ih =>
    have hnext := get?_receive hl f agent
    rw [hv] at hnext
    unfold executions bodiesFor
    rw [List.filter_append]
    cases hf : f.isFor agent with
    | false =>
      rw [hf, if_neg Bool.false_ne_true] at hnext
      rw [filter_execution? hf, List.nil_append, framesFor_cons_of_not hf]
      exact ih (isDead_receive hl f) hnext
    | true =>
      rw [hf, if_pos rfl] at hnext
      obtain ⟨hframes, hresponses⟩ := ih (isDead_receive hl f) hnext
      rw [execution?_of_isFor hv hf, framesFor_cons_of_isFor hf]
      have hself : (some (⟨f, agent, (v.execute f.body).1⟩ : Execution)).toList.filter
          (·.agent = agent) = [⟨f, agent, (v.execute f.body).1⟩] :=
        List.filter_cons_of_pos (decide_eq_true rfl)
      rw [hself]
      exact ⟨congrArg (f :: ·) hframes, congrArg ((v.execute f.body).1 :: ·) hresponses⟩

/-- A link executes nothing for vehicles that it does not have. -/
theorem agent_of_mem {frames : List Frame} {e : Execution} (h : e ∈ l.executions frames) :
    (l.vehicles.get? e.agent).isSome = true := by
  induction frames generalizing l with
  | nil => cases h
  | cons f rest ih =>
    rcases List.mem_append.1 h with hf | hm
    · obtain ⟨-, -, v, hv, -⟩ := destination_of_execution? (Option.mem_toList.1 hf)
      rw [hv]
      rfl
    · have hrest := ih (isDead_receive hl f) hm
      rw [get?_receive hl] at hrest
      split at hrest
      · rwa [Option.isSome_map] at hrest
      · exact hrest

/-- A broadcast, or a frame for a vehicle that the link does not have, is not answered and changes
nothing. -/
theorem receive_of_unreached (hf : ∀ agent, f.destination = .agent agent →
    l.vehicles.get? agent = none) : l.receive f = (none, l) := by
  rcases receive_cases hl f with ⟨-, hr, -⟩ | ⟨agent, v, hd, hv, -⟩
  · exact hr
  · rw [hf agent hd] at hv
    cases hv

end Alive

/-- A table to which new vehicles are added. -/
theorem get?_foldl_new (agents : List AgentId) (t : Table AgentId Vehicle) (agent : AgentId) :
    ((agents.map fun a => (a, Vehicle.new a)).foldl (fun t e => t.insert e.1 e.2) t).get? agent =
      if agent ∈ agents then some (.new agent) else t.get? agent := by
  induction agents generalizing t with
  | nil => rfl
  | cons a rest ih =>
    refine (ih _).trans ?_
    rw [Table.get?_insert]
    by_cases hm : agent ∈ rest
    · rw [if_pos hm, if_pos (List.mem_cons_of_mem a hm)]
    · rw [if_neg hm]
      by_cases ha : agent = a
      · rw [if_pos ha, if_pos (ha ▸ List.mem_cons_self), ha]
      · rw [if_neg ha, if_neg fun h => (List.mem_cons.1 h).elim ha hm]

/-- The vehicles of a new link are those of its settings, and none of them has received a
command. -/
theorem get?_new (network : NetworkId) (settings : LinkSettings) (agent : AgentId) :
    (new network settings).vehicles.get? agent =
      if agent ∈ settings.agents then some (.new agent) else none :=
  get?_foldl_new settings.agents ∅ agent

end RadioLink

end GroundControl
