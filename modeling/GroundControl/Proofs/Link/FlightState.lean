import Mathlib.Data.List.Induction
import GroundControl.Proofs.Link.Executions
import GroundControl.Proofs.Link.WireForm
import GroundControl.Tally

/-!
# The flight state of a vehicle

The rules of flight, in two lists: the bodies that a vehicle refuses, each with the reason it gives,
and the instructions that it obeys, each with what becomes of the vehicle.  Every body is in one of
the two lists, so what holds of a vehicle is read off the second one, case by case.

* `Refuses`, `Obeys`, with `Refuses.execute` and `Obeys.execute`; `execute_cases`;
* `rejected_iff`, `completed_iff_of_sleeping`: which commands are rejected, and what a sleeping
  vehicle completes;
* `Airworthy`, how the flags agree, with `airworthy_after`;
* `completed`, the commands that a vehicle has completed; `get?_params_after`,
  `bytesReceived_after`: its parameters and its upload, as those commands leave them;
* `Consistent` and `flight_state_consistent`, all of it for a new vehicle.
-/

namespace GroundControl.Vehicle

variable {v w : Vehicle} {i : Instruction} {args body : Bytes} {message : String}

/-! ### The rules of flight -/

/-- The bodies that a vehicle refuses, with the reasons. -/
inductive Refuses (v : Vehicle) : Bytes → String → Prop
  | empty : Refuses v [] "Unknown command"
  | unknown (b : UInt8) (rest : Bytes) (hb : ∀ i, Instruction.byte i ≠ b) :
      Refuses v (b :: rest) "Unknown command"
  | asleep (i : Instruction) (args : Bytes) (hs : v.sleeping = true)
      (hi : i ≠ .statusRequest ∧ i ≠ .wake) :
      Refuses v (i.encode args) "Flight controller is asleep"
  | flying (args : Bytes) (hs : v.sleeping = false) (hf : v.airborne = true) :
      Refuses v (Instruction.arm.encode args) "Already airborne"
  | disarmed (args : Bytes) (hs : v.sleeping = false) (ha : v.armed = false) :
      Refuses v (Instruction.takeoff.encode args) "Not armed"
  | landed (i : Instruction) (args : Bytes) (hi : i = .land ∨ i = .returnToHome)
      (hs : v.sleeping = false) (hf : v.airborne = false) :
      Refuses v (i.encode args) "Not airborne"
  | malformed (args : Bytes) (hs : v.sleeping = false) (hn : args.length ≠ 2) :
      Refuses v (Instruction.paramSet.encode args) "Malformed parameter"
  | restless (args : Bytes) (hs : v.sleeping = false) (hf : v.airborne = true) :
      Refuses v (Instruction.sleep.encode args) "Cannot sleep while airborne"

/-- The instructions that a vehicle obeys, with what becomes of it. -/
inductive Obeys (v : Vehicle) : Instruction → Bytes → Vehicle → Prop
  | statusRequest (args : Bytes) : Obeys v .statusRequest args v
  | arm (args : Bytes) (hs : v.sleeping = false) (hf : v.airborne = false) :
      Obeys v .arm args { v with armed := true }
  | takeoff (args : Bytes) (hs : v.sleeping = false) (ha : v.armed = true) :
      Obeys v .takeoff args { v with airborne := true }
  | descend (i : Instruction) (args : Bytes) (hi : i = .land ∨ i = .returnToHome)
      (hs : v.sleeping = false) (hf : v.airborne = true) :
      Obeys v i args { v with airborne := false, armed := false }
  | paramSet (index value : UInt8) (hs : v.sleeping = false) :
      Obeys v .paramSet [index, value] { v with params := v.params.insert index.toNat value }
  | fileChunk (args : Bytes) (hs : v.sleeping = false) :
      Obeys v .fileChunk args { v with bytesReceived := v.bytesReceived + args.length }
  | sleep (args : Bytes) (hs : v.sleeping = false) (hf : v.airborne = false) :
      Obeys v .sleep args { v with sleeping := true, armed := false }
  | wake (args : Bytes) : Obeys v .wake args { v with sleeping := false }
  | led (args : Bytes) (hs : v.sleeping = false) : Obeys v .led args v

theorem execute_encode (v : Vehicle) (i : Instruction) (args : Bytes) :
    v.execute (i.encode args) =
      if v.sleeping && !wakes i then (.rejected "Flight controller is asleep", v)
      else v.perform args i := by
  simp [execute]

theorem wakes_eq_false_iff : wakes i = false ↔ i ≠ .statusRequest ∧ i ≠ .wake := by
  cases i <;> decide

/-- A body is refused with its reason, and nothing comes of it. -/
theorem Refuses.execute (h : v.Refuses body message) :
    v.execute body = (.rejected message, v) := by
  cases h with
  | empty => rfl
  | unknown b rest hb =>
    have hn : Instruction.decode? (b :: rest) = none :=
      Instruction.decode?_eq_none_iff.2 (.inr ⟨b, rest, rfl, hb⟩)
    simp [Vehicle.execute, hn]
  | asleep i args hs hi => simp [execute_encode, hs, wakes_eq_false_iff.2 hi]
  | flying args hs hf => simp [execute_encode, perform, hs, hf]
  | disarmed args hs ha => simp [execute_encode, perform, hs, ha]
  | landed i args hi hs hf => rcases hi with rfl | rfl <;> simp [execute_encode, perform, hs, hf]
  | malformed args hs hn =>
    -- no list but one of two bytes comes to the branch that sets a parameter
    rw [execute_encode, hs, Bool.false_and, if_neg Bool.false_ne_true]
    match args, hn with
    | [], _ | [_], _ | _ :: _ :: _ :: _, _ => rfl
  | restless args hs hf => simp [execute_encode, perform, hs, hf]

/-- An instruction is obeyed, and the vehicle says so. -/
theorem Obeys.execute (h : v.Obeys i args w) :
    ∃ message, v.execute (i.encode args) = (.completed message, w) := by
  cases h with
  | statusRequest args => simp [execute_encode, perform, wakes]
  | arm args hs hf => simp [execute_encode, perform, hs, hf]
  | takeoff args hs ha => simp [execute_encode, perform, hs, ha]
  | descend i args hi hs hf => rcases hi with rfl | rfl <;> simp [execute_encode, perform, hs, hf]
  | paramSet index value hs => simp [execute_encode, perform, hs]
  | fileChunk args hs => simp [execute_encode, perform, hs]
  | sleep args hs hf => simp [execute_encode, perform, hs, hf]
  | wake args => simp [execute_encode, perform, wakes]
  | led args hs => simp [execute_encode, perform, hs]

/-- A vehicle that sleeps obeys two instructions only. -/
theorem Obeys.awake_or (h : v.Obeys i args w) :
    v.sleeping = false ∨ i = .statusRequest ∨ i = .wake := by
  cases h <;> simp [*]

/-- A vehicle that is awake refuses an instruction or obeys it. -/
theorem refuses_or_obeys_of_awake (hs : v.sleeping = false) (i : Instruction) (args : Bytes) :
    (∃ message, v.Refuses (i.encode args) message) ∨ ∃ w, v.Obeys i args w := by
  -- the two ways down are told apart by their bytes only
  have hdescend : ∀ i, i = .land ∨ i = .returnToHome →
      (∃ message, v.Refuses (i.encode args) message) ∨ ∃ w, v.Obeys i args w := by
    intro i hi
    cases hf : v.airborne with
    | false => exact .inl ⟨_, .landed i args hi hs hf⟩
    | true => exact .inr ⟨_, .descend i args hi hs hf⟩
  cases i with
  | statusRequest => exact .inr ⟨_, .statusRequest args⟩
  | arm =>
    cases hf : v.airborne with
    | false => exact .inr ⟨_, .arm args hs hf⟩
    | true => exact .inl ⟨_, .flying args hs hf⟩
  | takeoff =>
    cases ha : v.armed with
    | false => exact .inl ⟨_, .disarmed args hs ha⟩
    | true => exact .inr ⟨_, .takeoff args hs ha⟩
  | land => exact hdescend .land (.inl rfl)
  | returnToHome => exact hdescend .returnToHome (.inr rfl)
  | paramSet =>
    by_cases hn : args.length = 2
    · obtain ⟨index, value, rfl⟩ := List.length_eq_two.1 hn
      exact .inr ⟨_, .paramSet index value hs⟩
    · exact .inl ⟨_, .malformed args hs hn⟩
  | fileChunk => exact .inr ⟨_, .fileChunk args hs⟩
  | sleep =>
    cases hf : v.airborne with
    | false => exact .inr ⟨_, .sleep args hs hf⟩
    | true => exact .inl ⟨_, .restless args hs hf⟩
  | wake => exact .inr ⟨_, .wake args⟩
  | led => exact .inr ⟨_, .led args hs⟩

theorem refuses_or_obeys (v : Vehicle) (i : Instruction) (args : Bytes) :
    (∃ message, v.Refuses (i.encode args) message) ∨ ∃ w, v.Obeys i args w := by
  cases hs : v.sleeping with
  | false => exact refuses_or_obeys_of_awake hs i args
  | true =>
    cases hi : wakes i with
    | false => exact .inl ⟨_, .asleep i args hs (wakes_eq_false_iff.1 hi)⟩
    | true =>
      cases i with
      | statusRequest => exact .inr ⟨_, .statusRequest args⟩
      | wake => exact .inr ⟨_, .wake args⟩
      | _ => cases hi

/-- **Every body is refused, which changes nothing, or is an instruction that is obeyed.** -/
theorem execute_cases (v : Vehicle) (body : Bytes) :
    (∃ message, v.Refuses body message ∧ v.execute body = (.rejected message, v)) ∨
      ∃ i args w message, i.encode args = body ∧ v.Obeys i args w ∧
        v.execute body = (.completed message, w) := by
  cases hd : Instruction.decode? body with
  | none =>
    rcases Instruction.decode?_eq_none_iff.1 hd with rfl | ⟨b, rest, rfl, hb⟩
    · exact .inl ⟨_, .empty, Refuses.empty.execute⟩
    · exact .inl ⟨_, .unknown b rest hb, (Refuses.unknown b rest hb).execute⟩
  | some command =>
    obtain ⟨i, args⟩ := command
    obtain rfl := Instruction.decode?_eq_some_iff.1 hd
    rcases refuses_or_obeys v i args with ⟨message, h⟩ | ⟨w, h⟩
    · exact .inl ⟨message, h, h.execute⟩
    · obtain ⟨message, he⟩ := h.execute
      exact .inr ⟨i, args, w, message, rfl, h, he⟩

/-! ### Rejected commands -/

theorem rejected_iff : (v.execute body).1 = .rejected message ↔ v.Refuses body message := by
  constructor
  · intro h
    rcases execute_cases v body with ⟨message', hr, he⟩ | ⟨i, args, w, message', -, -, he⟩
    · rw [he] at h
      cases h
      exact hr
    · rw [he] at h
      cases h
  · intro h
    rw [h.execute]

/-- A command that is rejected leaves the vehicle as it is. -/
theorem execute_of_rejected (h : (v.execute body).1 = .rejected message) :
    (v.execute body).2 = v := by
  rw [(rejected_iff.1 h).execute]

/-- A vehicle that sleeps completes status requests and wake-up calls, whatever their arguments,
and nothing else. -/
theorem completed_iff_of_sleeping (hs : v.sleeping = true) :
    (∃ message, (v.execute body).1 = .completed message) ↔
      ∃ args, body = Instruction.statusRequest.encode args ∨
        body = Instruction.wake.encode args := by
  constructor
  · rintro ⟨message, h⟩
    rcases execute_cases v body with ⟨message', -, he⟩ | ⟨i, args, w, message', rfl, ho, -⟩
    · rw [he] at h
      cases h
    · rcases ho.awake_or with hn | rfl | rfl
      · rw [hs] at hn
        cases hn
      · exact ⟨args, .inl rfl⟩
      · exact ⟨args, .inr rfl⟩
  · rintro ⟨args, rfl | rfl⟩
    · obtain ⟨message, h⟩ := (Obeys.statusRequest (v := v) args).execute
      exact ⟨message, by rw [h]⟩
    · obtain ⟨message, h⟩ := (Obeys.wake (v := v) args).execute
      exact ⟨message, by rw [h]⟩

/-! ### What a vehicle has completed -/

theorem after_concat (v : Vehicle) (bodies : List Bytes) (body : Bytes) :
    v.after (bodies ++ [body]) = ((v.after bodies).execute body).2 := by
  simp [after]

theorem length_history (v : Vehicle) (bodies : List Bytes) :
    (v.history bodies).length = bodies.length := by
  induction bodies generalizing v with
  | nil => rfl
  | cons body rest ih => simp [history, ih]

/-- A vehicle answers a command as the commands before it have left the vehicle. -/
theorem history_concat (v : Vehicle) (bodies : List Bytes) (body : Bytes) :
    v.history (bodies ++ [body]) = v.history bodies ++ [(v.after bodies).execute body] := by
  induction bodies generalizing v with
  | nil => rfl
  | cons first rest ih => simp [history, after, ih]

/-- The command in a body, if the response says that it was completed. -/
def completion? (body : Bytes) : Response → Option (Instruction × Bytes)
  | .completed _ => Instruction.decode? body
  | .rejected _ => none

/-- The commands that a vehicle completes among some bodies, in their order. -/
def completed (v : Vehicle) (bodies : List Bytes) : List (Instruction × Bytes) :=
  (bodies.zip (v.history bodies)).filterMap fun e => completion? e.1 e.2.1

theorem completed_concat (v : Vehicle) (bodies : List Bytes) (body : Bytes) :
    v.completed (bodies ++ [body]) =
      v.completed bodies ++ (completion? body ((v.after bodies).execute body).1).toList := by
  unfold completed
  rw [history_concat, List.zip_append (length_history v bodies).symm, List.filterMap_append]
  cases h : completion? body ((v.after bodies).execute body).1 <;> simp [h]

/-- What holds of a vehicle and what it has completed, if each command that is obeyed keeps it. -/
theorem after_induction {motive : List (Instruction × Bytes) → Vehicle → Prop}
    (start : motive [] v)
    (obeyed : ∀ {past v i args w}, motive past v → v.Obeys i args w →
      motive (past ++ [(i, args)]) w)
    (bodies : List Bytes) : motive (v.completed bodies) (v.after bodies) := by
  -- from the last command backwards, so that the vehicle it starts from is fixed
  induction bodies using List.reverseRecOn with
  | nil => exact start
  | append_singleton past body ih =>
    rw [after_concat, completed_concat]
    rcases execute_cases (v.after past) body with
      ⟨message, -, he⟩ | ⟨i, args, w, message, rfl, ho, he⟩
    · rw [he]
      simpa [completion?] using ih
    · rw [he]
      simpa [completion?] using obeyed ih ho

/-! ### The flags -/

/-- The flags of a vehicle agree: it is armed in the air, and neither armed nor in the air while it
sleeps. -/
structure Airworthy (v : Vehicle) : Prop where
  armed : v.airborne = true → v.armed = true
  disarmed : v.sleeping = true → v.armed = false
  landed : v.sleeping = true → v.airborne = false

theorem airworthy_new (agent : AgentId) : (new agent).Airworthy := by
  constructor <;> simp [new]

theorem Obeys.airworthy (h : v.Obeys i args w) (hv : v.Airworthy) : w.Airworthy := by
  cases h with
  | statusRequest args => exact hv
  | arm args hs hf => constructor <;> simp [hs]
  | takeoff args hs ha => constructor <;> simp [hs, ha]
  | descend i args hi hs hf => constructor <;> simp [hs]
  | paramSet index value hs => exact ⟨hv.armed, hv.disarmed, hv.landed⟩
  | fileChunk args hs => exact ⟨hv.armed, hv.disarmed, hv.landed⟩
  | sleep args hs hf => constructor <;> simp [hf]
  | wake args => exact ⟨hv.armed, by simp, by simp⟩
  | led args hs => exact hv

theorem airworthy_after (hv : v.Airworthy) (bodies : List Bytes) : (v.after bodies).Airworthy :=
  after_induction (motive := fun _ v => v.Airworthy) hv (fun hv ho => ho.airworthy hv) bodies

/-! ### Parameters and uploads -/

/-- The value that a command gives to a parameter. -/
def setting? (index : Nat) : Instruction × Bytes → Option UInt8
  | (.paramSet, [k, value]) => if index = k.toNat then some value else none
  | _ => none

/-- The length of the piece of an upload that a command brings. -/
def uploaded : Instruction × Bytes → Nat
  | (.fileChunk, args) => args.length
  | _ => 0

theorem Obeys.get?_params (h : v.Obeys i args w) (index : Nat) :
    w.params.get? index = (setting? index (i, args)).or (v.params.get? index) := by
  cases h with
  | paramSet k value hs =>
    rw [Table.get?_insert]
    by_cases hk : index = k.toNat <;> simp [setting?, hk]
  | descend i args hi => rcases hi with rfl | rfl <;> rfl
  | _ => rfl

theorem Obeys.bytesReceived_eq (h : v.Obeys i args w) :
    w.bytesReceived = v.bytesReceived + uploaded (i, args) := by
  cases h with
  | descend i args hi => rcases hi with rfl | rfl <;> rfl
  | _ => rfl

/-- A parameter has the value that the last completed command for it gave to it. -/
theorem get?_params_after (agent : AgentId) (bodies : List Bytes) (index : Nat) :
    ((new agent).after bodies).params.get? index =
      (((new agent).completed bodies).filterMap (setting? index)).getLast? := by
  refine after_induction
    (motive := fun past v => v.params.get? index = (past.filterMap (setting? index)).getLast?)
    rfl ?_ bodies
  intro past v i args w hv ho
  rw [ho.get?_params, hv, List.filterMap_append, List.getLast?_append]
  cases h : setting? index (i, args) <;> simp [h]

/-- A vehicle has received what the completed commands brought. -/
theorem bytesReceived_after (agent : AgentId) (bodies : List Bytes) :
    ((new agent).after bodies).bytesReceived = total uploaded ((new agent).completed bodies) := by
  refine after_induction
    (motive := fun past v => v.bytesReceived = total uploaded past) rfl ?_ bodies
  intro past v i args w hv ho
  rw [ho.bytesReceived_eq, hv, total_append]
  simp

/-! ### From the beginning -/

/-- What can be said of a new vehicle that has executed `bodies` and become `v`. -/
structure Consistent (agent : AgentId) (bodies : List Bytes) (v : Vehicle) : Prop where
  /-- the next command is answered, and executed, by the vehicle as it is -/
  next : ∀ body, (new agent).history (bodies ++ [body]) =
    (new agent).history bodies ++ [v.execute body]
  airworthy : v.Airworthy
  /-- each rejected command has its reason, -/
  rejected : ∀ body message, (v.execute body).1 = .rejected message ↔ v.Refuses body message
  /-- and leaves the vehicle as it is -/
  unchanged : ∀ body message, (v.execute body).1 = .rejected message → (v.execute body).2 = v
  /-- a sleeping vehicle completes status requests and wake-up calls only -/
  asleep : v.sleeping = true → ∀ body, (∃ message, (v.execute body).1 = .completed message) ↔
    ∃ args, body = Instruction.statusRequest.encode args ∨ body = Instruction.wake.encode args
  /-- a parameter has the value given to it last, and has none if it was given none -/
  params : ∀ index, v.params.get? index =
    (((new agent).completed bodies).filterMap (setting? index)).getLast?
  received : v.bytesReceived = total uploaded ((new agent).completed bodies)

/-- **The flight state of a vehicle is consistent**, whatever bytes it is sent. -/
theorem flight_state_consistent (agent : AgentId) (bodies : List Bytes) :
    Consistent agent bodies ((new agent).after bodies) where
  next := history_concat (new agent) bodies
  airworthy := airworthy_after (airworthy_new agent) bodies
  rejected _ _ := rejected_iff
  unchanged _ _ := execute_of_rejected
  asleep hs _ := completed_iff_of_sleeping hs
  params := get?_params_after agent bodies
  received := bytesReceived_after agent bodies

/-- A vehicle does not sleep in the air, and on the ground it sleeps until it is woken. -/
example : ((new 3).history [[2], [3], [8], [5], [8], [2], [9, 0]]).map Prod.fst =
    [.completed "Armed", .completed "Taking off", .rejected "Cannot sleep while airborne",
      .completed "Landing", .completed "Powering down", .rejected "Flight controller is asleep",
      .completed "Awake"] := by
  decide

end GroundControl.Vehicle
