import GroundControl.Instruction
import GroundControl.Table

/-!
# Vehicles

A simulated agent: it executes the commands it receives, or rejects those that do not fit its
flight state.

* `Vehicle`, `Vehicle.new`;
* `Response`;
* `Vehicle.perform`, one instruction; `Vehicle.execute`, the body of one frame; `Vehicle.history`.
-/

namespace GroundControl

/-- The state of a vehicle. -/
structure Vehicle where
  agent : AgentId
  armed : Bool
  airborne : Bool
  /-- powered down; only a status request and a wake-up call are served -/
  sleeping : Bool
  params : Table Nat UInt8
  bytesReceived : Nat

/-- How a vehicle answers a command. -/
inductive Response
  | completed (message : String)
  | rejected (message : String)
  deriving DecidableEq, Repr

namespace Vehicle

/-- A vehicle on the ground that has received no command. -/
def new (agent : AgentId) : Vehicle := ⟨agent, false, false, false, ∅, 0⟩

/-- The flags of the flight state, in words. -/
def status (v : Vehicle) : String :=
  "armed=" ++ toString v.armed ++ " airborne=" ++ toString v.airborne ++
    " sleeping=" ++ toString v.sleeping

/-- Whether an instruction is served while the vehicle sleeps. -/
def wakes : Instruction → Bool
  | .statusRequest | .wake => true
  | _ => false

/-- Execute an instruction, the vehicle being awake or the instruction served in sleep. -/
def perform (v : Vehicle) (args : Bytes) : Instruction → Response × Vehicle
  | .statusRequest => (.completed v.status, v)
  | .arm =>
      if v.airborne then (.rejected "Already airborne", v)
      else (.completed "Armed", { v with armed := true })
  | .takeoff =>
      if v.armed then (.completed "Taking off", { v with airborne := true })
      else (.rejected "Not armed", v)
  | .land | .returnToHome =>
      if v.airborne then (.completed "Landing", { v with airborne := false, armed := false })
      else (.rejected "Not airborne", v)
  | .paramSet =>
      match args with
      | [index, value] =>
          (.completed ("Param " ++ toString index.toNat ++ " = " ++ toString value.toNat),
            { v with params := v.params.insert index.toNat value })
      | _ => (.rejected "Malformed parameter", v)
  | .fileChunk =>
      let received := v.bytesReceived + args.length
      (.completed (toString received ++ " bytes received"), { v with bytesReceived := received })
  | .sleep =>
      if v.airborne then (.rejected "Cannot sleep while airborne", v)
      else (.completed "Powering down", { v with sleeping := true, armed := false })
  | .wake => (.completed "Awake", { v with sleeping := false })
  | .led => (.completed "Light show", v)

/-- Execute the body of a frame. -/
def execute (v : Vehicle) (body : Bytes) : Response × Vehicle :=
  match Instruction.decode? body with
  | none => (.rejected "Unknown command", v)
  | some (instruction, args) =>
      if v.sleeping && !wakes instruction then (.rejected "Flight controller is asleep", v)
      else v.perform args instruction

/-- Execute the bodies of frames one after the other: each response, and the vehicle after it. -/
def history (v : Vehicle) : List Bytes → List (Response × Vehicle)
  | [] => []
  | body :: rest =>
      let (response, v) := v.execute body
      (response, v) :: history v rest

end Vehicle

end GroundControl
