import GroundControl.Frame

/-!
# Instructions

The commands a vehicle understands and their wire form: one byte that names the instruction,
followed by its arguments.

* `Instruction`, `Instruction.byte`, `Instruction.ofByte?`;
* `Instruction.encode`, `Instruction.decode?`;
* `Instruction.payload`, the command for an agent.
-/

namespace GroundControl

/-- What a vehicle can be told. -/
inductive Instruction
  | statusRequest
  | arm
  | takeoff
  | land
  | returnToHome
  | paramSet
  | fileChunk
  | sleep
  | wake
  /-- a light effect, never answered -/
  | led
  deriving DecidableEq, Repr

namespace Instruction

/-- The byte that names an instruction. -/
def byte : Instruction → UInt8
  | .statusRequest => 1
  | .arm => 2
  | .takeoff => 3
  | .land => 4
  | .returnToHome => 5
  | .paramSet => 6
  | .fileChunk => 7
  | .sleep => 8
  | .wake => 9
  | .led => 10

/-- The instruction named by a byte. -/
def ofByte? (b : UInt8) : Option Instruction :=
  match b.toNat with
  | 1 => some .statusRequest
  | 2 => some .arm
  | 3 => some .takeoff
  | 4 => some .land
  | 5 => some .returnToHome
  | 6 => some .paramSet
  | 7 => some .fileChunk
  | 8 => some .sleep
  | 9 => some .wake
  | 10 => some .led
  | _ => none

/-- The name of an instruction in reports. -/
def title : Instruction → String
  | .statusRequest => "StatusRequest"
  | .arm => "Arm"
  | .takeoff => "Takeoff"
  | .land => "Land"
  | .returnToHome => "ReturnToHome"
  | .paramSet => "ParamSet"
  | .fileChunk => "FileChunk"
  | .sleep => "Sleep"
  | .wake => "Wake"
  | .led => "Led"

/-- The class of exchanges an instruction belongs to. -/
def trafficClass : Instruction → TrafficClass
  | .paramSet => .parameter
  | .fileChunk => .fileTransfer
  | _ => .command

/-- Whether an instruction is answered. -/
def expectsReply : Instruction → Bool
  | .led => false
  | _ => true

/-- The wire form of an instruction with its arguments. -/
def encode (i : Instruction) (args : Bytes) : Bytes := i.byte :: args

/-- The instruction and the arguments of a wire form. -/
def decode? : Bytes → Option (Instruction × Bytes)
  | [] => none
  | b :: args => (ofByte? b).map (·, args)

/-- The command for an agent; the key is left out if no answer is expected. -/
def payload (i : Instruction) (key : ReplyKey) (args : Bytes) : Payload :=
  let body := i.encode args
  (if i.expectsReply then Payload.expecting body key else Payload.oneWay body).withClass
    i.trafficClass

@[simp] theorem ofByte?_byte (i : Instruction) : ofByte? i.byte = some i := by
  cases i <;> rfl

end Instruction

end GroundControl
