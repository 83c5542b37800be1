import GroundControl.RadioLink
import GroundControl.Settings
import GroundControl.Tally

/-!
# The demonstration fleet

Three networks with their simulated links, and the mission their vehicles fly.

* `Fleet.networks`;
* `Fleet.mission`, the instructions of the mission in their order;
* `Fleet.accepts`, whether an instruction makes sense for an agent; `Fleet.arguments`,
  `Fleet.urgency`.
-/

namespace GroundControl.Fleet

/-- The flag of agents that can receive files. -/
def fileTransfer : Capabilities := ⟨2⟩

/-- The networks and their links. -/
def networks : List (NetworkSettings × LinkSettings) :=
  [ ({ id := "radio", maxAgents := some 8, rateLimit := some ⟨20, 5⟩ },
      { agents := [1, 2, 3, 4, 5, 6], capabilities := ⟨1⟩, latency := .ofMillis 40,
        packetLoss := 0.1 }),
    ({ id := "wifi", minTimeout := .ofMillis 50 },
      { agents := [1, 2, 3], capabilities := ⟨3⟩, latency := .ofMillis 5 }),
    -- no vehicle is in reach, so the correction stream skips this network
    ({ id := "spare" }, { agents := [] }) ]

/-- The instructions of the mission, given one after the other and from the start again. -/
def mission : List Instruction :=
  [.statusRequest, .arm, .takeoff, .paramSet, .led, .fileChunk, .returnToHome, .statusRequest]

/-- Whether an instruction makes sense for an agent: it is online, and it can receive files if the
instruction carries one. -/
def accepts (agent : Snapshot) (i : Instruction) : Bool :=
  agent.presence == .online && (i != .fileChunk || agent.capabilities.contains fileTransfer)

/-- The arguments of an instruction in the mission. -/
def arguments : Instruction → Bytes
  | .paramSet => [1, 42]
  | .fileChunk => List.replicate 32 0
  | _ => []

/-- The urgency of an instruction in the mission. -/
def urgency : Instruction → Urgency
  | .returnToHome => .urgent
  | _ => .normal

end GroundControl.Fleet
