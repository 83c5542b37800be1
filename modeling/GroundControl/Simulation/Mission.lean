import GroundControl.Fleet
import GroundControl.Simulation.Console

/-!
# The mission

What the operator of the demonstration fleet does: corrections go to all networks, the instructions
of the mission to all agents for which they make sense, one after the other, and the counters of the
networks are asked for, each at an interval of its own.

* `Caller.instruct`, one instruction for all agents;
* `Caller.fly`, the mission for a given time.
-/

namespace GroundControl

namespace Fleet

/-- The interval of the corrections. -/
def correctionInterval : Span := .ofMillis 500

/-- The interval of the instructions of the mission. -/
def missionInterval : Span := .ofMillis 2000

/-- The interval of the questions for the counters. -/
def reportInterval : Span := .ofMillis 10000

/-- The instruction of the mission after so many others. -/
def instructionAt (step : Nat) : Option Instruction := mission[step % mission.length]?

/-- A number as eight bytes, the highest one first. -/
def bytesOf (n : Nat) : Bytes :=
  (List.range 8).reverse.map fun i => UInt8.ofNat (n >>> (8 * i))

end Fleet

namespace Caller

/-- Give an instruction to an agent, with a key of its own; a failure is ignored. -/
def instructAgent (network : NetworkId) (i : Instruction) (keys : Nat) (agent : Snapshot) :
    Caller Nat := do
  let key := keys + 1
  let _ ← submit network agent.agent (i.payload key (Fleet.arguments i)) (Fleet.urgency i) 0
  return key

/-- Give an instruction to the agents of a network for which it makes sense. -/
def instructNetwork (i : Instruction) (keys : Nat) (network : NetworkId) : Caller Nat := do
  match ← snapshots network with
  | .error _ => return keys
  | .ok agents => (agents.filter (Fleet.accepts · i)).foldlM (instructAgent network i) keys

/-- Give an instruction to all agents for which it makes sense; `keys` is the number of keys used
before, and the answer that of keys used after it. -/
def instruct (i : Instruction) (keys : Nat) : Caller Nat := do
  (← get).control.networks.foldlM (instructNetwork i) keys

/-- Ask all networks for their counters. -/
def reportAll : Caller Unit := do
  (← get).control.networks.forM fun network => do let _ ← report network

/-- How far the operator has got. -/
structure Flight where
  /-- the number of keys used -/
  keys : Nat
  /-- the number of instructions given -/
  step : Nat
  correctionsDue : Instant
  missionDue : Instant
  reportDue : Instant

namespace Flight

/-- What the operator does next: one of the things that are due, or waiting for the next one. -/
def next (f : Flight) : Caller Flight := do
  let now := (← get).now
  if f.correctionsDue.alarm ≤ now then
    let correctionsDue ← again f.correctionsDue Fleet.correctionInterval now
    let _ ← fanOut (.correction (Fleet.bytesOf f.keys)) true
    return { f with correctionsDue }
  else if f.missionDue.alarm ≤ now then
    let missionDue ← again f.missionDue Fleet.missionInterval now
    let keys ← match Fleet.instructionAt f.step with
      | some i => instruct i f.keys
      | none => pure f.keys
    return { f with keys, step := f.step + 1, missionDue }
  else if f.reportDue.alarm ≤ now then
    let reportDue ← again f.reportDue Fleet.reportInterval now
    reportAll
    return { f with reportDue }
  else
    sleepUntil (min f.correctionsDue (min f.missionDue f.reportDue))
    return f

/-- The next `n` things the operator does. -/
def run : Nat → Flight → Caller Unit
  | 0, _ => return
  | n + 1, f => do run n (← f.next)

end Flight

/-- Fly the mission until it is time to leave.  What is due moves on by half a second at least each
time, and there are no more pauses than things that are due. -/
def fly (by_ : Span) : Caller Unit := do
  let now := (← get).now
  modify fun w => { w with leaving := some (now + by_).alarm }
  try
    Flight.run (6 * (by_ / Fleet.correctionInterval + 2)) ⟨0, 0, now, now, now⟩
  catch
    | .left => pure ()
    | .fault fault => throw (.fault fault)
  modify fun w => { w with leaving := none }

end Caller

end GroundControl
