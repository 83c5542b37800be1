import GroundControl.Time

/-!
# The signing epoch

A counter that grows with every synchronisation and never falls behind the wall clock, so that
no two signatures carry the same epoch.

* `WallTime`, `epochAt`;
* `EpochClock`, `EpochClock.advance`, `EpochClock.readings`.
-/

namespace GroundControl

/-- A reading of the wall clock, in nanoseconds since the start of 1970. -/
abbrev WallTime := Int

/-- The start of 2015, in seconds since the start of 1970. -/
def epochOrigin : Int := 1420070400

/-- The last epoch, `2 ^ 64 - 1`. -/
def lastEpoch : Nat := 18446744073709551615

/-- The epoch of a wall time: whole units of ten microseconds since the start of 2015, none
before it. -/
def epochAt (wall : WallTime) : Nat :=
  min ((wall - epochOrigin * 1000000000).toNat / 10000) lastEpoch

/-- The epoch shared by all networks. -/
structure EpochClock where
  current : Nat
  deriving DecidableEq, Repr

namespace EpochClock

/-- A clock that has not been synchronised. -/
def new : EpochClock := ⟨0⟩

instance : Inhabited EpochClock := ⟨new⟩

/-- The epoch of the wall clock, or the next one if the wall clock has not moved on. -/
def advance (c : EpochClock) (wall : WallTime) : EpochClock :=
  ⟨max (epochAt wall) (min (c.current + 1) lastEpoch)⟩

/-- The epochs after each of several synchronisations. -/
def readings (c : EpochClock) : List WallTime → List Nat
  | [] => []
  | wall :: rest => (c.advance wall).current :: readings (c.advance wall) rest

theorem current_le_current_advance {c : EpochClock} (h : c.current ≤ lastEpoch) (wall : WallTime) :
    c.current ≤ (c.advance wall).current := by
  simp only [advance]; omega

theorem epochAt_le_current_advance (c : EpochClock) (wall : WallTime) :
    epochAt wall ≤ (c.advance wall).current := Nat.le_max_left ..

end EpochClock

end GroundControl
