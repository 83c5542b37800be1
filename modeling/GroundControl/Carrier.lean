import GroundControl.Frame
import GroundControl.DispatchError

/-!
# Carriers

What takes the frames of a network to its agents.

* `Carrier τ`, anything that takes frames one by one or refuses them;
* `Pipe`, a carrier that keeps a limited number of frames until they are read.
-/

namespace GroundControl

/-- A type of links: each frame is taken or refused at once. -/
class Carrier (τ : Type) where
  /-- hand over a frame -/
  send : τ → Frame → Except LinkError Unit × τ
  /-- the name of the link -/
  name : τ → String

/-- A link that keeps frames until they are read at its other end. -/
structure Pipe where
  name : String
  capacity : Nat
  frames : List Frame
  /-- whether the other end is gone -/
  closed : Bool
  deriving DecidableEq, Repr

namespace Pipe

/-- An empty pipe. -/
def new (name : String) (capacity : Nat) : Pipe := ⟨name, capacity, [], false⟩

/-- Take a frame, unless the other end is gone or too many frames wait. -/
def send (p : Pipe) (f : Frame) : Except LinkError Unit × Pipe :=
  if p.closed then (.error .closed, p)
  else if p.capacity ≤ p.frames.length then
    (.error (.refused (p.name ++ " link is saturated")), p)
  else (.ok (), { p with frames := p.frames ++ [f] })

/-- Read up to `n` frames, the oldest first. -/
def read (p : Pipe) (n : Nat) : List Frame × Pipe :=
  (p.frames.take n, { p with frames := p.frames.drop n })

/-- Read every frame. -/
def readAll (p : Pipe) : List Frame × Pipe := (p.frames, { p with frames := [] })

/-- Give up the reading end; what was not read is lost. -/
def close (p : Pipe) : Pipe := { p with frames := [], closed := true }

instance : Carrier Pipe := ⟨send, name⟩

end Pipe

end GroundControl
