/-!
# Faults

The ways a computation on times can leave the range it is defined on.  A fault stops the
task that meets it; it is never an answer to a caller.

* `Fault`, `Fault.message`.
-/

namespace GroundControl

/-- An arithmetic step without a result. -/
inductive Fault
  /-- an instant further away than any clock can show -/
  | instantOverflow
  /-- a product of spans beyond the longest span -/
  | spanOverflow
  /-- a range whose lower end lies above its upper end -/
  | emptyRange
  /-- a negative number of seconds read as a span -/
  | negativeSeconds
  /-- a number of seconds beyond the longest span, or no number at all -/
  | unboundedSeconds
  deriving DecidableEq, Repr

/-- The wording of a fault. -/
def Fault.message : Fault → String
  | .instantOverflow => "overflow when adding duration to instant"
  | .spanOverflow => "overflow when multiplying duration by scalar"
  | .emptyRange => "assertion failed: min <= max"
  | .negativeSeconds => "cannot convert float seconds to Duration: value is negative"
  | .unboundedSeconds =>
      "cannot convert float seconds to Duration: value is either too big or NaN"

end GroundControl
