import GroundControl.Time

/-!
# Spans as seconds

A span read as a floating-point number of seconds, and a number of seconds read as a span.

* `roundHalfEven`, the whole number nearest to a quotient, a tie going to the even neighbour;
* `Span.toSeconds`, whole seconds and nanoseconds converted apart and then added;
* `Span.ofSeconds`, the exact value of the number rounded to whole nanoseconds.
-/

namespace GroundControl

/-- The whole number nearest to `num / den`; a tie goes to the even neighbour. -/
def roundHalfEven (num den : Nat) : Nat :=
  let q := num / den
  let r := num % den
  if 2 * r < den then q
  else if den < 2 * r then q + 1
  else q + q % 2

namespace Span

/-- The span as a floating-point number of seconds. -/
def toSeconds (d : Span) : Float :=
  (d / second).toUInt64.toFloat + (d % second).toUInt64.toFloat / 1e9

/-- The significand and the biased exponent of a finite number: its magnitude is
`significand * 2 ^ exponent / 2 ^ 1075`. -/
def decompose (x : Float) : Nat × Nat :=
  let bits := x.toBits.toNat
  let exponent := (bits >>> 52) % 2048
  let fraction := bits % (1 <<< 52)
  if exponent = 0 then (fraction, 1) else ((1 <<< 52) + fraction, exponent)

/-- The span of `x` seconds, rounded to the nearest nanosecond, ties to even. -/
def ofSeconds (x : Float) : Except Fault Span :=
  if x < 0 then .error .negativeSeconds
  else
    let (significand, exponent) := decompose x
    let num := significand <<< exponent
    let den := 1 <<< 1075
    if exponent = 2047 ∨ den <<< 64 ≤ num then .error .unboundedSeconds
    else .ok (roundHalfEven (num * second) den)

end Span

end GroundControl
