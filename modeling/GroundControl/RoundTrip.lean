import GroundControl.Time

/-!
# Round-trip times

The time an exchange takes, smoothed over the measured ones, and the time to allow for the next
one.

* `Estimate`, a smoothed time and its mean variation; `Estimate.first`, `Estimate.refine`;
* `Estimator κ`, one estimate for each key; `Estimator.sample`, `Estimator.timeout`;
* `backoff`, the time to allow after so many timeouts in a row.

Each multiple and each quotient of a span is cut to whole nanoseconds on its own.
-/

namespace GroundControl

/-- A smoothed round-trip time. -/
structure Estimate where
  smoothed : Span
  /-- the mean distance of the measured times from the smoothed one -/
  variation : Span
  samples : Nat
  deriving DecidableEq, Repr

namespace Estimate

/-- The estimate after one measured time. -/
def first (measured : Span) : Estimate := ⟨measured, measured / 2, 1⟩

/-- The distance of a measured time from the smoothed one. -/
def deviation (e : Estimate) (measured : Span) : Span :=
  if measured < e.smoothed then e.smoothed - measured else measured - e.smoothed

/-- The estimate after a further measured time, which enters the smoothed time with weight `1/8`
and the variation with weight `1/4`. -/
def refine (e : Estimate) (measured : Span) : Except Fault Estimate :=
  match e.variation.times? 3 with
  | .error fault => .error fault
  | .ok variation =>
      match e.smoothed.times? 7 with
      | .error fault => .error fault
      | .ok smoothed =>
          .ok { smoothed := smoothed / 8 + measured / 8
                variation := variation / 4 + e.deviation measured / 4
                samples := e.samples + 1 }

/-- The time an estimate allows for an exchange. -/
def allowance (e : Estimate) : Span := e.smoothed.plus (e.variation.times 4)

end Estimate

/-- Estimates by key, and the bounds of the time allowed for an exchange. -/
structure Estimator (κ : Type) where
  minTimeout : Span
  maxTimeout : Span
  initialTimeout : Span
  estimates : List (κ × Estimate)
  deriving DecidableEq

namespace Estimator

variable {κ : Type} [DecidableEq κ]

/-- The entry of `key` set to `e`, at its place or at the end. -/
def record (key : κ) (e : Estimate) : List (κ × Estimate) → List (κ × Estimate)
  | [] => [(key, e)]
  | (k, d) :: rest => if k = key then (key, e) :: rest else (k, d) :: record key e rest

/-- An estimator without any measured time. -/
def new (minTimeout maxTimeout initialTimeout : Span) : Estimator κ :=
  ⟨minTimeout, maxTimeout, initialTimeout, []⟩

/-- The estimate for a key, if a time has been measured for it. -/
def estimate? (t : Estimator κ) (key : κ) : Option Estimate := t.estimates.lookup key

/-- Take in a measured time. -/
def sample (t : Estimator κ) (key : κ) (measured : Span) : Except Fault (Estimator κ) :=
  let next : Except Fault Estimate := match t.estimate? key with
    | none => .ok (.first measured)
    | some e => e.refine measured
  match next with
  | .error fault => .error fault
  | .ok e => .ok { t with estimates := record key e t.estimates }

/-- The time to allow for the next exchange: four variations above the smoothed time, within the
bounds. -/
def timeout (t : Estimator κ) (key : κ) : Except Fault Span :=
  let raw := match t.estimate? key with
    | none => t.initialTimeout
    | some e => e.allowance
  raw.clamp t.minTimeout t.maxTimeout

/-- There is a time to allow if the bounds are in order. -/
theorem exists_timeout {t : Estimator κ} (h : t.minTimeout ≤ t.maxTimeout) (key : κ) :
    ∃ d, t.timeout key = .ok d :=
  ⟨_, Span.clamp_eq_ok h⟩

@[simp] theorem lookup_record (j key : κ) (e : Estimate) (l : List (κ × Estimate)) :
    (record key e l).lookup j = if j = key then some e else l.lookup j := by
  induction l with
  | nil => grind [record]
  | cons d l ih => grind [record]

end Estimator

/-- `base` doubled once for each timeout in a row, and never more than `cap`.  The factor stops
growing at `2 ^ 32 - 1`. -/
def backoff (base : Span) (timeouts : Nat) (cap : Span) : Span :=
  min (base.times (if timeouts < 32 then 1 <<< timeouts else 4294967295)) cap

theorem backoff_le_cap (base : Span) (timeouts : Nat) (cap : Span) :
    backoff base timeouts cap ≤ cap := Nat.min_le_right ..

end GroundControl
