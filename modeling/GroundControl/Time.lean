import GroundControl.Fault

/-!
# Instants and spans

Time is counted in whole nanoseconds.  An `Instant` is an offset from the moment the clock
was started, a `Span` is a length of time.

* `Span.longest`, and the saturating operations `Span.plus`, `Span.times`;
* `Span.times?`, `Span.clamp`, `Instant.after`, which fault outside their range;
* `Instant.since`, the span between two instants, zero if they stand the wrong way round;
* `Instant.alarm`, the instant at which a timer set for a given instant rings, and
  `Instant.lastAlarm`, the other way round;
* `Instant.nextDue`, when something regular is due again.
-/

namespace GroundControl

/-- A length of time in nanoseconds. -/
abbrev Span := Nat

/-- A moment, in nanoseconds since the clock was started. -/
abbrev Instant := Nat

namespace Span

/-- One second. -/
def second : Span := 1000000000

/-- A number of milliseconds. -/
def ofMillis (n : Nat) : Span := n * 1000000

/-- A number of seconds and of further nanoseconds. -/
def ofParts (seconds nanos : Nat) : Span := seconds * second + nanos

/-- The longest span: one nanosecond less than `2 ^ 64` seconds. -/
def longest : Span := 18446744073709551616 * second - 1

/-- The sum of two spans, cut at the longest one. -/
def plus (a b : Span) : Span := min (a + b) longest

/-- A multiple of a span, cut at the longest one. -/
def times (a : Span) (k : Nat) : Span := min (a * k) longest

/-- A multiple of a span, if it is a span. -/
def times? (a : Span) (k : Nat) : Except Fault Span :=
  if a * k ≤ longest then .ok (a * k) else .error .spanOverflow

/-- The span nearest to `a` within `[lo, hi]`. -/
def clamp (a lo hi : Span) : Except Fault Span :=
  if lo ≤ hi then .ok (min (max a lo) hi) else .error .emptyRange

theorem times?_eq_ok {a : Span} {k : Nat} (h : a * k ≤ longest) : times? a k = .ok (a * k) := by
  simp [times?, h]

theorem clamp_eq_ok {a lo hi : Span} (h : lo ≤ hi) : clamp a lo hi = .ok (min (max a lo) hi) := by
  simp [clamp, h]

end Span

namespace Instant

/-- The first instant no clock can show: `2 ^ 63` seconds after the start. -/
def horizon : Instant := 9223372036854775808 * Span.second

/-- The instant a span after `t`. -/
def after (t : Instant) (d : Span) : Except Fault Instant :=
  if t + d < horizon then .ok (t + d) else .error .instantOverflow

/-- The span from `start` to `t`, zero if `t` comes first. -/
def since (t start : Instant) : Span := t - start

/-- When a timer set for `t` rings: at the first whole millisecond not before `t`. -/
def alarm (t : Instant) : Instant := (t + 999999) / 1000000 * 1000000

/-- The timers that have rung by `t` are those set for instants up to this one. -/
def lastAlarm (t : Instant) : Instant := t / 1000000 * 1000000

/-- An instant that is as good as never, thirty years after `t`. -/
def farFuture (t : Instant) : Instant := t + 946080000 * Span.second

/-- When something regular is due again that was due at `due` and is done at `now`.  If it is done
more than five milliseconds late, its period starts anew. -/
def nextDue (due : Instant) (period : Span) (now : Instant) : Except Fault Instant :=
  if due + Span.ofMillis 5 < now then now.after period
  else if due + period < horizon then .ok (due + period)
  else .ok now.farFuture

theorem after_eq_ok {t : Instant} {d : Span} (h : t + d < horizon) : after t d = .ok (t + d) := by
  simp [after, h]

theorem exists_nextDue (due : Instant) {period : Span} {now : Instant}
    (h : now + period < horizon) : ∃ next, nextDue due period now = .ok next := by
  unfold nextDue
  split
  · exact ⟨_, after_eq_ok h⟩
  · split <;> exact ⟨_, rfl⟩

theorem eq_of_after_eq_ok {t u : Instant} {d : Span} (h : after t d = .ok u) : u = t + d := by
  unfold after at h; split at h <;> simp_all

end Instant

end GroundControl
