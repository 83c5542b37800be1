import Mathlib.Algebra.Order.Field.Rat
import Mathlib.Data.Nat.Cast.Order.Field
import Mathlib.Tactic.Linarith
import Mathlib.Tactic.Ring
import GroundControl.Proofs.RoundTrip.Ranges

/-!
# Steady round-trip times

If every exchange with a key takes the same time, the smoothed time stays within seven nanoseconds
of it.  The variation begins at half of it and loses a quarter with each further exchange; what
cutting off makes of it is never more than a nanosecond a time, which adds up to four.  So the time
allowed comes down to the time an exchange takes, and sixteen nanoseconds.

* `Estimate.variation_of_refine`, the variation after a further time;
* `Estimate.Steady`, an estimate made of equal times, with `keeps_steady`: it stays one; the bounds
  of its allowance, `Steady.le_allowance` and `Steady.allowance_le`;
* `clampTo`, with `exists_timeout_between`: the time allowed keeps the bounds of the allowance;
* `Estimator.Settled` and `timeout_settles`, all of it for an estimator from its beginning.
-/

namespace GroundControl

namespace Estimate

variable {m measured : Span} {past : List Span} {e e' : Estimate}

theorem variation_of_refine (h : e.refine measured = .ok e') :
    e'.variation = e.variation * 3 / 4 + e.deviation measured / 4 := by
  unfold refine Span.times? at h
  by_cases hv : e.variation * 3 ≤ Span.longest
  · rw [if_pos hv] at h
    dsimp only at h
    split at h
    · cases h
    · cases h
      rfl
  · rw [if_neg hv] at h
    cases h

/-- An estimate made of the times `past`, all of them equal to `m`. -/
structure Steady (m : Span) (past : List Span) (e : Estimate) : Prop where
  ranges : e.Ranges m m
  samples : e.samples = past.length
  nonempty : past ≠ []
  variation : (e.variation : ℚ) ≤ 4 + (3 / 4) ^ (past.length - 1) * m / 2

theorem steady_first (m : Span) : (first m).Steady m [m] where
  ranges := ranges_first (Nat.le_refl m) (Nat.le_refl m)
  samples := rfl
  nonempty := List.cons_ne_nil m []
  variation := by
    have hhalf : ((m / 2 : Nat) : ℚ) ≤ m / 2 := Nat.cast_div_le
    show ((m / 2 : Nat) : ℚ) ≤ 4 + (3 / 4) ^ 0 * m / 2
    rw [pow_zero, one_mul]
    linarith

/-- A quarter of the distance of an equal time is a nanosecond at most. -/
theorem Steady.deviation_le (h : e.Steady m past) : e.deviation m / 4 ≤ 1 := by
  have hd := h.ranges.deviation_le (Nat.le_refl m) (Nat.le_refl m)
  unfold Span at *
  omega

/-- One more equal time can be taken in. -/
theorem Steady.exists_refine (h : e.Steady m past) (hb : 7 * m ≤ Span.longest) :
    ∃ e', e.refine m = .ok e' ∧ e'.Steady m (past ++ [m]) := by
  obtain ⟨e', he, hr, hn⟩ := h.ranges.exists_refine (Nat.le_refl m) (Nat.le_refl m) hb
  have hlength : (past ++ [m]).length - 1 = past.length - 1 + 1 := by
    have := List.length_pos_iff.2 h.nonempty
    rw [List.length_append, List.length_singleton]
    omega
  have hquarters : ((e.variation * 3 / 4 : Nat) : ℚ) ≤ e.variation * 3 / 4 := by
    have := Nat.cast_div_le (α := ℚ) (m := e.variation * 3) (n := 4)
    rwa [Nat.cast_mul] at this
  have hrest : ((e.deviation m / 4 : Nat) : ℚ) ≤ 1 := by exact_mod_cast h.deviation_le
  refine ⟨e', he, hr, ?_, List.append_ne_nil_of_right_ne_nil _ (List.cons_ne_nil m []), ?_⟩
  · rw [hn, h.samples, List.length_append]
    rfl
  · -- three quarters of four nanoseconds and one more are four nanoseconds again
    rw [variation_of_refine he, hlength]
    calc ((e.variation * 3 / 4 + e.deviation m / 4 : Nat) : ℚ)
        ≤ e.variation * 3 / 4 + 1 := by
          rw [Nat.cast_add]
          exact add_le_add hquarters hrest
      _ ≤ (4 + (3 / 4) ^ (past.length - 1) * m / 2) * 3 / 4 + 1 := by
          have := h.variation
          linarith
      _ = 4 + (3 / 4) ^ (past.length - 1 + 1) * m / 2 := by
          rw [pow_succ]
          ring

theorem keeps_steady (hb : 7 * m ≤ Span.longest) : Keeps (· = m) (Steady m) where
  first measured hm := by
    subst hm
    exact steady_first measured
  refine past e measured h hm := by
    subst hm
    exact h.exists_refine hb

theorem Steady.le_smoothed (h : e.Steady m past) : (m : ℚ) - 7 ≤ e.smoothed := by
  have hdrift : m ≤ e.smoothed + 7 := by
    have := h.ranges.above
    unfold Span at *
    omega
  have hdrift : (m : ℚ) ≤ e.smoothed + 7 := by exact_mod_cast hdrift
  linarith

/-! ### The time allowed -/

/-- The allowance of such an estimate is short enough not to be cut from below. -/
theorem Steady.le_allowance (h : e.Steady m past) (hb : 7 * m ≤ Span.longest) :
    (m : ℚ) - 7 ≤ e.allowance := by
  have hsmoothed : e.smoothed ≤ e.allowance := by
    have := h.ranges.below
    unfold allowance Span.plus Span at *
    omega
  have hsmoothed : (e.smoothed : ℚ) ≤ e.allowance := by exact_mod_cast hsmoothed
  exact h.le_smoothed.trans hsmoothed

theorem Steady.allowance_le (h : e.Steady m past) :
    (e.allowance : ℚ) ≤ m + 16 + 2 * m * (3 / 4) ^ (past.length - 1) := by
  have hcut : e.allowance ≤ e.smoothed + 4 * e.variation := by
    have htimes : e.variation.times 4 ≤ e.variation * 4 := Nat.min_le_left ..
    have hplus : e.allowance ≤ e.smoothed + e.variation.times 4 := Nat.min_le_left ..
    unfold Span at *
    omega
  have hsmoothed : (e.smoothed : ℚ) ≤ m := by exact_mod_cast h.ranges.below
  have hvariation := h.variation
  calc (e.allowance : ℚ) ≤ e.smoothed + 4 * e.variation := by exact_mod_cast hcut
    _ ≤ m + 4 * (4 + (3 / 4) ^ (past.length - 1) * m / 2) := by linarith
    _ = m + 16 + 2 * m * (3 / 4) ^ (past.length - 1) := by ring

end Estimate

/-- The number nearest to `x` between two spans. -/
def clampTo (lo hi : Span) (x : ℚ) : ℚ := min (max x lo) hi

theorem clampTo_mono (lo hi : Span) : Monotone (clampTo lo hi) :=
  fun _ _ h => min_le_min_right _ (max_le_max_right _ h)

namespace Estimator

open Estimate

variable {κ : Type} [DecidableEq κ] {t u : Estimator κ} {key : κ}

/-- The time allowed keeps the bounds of the allowance. -/
theorem exists_timeout_between {e : Estimate} {x y : ℚ} (he : t.estimate? key = some e)
    (hx : x ≤ e.allowance) (hy : e.allowance ≤ y) (hle : t.minTimeout ≤ t.maxTimeout) :
    ∃ d : Span, t.timeout key = .ok d ∧
      clampTo t.minTimeout t.maxTimeout x ≤ d ∧ d ≤ clampTo t.minTimeout t.maxTimeout y := by
  have hclamp : ((min (max e.allowance t.minTimeout) t.maxTimeout : Nat) : ℚ) =
      clampTo t.minTimeout t.maxTimeout e.allowance := by
    unfold clampTo
    rw [Nat.cast_min, Nat.cast_max]
  refine ⟨min (max e.allowance t.minTimeout) t.maxTimeout, ?_, ?_, ?_⟩
  · unfold timeout
    rw [he]
    exact Span.clamp_eq_ok hle
  · rw [hclamp]
    exact clampTo_mono _ _ hx
  · rw [hclamp]
    exact clampTo_mono _ _ hy

theorem bounds_of_feed {samples : List (κ × Span)} (h : t.feed samples = .ok u) :
    u.minTimeout = t.minTimeout ∧ u.maxTimeout = t.maxTimeout := by
  induction samples generalizing t with
  | nil =>
    cases h
    exact ⟨rfl, rfl⟩
  | cons p samples ih =>
    obtain ⟨v, hv, hu⟩ := feed_cons_eq_ok.1 h
    obtain ⟨hlo, hhi⟩ := bounds_of_sample hv
    exact ⟨(ih hu).1.trans hlo, (ih hu).2.trans hhi⟩

/-- What can be said of `key` when `samples` are taken in, of which `n` are of the key and all these
are equal to `m`. -/
structure Settled (t : Estimator κ) (samples : List (κ × Span)) (key : κ) (n : Nat) (m : Span) :
    Prop where
  /-- no time of the key meets a fault -/
  taken : ∀ before measured after u, samples = before ++ (key, measured) :: after →
    t.feed before = .ok u → ∃ u', u.sample key measured = .ok u'
  /-- nor does any other, if none of them is too long -/
  complete : (∀ p ∈ samples, 7 * p.2 ≤ Span.longest) → ∃ u, t.feed samples = .ok u
  estimate : ∀ u, t.feed samples = .ok u → ∃ e, u.estimate? key = some e ∧ e.samples = n ∧
    (m : ℚ) - 7 ≤ e.smoothed ∧ e.smoothed ≤ m ∧
    (e.variation : ℚ) ≤ 4 + (3 / 4) ^ (n - 1) * m / 2
  timeout : ∀ u, t.feed samples = .ok u → t.minTimeout ≤ t.maxTimeout →
    ∃ d : Span, u.timeout key = .ok d ∧
      clampTo t.minTimeout t.maxTimeout (m - 7) ≤ d ∧
      d ≤ clampTo t.minTimeout t.maxTimeout (m + 16 + 2 * m * (3 / 4) ^ (n - 1))

section New

variable {minTimeout maxTimeout initialTimeout m : Span} {samples : List (κ × Span)} {n : Nat}

/-- Equal times of a key make a steady estimate of it. -/
theorem steady_of_feed (hn : 1 ≤ n) (hs : timesOf key samples = List.replicate n m)
    (hb : 7 * m ≤ Span.longest)
    (h : (new minTimeout maxTimeout initialTimeout).feed samples = .ok u) :
    ∃ e, u.estimate? key = some e ∧ e.Steady m (List.replicate n m) := by
  have ht := tells_feed (keeps_steady hb) (tells_new minTimeout maxTimeout initialTimeout key)
    (fun measured hm => List.eq_of_mem_replicate (hs ▸ hm)) h
  rw [List.nil_append, hs] at ht
  exact ht.exists_of_ne_nil (List.ne_nil_of_length_pos (by rwa [List.length_replicate]))

/-- A time of a key with equal times is taken in, wherever it stands. -/
theorem exists_sample_of_steady (hs : ∀ measured ∈ timesOf key samples, measured = m)
    (hb : 7 * m ≤ Span.longest) {before after : List (κ × Span)} {measured : Span}
    (he : samples = before ++ (key, measured) :: after)
    (h : (new minTimeout maxTimeout initialTimeout).feed before = .ok u) :
    ∃ u', u.sample key measured = .ok u' := by
  rw [he, timesOf_append, timesOf_cons, if_pos rfl] at hs
  have ht := tells_feed (keeps_steady hb) (tells_new minTimeout maxTimeout initialTimeout key)
    (fun measured hm => hs measured (List.mem_append_left _ hm)) h
  obtain ⟨u', hu, -⟩ := exists_sample_of_keeps (keeps_steady hb) ht
    (hs measured (List.mem_append_right _ List.mem_cons_self))
  exact ⟨u', hu⟩

/-- Times that are not too long are all taken in. -/
theorem exists_feed_new (h : ∀ p ∈ samples, 7 * p.2 ≤ Span.longest) :
    ∃ u, (new minTimeout maxTimeout initialTimeout).feed samples = .ok u := by
  have hlongest : 7 * (Span.longest / 7) ≤ Span.longest := Nat.mul_div_le ..
  refine exists_feed (keeps_ranges 0 hlongest)
    (fun key => ⟨[], tells_new minTimeout maxTimeout initialTimeout key⟩) fun p hp => ?_
  exact ⟨Nat.zero_le _, (Nat.le_div_iff_mul_le (by decide)).2 (Nat.mul_comm .. ▸ h p hp)⟩

/-- **Equal times of a key make for a tight timeout**: after `n` of them it exceeds them by no more
than sixteen nanoseconds and what is left of twice their length when a quarter is lost each time. -/
theorem timeout_settles (minTimeout maxTimeout initialTimeout : Span) (hn : 1 ≤ n)
    (hs : timesOf key samples = List.replicate n m) (hb : 7 * m ≤ Span.longest) :
    (new minTimeout maxTimeout initialTimeout).Settled samples key n m where
  taken before measured after u he hu :=
    exists_sample_of_steady (fun d hd => List.eq_of_mem_replicate (hs ▸ hd)) hb he hu
  complete hshort := exists_feed_new hshort
  estimate u hu := by
    obtain ⟨e, he, hsteady⟩ := steady_of_feed hn hs hb hu
    have hvariation := hsteady.variation
    rw [List.length_replicate] at hvariation
    exact ⟨e, he, hsteady.samples.trans List.length_replicate, hsteady.le_smoothed,
      hsteady.ranges.below, hvariation⟩
  timeout u hu hle := by
    obtain ⟨e, he, hsteady⟩ := steady_of_feed hn hs hb hu
    obtain ⟨hlo, hhi⟩ := bounds_of_feed hu
    have habove := hsteady.allowance_le
    rw [List.length_replicate] at habove
    have hd := exists_timeout_between he (hsteady.le_allowance hb) habove
      (by rw [hlo, hhi]; exact hle)
    rwa [hlo, hhi] at hd

end New

/-- Three commands of 300 milliseconds with a faster upload between them. -/
theorem timeout_settles_threeCommands :
    ∃ t : Estimator TrafficClass,
      (new (Span.ofMillis 100) (Span.ofMillis 3000) (Span.ofMillis 1000)).feed
        [(.command, Span.ofMillis 300), (.fileTransfer, Span.ofMillis 20),
          (.command, Span.ofMillis 300), (.command, Span.ofMillis 300)] = .ok t ∧
      t.timeout .command = .ok 637500000 ∧
      (new (Span.ofMillis 100) (Span.ofMillis 3000) (Span.ofMillis 1000)).Settled
        [(TrafficClass.command, Span.ofMillis 300), (.fileTransfer, Span.ofMillis 20),
          (.command, Span.ofMillis 300), (.command, Span.ofMillis 300)] .command 3
        (Span.ofMillis 300) :=
  ⟨_, rfl, by decide +kernel, timeout_settles _ _ _ (by decide) (by decide) (by decide)⟩

end Estimator

end GroundControl
