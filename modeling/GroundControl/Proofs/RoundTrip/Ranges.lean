import GroundControl.Frame
import GroundControl.RoundTrip

/-!
# Estimates within the range of the measured times

An update cuts two quotients of the smoothed time and two of the variation.  The losses do not add
up: the greatest multiple of eight that no measured time falls below is a bound which the smoothed
time keeps for ever.

* `Estimate.Ranges`, the bounds of an estimate, with `ranges_first` and `Ranges.exists_refine`;
* `Estimator.feed`, a list of measured times taken in, and `Estimator.timesOf`, those of one key;
* `Estimate.Keeps`, what every update of an estimate keeps, and `Estimate.Tells`, the estimate of a
  key after a list of its times; `exists_sample_of_keeps`, `tells_feed`, `exists_feed`;
* `Estimator.InRange` and `estimate_in_range`, all of it for an estimator from its beginning.
-/

namespace GroundControl

namespace Estimate

/-- The bounds of an estimate made of times between `lo` and `hi`. -/
structure Ranges (lo hi : Span) (e : Estimate) : Prop where
  above : 8 * (lo / 8) ≤ e.smoothed
  below : e.smoothed ≤ hi
  variation : e.variation ≤ max (hi / 2) (hi - 8 * (lo / 8))

section Ranges

variable {lo hi measured : Span} {e : Estimate}

theorem refine_eq_ok (hs : e.smoothed * 7 ≤ Span.longest) (hv : e.variation * 3 ≤ Span.longest) :
    e.refine measured = .ok
      { smoothed := e.smoothed * 7 / 8 + measured / 8
        variation := e.variation * 3 / 4 + e.deviation measured / 4
        samples := e.samples + 1 } := by
  unfold refine
  rw [Span.times?_eq_ok hv, Span.times?_eq_ok hs]

theorem samples_of_refine {e' : Estimate} (h : e.refine measured = .ok e') :
    e'.samples = e.samples + 1 := by
  unfold refine at h
  split at h
  · cases h
  · split at h
    · cases h
    · cases h
      rfl

theorem ranges_first (hl : lo ≤ measured) (hh : measured ≤ hi) : (first measured).Ranges lo hi where
  above := Nat.le_trans (Nat.mul_div_le lo 8) hl
  below := hh
  variation := Nat.le_trans (Nat.div_le_div_right hh) (Nat.le_max_left ..)

/-- No time in the range is farther from the smoothed one than the range is wide. -/
theorem Ranges.deviation_le (h : e.Ranges lo hi) (hl : lo ≤ measured) (hh : measured ≤ hi) :
    e.deviation measured ≤ hi - 8 * (lo / 8) := by
  have hfloor : 8 * (lo / 8) ≤ measured := Nat.le_trans (Nat.mul_div_le lo 8) hl
  unfold deviation
  split
  · exact Nat.le_trans (Nat.sub_le_sub_right h.below _) (Nat.sub_le_sub_left hfloor hi)
  · exact Nat.le_trans (Nat.sub_le_sub_right hh _) (Nat.sub_le_sub_left h.above hi)

/-- One more time in the range can be taken in and leaves the bounds as they are. -/
theorem Ranges.exists_refine (h : e.Ranges lo hi) (hl : lo ≤ measured) (hh : measured ≤ hi)
    (hb : 7 * hi ≤ Span.longest) :
    ∃ e', e.refine measured = .ok e' ∧ e'.Ranges lo hi ∧ e'.samples = e.samples + 1 := by
  have hd := h.deviation_le hl hh
  obtain ⟨ha, hs, hv⟩ := h
  have hwidth : max (hi / 2) (hi - 8 * (lo / 8)) ≤ hi :=
    Nat.max_le.2 ⟨Nat.div_le_self hi 2, Nat.sub_le ..⟩
  have hsmoothed : e.smoothed * 7 ≤ Span.longest := by
    unfold Span at *
    omega
  have hvariation : e.variation * 3 ≤ Span.longest := by
    unfold Span at *
    omega
  -- seven eighths of a multiple of eight and one eighth of a time above it lose nothing
  have hfloor : ∀ x y k : Nat, 8 * k ≤ x → 8 * k ≤ y → 8 * k ≤ x * 7 / 8 + y / 8 := by omega
  have heighths : ∀ x y b : Nat, x ≤ b → y ≤ b → x * 7 / 8 + y / 8 ≤ b := by omega
  have hquarters : ∀ x y b : Nat, x ≤ b → y ≤ b → x * 3 / 4 + y / 4 ≤ b := by omega
  refine ⟨_, refine_eq_ok hsmoothed hvariation, ⟨?_, ?_, ?_⟩, rfl⟩
  · exact hfloor _ _ _ ha (Nat.le_trans (Nat.mul_div_le lo 8) hl)
  · exact heighths _ _ _ hs hh
  · exact hquarters _ _ _ hv (Nat.le_trans hd (Nat.le_max_right ..))

end Ranges

/-! ### What updates keep -/

/-- A property of estimates and of the times they are made of that times with `Admits` keep, none of
which meets a fault. -/
structure Keeps (Admits : Span → Prop) (P : List Span → Estimate → Prop) : Prop where
  first : ∀ measured, Admits measured → P [measured] (first measured)
  refine : ∀ past e measured, P past e → Admits measured →
    ∃ e', e.refine measured = .ok e' ∧ P (past ++ [measured]) e'

/-- What is kept of a key after the times `past`: nothing, as long as there are none. -/
def Tells (P : List Span → Estimate → Prop) (past : List Span) : Option Estimate → Prop
  | none => past = []
  | some e => P past e

theorem Tells.exists_of_ne_nil {P : List Span → Estimate → Prop} {past : List Span}
    {e? : Option Estimate} (h : Tells P past e?) (hne : past ≠ []) :
    ∃ e, e? = some e ∧ P past e := by
  cases e? with
  | none => exact absurd h hne
  | some e => exact ⟨e, rfl, h⟩

/-- The bounds are kept by the times in the range, and each of them is counted. -/
theorem keeps_ranges (lo : Span) {hi : Span} (hb : 7 * hi ≤ Span.longest) :
    Keeps (fun m => lo ≤ m ∧ m ≤ hi) fun past e => e.Ranges lo hi ∧ e.samples = past.length where
  first _ hm := ⟨ranges_first hm.1 hm.2, rfl⟩
  refine past e measured h hm := by
    obtain ⟨hr, hn⟩ := h
    obtain ⟨e', he, hr', hn'⟩ := hr.exists_refine hm.1 hm.2 hb
    refine ⟨e', he, hr', ?_⟩
    rw [hn', hn, List.length_append]
    rfl

end Estimate

namespace Estimator

open Estimate

variable {κ : Type} [DecidableEq κ]

/-- Take in a list of measured times, each for its key. -/
def feed (t : Estimator κ) (samples : List (κ × Span)) : Except Fault (Estimator κ) :=
  samples.foldlM (fun t p => t.sample p.1 p.2) t

/-- The times measured for one key. -/
def timesOf (key : κ) (samples : List (κ × Span)) : List Span :=
  (samples.filter (·.1 = key)).map Prod.snd

section Feed

variable {t t' : Estimator κ} {key other : κ} {measured : Span} {samples : List (κ × Span)}
  {past : List Span} {Admits : Span → Prop} {P : List Span → Estimate → Prop}

theorem feed_cons_eq_ok {p : κ × Span} :
    t.feed (p :: samples) = .ok t' ↔
      ∃ u, t.sample p.1 p.2 = .ok u ∧ u.feed samples = .ok t' := by
  unfold feed
  rw [List.foldlM_cons]
  cases t.sample p.1 p.2 with
  | error fault => exact ⟨nofun, nofun⟩
  | ok u => exact ⟨fun h => ⟨u, rfl, h⟩, fun ⟨_, hu, h⟩ => Except.ok.inj hu ▸ h⟩

@[simp] theorem timesOf_cons (p : κ × Span) (samples : List (κ × Span)) :
    timesOf key (p :: samples) =
      if p.1 = key then p.2 :: timesOf key samples else timesOf key samples := by
  unfold timesOf
  rw [List.filter_cons]
  split <;> simp_all

theorem timesOf_append (samples more : List (κ × Span)) :
    timesOf key (samples ++ more) = timesOf key samples ++ timesOf key more := by
  unfold timesOf
  rw [List.filter_append, List.map_append]

theorem estimate?_record (t : Estimator κ) (key other : κ) (e : Estimate) :
    ({ t with estimates := record other e t.estimates } : Estimator κ).estimate? key =
      if key = other then some e else t.estimate? key :=
  lookup_record key other e t.estimates

/-- A sample of another key leaves the estimate as it is. -/
theorem estimate?_sample_of_ne (h : t.sample other measured = .ok t') (hne : key ≠ other) :
    t'.estimate? key = t.estimate? key := by
  unfold sample at h
  dsimp only at h
  split at h
  · cases h
  · cases h
    rw [estimate?_record, if_neg hne]

/-- A measured time leaves the bounds of the time to allow as they are. -/
theorem bounds_of_sample (h : t.sample other measured = .ok t') :
    t'.minTimeout = t.minTimeout ∧ t'.maxTimeout = t.maxTimeout := by
  unfold sample at h
  dsimp only at h
  split at h
  · cases h
  · cases h
    exact ⟨rfl, rfl⟩

/-- A time counts as one more sample of its key. -/
theorem samples_of_sample (h : t.sample other measured = .ok t') (key : κ) :
    ((t'.estimate? key).map Estimate.samples).getD 0 =
      ((t.estimate? key).map Estimate.samples).getD 0 + if key = other then 1 else 0 := by
  by_cases hk : key = other
  · subst hk
    rw [if_pos rfl]
    unfold sample at h
    dsimp only at h
    cases he : t.estimate? key with
    | none =>
      rw [he] at h
      cases h
      rw [estimate?_record, if_pos rfl]
      rfl
    | some e =>
      rw [he] at h
      dsimp only at h
      cases hr : e.refine measured with
      | error fault =>
        rw [hr] at h
        cases h
      | ok e' =>
        rw [hr] at h
        cases h
        rw [estimate?_record, if_pos rfl]
        exact samples_of_refine hr
  · rw [estimate?_sample_of_ne h hk, if_neg hk, Nat.add_zero]

/-- One more time of the key is taken in. -/
theorem exists_sample_of_keeps (hk : Keeps Admits P) (h : Tells P past (t.estimate? key))
    (hm : Admits measured) :
    ∃ t', t.sample key measured = .ok t' ∧ Tells P (past ++ [measured]) (t'.estimate? key) := by
  have htold : ∀ e, P (past ++ [measured]) e → Tells P (past ++ [measured])
      (({ t with estimates := record key e t.estimates } : Estimator κ).estimate? key) := by
    intro e he
    rw [estimate?_record, if_pos rfl]
    exact he
  unfold sample
  cases ht : t.estimate? key with
  | none =>
    rw [ht] at h
    have hpast : past = [] := h
    subst hpast
    exact ⟨_, rfl, htold _ (hk.first measured hm)⟩
  | some e =>
    rw [ht] at h
    obtain ⟨e', he, hp⟩ := hk.refine past e measured h hm
    dsimp only
    rw [he]
    exact ⟨_, rfl, htold e' hp⟩

/-- What updates keep of a key is told after any list of samples, whatever was taken in for other
keys in between. -/
theorem tells_feed (hk : Keeps Admits P) (h : Tells P past (t.estimate? key))
    (hs : ∀ m ∈ timesOf key samples, Admits m) (hf : t.feed samples = .ok t') :
    Tells P (past ++ timesOf key samples) (t'.estimate? key) := by
  induction samples generalizing t past with
  | nil =>
    cases hf
    rwa [show timesOf key ([] : List (κ × Span)) = [] from rfl, List.append_nil]
  | cons p samples ih =>
    obtain ⟨u, hu, hf⟩ := feed_cons_eq_ok.1 hf
    rw [timesOf_cons] at hs ⊢
    by_cases hp : p.1 = key
    · subst hp
      rw [if_pos rfl] at hs ⊢
      obtain ⟨u', hu', ht⟩ := exists_sample_of_keeps hk h (hs p.2 List.mem_cons_self)
      cases hu.symm.trans hu'
      have := ih ht (fun m hm => hs m (List.mem_cons_of_mem _ hm)) hf
      rwa [List.append_assoc] at this
    · rw [if_neg hp] at hs ⊢
      rw [← estimate?_sample_of_ne hu (Ne.symm hp)] at h
      exact ih h hs hf

/-- Samples whose times are kept meet no fault, whichever their keys. -/
theorem exists_feed (hk : Keeps Admits P) (h : ∀ key, ∃ past, Tells P past (t.estimate? key))
    (hs : ∀ p ∈ samples, Admits p.2) : ∃ t', t.feed samples = .ok t' := by
  induction samples generalizing t with
  | nil => exact ⟨t, rfl⟩
  | cons p samples ih =>
    obtain ⟨past, hp⟩ := h p.1
    obtain ⟨u, hu, ht⟩ := exists_sample_of_keeps hk hp (hs p List.mem_cons_self)
    have hall : ∀ key, ∃ past, Tells P past (u.estimate? key) := by
      intro key
      by_cases hkey : key = p.1
      · exact ⟨_, hkey ▸ ht⟩
      · rw [estimate?_sample_of_ne hu hkey]
        exact h key
    obtain ⟨t', ht'⟩ := ih hall fun q hq => hs q (List.mem_cons_of_mem p hq)
    exact ⟨t', feed_cons_eq_ok.2 ⟨u, hu, ht'⟩⟩

end Feed

/-! ### From the beginning -/

/-- What can be said of `key` when `samples` are taken in, of which those of the key lie between
`lo` and `hi`. -/
structure InRange (t : Estimator κ) (samples : List (κ × Span)) (key : κ) (lo hi : Span) :
    Prop where
  /-- no time of the key meets a fault -/
  taken : ∀ before measured after u, samples = before ++ (key, measured) :: after →
    t.feed before = .ok u → ∃ u', u.sample key measured = .ok u'
  /-- nor does any other, if none of them is too long -/
  complete : (∀ p ∈ samples, 7 * p.2 ≤ Span.longest) → ∃ u, t.feed samples = .ok u
  /-- the smoothed time does not drift below the measured ones, nor above them -/
  told : ∀ u, t.feed samples = .ok u → ∃ e, u.estimate? key = some e ∧
    8 * (lo / 8) ≤ e.smoothed ∧ lo ≤ e.smoothed + 7 ∧ e.smoothed ≤ hi ∧
    e.variation ≤ max (hi / 2) (hi - 8 * (lo / 8)) ∧
    e.samples = (timesOf key samples).length

theorem tells_new {P : List Span → Estimate → Prop} (minTimeout maxTimeout initialTimeout : Span)
    (key : κ) :
    Tells P [] ((new minTimeout maxTimeout initialTimeout : Estimator κ).estimate? key) := rfl

/-- **The estimate of a key stays within the range of its times**, however many there are and
whatever is measured for other keys in between. -/
theorem estimate_in_range (minTimeout maxTimeout initialTimeout : Span) {key : κ}
    {samples : List (κ × Span)} {lo hi : Span} (hne : timesOf key samples ≠ [])
    (hs : ∀ m ∈ timesOf key samples, lo ≤ m ∧ m ≤ hi) (hb : 7 * hi ≤ Span.longest) :
    (new minTimeout maxTimeout initialTimeout).InRange samples key lo hi where
  taken before measured after u he hf := by
    rw [he, timesOf_append, timesOf_cons, if_pos rfl] at hs
    have ht := tells_feed (keeps_ranges lo hb) (tells_new minTimeout maxTimeout initialTimeout key)
      (fun m hm => hs m (List.mem_append_left _ hm)) hf
    obtain ⟨u', hu, -⟩ := exists_sample_of_keeps (keeps_ranges lo hb) ht
      (hs measured (List.mem_append_right _ List.mem_cons_self))
    exact ⟨u', hu⟩
  complete hall := by
    have hlongest : 7 * (Span.longest / 7) ≤ Span.longest := Nat.mul_div_le ..
    refine exists_feed (keeps_ranges 0 hlongest)
      (fun other => ⟨[], tells_new minTimeout maxTimeout initialTimeout other⟩) fun p hp => ?_
    exact ⟨Nat.zero_le _, (Nat.le_div_iff_mul_le (by decide)).2 (Nat.mul_comm .. ▸ hall p hp)⟩
  told u hf := by
    have ht := tells_feed (keeps_ranges lo hb) (tells_new minTimeout maxTimeout initialTimeout key)
      hs hf
    obtain ⟨e, he, hr, hn⟩ := ht.exists_of_ne_nil (by rwa [List.nil_append])
    have hdrift : lo ≤ e.smoothed + 7 := by
      have := hr.above
      unfold Span at *
      omega
    exact ⟨e, he, hr.above, hdrift, hr.below, hr.variation, hn⟩

/-- Two commands of 200 and 400 milliseconds with an upload between them that takes longer. -/
theorem estimate_in_range_interleaved :
    ∃ t : Estimator TrafficClass,
      (new (Span.ofMillis 100) (Span.ofMillis 3000) (Span.ofMillis 1000)).feed
        [(.command, Span.ofMillis 200), (.fileTransfer, Span.ofMillis 900),
          (.command, Span.ofMillis 400)] = .ok t ∧
      t.estimate? .command = some ⟨Span.ofMillis 225, Span.ofMillis 125, 2⟩ ∧
      (new (Span.ofMillis 100) (Span.ofMillis 3000) (Span.ofMillis 1000)).InRange
        [(TrafficClass.command, Span.ofMillis 200), (.fileTransfer, Span.ofMillis 900),
          (.command, Span.ofMillis 400)] .command (Span.ofMillis 200) (Span.ofMillis 400) :=
  ⟨_, rfl, by decide +kernel,
    estimate_in_range _ _ _ (by decide) (by decide) (by decide)⟩

end Estimator

end GroundControl
