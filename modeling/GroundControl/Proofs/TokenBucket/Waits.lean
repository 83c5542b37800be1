import GroundControl.Proofs.Binary64.Plain
import GroundControl.Settings
import GroundControl.TokenBucket

/-!
# Waits for tokens that are too long for the clock

A bucket computes how long a wait for tokens takes, as a quotient of floating-point numbers, turns
the quotient into a span and adds it to the clock; either step can leave its range.  For a bucket of
a valid limit neither does, whatever the calls and whenever they come up to some instant, if and
only if the longest wait of all is in range: that of an empty bucket for a full burst, begun at the
last instant.  That a limit is valid does not imply it: a rate may be as small as it likes.

* `Bucket.Call`, `Bucket.answer`, `Bucket.answers`: a run of calls;
* `Bucket.Filling`, the invariant: the level lies between zero and the capacity;
* `Bucket.fillTime`, `Bucket.Reaches`, the longest wait and its range;
* `Bucket.Filling.answers`: every call returns; `Bucket.claim_drained`: the bound is sharp;
* `Bucket.returns_iff_reaches`.
-/

namespace GroundControl

namespace Bucket

open Binary64

/-- A call to a bucket. -/
inductive Call
  | take (n : Nat) (now : Instant)
  | waitTime (n : Nat) (now : Instant)
  | takeBy (n : Nat) (deadline now : Instant)

/-- Whether the times of a call come no later than `last`. -/
def Call.Within (last : Instant) : Call → Prop
  | .take _ now | .waitTime _ now => now ≤ last
  | .takeBy _ deadline now => deadline ≤ last ∧ now ≤ last

/-- What a call returns. -/
inductive Answer
  | passed (ok : Bool)
  | wait (time : Option Span)
  deriving DecidableEq, Repr

section Calls

variable {α : Type} [Amount α]

/-- One call. -/
def answer (wake : Instant → Instant) (b : Bucket α) : Call → Except Fault Answer × Bucket α
  | .take n now =>
      let (ok, b) := b.take n now
      (.ok (.passed ok), b)
  | .waitTime n now =>
      let (time, b) := b.waitTime n now
      (time.map .wait, b)
  | .takeBy n deadline now =>
      let (ok, b, _) := b.takeBy wake n deadline now
      (ok.map .passed, b)

/-- Calls one after the other, up to the first that faults. -/
def answers (wake : Instant → Instant) (b : Bucket α) : List Call → Except Fault (List Answer)
  | [] => .ok []
  | c :: rest =>
      match b.answer wake c with
      | (.error fault, _) => .error fault
      | (.ok a, b) => (b.answers wake rest).map (a :: ·)

end Calls

/-! ### Levels -/

/-- A bucket of a limit that has been in use: its level lies between zero and the capacity. -/
structure Filling (limit : RateLimit) (b : Bucket Float) : Prop where
  perSecond : b.perSecond = limit.perSecond
  capacity : b.capacity = Amount.ofNat limit.burst
  level : bits b.level ≤ bits b.capacity

variable {limit : RateLimit} {b b' : Bucket Float}

theorem filling_full (limit : RateLimit) (start : Instant) :
    Filling limit (full limit.perSecond limit.burst start) :=
  ⟨rfl, rfl, Nat.le_refl _⟩

theorem finite_ofNat (n : Nat) : Finite (Amount.ofNat n : Float) := finite_toFloat _

theorem Filling.finite_capacity (h : Filling limit b) : Finite b.capacity :=
  h.capacity ▸ finite_ofNat _

theorem Filling.finite_level (h : Filling limit b) : Finite b.level :=
  Nat.lt_of_le_of_lt h.level h.finite_capacity

theorem unsigned_seconds (d : Span) : Unsigned (Amount.seconds d : Float) :=
  (Unsigned.add (.inl (finite_toFloat _).plain)
    (Unsigned.div (.inl (finite_toFloat _).plain)
      (.inl (show bits (1e9 : Float) ≤ infinityBits by decide +kernel))))

/-- The smaller of an unsigned amount and a plain one. -/
theorem bits_least {x y : Float} (hx : Unsigned x) (hy : Plain y) :
    bits (Amount.least x y) ≤ bits y := by
  show bits (if x.isNaN then y else if y.isNaN then x else if x < y then x else y) ≤ _
  split
  · exact Nat.le_refl _
  · rename_i hn
    have hx := hx.resolve_right hn
    rw [if_neg (by rw [hy.isNaN_eq_false]; exact Bool.false_ne_true)]
    split
    · rename_i hlt
      exact Nat.le_of_lt ((lt_iff hx hy).1 hlt)
    · exact Nat.le_refl _

theorem Filling.refill (hl : Plain limit.perSecond) (h : Filling limit b) (now : Instant) :
    Filling limit (b.refill now) := by
  unfold Bucket.refill
  dsimp only
  split
  · exact h
  · have hlevel : Unsigned b.level := .inl h.finite_level.plain
    have hrate : Unsigned b.perSecond := .inl (h.perSecond ▸ hl)
    exact ⟨h.perSecond, h.capacity, bits_least (hlevel.add ((unsigned_seconds _).mul hrate))
      h.finite_capacity.plain⟩

theorem Filling.take (hl : Plain limit.perSecond) (h : Filling limit b) (n : Nat) (now : Instant) :
    Filling limit (b.take n now).2 := by
  have h := h.refill hl now
  unfold Bucket.take
  dsimp only
  split
  · rename_i hle
    have hle : bits (Amount.ofNat n : Float) ≤ bits (b.refill now).level :=
      (le_iff (finite_ofNat n).plain h.finite_level.plain).1 (of_decide_eq_true hle)
    exact ⟨h.perSecond, h.capacity, (bits_sub_le h.finite_level hle).trans h.level⟩
  · exact ⟨h.perSecond, h.capacity, h.level⟩

/-- The time in which an empty bucket fills up, as a span. -/
def fillTime (limit : RateLimit) : Except Fault Span :=
  Span.ofSeconds (Amount.ofNat limit.burst / limit.perSecond)

/-! ### Waits -/

/-- A limit with a positive finite rate. -/
structure Steady (limit : RateLimit) : Prop where
  finite : Finite limit.perSecond
  pos : 0 < bits limit.perSecond

theorem steady_of_isValid (h : limit.isValid = true) : Steady limit := by
  unfold RateLimit.isValid at h
  simp only [Bool.and_eq_true, decide_eq_true_eq] at h
  obtain ⟨hfinite, hpos⟩ := finite_of_pos h.1.1 h.1.2
  exact ⟨hfinite, hpos⟩

theorem Steady.plain_div (hl : Steady limit) {x : Float} (hx : Finite x) :
    Plain (x / limit.perSecond) := by
  show bits _ ≤ _
  rw [bits_div hx hl.finite hl.pos]
  exact min_le_right ..

/-- Whatever is missing, it is there after the time in which an empty bucket fills up. -/
theorem Filling.shortfall (hl : Steady limit) (h : Filling limit b) {d : Span}
    (hd : fillTime limit = .ok d) (n : Nat) :
    ∃ time, b.shortfall n = .ok time ∧ ∀ t ∈ time, t ≤ max d 1 := by
  have hneeded : Finite (Amount.ofNat n : Float) := finite_ofNat n
  unfold Bucket.shortfall
  dsimp only
  split
  · exact ⟨none, rfl, fun t ht => by cases ht⟩
  · rename_i hcap
    have hcap : bits (Amount.ofNat n : Float) ≤ bits b.capacity := by
      by_contra hlt
      refine hcap (decide_eq_true ?_)
      exact (lt_iff h.finite_capacity.plain hneeded.plain).2 (Nat.not_le.1 hlt)
    split
    · exact ⟨some 0, rfl, fun t ht => by cases ht; exact Nat.zero_le _⟩
    · rename_i hmissing
      have hlevel : bits b.level ≤ bits (Amount.ofNat n : Float) := by
        by_contra hlt
        exact hmissing (decide_eq_true (sub_le_zero h.finite_level (Nat.le_of_not_le hlt)))
      have hle : bits (Amount.ofNat n - b.level) ≤ bits (Amount.ofNat limit.burst : Float) :=
        (bits_sub_le hneeded hlevel).trans (h.capacity ▸ hcap)
      have hfinite : Finite (Amount.ofNat n - b.level) :=
        Nat.lt_of_le_of_lt hle (finite_ofNat _)
      obtain ⟨d', hd', hspan⟩ := ofSeconds_mono (hl.plain_div hfinite)
        (hl.plain_div (finite_ofNat _)) (bits_div_le (finite_ofNat _) hle hl.finite hl.pos) hd
      rw [h.perSecond]
      have htime : Amount.span ((Amount.ofNat n - b.level : Float) / limit.perSecond) = .ok d' :=
        hspan
      rw [htime]
      refine ⟨some (max d' 1), rfl, fun t ht => ?_⟩
      cases ht
      exact max_le_max hd' (Nat.le_refl 1)

/-- Every wait from an instant up to `last` ends at an instant that a clock can show. -/
def Reaches (limit : RateLimit) (last : Instant) : Prop :=
  ∃ d, fillTime limit = .ok d ∧ last + max d 1 < Instant.horizon

section Returns

variable {last : Instant} {wake : Instant → Instant}

/-- A round of a wait does not fault; it leaves the bucket as any call does, and it never lets the
caller sleep beyond the deadline. -/
theorem Filling.claim (hl : Steady limit) (hr : Reaches limit last) (h : Filling limit b) (n : Nat)
    (deadline : Instant) {now : Instant} (hnow : now ≤ last) :
    ∃ c b', b.claim n deadline now = (.ok c, b') ∧ Filling limit b' ∧
      ∀ ready, c = .wait ready → ready ≤ deadline := by
  obtain ⟨d, hd, hlast⟩ := hr
  have hrefill := h.refill hl.finite.plain now
  obtain ⟨time, htime, hle⟩ := hrefill.shortfall hl hd n
  unfold Bucket.claim Bucket.waitTime
  dsimp only
  rw [htime]
  cases time with
  | none => exact ⟨Claim.denied, _, rfl, ⟨hrefill.perSecond, hrefill.capacity, hrefill.level⟩,
      fun _ hc => by cases hc⟩
  | some t =>
    cases t with
    | zero =>
      refine ⟨_, _, rfl, hrefill.take hl.finite.plain n now, fun ready hc => ?_⟩
      split at hc <;> cases hc
    | succ t =>
      have hafter : now.after (t + 1) = .ok (now + (t + 1)) := by
        have := hle (t + 1) rfl
        exact Instant.after_eq_ok (by unfold Instant Span at *; omega)
      simp only [hafter]
      split
      · exact ⟨Claim.denied, _, rfl, ⟨hrefill.perSecond, hrefill.capacity, hrefill.level⟩,
          fun _ hc => by cases hc⟩
      · rename_i hle
        refine ⟨Claim.wait _, _, rfl, hrefill, fun ready hc => ?_⟩
        cases hc
        exact Nat.le_of_not_lt hle

theorem Filling.takeByRounds (hl : Steady limit) (hr : Reaches limit last)
    (hwake : ∀ t ≤ last, wake t ≤ last) {n : Nat} {deadline : Instant} (hdeadline : deadline ≤ last)
    (rounds : Nat) (h : Filling limit b) {now : Instant} (hnow : now ≤ last) :
    ∃ ok b' t, b.takeByRounds wake n deadline rounds now = (.ok ok, b', t) ∧ Filling limit b' := by
  induction rounds generalizing b now with
  | zero => exact ⟨false, b, now, rfl, h⟩
  | succ rounds ih =>
    obtain ⟨c, b', hclaim, h', hwait⟩ := h.claim hl hr n deadline hnow
    unfold Bucket.takeByRounds
    rw [hclaim]
    cases c with
    | granted => exact ⟨true, b', now, rfl, h'⟩
    | denied => exact ⟨false, b', now, rfl, h'⟩
    | wait ready => exact ih h' (hwake ready ((hwait ready rfl).trans hdeadline))

/-- Every call returns. -/
theorem Filling.answer (hl : Steady limit) (hr : Reaches limit last)
    (hwake : ∀ t ≤ last, wake t ≤ last) (h : Filling limit b) {c : Call} (hc : c.Within last) :
    ∃ a b', b.answer wake c = (.ok a, b') ∧ Filling limit b' := by
  cases c with
  | take n now => exact ⟨_, _, rfl, h.take hl.finite.plain n now⟩
  | waitTime n now =>
    obtain ⟨d, hd, -⟩ := hr
    have hrefill := h.refill hl.finite.plain now
    obtain ⟨time, htime, -⟩ := hrefill.shortfall hl hd n
    refine ⟨.wait time, b.refill now, ?_, hrefill⟩
    show (((b.refill now).shortfall n).map Answer.wait, b.refill now) = _
    rw [htime]
    rfl
  | takeBy n deadline now =>
    obtain ⟨ok, b', t, hround, h'⟩ := h.takeByRounds hl hr hwake hc.1 (deadline - now + 2) hc.2
      (n := n)
    refine ⟨.passed ok, b', ?_, h'⟩
    show ((b.takeBy wake n deadline now).1.map Answer.passed,
      (b.takeBy wake n deadline now).2.1) = _
    unfold Bucket.takeBy
    rw [hround]
    rfl

theorem Filling.answers (hl : Steady limit) (hr : Reaches limit last)
    (hwake : ∀ t ≤ last, wake t ≤ last) (h : Filling limit b) {calls : List Call}
    (hcalls : ∀ c ∈ calls, c.Within last) : ∃ as, b.answers wake calls = .ok as := by
  induction calls generalizing b with
  | nil => exact ⟨[], rfl⟩
  | cons c rest ih =>
    obtain ⟨a, b', ha, h'⟩ := h.answer hl hr hwake (hcalls c List.mem_cons_self)
    obtain ⟨as, has⟩ := ih h' fun c' hc' => hcalls c' (List.mem_cons_of_mem _ hc')
    refine ⟨a :: as, ?_⟩
    unfold Bucket.answers
    rw [ha]
    dsimp only
    rw [has]
    rfl

end Returns

/-! ### The bound is sharp -/

theorem pos_ofNat {n : Nat} (hn : n ≠ 0) (hlt : n < 2 ^ 64) :
    0 < bits (Amount.ofNat n : Float) := by
  have hcast : n.toUInt64.toNat = n := Nat.mod_eq_of_lt hlt
  have hone : units ((1023 + 0) * 2 ^ 52) * 1 ≤ n * unity * 1 := by
    rw [units_two_pow]
    exact Nat.mul_le_mul_right _ (Nat.mul_le_mul_right _ (Nat.one_le_iff_ne_zero.2 hn))
  have hle := nearest_mono Nat.one_pos Nat.one_pos hone
  rw [nearest_units (by decide)] at hle
  show 0 < bits n.toUInt64.toFloat
  rw [bits_toFloat, hcast]
  exact Nat.lt_of_lt_of_le (by decide) hle

theorem refill_filledAt_self (b : Bucket Float) : b.refill b.filledAt = b :=
  if_pos (Nat.sub_self _)

/-- A bucket that is drained as soon as it is there. -/
def drained (limit : RateLimit) (start : Instant) : Bucket Float :=
  { full limit.perSecond limit.burst start with
    level := Amount.ofNat limit.burst - Amount.ofNat limit.burst
    granted := 0 + limit.burst }

theorem take_burst (limit : RateLimit) (start : Instant) :
    (full limit.perSecond limit.burst start).take limit.burst start =
      (true, drained limit start) := by
  have hle : Amount.le (Amount.ofNat limit.burst : Float) (Amount.ofNat limit.burst) = true :=
    decide_eq_true ((le_iff (finite_ofNat _).plain (finite_ofNat _).plain).2 (Nat.le_refl _))
  have hrefill : (full limit.perSecond limit.burst start).refill start =
      full limit.perSecond limit.burst start := refill_filledAt_self _
  unfold Bucket.take
  dsimp only
  rw [hrefill]
  exact if_pos hle

theorem not_lt_self (n : Nat) : Amount.lt (Amount.ofNat n : Float) (Amount.ofNat n) = false :=
  decide_eq_false fun h =>
    Nat.lt_irrefl _ ((lt_iff (finite_ofNat n).plain (finite_ofNat n).plain).1 h)

/-- Of a drained bucket, a full burst is missing. -/
theorem shortfall_drained (hburst : limit.burst ≠ 0) (hlt : limit.burst < 2 ^ 64)
    (start : Instant) : (drained limit start).shortfall limit.burst =
      match fillTime limit with
      | .error fault => .error fault
      | .ok d => .ok (some (max d 1)) := by
  have hfinite : Finite (Amount.ofNat limit.burst : Float) := finite_ofNat _
  have hzero : bits (Amount.ofNat limit.burst - Amount.ofNat limit.burst : Float) = 0 := by
    rw [bits_sub hfinite (Nat.le_refl _), Nat.sub_self, nearest_zero Nat.one_pos]
  have hmissing : (Amount.ofNat limit.burst -
      (Amount.ofNat limit.burst - Amount.ofNat limit.burst) : Float) =
        Amount.ofNat limit.burst := by
    apply eq_of_bits
    rw [bits_sub hfinite (hzero.le.trans (Nat.zero_le _)), hzero, units_zero, Nat.sub_zero,
      nearest_units hfinite.plain]
  have hpos : Amount.le (Amount.ofNat limit.burst : Float) (Amount.ofNat 0) = false := by
    refine decide_eq_false fun h => ?_
    have hle := (le_iff hfinite.plain (finite_ofNat 0).plain).1 h
    have hb0 : bits (Amount.ofNat 0 : Float) = 0 := by
      have hcast : (Nat.toUInt64 0).toNat = 0 := rfl
      show bits (Nat.toUInt64 0).toFloat = 0
      rw [bits_toFloat, hcast, Nat.zero_mul, nearest_zero Nat.one_pos]
    have := pos_ofNat hburst hlt
    omega
  have hspan : Amount.span ((Amount.ofNat limit.burst - (drained limit start).level : Float) /
      (drained limit start).perSecond) = fillTime limit :=
    congrArg (fun x => Span.ofSeconds (x / limit.perSecond)) hmissing
  have hcapacity : ¬ Amount.lt (drained limit start).capacity
      (Amount.ofNat limit.burst : Float) = true := ne_true_of_eq_false (not_lt_self limit.burst)
  have hmissed : ¬ Amount.le (Amount.ofNat limit.burst - (drained limit start).level : Float)
      (Amount.ofNat 0) = true := by
    show ¬ Amount.le (Amount.ofNat limit.burst -
      (Amount.ofNat limit.burst - Amount.ofNat limit.burst) : Float) (Amount.ofNat 0) = true
    rw [hmissing]
    exact ne_true_of_eq_false hpos
  unfold Bucket.shortfall
  dsimp only
  rw [if_neg hcapacity, if_neg hmissed]
  exact hspan ▸ rfl

/-- A wait for a full burst right after a full burst faults, if it would end where no clock gets. -/
theorem claim_drained (hburst : limit.burst ≠ 0) (hlt : limit.burst < 2 ^ 64) {start : Instant}
    (h : ¬ Reaches limit start) :
    ∃ fault b', (drained limit start).claim limit.burst start start = (.error fault, b') := by
  have hrefill : (drained limit start).refill start = drained limit start :=
    refill_filledAt_self _
  unfold Bucket.claim Bucket.waitTime
  dsimp only
  rw [hrefill, shortfall_drained hburst hlt]
  cases hd : fillTime limit with
  | error fault => exact ⟨fault, _, rfl⟩
  | ok d =>
    have hfar : ¬ start + max d 1 < Instant.horizon := fun hlt => h ⟨d, hd, hlt⟩
    obtain ⟨t, ht⟩ : ∃ t, max d 1 = t + 1 :=
      Nat.exists_eq_add_of_le' (Nat.le_max_right d 1)
    dsimp only
    rw [ht] at hfar ⊢
    have hafter : start.after (t + 1) = .error .instantOverflow := if_neg hfar
    simp only [hafter]
    exact ⟨_, _, rfl⟩

/-- Whether all calls to a bucket of the limit return, however they follow each other and at
whatever instants up to `last` they come. -/
def Returns (limit : RateLimit) (wake : Instant → Instant) (last : Instant) : Prop :=
  ∀ start ≤ last, ∀ calls : List Call, (∀ c ∈ calls, c.Within last) →
    ∃ as, (full limit.perSecond limit.burst start).answers wake calls = .ok as

/-- All calls to a bucket of a valid limit return if and only if the time in which it fills up is a
span, and a wait of that length ends within reach of the clock. -/
theorem returns_iff_reaches {last : Instant} {wake : Instant → Instant}
    (hvalid : limit.isValid = true) (hburst : limit.burst < 2 ^ 32)
    (hwake : ∀ t ≤ last, wake t ≤ last) : Returns limit wake last ↔ Reaches limit last := by
  constructor
  · intro h
    by_contra hr
    have hne : limit.burst ≠ 0 := by
      unfold RateLimit.isValid at hvalid
      simp only [Bool.and_eq_true, decide_eq_true_eq] at hvalid
      exact hvalid.2
    obtain ⟨fault, b', hclaim⟩ := claim_drained hne (hburst.trans (by decide)) hr
    obtain ⟨as, has⟩ := h last (Nat.le_refl _)
      [.take limit.burst last, .takeBy limit.burst last last] (by
        rintro c (_ | ⟨_, _ | ⟨_, ⟨⟩⟩⟩)
        · exact Nat.le_refl _
        · exact ⟨Nat.le_refl _, Nat.le_refl _⟩)
    have htake : (full limit.perSecond limit.burst last).answer wake (.take limit.burst last) =
        (.ok (.passed true), drained limit last) := by
      show (Except.ok (Answer.passed ((full limit.perSecond limit.burst last).take
        limit.burst last).1), ((full limit.perSecond limit.burst last).take limit.burst last).2) = _
      rw [take_burst]
    have hby : (drained limit last).answer wake (.takeBy limit.burst last last) =
        (.error fault, b') := by
      show ((((drained limit last).takeBy wake limit.burst last last).1.map Answer.passed),
        ((drained limit last).takeBy wake limit.burst last last).2.1) = _
      unfold Bucket.takeBy Bucket.takeByRounds
      rw [hclaim]
      rfl
    unfold Bucket.answers at has
    rw [htake] at has
    dsimp only at has
    unfold Bucket.answers at has
    rw [hby] at has
    cases has
  · intro hr start _ calls hcalls
    exact (filling_full limit start).answers (steady_of_isValid hvalid) hr hwake hcalls

/-- Ten tokens a second, and one token in `10 ^ 300` seconds: both limits are valid. -/
def brisk : RateLimit := ⟨10, 5⟩
def glacial : RateLimit := ⟨1e-300, 1⟩

theorem returns_iff_reaches_brisk :
    (brisk.isValid = true ∧ Returns brisk .alarm (2 ^ 40 * Span.second)) ∧
      glacial.isValid = true ∧ ¬ Returns glacial .alarm (2 ^ 40 * Span.second) := by
  have hwake : ∀ t : Nat, t ≤ 2 ^ 40 * 1000000000 →
      (t + 999999) / 1000000 * 1000000 ≤ 2 ^ 40 * 1000000000 := by
    intro t ht
    omega
  have hbrisk : brisk.isValid = true := by decide +kernel
  have hglacial : glacial.isValid = true := by decide +kernel
  refine ⟨⟨hbrisk, ?_⟩, hglacial, ?_⟩
  · exact (returns_iff_reaches hbrisk (by decide) hwake).2
      ⟨500000000, by decide +kernel, by decide⟩
  · intro h
    obtain ⟨d, hd, -⟩ := (returns_iff_reaches hglacial (by decide) hwake).1 h
    have herror : fillTime glacial = .error .unboundedSeconds := by decide +kernel
    rw [herror] at hd
    cases hd

end Bucket

end GroundControl
