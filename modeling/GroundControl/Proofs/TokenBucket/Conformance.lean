import Mathlib.Algebra.Order.Field.Rat
import Mathlib.Data.List.Basic
import Mathlib.Data.List.Induction
import Mathlib.Tactic.Linarith
import Mathlib.Tactic.Ring
import GroundControl.TokenBucket

/-!
# What a token bucket lets through

With exact amounts, a bucket of rate `r` and burst `b` grants a request if and only if it conforms
to all that was granted before: from no point of the history on, the creation of the bucket among
them, do the tokens exceed `b` and what has gathered since that point.

The level of the bucket is the least of the amounts that these bounds leave, and this is what the
induction carries.  The clock of the bucket is the latest time it was told, so requests with earlier
times count as coming then.

* `Bucket.Request`, `Bucket.takes`, `Bucket.passed`: a list of requests, and the tokens granted;
* `Bucket.latest`, `elapsed`; `Bucket.Point`, the points of a history;
* `Bucket.Filled`, the invariant, with `filled_full`, `Filled.take` and `filled_takes`;
* `Bucket.admits_conforming`: what is granted, what a window lets through, and the level.
-/

namespace GroundControl

/-- The time between two instants in seconds. -/
def elapsed (start stop : Instant) : ℚ := ((stop : ℚ) - start) / Span.second

theorem elapsed_self (t : Instant) : elapsed t t = 0 := by
  unfold elapsed
  rw [sub_self, zero_div]

theorem elapsed_add (t u v : Instant) : elapsed t u + elapsed u v = elapsed t v := by
  unfold elapsed
  rw [← add_div]
  ring

theorem elapsed_nonneg {t u : Instant} (h : t ≤ u) : 0 ≤ elapsed t u := by
  unfold elapsed
  exact div_nonneg (sub_nonneg.2 (Nat.cast_le.2 h)) (Nat.cast_nonneg _)

theorem seconds_since {t u : Instant} (h : t ≤ u) :
    (Amount.seconds (u.since t) : ℚ) = elapsed t u := by
  show mkRat (u - t : Nat) Span.second = _
  unfold elapsed
  rw [Rat.mkRat_eq_div, Int.cast_natCast, Nat.cast_sub h]

namespace Bucket

/-- How many tokens are asked for, and when. -/
abbrev Request := Nat × Instant

/-- The bucket after a list of requests. -/
def takes (b : Bucket ℚ) (calls : List Request) : Bucket ℚ :=
  calls.foldl (fun b c => (b.take c.1 c.2).2) b

/-- The tokens granted to a list of requests. -/
def passed (b : Bucket ℚ) : List Request → Nat
  | [] => 0
  | c :: rest => (if (b.take c.1 c.2).1 then c.1 else 0) + passed (b.take c.1 c.2).2 rest

/-- The latest time that was told. -/
def latest (start : Instant) (calls : List Request) : Instant :=
  calls.foldl (fun t c => max t c.2) start

/-- A point of a history: its time, the requests before it and those from it on. -/
inductive Point (start : Instant) (past : List Request) :
    Instant → List Request → List Request → Prop
  | creation : Point start past start [] past
  | call {before rest : List Request} {c : Request} (h : past = before ++ c :: rest) :
      Point start past (latest start (before ++ [c])) before (c :: rest)

section Histories

variable {start t : Instant} {past before window : List Request}

theorem takes_append (b : Bucket ℚ) (calls more : List Request) :
    b.takes (calls ++ more) = (b.takes calls).takes more := List.foldl_append

theorem passed_append (b : Bucket ℚ) (calls more : List Request) :
    b.passed (calls ++ more) = b.passed calls + (b.takes calls).passed more := by
  induction calls generalizing b with
  | nil => exact (Nat.zero_add _).symm
  | cons c rest ih =>
    show _ + (b.take c.1 c.2).2.passed (rest ++ more) = _
    rw [ih, ← Nat.add_assoc]
    rfl

/-- The counter of the bucket counts these tokens. -/
theorem granted_takes (b : Bucket ℚ) (calls : List Request) :
    (b.takes calls).granted = b.granted + b.passed calls := by
  induction calls generalizing b with
  | nil => rfl
  | cons c rest ih =>
    have hg := congrArg Prod.fst (b.dealt_take c.1 c.2)
    show ((b.take c.1 c.2).2.takes rest).granted = b.granted + (_ + _)
    rw [ih, ← Nat.add_assoc]
    refine congrArg (· + _) (hg.trans ?_)
    split <;> rfl

theorem latest_concat (start : Instant) (past : List Request) (c : Request) :
    latest start (past ++ [c]) = max (latest start past) c.2 := by
  unfold latest
  rw [List.foldl_append]
  rfl

theorem Point.append_eq (h : Point start past t before window) : before ++ window = past := by
  cases h with
  | creation => rfl
  | call h => exact h.symm

/-- The points of a longer history are those it had, and the last request. -/
theorem point_concat_iff {c : Request} :
    Point start (past ++ [c]) t before window ↔
      (∃ window', Point start past t before window' ∧ window = window' ++ [c]) ∨
        t = latest start (past ++ [c]) ∧ before = past ∧ window = [c] := by
  constructor
  · intro h
    cases h with
    | creation => exact .inl ⟨past, .creation, rfl⟩
    | @call before rest d h =>
      obtain rfl | ⟨rest, e, rfl⟩ := List.eq_nil_or_concat' rest
      · obtain ⟨rfl, he⟩ := List.append_inj' h rfl
        cases he
        exact .inr ⟨rfl, rfl, rfl⟩
      · rw [← List.cons_append, ← List.append_assoc] at h
        obtain ⟨rfl, he⟩ := List.append_inj' h rfl
        cases he
        exact .inl ⟨d :: rest, .call rfl, rfl⟩
  · rintro (⟨window', h, rfl⟩ | ⟨rfl, rfl, rfl⟩)
    · cases h with
      | creation => exact .creation
      | @call before rest d h =>
        have hlonger : past ++ [c] = before ++ d :: (rest ++ [c]) := by
          rw [h, List.append_assoc, List.cons_append]
        exact .call hlonger
    · exact .call rfl

end Histories

/-! ### Filling up -/

section Filling

variable {b : Bucket ℚ} {now : Instant}

theorem refill_perSecond (b : Bucket ℚ) (now : Instant) :
    (b.refill now).perSecond = b.perSecond := by
  unfold refill
  dsimp only
  split <;> rfl

theorem refill_capacity (b : Bucket ℚ) (now : Instant) :
    (b.refill now).capacity = b.capacity := by
  unfold refill
  dsimp only
  split <;> rfl

theorem refill_filledAt (b : Bucket ℚ) (now : Instant) :
    (b.refill now).filledAt = max b.filledAt now := by
  unfold refill
  dsimp only
  split
  · rename_i h
    exact (Nat.max_eq_left (Nat.sub_eq_zero_iff_le.1 h)).symm
  · rename_i h
    exact (Nat.max_eq_right (Nat.le_of_lt (Nat.lt_of_sub_ne_zero h))).symm

/-- A refill adds what has gathered since the last one, up to the capacity. -/
theorem refill_level (h : b.level ≤ b.capacity) (now : Instant) :
    (b.refill now).level =
      min (b.level + b.perSecond * elapsed b.filledAt (max b.filledAt now)) b.capacity := by
  unfold refill
  dsimp only
  split
  · rename_i hz
    rw [Nat.max_eq_left (Nat.sub_eq_zero_iff_le.1 hz), elapsed_self, mul_zero, add_zero,
      min_eq_left h]
  · rename_i hz
    have hle : b.filledAt ≤ now := Nat.le_of_lt (Nat.lt_of_sub_ne_zero hz)
    rw [Nat.max_eq_right hle, mul_comm, ← seconds_since hle, min_def]
    rfl

theorem ofNat_eq (n : Nat) : (Amount.ofNat n : ℚ) = n := by
  show mkRat n 1 = n
  rw [Rat.mkRat_one, Int.cast_natCast]

/-- A request is granted if the bucket, filled up, holds enough. -/
theorem take_eq (b : Bucket ℚ) (n : Nat) (now : Instant) :
    b.take n now = if (n : ℚ) ≤ (b.refill now).level then
        (true, { b.refill now with
          level := (b.refill now).level - n
          granted := (b.refill now).granted + n })
      else (false, (b.refill now).deny) := by
  have hle : ∀ x : ℚ, Amount.le (Amount.ofNat n) x = decide ((n : ℚ) ≤ x) := fun x => by
    rw [ofNat_eq]
    rfl
  unfold take
  dsimp only
  rw [hle, ofNat_eq]
  by_cases h : (n : ℚ) ≤ (b.refill now).level
  · rw [if_pos (decide_eq_true h), if_pos h]
  · rw [if_neg (by simpa using h), if_neg h]

theorem take_fst (b : Bucket ℚ) (n : Nat) (now : Instant) :
    (b.take n now).1 = true ↔ (n : ℚ) ≤ (b.refill now).level := by
  rw [take_eq]
  split
  · rename_i h
    exact ⟨fun _ => h, fun _ => rfl⟩
  · rename_i h
    exact ⟨Bool.noConfusion, fun hn => absurd hn h⟩

/-- What a request leaves in the bucket. -/
theorem take_level (b : Bucket ℚ) (n : Nat) (now : Instant) :
    (b.take n now).2.level = (b.refill now).level - (b.passed [(n, now)] : ℚ) := by
  show (b.take n now).2.level = _ - (((if (b.take n now).1 then n else 0) + 0 : Nat) : ℚ)
  rw [take_eq, Nat.add_zero]
  split
  · rfl
  · exact (sub_zero _).symm

theorem passed_le (h : 0 ≤ (b.refill now).level) (n : Nat) :
    (b.passed [(n, now)] : ℚ) ≤ (b.refill now).level := by
  show (((if (b.take n now).1 then n else 0) + 0 : Nat) : ℚ) ≤ _
  rw [take_eq, Nat.add_zero]
  by_cases hn : (n : ℚ) ≤ (b.refill now).level
  · rw [if_pos hn]
    exact hn
  · rw [if_neg hn]
    exact h

theorem take_kept (b : Bucket ℚ) (n : Nat) (now : Instant) :
    (b.take n now).2.perSecond = b.perSecond ∧ (b.take n now).2.capacity = b.capacity ∧
      (b.take n now).2.filledAt = max b.filledAt now := by
  rw [take_eq]
  split <;> exact ⟨refill_perSecond b now, refill_capacity b now, refill_filledAt b now⟩

end Filling

/-! ### What the bounds leave -/

/-- What the bound that starts at a point leaves: the burst and what has gathered since then, less
what was granted. -/
def room (r : ℚ) (burst : Nat) (start : Instant) (past : List Request) (t : Instant)
    (before window : List Request) : ℚ :=
  burst + r * elapsed t (latest start past) - ((full r burst start).takes before).passed window

/-- The bucket after a list of requests: it is filled up to the latest time that was told, and its
level is the least that the bounds leave. -/
structure Filled (r : ℚ) (burst : Nat) (start : Instant) (past : List Request) (b : Bucket ℚ) :
    Prop where
  eq : b = (full r burst start).takes past
  perSecond : b.perSecond = r
  capacity : b.capacity = burst
  filledAt : b.filledAt = latest start past
  nonneg : 0 ≤ b.level
  le : b.level ≤ burst
  bound : ∀ {t before window}, Point start past t before window →
    b.level ≤ room r burst start past t before window
  attained : ∃ t before window, Point start past t before window ∧
    b.level = room r burst start past t before window

section Rooms

variable {r : ℚ} {burst : Nat} {start t : Instant} {past before window : List Request}

theorem room_append (h : Point start past t before window) (c : Request) :
    room r burst start (past ++ [c]) t before (window ++ [c]) =
      room r burst start past t before window +
        r * elapsed (latest start past) (latest start (past ++ [c])) -
          (((full r burst start).takes past).passed [c] : ℚ) := by
  unfold room
  rw [passed_append, ← takes_append, h.append_eq, Nat.cast_add,
    ← elapsed_add t (latest start past), mul_add]
  ring

theorem room_last (r : ℚ) (burst : Nat) (start : Instant) (past : List Request) (c : Request) :
    room r burst start (past ++ [c]) (latest start (past ++ [c])) past [c] =
      burst - (((full r burst start).takes past).passed [c] : ℚ) := by
  unfold room
  rw [elapsed_self, mul_zero, add_zero]

end Rooms

section Runs

variable {r : ℚ} {burst : Nat} {start : Instant} {past : List Request} {b : Bucket ℚ} {n : Nat}
  {now : Instant}

theorem filled_full (r : ℚ) (burst : Nat) (start : Instant) :
    Filled r burst start [] (full r burst start) := by
  have hlevel : (full r burst start).level = burst := ofNat_eq burst
  have hroom : room r burst start [] start [] [] = burst := by
    unfold room
    show (burst : ℚ) + r * elapsed start start - ((0 : Nat) : ℚ) = burst
    rw [elapsed_self, mul_zero, add_zero, Nat.cast_zero, sub_zero]
  constructor
  case eq => rfl
  case perSecond => rfl
  case capacity => exact hlevel
  case filledAt => rfl
  case nonneg => rw [hlevel]; exact Nat.cast_nonneg _
  case le => exact hlevel.le
  case bound =>
    intro t before window hp
    cases hp with
    | creation => rw [hlevel, hroom]
    | call h => exact absurd h.symm (List.append_ne_nil_of_right_ne_nil _ (List.cons_ne_nil _ _))
  case attained => exact ⟨start, [], [], .creation, hlevel.trans hroom.symm⟩

/-- What the bucket holds when a request comes. -/
theorem Filled.refill (h : Filled r burst start past b) (now : Instant) :
    (b.refill now).level =
      min (b.level + r * elapsed (latest start past) (max (latest start past) now)) burst := by
  rw [refill_level (h.le.trans h.capacity.ge), h.perSecond, h.capacity, h.filledAt]

/-- The bounds that the history puts on the next request. -/
theorem Filled.le_refill_iff (h : Filled r burst start past b) (n : Nat) (now : Instant) :
    (n : ℚ) ≤ (b.refill now).level ↔ n ≤ burst ∧ ∀ t before window,
      Point start past t before window →
        n + (((full r burst start).takes before).passed window : ℚ) ≤
          burst + r * elapsed t (latest start (past ++ [(n, now)])) := by
  rw [h.refill, le_min_iff, Nat.cast_le, and_comm, latest_concat]
  refine and_congr_right fun _ => ?_
  constructor
  · intro hn t before window hp
    have hb := h.bound hp
    unfold room at hb
    rw [← elapsed_add t (latest start past), mul_add]
    linarith
  · intro hall
    obtain ⟨t, before, window, hp, hlevel⟩ := h.attained
    have hn := hall t before window hp
    unfold room at hlevel
    rw [← elapsed_add t (latest start past), mul_add] at hn
    linarith

/-- One more request. -/
theorem Filled.take (hr : 0 ≤ r) (h : Filled r burst start past b) (n : Nat) (now : Instant) :
    Filled r burst start (past ++ [(n, now)]) (b.take n now).2 := by
  obtain ⟨hperSecond, hcapacity, hfilledAt⟩ := b.take_kept n now
  have hnext : latest start (past ++ [(n, now)]) = max (latest start past) now :=
    latest_concat ..
  have hgathered : 0 ≤ r * elapsed (latest start past) (latest start (past ++ [(n, now)])) :=
    mul_nonneg hr (elapsed_nonneg (hnext ▸ Nat.le_max_left ..))
  have hfull := h.refill now
  rw [← hnext] at hfull
  have hnonneg : 0 ≤ (b.refill now).level := by
    rw [hfull]
    exact le_min (add_nonneg h.nonneg hgathered) (Nat.cast_nonneg _)
  have hpassed : (0 : ℚ) ≤ b.passed [(n, now)] := Nat.cast_nonneg _
  have hlevel := b.take_level n now
  constructor
  case eq => rw [takes_append, ← h.eq]; rfl
  case perSecond => exact hperSecond.trans h.perSecond
  case capacity => exact hcapacity.trans h.capacity
  case filledAt => rw [hfilledAt, h.filledAt, hnext]
  case nonneg =>
    rw [hlevel]
    exact sub_nonneg.2 (passed_le hnonneg n)
  case le =>
    rw [hlevel, hfull]
    exact (sub_le_self _ hpassed).trans (min_le_right _ _)
  case bound =>
    intro t before window hp
    rw [hlevel, hfull]
    rcases point_concat_iff.1 hp with ⟨window', hp', rfl⟩ | ⟨rfl, rfl, rfl⟩
    · rw [room_append hp', ← h.eq]
      have hroom := h.bound hp'
      have hmin := min_le_left
        (b.level + r * elapsed (latest start past) (latest start (past ++ [(n, now)])))
        (burst : ℚ)
      linarith
    · rw [room_last, ← h.eq]
      exact sub_le_sub_right (min_le_right _ _) _
  case attained =>
    rw [hlevel, hfull]
    -- the bound that the level meets is an old one, unless the bucket is full
    rcases le_total (b.level + r * elapsed (latest start past)
        (latest start (past ++ [(n, now)]))) burst with hle | hle
    · obtain ⟨t, before, window, hp, hroom⟩ := h.attained
      refine ⟨t, before, window ++ [(n, now)], point_concat_iff.2 (.inl ⟨window, hp, rfl⟩), ?_⟩
      rw [min_eq_left hle, room_append hp, ← h.eq, hroom]
    · refine ⟨_, past, [(n, now)], point_concat_iff.2 (.inr ⟨rfl, rfl, rfl⟩), ?_⟩
      rw [min_eq_right hle, room_last, ← h.eq]

theorem filled_takes (hr : 0 ≤ r) (burst : Nat) (start : Instant) (past : List Request) :
    Filled r burst start past ((full r burst start).takes past) := by
  induction past using List.reverseRecOn with
  | nil => exact filled_full r burst start
  | append_singleton past c ih =>
    rw [takes_append]
    exact ih.take hr c.1 c.2

end Runs

/-! ### What is let through -/

/-- Whether a request keeps within the burst and within every bound that starts at an earlier
point. -/
def Conforms (r : ℚ) (burst : Nat) (start : Instant) (past : List Request) (n : Nat)
    (now : Instant) : Prop :=
  n ≤ burst ∧ ∀ t before window, Point start past t before window →
    n + (((full r burst start).takes before).passed window : ℚ) ≤
      burst + r * elapsed t (latest start (past ++ [(n, now)]))

/-- What a bucket does after a list of requests. -/
structure AdmitsConforming (r : ℚ) (burst : Nat) (start : Instant) (past : List Request) :
    Prop where
  /-- a request is granted if it conforms, and only then -/
  granted : ∀ n now, (((full r burst start).takes past).take n now).1 = true ↔
    Conforms r burst start past n now
  /-- between two times, no more than the burst and what gathers in between -/
  window : ∀ before c rest later s e, past = before ++ c :: rest ++ later →
    s ≤ latest start (before ++ [c]) → latest start (before ++ c :: rest) ≤ e →
    (((full r burst start).takes before).passed (c :: rest) : ℚ) ≤ burst + r * elapsed s e
  /-- nor since the creation of the bucket -/
  sinceCreation : ((full r burst start).passed past : ℚ) ≤
    burst + r * elapsed start (latest start past)
  counted : ((full r burst start).takes past).granted = (full r burst start).passed past
  nonneg : 0 ≤ ((full r burst start).takes past).level
  le : ((full r burst start).takes past).level ≤ burst

theorem Filled.passed_le_of_point {r : ℚ} {burst : Nat} {start t : Instant}
    {past before window : List Request} {b : Bucket ℚ} (h : Filled r burst start past b)
    (hp : Point start past t before window) :
    (((full r burst start).takes before).passed window : ℚ) ≤
      burst + r * elapsed t (latest start past) := by
  have hroom := h.nonneg.trans (h.bound hp)
  unfold room at hroom
  exact sub_nonneg.1 hroom

theorem elapsed_mono {s t u e : Instant} (hs : s ≤ t) (he : u ≤ e) : elapsed t u ≤ elapsed s e := by
  rw [← elapsed_add s t e, ← elapsed_add t u e]
  linarith [elapsed_nonneg hs, elapsed_nonneg he]

/-- At whatever times the requests come, a bucket of exact amounts grants those that conform and
turns the others away. -/
theorem admits_conforming {r : ℚ} (hr : 0 ≤ r) (burst : Nat) (start : Instant)
    (past : List Request) : AdmitsConforming r burst start past := by
  have h := filled_takes hr burst start past
  constructor
  case granted =>
    intro n now
    exact (take_fst _ n now).trans (h.le_refill_iff n now)
  case window =>
    rintro before c rest later s e rfl hs he
    have hw := filled_takes hr burst start (before ++ c :: rest)
    refine (hw.passed_le_of_point (.call rfl)).trans ?_
    exact add_le_add_right (mul_le_mul_of_nonneg_left (elapsed_mono hs he) hr) _
  case sinceCreation => exact h.passed_le_of_point .creation
  case counted => exact (granted_takes _ past).trans (Nat.zero_add _)
  case nonneg => exact h.nonneg
  case le => exact h.le

/-- A burst, a trickle, a request that comes too early, and one that asks for too much. -/
def trickle : List Request :=
  [(5, 0), (1, Span.ofMillis 100), (1, Span.ofMillis 150), (1, Span.ofMillis 50),
    (6, Span.ofMillis 60000)]

theorem admits_conforming_trickle :
    (0 : ℚ) ≤ 10 ∧ AdmitsConforming 10 5 0 trickle ∧ (full (10 : ℚ) 5 0).passed trickle = 6 ∧
      (((full (10 : ℚ) 5 0).takes trickle).take 5 (Span.ofMillis 60000)).1 = true :=
  ⟨by decide +kernel, admits_conforming (by decide +kernel) 5 0 trickle, by decide +kernel,
    by decide +kernel⟩

end Bucket

end GroundControl
