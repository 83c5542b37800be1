import Mathlib.Tactic.Linarith
import Mathlib.Tactic.Ring
import GroundControl.Seconds

/-!
# Rounding to 53 binary places

Rounding of quotients, over whole numbers alone: a number without a sign is a multiple of the least
positive one, and its bits, read as a whole number, grow with it.  So the bits of the number nearest
to a quotient are a function of two whole numbers, and all that is needed of rounding is that this
function is monotone and that it leaves numbers as they are.

* `roundHalfEven_mono`, `roundHalfEven_mul`;
* `Binary64.units`, a number in units of `2 ^ -1074`; `Binary64.unity`, the number one in units;
* `Binary64.nearest`, with `nearest_mono`, `nearest_congr` and `nearest_units`.
-/

namespace GroundControl

/-- Rounding goes to one of the two whole neighbours. -/
theorem roundHalfEven_bounds {num den : Nat} :
    num / den ≤ roundHalfEven num den ∧ roundHalfEven num den ≤ num / den + 1 := by
  unfold roundHalfEven
  dsimp only
  split
  · omega
  · split <;> omega

/-- The whole parts of two quotients are in the order of the quotients. -/
theorem div_le_div_of_mul_le {num den num' den' : Nat} (hd : 0 < den) (hd' : 0 < den')
    (h : num * den' ≤ num' * den) : num / den ≤ num' / den' := by
  rw [Nat.le_div_iff_mul_le hd']
  refine Nat.le_of_mul_le_mul_right ?_ hd
  calc num / den * den' * den = num / den * den * den' := by ring
    _ ≤ num * den' := Nat.mul_le_mul_right _ (Nat.div_mul_le_self ..)
    _ ≤ num' * den := h

/-- Rounding keeps the order of quotients. -/
theorem roundHalfEven_mono {num den num' den' : Nat} (hd : 0 < den) (hd' : 0 < den')
    (h : num * den' ≤ num' * den) : roundHalfEven num den ≤ roundHalfEven num' den' := by
  have hq := div_le_div_of_mul_le hd hd' h
  rcases hq.eq_or_lt with heq | hlt
  · -- the same whole part: the remainders decide, and a tie is broken the same way
    have hr : num % den * den' ≤ num' % den' * den := by
      have h₁ := Nat.div_add_mod num den
      have h₂ := Nat.div_add_mod num' den'
      rw [← heq] at h₂
      have h₃ : (den * (num / den) + num % den) * den' ≤
          (den' * (num / den) + num' % den') * den := by rw [h₁, h₂]; exact h
      linarith
    have hlow : 2 * (num' % den') < den' → 2 * (num % den) < den := fun hs => by
      by_contra hn
      have := Nat.mul_le_mul_right den' (Nat.not_lt.1 hn)
      have := Nat.mul_lt_mul_of_pos_right hs hd
      linarith
    have hhigh : den < 2 * (num % den) → den' < 2 * (num' % den') := fun hs => by
      by_contra hn
      have := Nat.mul_le_mul_right den (Nat.not_lt.1 hn)
      have := Nat.mul_lt_mul_of_pos_right hs hd'
      linarith
    unfold roundHalfEven
    dsimp only
    rw [← heq]
    split <;> split <;> (try split) <;> (try split) <;> omega
  · exact (roundHalfEven_bounds.2.trans hlt).trans roundHalfEven_bounds.1

theorem roundHalfEven_mul {k : Nat} (hk : 0 < k) (num : Nat) {den : Nat} (hd : 0 < den) :
    roundHalfEven (num * k) (den * k) = roundHalfEven num den :=
  Nat.le_antisymm
    (roundHalfEven_mono (Nat.mul_pos hd hk) hd (by rw [Nat.mul_right_comm, Nat.mul_assoc]))
    (roundHalfEven_mono hd (Nat.mul_pos hd hk) (by rw [Nat.mul_right_comm, Nat.mul_assoc]))

theorem roundHalfEven_one (num : Nat) : roundHalfEven num 1 = num := by
  unfold roundHalfEven
  simp [Nat.mod_one]

theorem roundHalfEven_mul_self (n : Nat) {k : Nat} (hk : 0 < k) : roundHalfEven (n * k) k = n := by
  simpa using (roundHalfEven_mul hk n Nat.one_pos).trans (roundHalfEven_one n)

namespace Binary64

/-- The bits of the positive infinity, which are those of the largest finite number and one. -/
def infinityBits : Nat := 2047 * 2 ^ 52

/-- A finite number without a sign as a multiple of the least positive one, `2 ^ -1074`, read off
its bits. -/
def units (bits : Nat) : Nat :=
  (if bits < 2 ^ 52 then bits else 2 ^ 52 + bits % 2 ^ 52) * 2 ^ (bits / 2 ^ 52 - 1)

/-- The number one in units. -/
def unity : Nat := 2 ^ 1074

theorem unity_pos : 0 < unity := by
  unfold unity
  positivity

/-- How many binary places are cut off a quotient of units so that 53 of them remain. -/
def grain (num den : Nat) : Nat := (num / den).log2 - 52

/-- The bits of the number nearest to `num / den` units; from the largest finite number on, of
infinity. -/
def nearest (num den : Nat) : Nat :=
  min (grain num den * 2 ^ 52 + roundHalfEven num (den * 2 ^ grain num den)) infinityBits

theorem log2_mono {a b : Nat} (h : a ≤ b) : a.log2 ≤ b.log2 := by
  rcases Nat.eq_zero_or_pos a with rfl | ha
  · exact Nat.zero_le _
  · exact (Nat.le_log2 (by omega)).2 ((Nat.log2_self_le (by omega)).trans h)

/-- At its grain, a quotient has 53 binary places at most. -/
theorem div_grain_lt (num den : Nat) :
    num / (den * 2 ^ grain num den) < 2 ^ 53 := by
  rw [← Nat.div_div_eq_div_mul, Nat.div_lt_iff_lt_mul (Nat.two_pow_pos _), ← Nat.pow_add]
  refine Nat.lt_of_lt_of_le Nat.lt_log2_self (Nat.pow_le_pow_right (by decide) ?_)
  unfold grain
  omega

/-- And if some were cut off, exactly 53. -/
theorem le_div_grain {num den : Nat} (h : 0 < grain num den) :
    2 ^ 52 ≤ num / (den * 2 ^ grain num den) := by
  have hlog : 52 + grain num den = (num / den).log2 := by unfold grain at *; omega
  have hq : num / den ≠ 0 := fun h0 => by
    rw [h0] at hlog
    simp at hlog
  rw [← Nat.div_div_eq_div_mul, Nat.le_div_iff_mul_le (Nat.two_pow_pos _), ← Nat.pow_add, hlog]
  exact Nat.log2_self_le hq

theorem round_grain_le (num den : Nat) :
    roundHalfEven num (den * 2 ^ grain num den) ≤ 2 ^ 53 := by
  have := div_grain_lt num den
  have := @roundHalfEven_bounds num (den * 2 ^ grain num den)
  omega

/-- Rounding to the nearest number keeps the order. -/
theorem nearest_mono {num den num' den' : Nat} (hd : 0 < den) (hd' : 0 < den')
    (h : num * den' ≤ num' * den) : nearest num den ≤ nearest num' den' := by
  have hgrain : grain num den ≤ grain num' den' := by
    have := log2_mono (div_le_div_of_mul_le hd hd' h)
    unfold grain
    omega
  refine min_le_min_right _ ?_
  rcases hgrain.eq_or_lt with heq | hlt
  · rw [heq]
    refine Nat.add_le_add_left (roundHalfEven_mono ?_ ?_ ?_) _
    · exact Nat.mul_pos hd (Nat.two_pow_pos _)
    · exact Nat.mul_pos hd' (Nat.two_pow_pos _)
    · calc num * (den' * 2 ^ grain num' den') = num * den' * 2 ^ grain num' den' := by ring
        _ ≤ num' * den * 2 ^ grain num' den' := Nat.mul_le_mul_right _ h
        _ = num' * (den * 2 ^ grain num' den') := by ring
  · -- a coarser grain: all below it ends where the numbers of this grain begin
    have hround := round_grain_le num den
    have hround' : 2 ^ 52 ≤ roundHalfEven num' (den' * 2 ^ grain num' den') :=
      (le_div_grain (Nat.zero_lt_of_lt hlt)).trans roundHalfEven_bounds.1
    have hstep := Nat.mul_le_mul_right (2 ^ 52) (Nat.succ_le_of_lt hlt)
    omega

theorem units_eq_of_lt {bits : Nat} (h : bits < 2 ^ 52) : units bits = bits := by
  unfold units
  rw [if_pos h, Nat.div_eq_of_lt h]
  simp

theorem units_eq_of_le {bits : Nat} (h : 2 ^ 52 ≤ bits) :
    units bits = (2 ^ 52 + bits % 2 ^ 52) * 2 ^ (bits / 2 ^ 52 - 1) := by
  unfold units
  rw [if_neg (Nat.not_lt.2 h)]

/-- A number is the nearest one to itself. -/
theorem nearest_units {bits : Nat} (h : bits ≤ infinityBits) : nearest (units bits) 1 = bits := by
  have hgrain : grain (units bits) 1 = bits / 2 ^ 52 - 1 := by
    unfold grain
    rw [Nat.div_one]
    rcases Nat.lt_or_ge bits (2 ^ 52) with hlt | hge
    · rw [units_eq_of_lt hlt, Nat.div_eq_of_lt hlt]
      have := log2_mono (Nat.le_pred_of_lt hlt)
      have hlog : (Nat.pred (2 ^ 52)).log2 = 51 := by decide
      omega
    · rw [units_eq_of_le hge]
      have hlog : ((2 ^ 52 + bits % 2 ^ 52) * 2 ^ (bits / 2 ^ 52 - 1)).log2 =
          52 + (bits / 2 ^ 52 - 1) := by
        have hmod := Nat.mod_lt bits (Nat.two_pow_pos 52)
        rw [Nat.log2_eq_iff (Nat.ne_of_gt (Nat.mul_pos (by omega) (Nat.two_pow_pos _)))]
        constructor
        · rw [Nat.pow_add]
          exact Nat.mul_le_mul_right _ (by omega)
        · rw [show 52 + (bits / 2 ^ 52 - 1) + 1 = 53 + (bits / 2 ^ 52 - 1) by omega, Nat.pow_add]
          exact Nat.mul_lt_mul_of_pos_right (by omega) (Nat.two_pow_pos _)
      omega
  unfold nearest
  rw [hgrain, Nat.one_mul]
  unfold units
  rw [roundHalfEven_mul_self _ (Nat.two_pow_pos _)]
  refine (min_eq_left ?_).trans ?_
  · split <;> omega
  · split <;> omega

theorem nearest_congr {num den num' den' : Nat} (hd : 0 < den) (hd' : 0 < den')
    (h : num * den' = num' * den) : nearest num den = nearest num' den' :=
  Nat.le_antisymm (nearest_mono hd hd' h.le) (nearest_mono hd' hd h.ge)

theorem units_zero : units 0 = 0 := units_eq_of_lt (Nat.two_pow_pos 52)

theorem nearest_zero {den : Nat} (hd : 0 < den) : nearest 0 den = 0 := by
  have h : nearest 0 den = nearest (units 0) 1 := by
    rw [units_zero]
    exact nearest_congr hd Nat.one_pos (by rw [Nat.zero_mul, Nat.zero_mul])
  rw [h, nearest_units (Nat.zero_le _)]

theorem units_le_iff {a b : Nat} (ha : a ≤ infinityBits) (hb : b ≤ infinityBits) :
    units a ≤ units b ↔ a ≤ b := by
  have mono : ∀ {c d : Nat}, c ≤ infinityBits → d ≤ infinityBits → units c ≤ units d → c ≤ d :=
    fun hc hd h => by
      have := nearest_mono Nat.one_pos Nat.one_pos (Nat.mul_le_mul_right 1 h)
      rwa [nearest_units hc, nearest_units hd] at this
  refine ⟨mono ha hb, fun h => ?_⟩
  rcases Nat.le_total (units a) (units b) with hle | hle
  · exact hle
  · rw [Nat.le_antisymm h (mono hb ha hle)]

end Binary64

end GroundControl
