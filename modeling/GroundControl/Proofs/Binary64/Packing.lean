import GroundControl.Proofs.Binary64.Rounding

/-!
# The arithmetic of packed numbers

What the operations on numbers of 64 bits do, as statements on their bits.  The arithmetic computes
with mantissas that carry two more bits for what was cut off; here each such mantissa stands for a
quotient, and the result of an operation has the bits of the number nearest to it.

* `Binary64.Holds`, the quotient that a mantissa with its two bits stands for;
* `toNat_pack_nearest`, the bits of a rounded quotient; `unpack_finite`, a number by its bits;
* `compare_unpack`, the order; `toNat_pack_div`, `toNat_pack_sub`, `toNat_pack_normalize`.
-/

namespace GroundControl

namespace Binary64

open Float.Model Float.Model.UnpackedFloat

/-! ### Rounding as the arithmetic does it -/

/-- An extended mantissa that stands for a quotient: its whole part, whether the rest reaches a
half, and whether anything is left beyond that. -/
def Holds (em : ExtendedMantissa) (num den : Nat) : Prop :=
  em.mantissa = num / den ∧ em.roundBit = decide (den ≤ 2 * (num % den)) ∧
    em.stickyBit = decide (2 * (num % den) ≠ 0 ∧ 2 * (num % den) ≠ den)

theorem Holds.shiftRightOne {em : ExtendedMantissa} {num den : Nat} (hd : 0 < den)
    (h : Holds em num den) : Holds em.shiftRightOne num (den * 2) := by
  obtain ⟨hm, hr, hs⟩ := h
  have hdiv : num / (den * 2) = num / den / 2 := (Nat.div_div_eq_div_mul ..).symm
  have hmod : num % (den * 2) = num % den + den * (num / den % 2) := Nat.mod_mul
  have hlt := Nat.mod_lt num hd
  refine ⟨?_, ?_, ?_⟩
  · rw [hdiv, ← hm]
    rfl
  · show (em.mantissa % 2 != 0) = _
    rw [hm, hmod]
    rcases Nat.mod_two_eq_zero_or_one (num / den) with h2 | h2 <;> rw [h2] <;> simp <;> omega
  · show (em.roundBit || em.stickyBit) = _
    rw [hr, hs, hmod]
    rcases Nat.mod_two_eq_zero_or_one (num / den) with h2 | h2 <;> rw [h2] <;>
      rw [Bool.eq_iff_iff] <;> simp <;> omega

theorem Holds.shiftRight {em : ExtendedMantissa} {num den : Nat} (hd : 0 < den)
    (h : Holds em num den) (k : Nat) : Holds (em >>> k) num (den * 2 ^ k) := by
  induction k with
  | zero => simpa [HShiftRight.hShiftRight, Nat.repeat] using h
  | succ k ih =>
    rw [Nat.pow_succ, ← Nat.mul_assoc]
    exact ih.shiftRightOne (Nat.mul_pos hd (Nat.two_pow_pos k))

theorem Holds.roundedMantissa {em : ExtendedMantissa} {num den : Nat} (hd : 0 < den)
    (h : Holds em num den) : em.roundedMantissa = roundHalfEven num den := by
  obtain ⟨m, r, s⟩ := em
  obtain ⟨hm, hr, hs⟩ := h
  have hlt := Nat.mod_lt num hd
  simp only at hm hr hs
  subst hm hr hs
  unfold ExtendedMantissa.roundedMantissa roundHalfEven
  dsimp only
  by_cases hhalf : den ≤ 2 * (num % den)
  · by_cases heq : 2 * (num % den) = den
    · simp [ExtendedMantissa.accuracy, Accuracy.roundToNearestEven, heq]
    · have hne : ¬ num % den = 0 := by omega
      have hlt' : den < 2 * (num % den) := by omega
      simp [ExtendedMantissa.accuracy, Accuracy.roundToNearestEven, hhalf, heq, hne, hlt',
        Nat.not_lt.2 hhalf]
  · by_cases hz : num % den = 0
    · simp [ExtendedMantissa.accuracy, Accuracy.roundToNearestEven, hz, hd, Nat.not_le.2 hd]
    · have hne : ¬ 2 * (num % den) = den := by omega
      simp [ExtendedMantissa.accuracy, Accuracy.roundToNearestEven, hhalf, hz, hne,
        Nat.not_le.1 hhalf]

theorem holds_ofFraction (num : Nat) {den : Nat} (hd : 0 < den) :
    Holds (.ofMantissaAndAccuracy (num / den) (accuracyOfFraction (num % den) den)) num den := by
  have hlt := Nat.mod_lt num hd
  unfold accuracyOfFraction
  split
  · rename_i hz
    refine ⟨rfl, ?_, ?_⟩
    · simp [ExtendedMantissa.ofMantissaAndAccuracy, hz, hd.ne']
    · simp [ExtendedMantissa.ofMantissaAndAccuracy, hz]
  · rename_i hz
    rcases Nat.lt_trichotomy (2 * (num % den)) den with hc | hc | hc
    · rw [Nat.compare_eq_lt.2 hc]
      refine ⟨rfl, ?_, ?_⟩ <;> simp [ExtendedMantissa.ofMantissaAndAccuracy] <;> omega
    · rw [Nat.compare_eq_eq.2 hc]
      refine ⟨rfl, ?_, ?_⟩ <;> simp [ExtendedMantissa.ofMantissaAndAccuracy] <;> omega
    · rw [Nat.compare_eq_gt.2 hc]
      refine ⟨rfl, ?_, ?_⟩ <;> simp [ExtendedMantissa.ofMantissaAndAccuracy] <;> omega

theorem holds_exact (m : Nat) : Holds (.ofMantissaAndAccuracy m .exact) m 1 := by
  refine ⟨?_, ?_, ?_⟩ <;> simp [ExtendedMantissa.ofMantissaAndAccuracy, Nat.mod_one]

/-! ### From a rounded mantissa to bits -/

theorem toNat_packComponents (e : BitVec 11) (m : BitVec 52) :
    (packComponents .binary64 .positive e m).toNat = e.toNat * 2 ^ 52 + m.toNat := by
  show (0#1 ++ e ++ m).toNat = _
  rw [BitVec.toNat_append, BitVec.toNat_append, ← Nat.shiftLeft_add_eq_or_of_lt m.isLt,
    ← Nat.shiftLeft_add_eq_or_of_lt e.isLt]
  simp [Nat.shiftLeft_eq]

theorem toNat_pack_infinity : (pack .binary64 (.infinity .positive)).toNat = infinityBits := by
  decide

theorem toNat_pack_zero : (pack .binary64 (.zero .positive)).toNat = 0 := by
  decide

/-- A rounded mantissa and its exponent are of a normal or of a subnormal number. -/
structure Canonical (m : Nat) (e : Int) : Prop where
  lt : m < 2 ^ 53
  exponent : -1074 ≤ e
  normal : 2 ^ 52 ≤ m ∨ e = -1074

theorem log2_eq_of_normal {m : Nat} (h : 2 ^ 52 ≤ m) (hm : m < 2 ^ 53) : m.log2 = 52 :=
  (Nat.log2_eq_iff (by omega)).2 ⟨h, hm⟩

theorem toNat_pack_finite {m : Nat} {e : Int} (hpos : 0 < m) (h : Canonical m e) :
    (pack .binary64 (.finite .positive m e hpos)).toNat =
      min ((e + 1074).toNat * 2 ^ 52 + m) infinityBits := by
  obtain ⟨hlt, he, hn⟩ := h
  have hbias : (e + (Format.binary64.exponentBias : Nat) +
      (Format.binary64.mantissaBitsWithoutImplicit : Nat)).toNat = (e + 1074).toNat + 1 := by
    show (e + (1023 : Nat) + (52 : Nat)).toNat = _
    omega
  unfold UnpackedFloat.pack
  dsimp only
  rw [hbias]
  split
  · rename_i hbig
    have hbig : 2 ^ 11 ≤ (e + 1074).toNat + 1 + 1 := hbig
    refine toNat_pack_infinity.trans (min_eq_right ?_).symm
    show 2047 * 2 ^ 52 ≤ _
    omega
  · rename_i hsmall
    have hsmall : ¬ 2 ^ 11 ≤ (e + 1074).toNat + 1 + 1 := hsmall
    split
    · rename_i hlog
      have hlog : m.log2 + 1 = 53 := hlog
      have hm : 2 ^ 52 ≤ m := by
        have := Nat.log2_self_le (Nat.ne_of_gt hpos)
        rwa [show m.log2 = 52 by omega] at this
      rw [toNat_packComponents, BitVec.toNat_ofNat, BitVec.toNat_ofNat]
      show _ = min _ (2047 * 2 ^ 52)
      omega
    · rename_i hlog
      have hlog : ¬ m.log2 + 1 = 53 := hlog
      have hm : m < 2 ^ 52 := by
        by_contra hge
        exact hlog (by rw [log2_eq_of_normal (Nat.not_lt.1 hge) hlt])
      rw [toNat_packComponents, BitVec.toNat_ofNat, BitVec.toNat_ofNat]
      show _ = min _ (2047 * 2 ^ 52)
      omega

/-- The shift after rounding: a mantissa that has grown to 54 places loses the last of them. -/
theorem shiftToTarget_of_lt {m : Nat} {e : Int} (hm : m < 2 ^ 53) (he : -1074 ≤ e) :
    shiftToTargetExponent .binary64 m e .exact = (⟨m, false, false⟩, e) := by
  have hlog : m.log2 ≤ 52 := by
    have := log2_mono (Nat.le_pred_of_lt hm)
    have hmax : (Nat.pred (2 ^ 53)).log2 = 52 := by decide
    omega
  have hk : (Format.binary64.targetExponent (totalExponent m e) - e).toNat = 0 := by
    show (max ((m.log2 : Int) + 1 + e - (53 : Nat)) (3 - 2 ^ 10 - (53 : Nat)) - e).toNat = 0
    omega
  unfold shiftToTargetExponent shiftToExponent
  dsimp only
  rw [hk]
  simp [HShiftRight.hShiftRight, Nat.repeat, ExtendedMantissa.ofMantissaAndAccuracy]

theorem shiftToTarget_of_eq {e : Int} (he : -1074 ≤ e) :
    shiftToTargetExponent .binary64 (2 ^ 53) e .exact = (⟨2 ^ 52, false, false⟩, e + 1) := by
  have hk : (Format.binary64.targetExponent (totalExponent (2 ^ 53) e) - e).toNat = 1 := by
    show (max (((2 ^ 53 : Nat).log2 : Int) + 1 + e - (53 : Nat)) (3 - 2 ^ 10 - (53 : Nat)) -
      e).toNat = 1
    rw [Nat.log2_two_pow]
    omega
  unfold shiftToTargetExponent shiftToExponent
  dsimp only
  rw [hk]
  simp [HShiftRight.hShiftRight, Nat.repeat, ExtendedMantissa.ofMantissaAndAccuracy,
    ExtendedMantissa.shiftRightOne]

/-- The bits of a number that has been rounded to `r` times `2 ^ t`. -/
theorem toNat_pack_round {m : Nat} {e t : Int} {acc : Accuracy} {r : Nat}
    (ht : (shiftToTargetExponent .binary64 m e acc).2 = t)
    (hr : (shiftToTargetExponent .binary64 m e acc).1.roundedMantissa = r)
    (hle : r ≤ 2 ^ 53) (hexp : -1074 ≤ t) (hn : 2 ^ 52 ≤ r ∨ t = -1074) :
    (pack .binary64 (roundWithAccuracy .binary64 .positive m e acc)).toNat =
      min ((t + 1074).toNat * 2 ^ 52 + r) infinityBits := by
  unfold roundWithAccuracy
  dsimp only
  rw [hr, ht]
  rcases hle.lt_or_eq with hlt | rfl
  · rw [shiftToTarget_of_lt hlt hexp]
    dsimp only
    rcases Nat.eq_zero_or_pos r with rfl | h0
    · have hz : t = -1074 := hn.resolve_left (by omega)
      subst hz
      rw [dif_pos rfl]
      exact toNat_pack_zero.trans (by decide)
    · rw [dif_neg h0.ne']
      exact toNat_pack_finite _ ⟨hlt, hexp, hn⟩
  · rw [shiftToTarget_of_eq hexp]
    dsimp only
    rw [dif_neg (Nat.ne_of_gt (Nat.two_pow_pos 52)),
      toNat_pack_finite _ ⟨Nat.pow_lt_pow_right (by decide) (by decide), by omega,
        .inl (Nat.le_refl _)⟩]
    have hnext : (t + 1 + 1074).toNat = (t + 1074).toNat + 1 := by omega
    rw [hnext, Nat.succ_mul, Nat.add_assoc, ← Nat.two_mul, ← Nat.pow_succ']

/-! ### From a quotient to bits -/

/-- The places that are cut off, computed from the whole part of the quotient. -/
theorem grain_eq {num den a b : Nat} {e : Int} (hd : 0 < den) (he : e + 1074 = b - a)
    (hlow : 52 ≤ (num / den).log2 ∨ e ≤ -1074) :
    (grain (num * 2 ^ b) (den * 2 ^ a) : Int) = max ((num / den).log2 + e - 52 + 1074) 0 := by
  have hda : 0 < den * 2 ^ a := Nat.mul_pos hd (Nat.two_pow_pos a)
  have hsmall : num * 2 ^ b < den * 2 ^ a → grain (num * 2 ^ b) (den * 2 ^ a) = 0 := fun h => by
    unfold grain
    rw [Nat.div_eq_of_lt h]
    simp
  have hlt : num < 2 ^ ((num / den).log2 + 1) * den :=
    (Nat.div_lt_iff_lt_mul hd).1 Nat.lt_log2_self
  rcases Nat.lt_or_ge ((num / den).log2 + b) a with hba | hba
  · -- less than a unit, so no place is cut off
    have hq : num * 2 ^ b < den * 2 ^ a := by
      calc num * 2 ^ b < 2 ^ ((num / den).log2 + 1) * den * 2 ^ b :=
            Nat.mul_lt_mul_of_pos_right hlt (Nat.two_pow_pos b)
        _ = den * 2 ^ ((num / den).log2 + 1 + b) := by rw [Nat.pow_add]; ring
        _ ≤ den * 2 ^ a := Nat.mul_le_mul_left _ (Nat.pow_le_pow_right (by decide) (by omega))
    rw [hsmall hq]
    omega
  · rcases Nat.eq_zero_or_pos (num / den) with hz | hpos
    · have hnum : num < den := (Nat.div_eq_zero_iff_lt hd).1 hz
      rw [hz] at hlow hba ⊢
      have hlog0 : (0 : Nat).log2 = 0 := by decide
      rw [hlog0] at hlow hba ⊢
      obtain rfl : b = a := by omega
      rw [hsmall (Nat.mul_lt_mul_of_pos_right hnum (Nat.two_pow_pos b))]
      omega
    · have hge : 2 ^ (num / den).log2 * den ≤ num :=
        (Nat.le_div_iff_mul_le hd).1 (Nat.log2_self_le (Nat.ne_of_gt hpos))
      have hlog : (num * 2 ^ b / (den * 2 ^ a)).log2 = (num / den).log2 + b - a := by
        have hle : 2 ^ ((num / den).log2 + b - a) ≤ num * 2 ^ b / (den * 2 ^ a) := by
          rw [Nat.le_div_iff_mul_le hda]
          calc 2 ^ ((num / den).log2 + b - a) * (den * 2 ^ a)
              = 2 ^ ((num / den).log2 + b - a + a) * den := by rw [Nat.pow_add]; ring
            _ = 2 ^ (num / den).log2 * den * 2 ^ b := by
                rw [Nat.sub_add_cancel hba, Nat.pow_add]; ring
            _ ≤ num * 2 ^ b := Nat.mul_le_mul_right _ hge
        have hlt' : num * 2 ^ b / (den * 2 ^ a) < 2 ^ ((num / den).log2 + b - a + 1) := by
          rw [Nat.div_lt_iff_lt_mul hda]
          calc num * 2 ^ b < 2 ^ ((num / den).log2 + 1) * den * 2 ^ b :=
                Nat.mul_lt_mul_of_pos_right hlt (Nat.two_pow_pos b)
            _ = 2 ^ ((num / den).log2 + b - a + a) * 2 * den := by
                rw [Nat.sub_add_cancel hba, Nat.pow_add, Nat.pow_succ]; ring
            _ = 2 ^ ((num / den).log2 + b - a + 1) * (den * 2 ^ a) := by
                rw [Nat.pow_add, Nat.pow_succ]; ring
        rw [Nat.log2_eq_iff (Nat.ne_of_gt (Nat.lt_of_lt_of_le (Nat.two_pow_pos _) hle))]
        exact ⟨hle, hlt'⟩
      unfold grain
      rw [hlog]
      omega

/-- Rounding, of whatever the extended mantissa stands for, goes to the nearest number. -/
theorem toNat_pack_nearest {m num den a b : Nat} {e : Int} {acc : Accuracy} (hd : 0 < den)
    (hh : Holds (.ofMantissaAndAccuracy m acc) num den) (he : e + 1074 = b - a)
    (hlow : 52 ≤ m.log2 ∨ e ≤ -1074) :
    (pack .binary64 (roundWithAccuracy .binary64 .positive m e acc)).toNat =
      nearest (num * 2 ^ b) (den * 2 ^ a) := by
  have hm : m = num / den := by
    have := hh.1
    cases acc with
    | exact => exact this
    | inexact o => cases o <;> exact this
  subst hm
  have hda : 0 < den * 2 ^ a := Nat.mul_pos hd (Nat.two_pow_pos a)
  have hg := grain_eq hd he hlow
  have htarget : Format.binary64.targetExponent (totalExponent (num / den) e) =
      grain (num * 2 ^ b) (den * 2 ^ a) - 1074 := by
    show max (((num / den).log2 : Int) + 1 + e - (53 : Nat)) (3 - 2 ^ 10 - (53 : Nat)) = _
    omega
  generalize hT : grain (num * 2 ^ b) (den * 2 ^ a) = T at *
  have hk : (((T - 1074 - e).toNat : Nat) : Int) = T - 1074 - e := Int.toNat_of_nonneg (by omega)
  have hround : (shiftToTargetExponent .binary64 (num / den) e acc).1.roundedMantissa =
      roundHalfEven (num * 2 ^ b) (den * 2 ^ a * 2 ^ T) := by
    unfold shiftToTargetExponent shiftToExponent
    rw [htarget]
    dsimp only
    rw [(hh.shiftRight hd _).roundedMantissa (Nat.mul_pos hd (Nat.two_pow_pos _)),
      ← roundHalfEven_mul (Nat.two_pow_pos b) _ (Nat.mul_pos hd (Nat.two_pow_pos _)),
      Nat.mul_assoc, ← Nat.pow_add, Nat.mul_assoc, ← Nat.pow_add]
    congr 3
    omega
  have hexp : (shiftToTargetExponent .binary64 (num / den) e acc).2 = T - 1074 := by
    show e + ((Format.binary64.targetExponent (totalExponent (num / den) e) - e).toNat : Nat) = _
    rw [htarget]
    omega
  rw [toNat_pack_round hexp hround (hT ▸ round_grain_le ..) (by omega)]
  · unfold nearest
    rw [hT]
    congr 3
    omega
  · rcases Nat.eq_zero_or_pos T with h0 | h0
    · exact .inr (by omega)
    · refine .inl (Nat.le_trans ?_ roundHalfEven_bounds.1)
      subst hT
      exact le_div_grain h0

/-! ### From bits to a number -/

theorem toNat_unpackMantissa (v : BitVec 64) :
    (@unpackMantissa .binary64 v).toNat = v.toNat % 2 ^ 52 := by
  show (BitVec.cast _ (v.extractLsb 51 0)).toNat = _
  simp

theorem toNat_unpackExponent (v : BitVec 64) :
    (@unpackExponent .binary64 v).toNat = v.toNat / 2 ^ 52 % 2 ^ 11 := by
  show (BitVec.cast _ (v.extractLsb 62 52)).toNat = _
  simp [Nat.shiftRight_eq_div_pow]

theorem toNat_unpackSign (v : BitVec 64) :
    (@unpackSign .binary64 v).toNat = v.toNat / 2 ^ 63 % 2 := by
  show (BitVec.cast _ (v.extractLsb 63 63)).toNat = _
  simp [Nat.shiftRight_eq_div_pow]

theorem unpackSign_of_le {v : BitVec 64} (h : v.toNat ≤ infinityBits) :
    Sign.ofBitVec (@unpackSign .binary64 v) = .positive := by
  have h0 : @unpackSign .binary64 v = 0#1 := by
    apply BitVec.eq_of_toNat_eq
    rw [toNat_unpackSign]
    unfold infinityBits at h
    show _ = 0
    omega
  rw [h0]
  rfl

theorem unpack_zero {v : BitVec 64} (h : v.toNat = 0) : unpack .binary64 v = .zero .positive := by
  have : v = 0#64 := BitVec.eq_of_toNat_eq h
  subst this
  rfl

theorem unpack_infinity {v : BitVec 64} (h : v.toNat = infinityBits) :
    unpack .binary64 v = .infinity .positive := by
  have : v = BitVec.ofNat 64 infinityBits := BitVec.eq_of_toNat_eq h
  subst this
  rfl

/-- A positive finite number by its bits. -/
theorem unpack_finite {v : BitVec 64} (hpos : 0 < v.toNat) (h : v.toNat < infinityBits) :
    ∃ (m : Nat) (e : Int) (hm : 0 < m), unpack .binary64 v = .finite .positive m e hm ∧
      Canonical m e ∧ (e + 1074).toNat * 2 ^ 52 + m = v.toNat ∧
      units v.toNat = m * 2 ^ (e + 1074).toNat := by
  have hsign := unpackSign_of_le (Nat.le_of_lt h)
  have hm := toNat_unpackMantissa v
  have he := toNat_unpackExponent v
  unfold infinityBits at h
  have hinf : @unpackExponent .binary64 v ≠ -1#11 := fun heq => by
    rw [heq] at he
    have hone : (-1#11).toNat = 2047 := by decide
    omega
  unfold UnpackedFloat.unpack
  dsimp only
  rw [if_neg hinf, hsign]
  rcases Nat.lt_or_ge v.toNat (2 ^ 52) with hlt | hge
  · have he0 : @unpackExponent .binary64 v = 0#11 := by
      apply BitVec.eq_of_toNat_eq
      show _ = 0
      omega
    have hm0 : @unpackMantissa .binary64 v ≠ 0#52 := fun heq => by
      rw [heq] at hm
      have : (0#52).toNat = 0 := rfl
      omega
    refine ⟨v.toNat, -1074, hpos, ?_, ⟨by omega, Int.le_refl _, .inr rfl⟩, by omega, ?_⟩
    · rw [if_pos he0, dif_neg hm0]
      rw [UnpackedFloat.finite.injEq]
      refine ⟨rfl, by omega, ?_⟩
      rw [he0]
      decide
    · rw [units_eq_of_lt hlt]
      exact (Nat.mul_one _).symm
  · have he0 : @unpackExponent .binary64 v ≠ 0#11 := fun heq => by
      rw [heq] at he
      have hzero : (0#11).toNat = 0 := rfl
      omega
    refine ⟨2 ^ 52 + v.toNat % 2 ^ 52, v.toNat / 2 ^ 52 - 1075, by omega, ?_,
      ⟨by omega, by omega, .inl (by omega)⟩, by omega, ?_⟩
    · rw [if_neg he0]
      rw [UnpackedFloat.finite.injEq]
      refine ⟨rfl, ?_, ?_⟩
      · rw [BitVec.toNat_append, ← Nat.shiftLeft_add_eq_or_of_lt
          (@unpackMantissa .binary64 v).isLt, hm]
        rfl
      · rw [he]
        show ((v.toNat / 2 ^ 52 % 2 ^ 11 : Nat) : Int) - ((1023 : Nat) + (52 : Nat)) = _
        omega
    · rw [units_eq_of_le hge]
      congr 2
      omega

/-! ### Operations -/

theorem log2_shiftLeft {m : Nat} (hm : 0 < m) (k : Nat) : (m <<< k).log2 = m.log2 + k := by
  rw [Nat.shiftLeft_eq, Nat.log2_eq_iff (Nat.ne_of_gt (Nat.mul_pos hm (Nat.two_pow_pos k)))]
  constructor
  · rw [Nat.pow_add]
    exact Nat.mul_le_mul_right _ (Nat.log2_self_le (Nat.ne_of_gt hm))
  · rw [Nat.add_right_comm, Nat.pow_add]
    exact Nat.mul_lt_mul_of_pos_right Nat.lt_log2_self (Nat.two_pow_pos k)

theorem toNat_pack_ofRound {m a b : Nat} {e : Int} (hm : 0 < m) (he : e + 1074 = b - a) :
    (pack .binary64 (round .binary64 .positive m e)).toNat = nearest (m * 2 ^ b) (2 ^ a) := by
  obtain ⟨t, ht⟩ : ∃ t, t = max ((m.log2 : Int) + e - 52) (-1074) := ⟨_, rfl⟩
  have htarget : Format.binary64.targetExponent (totalExponent m e) = t := by
    show max ((m.log2 : Int) + 1 + e - (53 : Nat)) (3 - 2 ^ 10 - (53 : Nat)) = _
    omega
  have hlog := log2_shiftLeft hm (e - t).toNat
  unfold UnpackedFloat.round decreaseExponent
  rw [htarget]
  dsimp only
  rw [toNat_pack_nearest Nat.one_pos (holds_exact _)
    (a := (-(e - ((e - t).toNat : Nat) + 1074)).toNat)
    (b := (e - ((e - t).toNat : Nat) + 1074).toNat) (by omega) (by omega), Nat.one_mul]
  refine nearest_congr (Nat.two_pow_pos _) (Nat.two_pow_pos _) ?_
  rw [Nat.shiftLeft_eq, Nat.mul_assoc, Nat.mul_assoc, Nat.mul_assoc, ← Nat.pow_add, ← Nat.pow_add,
    ← Nat.pow_add]
  congr 2
  omega

theorem toNat_pack_normalize {n a b : Nat} {e : Int} (he : e + 1074 = b - a) :
    (pack .binary64 (normalize .binary64 n e .positive)).toNat = nearest (n * 2 ^ b) (2 ^ a) := by
  unfold UnpackedFloat.normalize
  rcases Nat.eq_zero_or_pos n with rfl | hn
  · rw [Nat.zero_mul, nearest_zero (Nat.two_pow_pos a)]
    exact toNat_pack_zero
  · have hgt : compare (n : Int) 0 = .gt := Int.compare_eq_gt.2 (by omega)
    rw [hgt]
    exact toNat_pack_ofRound hn he

/-- Numbers of one format compare by their exponents, and then by their mantissas. -/
theorem compare_canonical {m m' : Nat} {e e' : Int} (h : Canonical m e) (h' : Canonical m' e') :
    (compare e e').then (compare m m') =
      compare ((e + 1074).toNat * 2 ^ 52 + m) ((e' + 1074).toNat * 2 ^ 52 + m') := by
  obtain ⟨h₁, h₂, h₃⟩ := h
  obtain ⟨h₁', h₂', h₃'⟩ := h'
  rcases Int.lt_trichotomy e e' with hlt | rfl | hgt
  · rw [Int.compare_eq_lt.2 hlt, Ordering.lt_then]
    exact (Nat.compare_eq_lt.2 (by omega)).symm
  · rw [Int.compare_eq_eq.2 rfl, Ordering.eq_then]
    rcases Nat.lt_trichotomy m m' with hm | rfl | hm
    · rw [Nat.compare_eq_lt.2 hm]
      exact (Nat.compare_eq_lt.2 (by omega)).symm
    · rw [Nat.compare_eq_eq.2 rfl, Nat.compare_eq_eq.2 rfl]
    · rw [Nat.compare_eq_gt.2 hm]
      exact (Nat.compare_eq_gt.2 (by omega)).symm
  · rw [Int.compare_eq_gt.2 hgt, Ordering.gt_then]
    exact (Nat.compare_eq_gt.2 (by omega)).symm

/-- How two numbers without a sign compare, by their bits. -/
theorem compare_unpack {v w : BitVec 64} (hv : v.toNat ≤ infinityBits)
    (hw : w.toNat ≤ infinityBits) :
    (unpack .binary64 v).compare (unpack .binary64 w) = some (compare v.toNat w.toNat) := by
  rcases Nat.eq_zero_or_pos v.toNat with hv0 | hv0
  · rw [unpack_zero hv0, hv0]
    rcases Nat.eq_zero_or_pos w.toNat with hw0 | hw0
    · rw [unpack_zero hw0, hw0]
      rfl
    · rw [Nat.compare_eq_lt.2 hw0]
      rcases hw.lt_or_eq with hlt | heq
      · obtain ⟨m, e, hm, hu, -⟩ := unpack_finite hw0 hlt
        rw [hu]
        rfl
      · rw [unpack_infinity heq]
        rfl
  · rcases hv.lt_or_eq with hlt | heq
    · obtain ⟨m, e, hm, hu, hc, hbits, -⟩ := unpack_finite hv0 hlt
      rw [hu]
      rcases Nat.eq_zero_or_pos w.toNat with hw0 | hw0
      · rw [unpack_zero hw0, hw0, Nat.compare_eq_gt.2 hv0]
        rfl
      · rcases hw.lt_or_eq with hlt' | heq'
        · obtain ⟨m', e', hm', hu', hc', hbits', -⟩ := unpack_finite hw0 hlt'
          rw [hu', ← hbits, ← hbits']
          exact congrArg some (compare_canonical hc hc')
        · rw [unpack_infinity heq', Nat.compare_eq_lt.2 (heq' ▸ hlt)]
          rfl
    · rw [unpack_infinity heq]
      rcases hw.lt_or_eq with hlt' | heq'
      · rw [Nat.compare_eq_gt.2 (heq ▸ hlt')]
        rcases Nat.eq_zero_or_pos w.toNat with hw0 | hw0
        · rw [unpack_zero hw0]
          rfl
        · obtain ⟨m', e', hm', hu', -⟩ := unpack_finite hw0 hlt'
          rw [hu']
          rfl
      · rw [unpack_infinity heq', Nat.compare_eq_eq.2 (heq.trans heq'.symm)]
        rfl

/-- The quotient of two finite numbers without a sign. -/
theorem toNat_pack_div {m₁ m₂ : Nat} {e₁ e₂ : Int} (h₁ : 0 < m₁) (h₂ : 0 < m₂)
    (he₁ : -1074 ≤ e₁) (he₂ : -1074 ≤ e₂) :
    (pack .binary64
      (div .binary64 (.finite .positive m₁ e₁ h₁) (.finite .positive m₂ e₂ h₂))).toNat =
      nearest (m₁ * 2 ^ (e₁ + 1074).toNat * unity) (m₂ * 2 ^ (e₂ + 1074).toNat) := by
  obtain ⟨t, ht⟩ : ∃ t : Int, t = min (e₁ - e₂)
      (max ((m₁.log2 : Int) + e₁ - m₂.log2 - e₂ - 53) (-1074)) := ⟨_, rfl⟩
  have htarget : min (e₁ - e₂)
      (Format.binary64.targetExponent (totalExponent m₁ e₁ - totalExponent m₂ e₂)) = t := by
    show min _ (max ((m₁.log2 : Int) + 1 + e₁ - (m₂.log2 + 1 + e₂) - (53 : Nat))
      (3 - 2 ^ 10 - (53 : Nat))) = _
    omega
  have hlow : 52 ≤ (m₁ <<< (e₁ - e₂ - t).toNat / m₂).log2 ∨ t ≤ -1074 := by
    rcases lt_or_ge (-1074) t with hgt | hle
    · left
      have hlog := log2_shiftLeft h₁ (e₁ - e₂ - t).toNat
      have hge : 2 ^ 52 ≤ m₁ <<< (e₁ - e₂ - t).toNat / m₂ := by
        rw [Nat.le_div_iff_mul_le h₂]
        calc 2 ^ 52 * m₂ ≤ 2 ^ 52 * 2 ^ (m₂.log2 + 1) :=
              Nat.mul_le_mul_left _ (Nat.le_of_lt Nat.lt_log2_self)
          _ = 2 ^ (52 + (m₂.log2 + 1)) := (Nat.pow_add ..).symm
          _ ≤ 2 ^ (m₁ <<< (e₁ - e₂ - t).toNat).log2 :=
              Nat.pow_le_pow_right (by decide) (by omega)
          _ ≤ m₁ <<< (e₁ - e₂ - t).toNat := Nat.log2_self_le (by
              rw [Nat.shiftLeft_eq]
              exact Nat.ne_of_gt (Nat.mul_pos h₁ (Nat.two_pow_pos _)))
      exact (Nat.le_log2 (by omega)).2 hge
    · exact .inr hle
  show (pack .binary64 (roundWithAccuracy .binary64 .positive _ _ _)).toNat = _
  rw [htarget, toNat_pack_nearest h₂ (holds_ofFraction _ h₂) (a := (-(t + 1074)).toNat)
    (b := (t + 1074).toNat) (by omega) hlow]
  refine nearest_congr (Nat.mul_pos h₂ (Nat.two_pow_pos _))
    (Nat.mul_pos h₂ (Nat.two_pow_pos _)) ?_
  have hpow : 2 ^ (e₁ - e₂ - t).toNat * 2 ^ (t + 1074).toNat * 2 ^ (e₂ + 1074).toNat =
      2 ^ (e₁ + 1074).toNat * unity * 2 ^ (-(t + 1074)).toNat := by
    unfold unity
    rw [← Nat.pow_add, ← Nat.pow_add, ← Nat.pow_add, ← Nat.pow_add]
    congr 1
    omega
  rw [Nat.shiftLeft_eq]
  calc _ = m₁ * m₂ * (2 ^ (e₁ - e₂ - t).toNat * 2 ^ (t + 1074).toNat * 2 ^ (e₂ + 1074).toNat) := by
        ring
    _ = _ := by rw [hpow]; ring

/-- A number of units with a smaller exponent. -/
theorem shift_units {m : Nat} {e f : Int} (h : e ≤ f) (he : -1074 ≤ e) :
    m * 2 ^ (f + 1074).toNat = m <<< (f - e).toNat * 2 ^ (e + 1074).toNat := by
  rw [Nat.shiftLeft_eq, Nat.mul_assoc, ← Nat.pow_add]
  congr 2
  omega

/-- The difference of two finite numbers without a sign, the larger one first. -/
theorem toNat_pack_sub {m₁ m₂ : Nat} {e₁ e₂ : Int} (h₁ : 0 < m₁) (h₂ : 0 < m₂)
    (he₁ : -1074 ≤ e₁) (he₂ : -1074 ≤ e₂)
    (hle : m₂ * 2 ^ (e₂ + 1074).toNat ≤ m₁ * 2 ^ (e₁ + 1074).toNat) :
    (pack .binary64
      (sub .binary64 (.finite .positive m₁ e₁ h₁) (.finite .positive m₂ e₂ h₂))).toNat =
      nearest (m₁ * 2 ^ (e₁ + 1074).toNat - m₂ * 2 ^ (e₂ + 1074).toNat) 1 := by
  obtain ⟨e, he⟩ : ∃ e, e = min e₁ e₂ := ⟨_, rfl⟩
  rw [shift_units (m := m₁) (f := e₁) (e := e) (by omega) (by omega),
    shift_units (m := m₂) (f := e₂) (e := e) (by omega) (by omega)] at hle ⊢
  have hm := Nat.le_of_mul_le_mul_right hle (Nat.two_pow_pos _)
  have hsub : ((m₁ <<< (e₁ - e).toNat : Nat) : Int) - (m₂ <<< (e₂ - e).toNat : Nat) =
      ((m₁ <<< (e₁ - e).toNat - m₂ <<< (e₂ - e).toNat : Nat) : Int) := by omega
  show (pack .binary64 (normalize .binary64 (((m₁ <<< (e₁ - min e₁ e₂).toNat : Nat) : Int) -
    (m₂ <<< (e₂ - min e₁ e₂).toNat : Nat)) (min e₁ e₂) .positive)).toNat = _
  rw [← he, hsub, toNat_pack_normalize (a := 0) (b := (e + 1074).toNat) (by omega), Nat.sub_mul]
  rfl

end Binary64

end GroundControl
