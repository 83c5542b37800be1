import GroundControl.Proofs.Binary64.Packing

/-!
# Numbers without a sign

The numbers that occur as amounts are not negative, and unless an infinity meets a zero they are
defined.  Their bits are in the order of their values, which makes sums and differences, quotients
and the conversion to a span monotone.

* `Binary64.bits`; `Plain` and `Finite`, numbers without a sign; `lt_iff`, `le_iff`;
* `bits_sub_le`, `bits_div_le`, `sub_le_zero`, `not_sub_le_zero`;
* `units_toFloat`: whole numbers are exact;
* `Unsigned`, with `Unsigned.add`, `Unsigned.mul`, `Unsigned.div`;
* `ofSeconds_eq`, `ofSeconds_mono`: a smaller number of seconds is a shorter span.
-/

namespace GroundControl

namespace Binary64

open Float.Model Float.Model.UnpackedFloat

/-! ### Numbers without a sign -/

/-- The bits of a number. -/
def bits (x : Float) : Nat := x.toBits.toNat

/-- A number that is neither negative nor undefined; it may be infinite. -/
def Plain (x : Float) : Prop := bits x ≤ infinityBits

/-- A plain number that is not infinite. -/
def Finite (x : Float) : Prop := bits x < infinityBits

variable {x y : Float}

theorem Finite.plain (h : Finite x) : Plain x := Nat.le_of_lt h

theorem eq_of_bits (h : bits x = bits y) : x = y := by
  obtain ⟨⟨v, hv⟩⟩ := x
  obtain ⟨⟨w, hw⟩⟩ := y
  obtain rfl : v = w := UInt64.toNat.inj h
  rfl

theorem Plain.isNaN_eq_false (hx : Plain x) : x.isNaN = false := by
  show (unpack .binary64 x.toBits.toBitVec).isNaN = false
  rcases Nat.eq_zero_or_pos (bits x) with h0 | h0
  · rw [unpack_zero (v := x.toBits.toBitVec) h0]
    rfl
  · rcases hx.lt_or_eq with hlt | heq
    · obtain ⟨m, e, hm, hu, -⟩ := unpack_finite (v := x.toBits.toBitVec) h0 hlt
      rw [hu]
      rfl
    · rw [unpack_infinity (v := x.toBits.toBitVec) heq]
      rfl

theorem lt_iff (hx : Plain x) (hy : Plain y) : x < y ↔ bits x < bits y := by
  have h : x < y ↔ x.toModel.unpack.lt y.toModel.unpack = true := decide_eq_true_iff
  have hc := compare_unpack (v := x.toBits.toBitVec) (w := y.toBits.toBitVec) hx hy
  rw [h]
  unfold UnpackedFloat.lt
  show (((unpack .binary64 x.toBits.toBitVec).compare (unpack .binary64 y.toBits.toBitVec)) ==
    some Ordering.lt) = true ↔ _
  rw [hc]
  show (some (compare (bits x) (bits y)) == some Ordering.lt) = true ↔ _
  rw [beq_iff_eq, Option.some_inj]
  exact Nat.compare_eq_lt

theorem le_iff (hx : Plain x) (hy : Plain y) : x ≤ y ↔ bits x ≤ bits y := by
  have h : x ≤ y ↔ x.toModel.unpack.le y.toModel.unpack = true := decide_eq_true_iff
  have hc := compare_unpack (v := x.toBits.toBitVec) (w := y.toBits.toBitVec) hx hy
  rw [h]
  unfold UnpackedFloat.le
  show (((unpack .binary64 x.toBits.toBitVec).compare (unpack .binary64 y.toBits.toBitVec)).any
    (·.isLE)) = true ↔ _
  rw [hc]
  show (compare (bits x) (bits y)).isLE = true ↔ _
  exact Nat.isLE_compare

theorem bits_div (hx : Finite x) (hy : Finite y) (hpos : 0 < bits y) :
    bits (x / y) = nearest (units (bits x) * unity) (units (bits y)) := by
  show (pack .binary64 (div .binary64 (unpack .binary64 x.toBits.toBitVec)
    (unpack .binary64 y.toBits.toBitVec))).toNat = _
  obtain ⟨m₂, e₂, h₂, hu₂, hc₂, -, hunits₂⟩ := unpack_finite (v := y.toBits.toBitVec) hpos hy
  rw [hu₂]
  have hunits₂ : units (bits y) = _ := hunits₂
  rcases Nat.eq_zero_or_pos (bits x) with h0 | h0
  · rw [unpack_zero (v := x.toBits.toBitVec) h0, h0, hunits₂, units_zero, Nat.zero_mul,
      nearest_zero (Nat.mul_pos h₂ (Nat.two_pow_pos _))]
    exact toNat_pack_zero
  · obtain ⟨m₁, e₁, h₁, hu₁, hc₁, -, hunits₁⟩ := unpack_finite (v := x.toBits.toBitVec) h0 hx
    have hunits₁ : units (bits x) = _ := hunits₁
    rw [hu₁, hunits₁, hunits₂]
    exact toNat_pack_div h₁ h₂ hc₁.exponent hc₂.exponent

theorem bits_sub (hx : Finite x) (h : bits y ≤ bits x) :
    bits (x - y) = nearest (units (bits x) - units (bits y)) 1 := by
  have hy : Finite y := Nat.lt_of_le_of_lt h hx
  have hle : units (bits y) ≤ units (bits x) := (units_le_iff hy.plain hx.plain).2 h
  show (pack .binary64 (sub .binary64 (unpack .binary64 x.toBits.toBitVec)
    (unpack .binary64 y.toBits.toBitVec))).toNat = _
  rcases Nat.eq_zero_or_pos (bits y) with h0 | hpos
  · rw [unpack_zero (v := y.toBits.toBitVec) h0, h0, units_zero,
      Nat.sub_zero, nearest_units hx.plain]
    rcases Nat.eq_zero_or_pos (bits x) with hx0 | hxpos
    · rw [unpack_zero (v := x.toBits.toBitVec) hx0, hx0]
      exact toNat_pack_zero
    · obtain ⟨m, e, hm, hu, hc, hbits, -⟩ := unpack_finite (v := x.toBits.toBitVec) hxpos hx
      have hbits : _ = bits x := hbits
      rw [hu]
      show (pack .binary64 (.finite .positive m e hm)).toNat = _
      rw [toNat_pack_finite hm hc, hbits]
      exact min_eq_left hx.plain
  · obtain ⟨m₂, e₂, h₂, hu₂, hc₂, -, hunits₂⟩ := unpack_finite (v := y.toBits.toBitVec) hpos hy
    obtain ⟨m₁, e₁, h₁, hu₁, hc₁, -, hunits₁⟩ :=
      unpack_finite (v := x.toBits.toBitVec) (Nat.lt_of_lt_of_le hpos h) hx
    have hunits₁ : units (bits x) = _ := hunits₁
    have hunits₂ : units (bits y) = _ := hunits₂
    rw [hunits₁, hunits₂] at hle ⊢
    rw [hu₁, hu₂]
    exact toNat_pack_sub h₁ h₂ hc₁.exponent hc₂.exponent hle

/-- Taking away a smaller amount leaves an amount that is no larger than before. -/
theorem bits_sub_le (hx : Finite x) (h : bits y ≤ bits x) :
    bits (x - y) ≤ bits x := by
  rw [bits_sub hx h]
  calc nearest (units (bits x) - units (bits y)) 1 ≤ nearest (units (bits x)) 1 :=
        nearest_mono Nat.one_pos Nat.one_pos (Nat.mul_le_mul_right 1 (Nat.sub_le ..))
    _ = bits x := nearest_units hx.plain

/-- A quotient by a positive number grows with the dividend. -/
theorem bits_div_le {z : Float} (hy : Finite y) (h : bits x ≤ bits y) (hz : Finite z)
    (hpos : 0 < bits z) : bits (x / z) ≤ bits (y / z) := by
  have hx : Finite x := Nat.lt_of_le_of_lt h hy
  have hunits : 0 < units (bits z) := by
    have := mt (units_le_iff hz.plain (Nat.zero_le _)).1 (Nat.not_le.2 hpos)
    rw [units_zero] at this
    exact Nat.pos_of_ne_zero fun h0 => this h0.le
  rw [bits_div hx hz hpos, bits_div hy hz hpos]
  refine nearest_mono hunits hunits (Nat.mul_le_mul_right _ (Nat.mul_le_mul_right _ ?_))
  exact (units_le_iff hx.plain hy.plain).2 h

theorem bits_toFloat (n : UInt64) : bits n.toFloat = nearest (n.toNat * unity) 1 :=
  toNat_pack_normalize (a := 0) (b := 1074) (by decide)

/-- The bits of a power of two. -/
theorem units_two_pow {k : Nat} : units ((1023 + k) * 2 ^ 52) = 2 ^ k * unity := by
  unfold unity
  rw [units_eq_of_le (Nat.le_mul_of_pos_left _ (by omega)), Nat.mul_mod_left, Nat.add_zero,
    Nat.mul_div_cancel _ (Nat.two_pow_pos 52), ← Nat.pow_add, ← Nat.pow_add]
  congr 1
  omega

/-- Whole numbers stay below the largest finite number. -/
theorem finite_toFloat (n : UInt64) : Finite n.toFloat := by
  show bits n.toFloat < infinityBits
  have hmax : n.toNat * unity * 1 ≤ units ((1023 + 64) * 2 ^ 52) * 1 := by
    rw [units_two_pow]
    exact Nat.mul_le_mul_right _ (Nat.mul_le_mul_right _ (Nat.le_of_lt n.toNat_lt))
  have hle := nearest_mono Nat.one_pos Nat.one_pos hmax
  rw [nearest_units (by decide), ← bits_toFloat] at hle
  exact Nat.lt_of_le_of_lt hle (by decide)

/-- Whole numbers of 53 binary places are exact. -/
theorem units_toFloat {n : UInt64} (h : n.toNat < 2 ^ 53) :
    units (bits n.toFloat) = n.toNat * unity := by
  rcases Nat.eq_zero_or_pos n.toNat with h0 | hpos
  · rw [bits_toFloat, h0, Nat.zero_mul, nearest_zero Nat.one_pos, units_zero]
  · have hk : n.toNat.log2 ≤ 52 := Nat.le_of_lt_succ ((Nat.log2_lt hpos.ne').2 h)
    generalize hlog : n.toNat.log2 = k at hk
    -- the mantissa has its leading one at the place 52
    have hlow : 2 ^ 52 ≤ n.toNat * 2 ^ (52 - k) := by
      calc 2 ^ 52 = 2 ^ k * 2 ^ (52 - k) := by rw [← Nat.pow_add, Nat.add_sub_cancel' hk]
        _ ≤ n.toNat * 2 ^ (52 - k) :=
          Nat.mul_le_mul_right _ (hlog ▸ Nat.log2_self_le hpos.ne')
    have hhigh : n.toNat * 2 ^ (52 - k) < 2 ^ 53 := by
      calc n.toNat * 2 ^ (52 - k) < 2 ^ (k + 1) * 2 ^ (52 - k) :=
            Nat.mul_lt_mul_of_pos_right (hlog ▸ Nat.lt_log2_self) (Nat.two_pow_pos _)
        _ = 2 ^ 53 := by
          rw [← Nat.pow_add]
          congr 1
          omega
    have hscale : n.toNat * 2 ^ (52 - k) * 2 ^ (1022 + k) = n.toNat * unity := by
      unfold unity
      rw [Nat.mul_assoc, ← Nat.pow_add]
      congr 2
      omega
    generalize hm : n.toNat * 2 ^ (52 - k) = m at hlow hhigh hscale
    have hunits : units ((1022 + k) * 2 ^ 52 + m) = n.toNat * unity := by
      have hdiv : ((1022 + k) * 2 ^ 52 + m) / 2 ^ 52 - 1 = 1022 + k := by omega
      have hmod : 2 ^ 52 + ((1022 + k) * 2 ^ 52 + m) % 2 ^ 52 = m := by omega
      rw [units_eq_of_le (by omega), hdiv, hmod, hscale]
    rw [bits_toFloat, ← hunits, nearest_units (by unfold infinityBits; omega)]

/-! ### Operations that keep the sign -/

/-- A number is unsigned if its sign is positive; an undefined one counts as such. -/
def Unsigned (x : Float) : Prop := Plain x ∨ x.isNaN = true

/-- A positive sign, or none. -/
def NoSign : UnpackedFloat → Prop
  | .notANumber => True
  | .infinity s | .zero s | .finite s .. => s = .positive

theorem Unsigned.noSign (h : Unsigned x) : NoSign x.toModel.unpack := by
  show NoSign (unpack .binary64 x.toBits.toBitVec)
  rcases h with h | h
  · rcases Nat.eq_zero_or_pos (bits x) with h0 | h0
    · rw [unpack_zero (v := x.toBits.toBitVec) h0]
      rfl
    · rcases h.lt_or_eq with hlt | heq
      · obtain ⟨m, e, hm, hu, -⟩ := unpack_finite (v := x.toBits.toBitVec) h0 hlt
        rw [hu]
        rfl
      · rw [unpack_infinity (v := x.toBits.toBitVec) heq]
        rfl
  · have h : (unpack .binary64 x.toBits.toBitVec).isNaN = true := h
    cases hu : unpack .binary64 x.toBits.toBitVec with
    | notANumber => trivial
    | infinity s => rw [hu] at h; cases h
    | zero s => rw [hu] at h; cases h
    | finite s m e hm => rw [hu] at h; cases h

theorem unsigned_of_noSign {u : UnpackedFloat} (h : NoSign u) (hx : x = ⟨Float.Model.pack u⟩) :
    Unsigned x := by
  subst hx
  cases u with
  | notANumber => exact .inr (by decide)
  | infinity s =>
    cases h
    exact .inl (Nat.le_of_eq toNat_pack_infinity)
  | zero s =>
    cases h
    exact .inl (toNat_pack_zero.le.trans (Nat.zero_le _))
  | finite s m e hm =>
    cases h
    left
    show (pack .binary64 (.finite .positive m e hm)).toNat ≤ infinityBits
    unfold UnpackedFloat.pack
    dsimp only
    split
    · exact toNat_pack_infinity.le
    · rename_i hsmall
      have hsmall : ¬ 2 ^ 11 ≤ (e + (Format.binary64.exponentBias : Nat) +
        (Format.binary64.mantissaBitsWithoutImplicit : Nat)).toNat + 1 := hsmall
      split
      · rw [toNat_packComponents, BitVec.toNat_ofNat, BitVec.toNat_ofNat]
        show _ ≤ 2047 * 2 ^ 52
        omega
      · rw [toNat_packComponents, BitVec.toNat_ofNat, BitVec.toNat_ofNat]
        show _ ≤ 2047 * 2 ^ 52
        omega

/-- Rounding keeps the sign. -/
theorem roundWithAccuracy_cases (sign : Sign) (m : Nat) (e : Int) (acc : Accuracy) :
    roundWithAccuracy .binary64 sign m e acc = .zero sign ∨
      ∃ m' e' h, roundWithAccuracy .binary64 sign m e acc = .finite sign m' e' h := by
  unfold roundWithAccuracy
  dsimp only
  exact (dite_eq_or_eq _).imp (fun ⟨_, h⟩ => h) fun ⟨hm, h⟩ => ⟨_, _, Nat.pos_of_ne_zero hm, h⟩

theorem noSign_roundWithAccuracy (m : Nat) (e : Int) (acc : Accuracy) :
    NoSign (roundWithAccuracy .binary64 .positive m e acc) := by
  obtain h | ⟨_, _, _, h⟩ := roundWithAccuracy_cases .positive m e acc <;> rw [h] <;> rfl

theorem noSign_normalize (n : Nat) (e : Int) :
    NoSign (normalize .binary64 n e .positive) := by
  unfold UnpackedFloat.normalize
  rcases Nat.eq_zero_or_pos n with rfl | hn
  · rfl
  · rw [Int.compare_eq_gt.2 (Int.natCast_pos.2 hn)]
    exact noSign_roundWithAccuracy ..

theorem NoSign.add {u v : UnpackedFloat} (hu : NoSign u) (hv : NoSign v) :
    NoSign (add .binary64 u v) := by
  cases u with
  | notANumber => exact trivial
  | infinity s => cases v <;> cases hu <;> cases hv <;> trivial
  | zero s => cases v <;> cases hu <;> cases hv <;> trivial
  | finite s m e hm =>
    cases hu
    cases v with
    | notANumber => exact trivial
    | infinity s => cases hv; rfl
    | zero s => rfl
    | finite s m' e' hm' =>
      cases hv
      exact noSign_normalize (m <<< (e - min e e').toNat + m' <<< (e' - min e e').toNat) _

theorem NoSign.mul {u v : UnpackedFloat} (hu : NoSign u) (hv : NoSign v) :
    NoSign (mul .binary64 u v) := by
  cases u <;> cases v <;> cases hu <;> cases hv <;>
    first | exact noSign_roundWithAccuracy .. | trivial

theorem NoSign.div {u v : UnpackedFloat} (hu : NoSign u) (hv : NoSign v) :
    NoSign (div .binary64 u v) := by
  cases u <;> cases v <;> cases hu <;> cases hv <;>
    first | exact noSign_roundWithAccuracy .. | trivial

theorem Unsigned.add (hx : Unsigned x) (hy : Unsigned y) : Unsigned (x + y) :=
  unsigned_of_noSign (hx.noSign.add hy.noSign) rfl

theorem Unsigned.mul (hx : Unsigned x) (hy : Unsigned y) : Unsigned (x * y) :=
  unsigned_of_noSign (hx.noSign.mul hy.noSign) rfl

theorem Unsigned.div (hx : Unsigned x) (hy : Unsigned y) : Unsigned (x / y) :=
  unsigned_of_noSign (hx.noSign.div hy.noSign) rfl

theorem noSign_of_zero_lt {u : UnpackedFloat} (h : (UnpackedFloat.zero .positive).lt u = true) :
    NoSign u := by
  cases u with
  | notANumber => trivial
  | infinity s =>
    cases s with
    | negative => cases h
    | positive => rfl
  | zero s => cases h
  | finite s m e hm =>
    cases s with
    | negative => cases h
    | positive => rfl

/-- A packed number whose exponent is not the highest is finite. -/
theorem unpack_cases {v : BitVec 64} (h : @unpackExponent .binary64 v ≠ -1#11) :
    unpack .binary64 v = .zero (.ofBitVec (@unpackSign .binary64 v)) ∨
      ∃ m e hm, unpack .binary64 v = .finite (.ofBitVec (@unpackSign .binary64 v)) m e hm := by
  unfold UnpackedFloat.unpack
  dsimp only
  rw [if_neg h]
  by_cases h0 : @unpackExponent .binary64 v = 0#11
  · rw [if_pos h0]
    exact (dite_eq_or_eq _).imp (fun ⟨_, h⟩ => h) fun ⟨hm, h⟩ =>
      ⟨_, _, Nat.pos_of_ne_zero fun h0 => hm (BitVec.eq_of_toNat_eq h0), h⟩
  · have hpos : 0 < (1#1 ++ @unpackMantissa .binary64 v).toNat := by
      rw [BitVec.toNat_append, ← Nat.shiftLeft_add_eq_or_of_lt (@unpackMantissa .binary64 v).isLt]
      exact Nat.lt_of_lt_of_le (by decide) (Nat.le_add_right (1 <<< 52) _)
    rw [if_neg h0]
    exact .inr ⟨_, _, hpos, rfl⟩

/-- The bits of a finite number without a sign stay below those of infinity. -/
theorem lt_infinityBits {v : BitVec 64} (hs : NoSign (unpack .binary64 v))
    (hf : (unpack .binary64 v).isFinite = true) : v.toNat < infinityBits := by
  have he := toNat_unpackExponent v
  have hsign := toNat_unpackSign v
  have hlt := v.isLt
  have hexp : @unpackExponent .binary64 v ≠ -1#11 := fun heq => by
    unfold UnpackedFloat.unpack at hf
    dsimp only at hf
    rw [if_pos heq] at hf
    split at hf <;> cases hf
  have hpositive : Sign.ofBitVec (@unpackSign .binary64 v) = .positive := by
    obtain h | ⟨_, _, _, h⟩ := unpack_cases hexp <;> rw [h] at hs <;> exact hs
  have hzero : @unpackSign .binary64 v = 0#1 := by
    by_contra hne
    unfold Sign.ofBitVec at hpositive
    rw [if_neg hne] at hpositive
    cases hpositive
  have hne : (@unpackExponent .binary64 v).toNat ≠ 2047 := fun h =>
    hexp (BitVec.eq_of_toNat_eq h)
  have hsz : (@unpackSign .binary64 v).toNat = 0 := by
    rw [hzero]
    rfl
  show _ < 2047 * 2 ^ 52
  omega

/-- A positive finite number has no sign, and it is not zero. -/
theorem finite_of_pos (hpos : 0 < x) (hf : x.isFinite = true) : Finite x ∧ 0 < bits x := by
  have hx : Finite x := lt_infinityBits (noSign_of_zero_lt (of_decide_eq_true hpos)) hf
  exact ⟨hx, (lt_iff (show bits 0 ≤ infinityBits by decide) hx.plain).1 hpos⟩

/-! ### Differences that are not positive -/

/-- Whether a packed number is zero or negative: it has a sign, and it is not an undefined one. -/
def Signed (v : BitVec 64) : Prop :=
  @unpackSign .binary64 v = 1#1 ∧
    (@unpackExponent .binary64 v = -1#11 → @unpackMantissa .binary64 v = 0#52)

theorem Signed.le_zero {v : BitVec 64} (h : Signed v) :
    (unpack .binary64 v).le (.zero .positive) = true := by
  obtain ⟨hs, hm⟩ := h
  have hneg : Sign.ofBitVec (@unpackSign .binary64 v) = .negative := by
    rw [hs]
    rfl
  by_cases he : @unpackExponent .binary64 v = -1#11
  · unfold UnpackedFloat.unpack
    dsimp only
    rw [if_pos he, if_pos (hm he), hneg]
    rfl
  · obtain h | ⟨_, _, _, h⟩ := unpack_cases he <;> rw [h, hneg] <;> rfl

theorem signed_packComponents {e : BitVec 11} {m : BitVec 52} (h : e = -1#11 → m = 0#52) :
    Signed (packComponents .binary64 .negative e m) := by
  refine ⟨?_, ?_⟩
  · apply BitVec.eq_of_toNat_eq
    rw [toNat_unpackSign]
    have : (packComponents .binary64 .negative e m).toNat =
        2 ^ 63 + (e.toNat * 2 ^ 52 + m.toNat) := by
      show (1#1 ++ e ++ m).toNat = _
      rw [BitVec.toNat_append, BitVec.toNat_append, ← Nat.shiftLeft_add_eq_or_of_lt m.isLt,
        ← Nat.shiftLeft_add_eq_or_of_lt e.isLt]
      simp only [Nat.shiftLeft_eq, BitVec.toNat_ofNat]
      omega
    rw [this]
    have := e.isLt
    have := m.isLt
    show _ = 1
    omega
  · rw [unpackExponent_packComponents, unpackMantissa_packComponents]
    exact h

theorem signed_pack_finite {m : Nat} {e : Int} (hm : 0 < m) :
    Signed (pack .binary64 (.finite .negative m e hm)) := by
  unfold UnpackedFloat.pack
  dsimp only
  split
  · exact signed_packComponents fun _ => rfl
  · rename_i hsmall
    split
    · refine signed_packComponents fun heq => absurd (congrArg BitVec.toNat heq) ?_
      have hsmall : ¬ 2 ^ 11 ≤ (e + (Format.binary64.exponentBias : Nat) +
        (Format.binary64.mantissaBitsWithoutImplicit : Nat)).toNat + 1 := hsmall
      rw [BitVec.toNat_ofNat]
      show ¬ _ % 2 ^ 11 = 2047
      omega
    · refine signed_packComponents fun heq => absurd (congrArg BitVec.toNat heq) (by decide)

theorem signed_pack_round (m : Nat) (e : Int) :
    Signed (pack .binary64 (round .binary64 .negative m e)) := by
  have hround : ∀ m e,
      Signed (pack .binary64 (roundWithAccuracy .binary64 .negative m e .exact)) := by
    intro m e
    obtain h | ⟨_, _, hm, h⟩ := roundWithAccuracy_cases .negative m e .exact <;> rw [h]
    · exact signed_packComponents fun heq => absurd (congrArg BitVec.toNat heq) (by decide)
    · exact signed_pack_finite hm
  exact hround _ _

theorem le_zero_of_signed {u : UnpackedFloat} (h : Signed (pack .binary64 u))
    (hx : x = ⟨Float.Model.pack u⟩) : x ≤ 0 := by
  subst hx
  exact decide_eq_true (show ((unpack .binary64 (pack .binary64 u)).le (.zero .positive)) = true
    from h.le_zero)

/-- A difference that is not positive. -/
theorem sub_le_zero (hy : Finite y) (h : bits x ≤ bits y) : x - y ≤ 0 := by
  have hx : Finite x := Nat.lt_of_le_of_lt h hy
  rcases Nat.eq_or_lt_of_le h with heq | hlt
  · have hz : bits (x - y) = 0 := by
      rw [bits_sub hx heq.ge, heq, Nat.sub_self, nearest_zero Nat.one_pos]
    have hplain : Plain (x - y) := hz.le.trans (Nat.zero_le _)
    exact (le_iff hplain (show bits 0 ≤ infinityBits by decide)).2 (hz.le.trans (Nat.zero_le _))
  · obtain ⟨m₂, e₂, h₂, hu₂, hc₂, -, hunits₂⟩ :=
      unpack_finite (v := y.toBits.toBitVec) (Nat.zero_lt_of_lt hlt) hy
    have hunits₂ : units (bits y) = _ := hunits₂
    have hsub : x - y = ⟨Float.Model.pack (sub .binary64 (unpack .binary64 x.toBits.toBitVec)
      (unpack .binary64 y.toBits.toBitVec))⟩ := rfl
    rw [hu₂] at hsub
    refine le_zero_of_signed ?_ hsub
    rcases Nat.eq_zero_or_pos (bits x) with h0 | h0
    · rw [unpack_zero (v := x.toBits.toBitVec) h0]
      exact signed_pack_finite h₂
    · obtain ⟨m₁, e₁, h₁, hu₁, hc₁, -, hunits₁⟩ :=
        unpack_finite (v := x.toBits.toBitVec) h0 hx
      have hunits₁ : units (bits x) = _ := hunits₁
      have hunits : units (bits x) < units (bits y) :=
        Nat.lt_of_not_le fun hle => Nat.not_le.2 hlt ((units_le_iff hy.plain hx.plain).1 hle)
      rw [hu₁]
      rw [hunits₁, hunits₂, shift_units (e := min e₁ e₂) (Int.min_le_left ..) (by
        have := hc₁.exponent
        have := hc₂.exponent
        omega), shift_units (e := min e₁ e₂) (f := e₂) (Int.min_le_right ..) (by
        have := hc₁.exponent
        have := hc₂.exponent
        omega)] at hunits
      have hm := Nat.lt_of_mul_lt_mul_right hunits
      show Signed (pack .binary64 (normalize .binary64 (((m₁ <<< (e₁ - min e₁ e₂).toNat : Nat) :
        Int) - (m₂ <<< (e₂ - min e₁ e₂).toNat : Nat)) (min e₁ e₂) .positive))
      unfold UnpackedFloat.normalize
      rw [Int.compare_eq_lt.2 (by omega)]
      exact signed_pack_round ..

/-- The difference of a larger number and a smaller one is positive, however close they are. -/
theorem not_sub_le_zero (hx : Finite x) (h : bits y < bits x) : ¬ x - y ≤ 0 := by
  have hy : Finite y := h.trans hx
  have hunits : 1 ≤ units (bits x) - units (bits y) :=
    Nat.sub_pos_of_lt (Nat.lt_of_not_le fun hle =>
      Nat.not_le.2 h ((units_le_iff hx.plain hy.plain).1 hle))
  have hone : 1 ≤ bits (x - y) := by
    rw [bits_sub hx (Nat.le_of_lt h)]
    calc 1 = nearest (units 1) 1 := (nearest_units (by decide)).symm
      _ = nearest 1 1 := by rw [units_eq_of_lt (by decide)]
      _ ≤ _ := nearest_mono Nat.one_pos Nat.one_pos (Nat.mul_le_mul_right 1 hunits)
  have hplain : Plain (x - y) := (bits_sub_le hx (Nat.le_of_lt h)).trans hx.plain
  rw [le_iff hplain (show bits 0 ≤ infinityBits by decide)]
  exact Nat.not_le.2 hone

/-! ### Seconds -/

theorem one_shiftLeft_add_one (k : Nat) : 1 <<< (k + 1) = 2 ^ k * 2 := by
  rw [Nat.one_shiftLeft, Nat.pow_succ]

theorem decompose_plain (hx : Plain x) :
    (Span.decompose x).1 <<< (Span.decompose x).2 = units (bits x) * 2 ∧
      ((Span.decompose x).2 = 2047 ↔ bits x = infinityBits) := by
  have hx : bits x ≤ 2047 * 2 ^ 52 := hx
  have hE : (x.toBits.toNat >>> 52) % 2048 = bits x / 2 ^ 52 := by
    rw [Nat.shiftRight_eq_div_pow]
    exact Nat.mod_eq_of_lt (by unfold bits at *; omega)
  have hF : x.toBits.toNat % (1 <<< 52) = bits x % 2 ^ 52 := rfl
  unfold Span.decompose
  dsimp only
  rw [hE, hF]
  rcases Nat.lt_or_ge (bits x) (2 ^ 52) with hlt | hge
  · rw [if_pos (Nat.div_eq_of_lt hlt), units_eq_of_lt hlt, Nat.mod_eq_of_lt hlt]
    refine ⟨Nat.shiftLeft_eq .., ⟨fun h => absurd (show 1 = 2047 from h) (by decide), fun h => ?_⟩⟩
    unfold infinityBits at h
    omega
  · rw [if_neg (by omega), units_eq_of_le hge, Nat.mul_assoc, ← Nat.pow_succ]
    refine ⟨?_, ?_⟩
    · show (2 ^ 52 + bits x % 2 ^ 52) <<< (bits x / 2 ^ 52) = _
      rw [Nat.shiftLeft_eq]
      congr 2
      omega
    · show bits x / 2 ^ 52 = 2047 ↔ _
      unfold infinityBits
      omega

/-- A span from a number of seconds, by the units of the number. -/
theorem ofSeconds_eq (hx : Plain x) :
    Span.ofSeconds x =
      if 2 ^ 64 * unity ≤ units (bits x) then .error .unboundedSeconds
      else .ok (roundHalfEven (units (bits x) * Span.second) unity) := by
  obtain ⟨hnum, hexp⟩ := decompose_plain hx
  have hneg : ¬ x < 0 := by
    rw [lt_iff hx (show bits 0 ≤ infinityBits by decide)]
    exact Nat.not_lt_zero _
  have hinf : bits x = infinityBits → 2 ^ 64 * unity ≤ units (bits x) := fun h => by
    rw [h, ← units_two_pow]
    exact (units_le_iff (by decide) (Nat.le_refl _)).2 (by decide)
  have hden : 1 <<< 1075 = unity * 2 := by
    unfold unity
    exact one_shiftLeft_add_one 1074
  have hbound : (1 <<< 1075) <<< 64 ≤ units (bits x) * 2 ↔ 2 ^ 64 * unity ≤ units (bits x) := by
    rw [hden, Nat.shiftLeft_eq]
    omega
  unfold Span.ofSeconds
  rw [if_neg hneg]
  dsimp only
  rw [hnum]
  by_cases h : 2 ^ 64 * unity ≤ units (bits x)
  · rw [if_pos h, if_pos (.inr (hbound.2 h))]
  · rw [if_neg h, if_neg (fun hc => h (hc.elim (hinf ∘ hexp.1) hbound.1)), hden,
      Nat.mul_right_comm, roundHalfEven_mul (by decide) _ unity_pos]

/-- A smaller number of seconds is a shorter span. -/
theorem ofSeconds_mono (hx : Plain x) (hy : Plain y) (h : bits x ≤ bits y) {d : Span}
    (hd : Span.ofSeconds y = .ok d) : ∃ d' ≤ d, Span.ofSeconds x = .ok d' := by
  have hunits := (units_le_iff hx hy).2 h
  rw [ofSeconds_eq hy] at hd
  split at hd
  · cases hd
  · rename_i hlt
    rw [← Except.ok.inj hd]
    refine ⟨roundHalfEven (units (bits x) * Span.second) unity,
      roundHalfEven_mono unity_pos unity_pos
        (Nat.mul_le_mul_right _ (Nat.mul_le_mul_right _ hunits)), ?_⟩
    rw [ofSeconds_eq hx, if_neg (fun hc => hlt (hc.trans hunits))]

end Binary64

end GroundControl
