import PlotScene.Proofs.Double.Rounding

/-!
# Doubles from decimals

When the double nearest to `m / 10 ^ e` is finite.  Small mantissas and exponents are divided as
doubles, all others as exact numbers that are rounded at the end.  A finite integer has at most 1024
bits.
-/

namespace PlotScene.Double

open Float.Model Float.Model.UnpackedFloat

/-! ## 1. Quotients -/

theorem log2_lt_of_lt {n j : Nat} (hj : 0 < j) (h : n < 2 ^ j) : n.log2 < j := by
  by_cases hz : n = 0
  · rw [hz]
    exact hj
  · exact (Nat.log2_lt hz).mpr h

-- A quotient below `2 ^ 1023` does not overflow.
theorem upTo_div {s t : Sign} {m n j : Nat} {e f : Int} {hm : 0 < m} {hn : 0 < n} (hj : 0 < j)
    (hquot : m < 2 ^ j * n) (he : e - f < 971) (htotal : (j : Int) + (e - f) ≤ 1023) :
    UpTo 971 (div Format.binary64 (.finite s m e hm) (.finite t n f hn)) := by
  let target := min (e - f)
    (Format.binary64.targetExponent (totalExponent m e - totalExponent n f))
  have htarget : target ≤ e - f := Int.min_le_left _ _
  have hlog : ((m <<< (e - f - target).toNat) / n).log2 < j + (e - f - target).toNat := by
    apply log2_lt_of_lt (by omega)
    rw [Nat.div_lt_iff_lt_mul hn, Nat.shiftLeft_eq, Nat.pow_add]
    rw [Nat.mul_right_comm]
    exact (Nat.mul_lt_mul_right (Nat.two_pow_pos _)).mpr hquot
  show UpTo 971 (roundWithAccuracy Format.binary64 (s / t)
    ((m <<< (e - f - target).toNat) / n) target _)
  exact upTo_round_of_total (by omega) (by decide) (by omega)

/-! ## 2. Large fractions -/

theorem upTo_ofScientific_neg {m e j : Nat} (he : 0 < e) (hpos : 0 < j) (hj : j ≤ 1023)
    (h : m < 2 ^ j * 10 ^ e) :
    UpTo 971 (UnpackedFloat.ofScientific Format.binary64 m (-(e : Int))) := by
  rw [UnpackedFloat.ofScientific]
  split
  next => exact .zero .positive
  next hm =>
    have hsmall : ¬ -(e : Int) > 2 ^ Format.binary64.exponentBits := by
      show ¬ -(e : Int) > 2 ^ 11
      omega
    rw [if_neg hsmall]
    split
    next => exact .zero .positive
    next =>
      rw [if_neg (by omega)]
      refine upTo_div hpos ?_ (by decide) (by omega)
      rw [Int.neg_neg, Int.toNat_natCast]
      exact h

/-! ## 3. Small fractions -/

-- An integer of 53 bits is a double with a small exponent.
theorem upTo_ofNat {m : Nat} (hm : m < 2 ^ 53) :
    UpTo 1 (UnpackedFloat.ofNat Format.binary64 m) := by
  rw [UnpackedFloat.ofNat, UnpackedFloat.ofInt, UnpackedFloat.normalize]
  split
  next h =>
    rw [Int.compare_eq_lt] at h
    omega
  next => exact .zero .positive
  next h =>
    rw [Int.compare_eq_gt] at h
    let shift := (0 - Format.binary64.targetExponent (totalExponent m 0)).toNat
    have hlog : (m <<< shift).log2 < 53 + shift := by
      apply log2_lt_of_lt (by omega)
      rw [Nat.shiftLeft_eq, Nat.pow_add]
      exact (Nat.mul_lt_mul_right (Nat.two_pow_pos _)).mpr hm
    show UpTo 1 (roundWithAccuracy Format.binary64 .positive (m <<< shift) (0 - (shift : Int))
      .exact)
    exact upTo_round_of_total (by omega) (by decide) (by omega)

/-- A number with a mantissa of 53 bits and a small exponent. -/
def Small (f : UnpackedFloat) : Prop :=
  UpTo 1 f ∧ ∀ s m e hm, f = .finite s m e hm → m < 2 ^ 53

theorem Small.cases {f : UnpackedFloat} (h : Small f) : (∃ s, f = .zero s) ∨
    ∃ s m e hm, f = .finite s m e hm ∧ m < 2 ^ 53 ∧ e ≤ 1 := by
  obtain ⟨hup, hmantissa⟩ := h
  cases hup with
  | zero s => exact Or.inl ⟨s, rfl⟩
  | finite s m hm he => exact Or.inr ⟨s, m, _, hm, rfl, hmantissa s m _ hm rfl, he⟩

theorem small_toFloat {m : Nat} (hm : m < 2 ^ 53) : Small m.toUInt64.toFloat.toModel.unpack := by
  have hnat : m.toUInt64.toNat = m := by
    show m % 2 ^ 64 = m
    omega
  refine ⟨?_, fun s m e hm h => mantissa_lt h⟩
  have hup : UpTo 1 (UnpackedFloat.ofNat Format.binary64 m.toUInt64.toNat) := by
    rw [hnat]
    exact upTo_ofNat hm
  exact upTo_unpack_pack hup (by decide) (by decide)

/-- Whether a number is a power of ten with a full mantissa and an exponent that is not far below
zero. -/
def isPower (i : Nat) : UnpackedFloat → Bool
  | .finite .positive m e _ =>
      2 ^ 52 ≤ m && -52 ≤ e && m * 2 ^ e.toNat == 10 ^ i * 2 ^ (-e).toNat
  | _ => false

theorem exists_of_isPower {i : Nat} {f : UnpackedFloat} (h : isPower i f = true) :
    ∃ m e hm, f = .finite .positive m e hm ∧ 2 ^ 52 ≤ m ∧ -52 ≤ e ∧
      m * 2 ^ e.toNat = 10 ^ i * 2 ^ (-e).toNat := by
  match f, h with
  | .finite .positive m e hm, h =>
    simp only [isPower, Bool.and_eq_true, decide_eq_true_eq, beq_iff_eq] at h
    exact ⟨m, e, hm, rfl, h.1.1, h.1.2, h.2⟩

-- The powers of ten that are doubles.
theorem isPower_power : ∀ i : Fin Float.exactlyRepresentablePowersOfTen.size,
    isPower i Float.exactlyRepresentablePowersOfTen[i].toModel.unpack = true := by
  decide +kernel

theorem isFinite_div_power {x y : Float} {i : Nat} (hx : Small x.toModel.unpack)
    (hy : isPower i y.toModel.unpack = true) : (x / y).isFinite = true := by
  obtain ⟨n, f, hn, hyu, -, hf, -⟩ := exists_of_isPower hy
  apply (isFinite_ofModel (div Format.binary64 x.toModel.unpack y.toModel.unpack)).mpr
  rcases hx.cases with ⟨s, hxu⟩ | ⟨s, m, e, hm, hxu, hm53, he⟩
  · rw [hxu, hyu]
    exact .zero _
  · rw [hxu, hyu]
    have hquot : m < 2 ^ 53 * n := Nat.lt_of_lt_of_le hm53 (Nat.le_mul_of_pos_right _ hn)
    exact upTo_div (j := 53) (by decide) hquot (by omega) (by omega)

/-! ## 4. All fractions -/

theorem isFinite_ofScientific_neg {m e j : Nat} (he : 0 < e) (hpos : 0 < j) (hj : j ≤ 1023)
    (h : m < 2 ^ j * 10 ^ e) : (Float.ofScientific m true e).isFinite = true := by
  rw [Float.ofScientific]
  split
  next hsmall =>
    have he : e < 23 := by omega
    exact isFinite_div_power (small_toFloat hsmall.1) (isPower_power ⟨e, he⟩)
  next =>
    apply (isFinite_ofModel (UnpackedFloat.ofScientific Format.binary64 m (Int.negOfNat e))).mpr
    rw [Int.negOfNat_eq]
    exact upTo_ofScientific_neg he hpos hj h

-- A decimal that is written in the program, such as `0.25`.
@[simp]
theorem isFinite_literal {m e : Nat} (hm : m < 2 ^ 53) (he : 0 < e) :
    Float.isFinite (OfScientific.ofScientific m true e) = true := by
  have hpow : 0 < 10 ^ e := Nat.pow_pos (by decide)
  have h : m < 2 ^ 53 * 10 ^ e := lt_of_lt_of_le hm (Nat.le_mul_of_pos_right _ hpow)
  exact isFinite_ofScientific_neg he (by decide) (by decide) h

/-! ## 5. Integers -/

-- An integer of more than 53 bits is rounded as an exact number.
theorem ofNat_eq {n : Nat} (hn : 2 ^ 53 ≤ n) :
    Float.ofNat n = Float.ofModel (Float.Model.pack
      (roundWithAccuracy Format.binary64 .positive (n <<< 53 * 1) (-53) .exact)) := by
  have hsmall : ¬ (n < 2 ^ 53 ∧ 0 ≤ 22) := by omega
  have hlow : ¬ (0 : Int) < -(2 ^ 11 + n.log2) := by omega
  show Float.ofScientific n false 0 = _
  rw [Float.ofScientific, dif_neg hsmall]
  show Float.ofModel (Float.Model.pack (UnpackedFloat.ofScientific Format.binary64 n 0)) = _
  rw [UnpackedFloat.ofScientific, dif_neg (by omega), if_neg (by decide), if_neg hlow,
    if_pos (by decide)]
  rfl

theorem isFinite_ofNat_iff {n : Nat} (hn : 2 ^ 53 ≤ n) :
    (Float.ofNat n).isFinite = true ↔
      UpTo 971 (roundWithAccuracy Format.binary64 .positive (n <<< 53 * 1) (-53) .exact) := by
  rw [ofNat_eq hn]
  exact isFinite_ofModel _

-- A finite integer has at most 1024 bits.
theorem log2_lt_of_isFinite {n : Nat} (h : (Float.ofNat n).isFinite = true) :
    n.log2 < 1024 := by
  by_cases hn : n < 2 ^ 53
  · have hlog := log2_lt_of_lt (by decide) hn
    omega
  rw [isFinite_ofNat_iff (Nat.le_of_not_lt hn), Nat.mul_one, Nat.shiftLeft_eq] at h
  have hz : n ≠ 0 := by omega
  have hz' : n * 2 ^ 53 ≠ 0 := by omega
  by_contra hlog
  have hlarge : n.log2 + 53 ≤ (n * 2 ^ 53).log2 := by
    rw [Nat.le_log2 hz', Nat.pow_add]
    exact Nat.mul_le_mul_right _ (Nat.log2_self_le hz)
  exact not_upTo_round hz' (by decide) (by decide) (by omega) h

end PlotScene.Double
