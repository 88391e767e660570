import PlotScene.Proofs.Decimal.Reading
import PlotScene.Proofs.Double.Nearest

/-!
# Decimals are read as the nearest double

A decimal is read as the double in whose interval it lies.  A short one is a product or a quotient
of two doubles that are exact, any other one is rounded once from its exact value.
-/

namespace PlotScene.Double

open Float.Model Float.Model.UnpackedFloat

/-! ## 1. The range of doubles -/

theorem two_zpow_le_ten_zpow {e : Int} (he : 0 ≤ e) : (2 : ℚ) ^ (3 * e) ≤ 10 ^ e := by
  obtain ⟨k, rfl⟩ := Int.eq_ofNat_of_zero_le he
  rw [zpow_mul, zpow_natCast, zpow_natCast]
  exact pow_le_pow_left₀ (by norm_num) (by norm_num) k

theorem ten_zpow_le_two_zpow {e : Int} (he : e ≤ 0) : (10 : ℚ) ^ e ≤ 2 ^ (3 * e) := by
  have h := two_zpow_le_ten_zpow (show 0 ≤ -e by omega)
  rw [mul_neg, zpow_neg, zpow_neg] at h
  exact (inv_le_inv₀ (by positivity) (by positivity)).mp h

section

variable {v : ℚ} {m : Nat} {q k : Int} (h : Regular m q)
include h

/-- What rounds to a positive double is not beyond all doubles. -/
theorem RoundsTo.exponent_lt (hv : RoundsTo v m q) (hk : 2 ^ k ≤ v) : k < 1024 := by
  have hmantissa : (m : ℚ) + 1 ≤ 2 ^ 53 := by exact_mod_cast h.lt
  have hbelow : v < 2 ^ (q + (53 : Nat)) := lt_of_units (by linarith [hv.bounds.2])
  have hlt := (zpow_lt_zpow_iff_right₀ one_lt_two).mp (hk.trans_lt hbelow)
  have hle := h.le
  omega

/-- What rounds to a positive double is at least half of the least one. -/
theorem RoundsTo.le_exponent (hv : RoundsTo v m q) (hk : v ≤ 2 ^ k) : -1075 ≤ k := by
  have hhalf : (2 : ℚ) ^ (q - 1) ≤ v := by
    rw [zpow_sub_one₀ two_ne_zero]
    exact hv.half_le h.pos
  have hle := (zpow_le_zpow_iff_right₀ one_lt_two).mp (hhalf.trans hk)
  have hlow := h.low
  omega

theorem RoundsTo.digits_pos {n : Nat} {b : ℚ} (hv : RoundsTo (n * b) m q) : 0 < n := by
  have hpos := hv.pos h.pos
  by_contra hzero
  rw [Nat.eq_zero_of_not_pos hzero, Nat.cast_zero, zero_mul] at hpos
  exact hpos.false

end

/-! ## 2. Exact doubles -/

/-- A positive double with a full mantissa that holds a number exactly. -/
def Holds (x : Float) (v : ℚ) : Prop :=
  ∃ k d hk, x.toModel.unpack = .finite .positive k d hk ∧ 2 ^ 52 ≤ k ∧ (k : ℚ) * 2 ^ d = v

-- The mantissa of a short integer is shifted until it is full.
theorem exists_full {n : Nat} (hn : 0 < n) (hlt : n < 2 ^ 53) :
    ∃ m q, Regular m q ∧ 2 ^ 52 ≤ m ∧ (m : ℚ) * 2 ^ q = n := by
  have hlog : n.log2 < 53 := log2_lt_of_lt (by decide) hlt
  obtain ⟨k, hk⟩ : ∃ k, n.log2 + k = 52 := ⟨52 - n.log2, by omega⟩
  have hfull : 2 ^ 52 ≤ n <<< k := by
    rw [Nat.shiftLeft_eq, ← hk, Nat.pow_add]
    exact Nat.mul_le_mul_right _ (Nat.log2_self_le (Nat.ne_of_gt hn))
  have hshort : n <<< k < 2 ^ 53 := by
    rw [Nat.shiftLeft_eq, show 53 = n.log2 + 1 + k by omega, Nat.pow_add _ _ k]
    exact (Nat.mul_lt_mul_right (Nat.two_pow_pos _)).mpr Nat.lt_log2_self
  have hvalue := shiftLeft_sub_eq n 0 k
  rw [zpow_zero, mul_one] at hvalue
  exact ⟨n <<< k, 0 - k, ⟨⟨hshort, by omega, fun _ => hfull⟩, by omega, by omega⟩, hfull, hvalue⟩

/-- An integer of 53 bits is held exactly. -/
theorem holds_toFloat {n : Nat} (hn : 0 < n) (hlt : n < 2 ^ 53) : Holds n.toUInt64.toFloat n := by
  obtain ⟨m, q, hregular, hfull, hvalue⟩ := exists_full hn hlt
  have hvalue' : (n : ℚ) * 2 ^ (0 : Int) = m * 2 ^ q := by rw [zpow_zero, mul_one, hvalue]
  have hround : UnpackedFloat.ofNat Format.binary64 n = .finite .positive m q hregular.pos := by
    rw [UnpackedFloat.ofNat, UnpackedFloat.ofInt, normalize_pos hn]
    exact round_of_value hn hregular.pos hregular.toCanonical hvalue'
  have hnat : n.toUInt64.toNat = n := by
    show n % 2 ^ 64 = n
    omega
  refine ⟨m, q, hregular.pos, ?_, hfull, hvalue⟩
  show unpack Format.binary64 (pack Format.binary64 (UnpackedFloat.ofNat _ n.toUInt64.toNat)) = _
  rw [hnat, hround]
  exact unpack_ofParts hregular

/-- A power of ten among the doubles is held exactly. -/
theorem holds_of_isPower {x : Float} {i : Nat} (h : isPower i x.toModel.unpack = true) :
    Holds x (10 ^ i) := by
  obtain ⟨m, e, hm, hx, hfull, -, hvalue⟩ := exists_of_isPower h
  have hscaled : (m : ℚ) * 2 ^ e.toNat = 10 ^ i * 2 ^ (-e).toNat := by exact_mod_cast hvalue
  rw [pow_toNat two_ne_zero, ← mul_assoc] at hscaled
  exact ⟨m, e, hm, hx, hfull, mul_right_cancel₀ (by positivity) hscaled⟩

/-! ## 3. Decimals -/

section

variable {m : Nat} {q : Int} (h : Regular m q)

theorem mul_of_holds {x y : Float} {v w : ℚ} (hx : Holds x v) (hy : Holds y w)
    (hround : RoundsTo (v * w) m q) : x * y = ofParts h := by
  obtain ⟨k, d, hk, hxu, hfull, rfl⟩ := hx
  obtain ⟨n, e, hn, hyu, -, rfl⟩ := hy
  have hbits : 2 ^ 52 ≤ k * n := hfull.trans (Nat.le_mul_of_pos_right k hn)
  have hmul := mul_of_roundsTo h.pos h.toCanonical hk hn hbits hround
  rw [← hxu, ← hyu] at hmul
  exact congrArg (fun f => Float.ofModel (Float.Model.pack f)) hmul

theorem div_of_holds {x y : Float} {v w : ℚ} (hx : Holds x v) (hy : Holds y w)
    (hround : RoundsTo (v / w) m q) : x / y = ofParts h := by
  obtain ⟨k, d, hk, hxu, hfull, rfl⟩ := hx
  obtain ⟨n, e, hn, hyu, -, rfl⟩ := hy
  have hdiv := div_of_roundsTo h.pos h.toCanonical hk hn hround
  rw [← hxu, ← hyu] at hdiv
  exact congrArg (fun f => Float.ofModel (Float.Model.pack f)) hdiv

section

variable {n : Nat} {e : Int} (hround : RoundsTo (n * 10 ^ e) m q)
include h hround

theorem not_exponent_large : ¬ e > 2 ^ Format.binary64.exponentBits := by
  intro he
  change (2 : Int) ^ 11 < e at he
  have hone : (1 : ℚ) ≤ n := by exact_mod_cast hround.digits_pos h
  have hten : (10 : ℚ) ^ e ≤ n * 10 ^ e := le_mul_of_one_le_left (by positivity) hone
  have hlt := hround.exponent_lt h ((two_zpow_le_ten_zpow (by omega)).trans hten)
  omega

theorem not_exponent_small : ¬ e < -(2 ^ Format.binary64.exponentBits + n.log2) := by
  intro he
  change e < -((2 : Int) ^ 11 + n.log2) at he
  have hbits : (n : ℚ) ≤ 2 ^ ((n.log2 : Int) + 1) := by
    exact_mod_cast (Nat.lt_log2_self (n := n)).le
  have hle : (n : ℚ) * 10 ^ e ≤ 2 ^ ((n.log2 : Int) + 1 + 3 * e) := by
    rw [zpow_add₀ two_ne_zero]
    exact mul_le_mul hbits (ten_zpow_le_two_zpow (by omega)) (by positivity) (by positivity)
  have hlow := hround.le_exponent h hle
  omega

/-- A long decimal is rounded once from its exact value. -/
theorem unpacked_ofScientific_of_roundsTo :
    UnpackedFloat.ofScientific Format.binary64 n e = .finite .positive m q h.pos := by
  have hn := hround.digits_pos h
  rw [UnpackedFloat.ofScientific, dif_neg (Nat.ne_of_gt hn), if_neg (not_exponent_large h hround),
    if_neg (not_exponent_small h hround)]
  split
  next he =>
    refine mul_of_roundsTo h.pos h.toCanonical _ _ ?_ ?_
    · -- The mantissa is widened by 53 bits before the product is taken.
      calc 2 ^ 52 ≤ n * 2 ^ 53 := (Nat.pow_le_pow_right (by decide) (by decide)).trans
            (Nat.le_mul_of_pos_left _ hn)
        _ = n <<< 53 := (Nat.shiftLeft_eq n 53).symm
        _ ≤ n <<< 53 * 10 ^ e.toNat := Nat.le_mul_of_pos_right _ (Nat.pow_pos (by decide))
    · have hleft := shiftLeft_sub_eq n 0 53
      rw [zpow_zero, mul_one] at hleft
      have hright : ((10 ^ e.toNat : Nat) : ℚ) * 2 ^ (0 : Int) = 10 ^ e := by
        rw [zpow_zero, mul_one, Nat.cast_pow, ← zpow_natCast, Int.toNat_of_nonneg he]
        rfl
      rw [hright]
      show RoundsTo ((n <<< 53 : Nat) * 2 ^ (0 - (53 : Nat) : Int) * 10 ^ e) m q
      rwa [hleft]
  next he =>
    refine div_of_roundsTo h.pos h.toCanonical _ _ ?_
    have hpower : ((10 ^ (-e).toNat : Nat) : ℚ) = (10 ^ e)⁻¹ := by
      rw [← zpow_neg, Nat.cast_pow, ← zpow_natCast, Int.toNat_of_nonneg (by omega)]
      rfl
    rw [zpow_zero, mul_one, mul_one, hpower, div_inv_eq_mul]
    exact hround

end

/-- A decimal is the double in whose interval it lies. -/
theorem ofScientific_of_roundsTo {n e : Nat} {negative : Bool}
    (hround : RoundsTo (n * 10 ^ (if negative then -(e : Int) else e)) m q) :
    Float.ofScientific n negative e = ofParts h := by
  rw [Float.ofScientific]
  split
  next hsmall =>
    have hinteger := holds_toFloat (hround.digits_pos h) hsmall.1
    have hpower := holds_of_isPower (isPower_power ⟨e, Nat.lt_succ_of_le hsmall.2⟩)
    cases negative with
    | true =>
      refine div_of_holds h hinteger hpower ?_
      rwa [if_pos rfl, zpow_neg, zpow_natCast, ← div_eq_mul_inv] at hround
    | false =>
      refine mul_of_holds h hinteger hpower ?_
      rwa [if_neg Bool.false_ne_true, zpow_natCast] at hround
  next =>
    have hlong := unpacked_ofScientific_of_roundsTo h hround
    rw [show -(e : Int) = Int.negOfNat e from Int.negOfNat_eq.symm] at hlong
    exact congrArg (fun f => Float.ofModel (Float.Model.pack f)) hlong

end

end PlotScene.Double

namespace PlotScene.Decimal

open Double

section

variable {m n : Nat} {q e : Int} (h : Regular m q) (hround : RoundsTo (n * 10 ^ e) m q)
include h hround

-- The shortcuts for values beyond all doubles and far below them are not taken.
theorem size_bounds : -400 ≤ ((Nat.toDigits 10 n).length : Int) + e ∧
    ((Nat.toDigits 10 n).length : Int) + e ≤ 400 := by
  have hlen : 0 < (Nat.toDigits 10 n).length := Nat.length_toDigits_pos
  constructor
  · by_contra hsize
    have hlt : (n : ℚ) ≤ 10 ^ ((Nat.toDigits 10 n).length : Int) := by
      exact_mod_cast ((Nat.length_toDigits_le_iff (by decide : 1 < 10) hlen).mp le_rfl).le
    have hle : (n : ℚ) * 10 ^ e ≤ 2 ^ (3 * (((Nat.toDigits 10 n).length : Int) + e)) := by
      refine le_trans ?_ (ten_zpow_le_two_zpow (by omega))
      rw [zpow_add₀ (by norm_num)]
      exact mul_le_mul_of_nonneg_right hlt (by positivity)
    have hlow := hround.le_exponent h hle
    omega
  · by_contra hsize
    have hle : (10 : ℚ) ^ ((Nat.toDigits 10 n).length - 1) ≤ n := by
      exact_mod_cast ten_pow_le (hround.digits_pos h) (by omega)
    have hpow : (2 : ℚ) ^ (3 * (((Nat.toDigits 10 n).length - 1 : Nat) + e)) ≤ n * 10 ^ e := by
      refine (two_zpow_le_ten_zpow (by omega)).trans ?_
      rw [zpow_add₀ (by norm_num), zpow_natCast]
      exact mul_le_mul_of_nonneg_right hle (by positivity)
    have hlt := hround.exponent_lt h hpow
    omega

/-- What is written as a decimal is read as the double in whose interval it lies. -/
theorem toDouble_of_roundsTo : toDouble n e = ofParts h := by
  obtain ⟨hbelow, habove⟩ := size_bounds h hround
  have hn := hround.digits_pos h
  have he : (if decide (e < 0) = true then -(e.natAbs : Int) else e.natAbs) = e := by
    split <;> simp only [decide_eq_true_eq] at * <;> omega
  rw [toDouble, if_neg (by omega), if_neg (by omega)]
  exact ofScientific_of_roundsTo h (by rwa [he])

end

end PlotScene.Decimal
