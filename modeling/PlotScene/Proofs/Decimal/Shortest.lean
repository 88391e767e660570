import PlotScene.Decimal.Notation
import PlotScene.Proofs.Double.Nearest

/-!
# The shortest decimal of a double

The comparisons of natural numbers by which the shortest decimal is found are those of the exact
values.  So a decimal that reads back lies in the interval of the double, and the one that is found
lies there too.
-/

namespace PlotScene.Decimal

open Double

/-- The exact value of a decimal. -/
def toRat (d : Decimal) : ℚ := d.digits * 10 ^ d.exponent

/-! ## 1. Decimals that read back -/

theorem compare_of_scaled {a b : Nat} {v w c : ℚ} (hc : 0 < c) (ha : (a : ℚ) = v * c)
    (hb : (b : ℚ) = w * c) : compare a b = compare v w := by
  rcases lt_trichotomy v w with h | h | h
  · have hlt : (a : ℚ) < b := by
      rw [ha, hb]
      exact mul_lt_mul_of_pos_right h hc
    rw [compare_lt_iff_lt.mpr h, Nat.compare_eq_lt]
    exact_mod_cast hlt
  · have heq : (a : ℚ) = b := by rw [ha, hb, h]
    rw [compare_eq_iff_eq.mpr h, Nat.compare_eq_eq]
    exact_mod_cast heq
  · have hgt : (b : ℚ) < a := by
      rw [ha, hb]
      exact mul_lt_mul_of_pos_right h hc
    rw [compare_gt_iff_gt.mpr h, Nat.compare_eq_gt]
    exact_mod_cast hgt

/-- A decimal is compared with quarters of a unit by its exact value. -/
theorem compareScaled_eq (d : Decimal) (n : Nat) (q : Int) :
    compareScaled d.digits d.exponent n (q - 2) = compare (4 * (d.toRat / 2 ^ q)) (n : ℚ) := by
  have hquarter : (2 : ℚ) ^ (q - 2) = 2 ^ q / 4 := by
    rw [zpow_sub₀ two_ne_zero]
    norm_num
  apply compare_of_scaled (c := 2 ^ (q - 2) * 10 ^ (-d.exponent).toNat * 2 ^ (-(q - 2)).toNat)
  · positivity
  · have hten := pow_toNat (b := 10) (by norm_num) d.exponent
    simp only [Nat.pow_eq]
    push_cast
    rw [toRat, hten, hquarter]
    field_simp
  · have htwo := pow_toNat two_ne_zero (q - 2)
    simp only [Nat.pow_eq]
    push_cast
    rw [htwo]
    ring

/-- The decimals that read back are those that round to the double. -/
theorem readsBack_iff {m : Nat} {q : Int} {d : Decimal} :
    readsBack m q d = true ↔ RoundsTo d.toRat m q := by
  have hends : readsBack m q d =
      ((compareScaled d.digits d.exponent (lowerEnd m q) (q - 2) == .gt ||
          (decide (m % 2 = 0) &&
            compareScaled d.digits d.exponent (lowerEnd m q) (q - 2) == .eq)) &&
        (compareScaled d.digits d.exponent (4 * m + 2) (q - 2) == .lt ||
          (decide (m % 2 = 0) &&
            compareScaled d.digits d.exponent (4 * m + 2) (q - 2) == .eq))) := rfl
  simp only [hends, compareScaled_eq, Bool.and_eq_true, Bool.or_eq_true, beq_iff_eq,
    decide_eq_true_eq, compare_lt_iff_lt, compare_eq_iff_eq, compare_gt_iff_gt]
  push_cast
  exact ⟨fun h => ⟨h.1, h.2⟩, fun h => ⟨h.low, h.high⟩⟩

theorem readsBack_of_onGrid? {m : Nat} {q g : Int} {d : Decimal} (h : onGrid? m q g = some d) :
    readsBack m q d = true := by
  rw [onGrid?] at h
  split at h
  next hlower hupper =>
    split at h
    · exact Option.some.inj h ▸ hlower
    · exact Option.some.inj h ▸ hupper
    · obtain rfl := Option.some.inj h
      split
      · exact hlower
      · exact hupper
  next hlower _ => exact Option.some.inj h ▸ hlower
  next _ hupper => exact Option.some.inj h ▸ hupper
  next => cases h

/-! ## 2. The shortest decimal -/

theorem toRat_ofBinary (m : Nat) (q : Int) : (ofBinary m q).toRat = m * 2 ^ q := by
  rw [ofBinary]
  split
  next hq =>
    rw [toRat, zpow_zero, mul_one, Nat.pow_eq, Nat.cast_mul, Nat.cast_pow, ← zpow_natCast,
      Int.toNat_of_nonneg hq]
    rfl
  next hq =>
    rw [toRat, Nat.pow_eq, Nat.cast_mul, Nat.cast_pow, ← zpow_natCast,
      Int.toNat_of_nonneg (by omega), mul_assoc, zpow_neg, Nat.cast_ofNat,
      show (10 : ℚ) = 5 * 2 by norm_num, mul_zpow, inv_mul_cancel_left₀ (by positivity)]

-- A zero at the end of the digits moves into the exponent.
theorem toRat_dropZero {d : Decimal} (hz : d.digits % 10 = 0) :
    toRat ⟨d.digits / 10, d.exponent + 1⟩ = d.toRat := by
  have hten : ((d.digits / 10 : Nat) : ℚ) * 10 = d.digits := by
    exact_mod_cast Nat.div_mul_cancel (Nat.dvd_of_mod_eq_zero hz)
  rw [toRat, toRat, zpow_add_one₀ (by norm_num), ← hten]
  ring

theorem toRat_dropZeros (fuel : Nat) (d : Decimal) : (dropZeros fuel d).toRat = d.toRat := by
  induction fuel generalizing d with
  | zero => rfl
  | succ fuel ih =>
    rw [dropZeros]
    split
    next hz => rw [ih, toRat_dropZero hz.2]
    next => rfl

/-- The shortest decimal of a positive double rounds to it. -/
theorem roundsTo_shortest {m : Nat} (hm : 0 < m) (q : Int) :
    RoundsTo (shortest m q).toRat m q := by
  rw [shortest, if_neg (Nat.ne_of_gt hm), toRat_dropZeros]
  cases hfound : (List.range 17).findSome? fun n : Nat => onGrid? m q (scale m q - (n + 1)) with
  | none =>
    rw [Option.getD_none, toRat_ofBinary]
    exact roundsTo_self hm q
  | some d =>
    obtain ⟨n, -, hgrid⟩ := List.exists_of_findSome?_eq_some hfound
    exact readsBack_iff.mp (readsBack_of_onGrid? hgrid)

theorem shortest_pos {m : Nat} (hm : 0 < m) (q : Int) : 0 < (shortest m q).digits := by
  have hpos := (roundsTo_shortest hm q).pos hm
  by_contra hzero
  rw [toRat, Nat.eq_zero_of_not_pos hzero, Nat.cast_zero, zero_mul] at hpos
  exact hpos.false

end PlotScene.Decimal
