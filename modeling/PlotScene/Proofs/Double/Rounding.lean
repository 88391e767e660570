import PlotScene.Proofs.Double.Packing

/-!
# The exponents of rounded numbers

Rounding drops bits of a mantissa until 53 of them are left, and raises the exponent by one for each
bit.  The mantissa that is left may be rounded up to `2 ^ 53`, which takes one more step.
-/

namespace PlotScene.Double

open Float.Model Float.Model.UnpackedFloat

/-! ## 1. Dropping bits -/

theorem mantissa_shiftRight (em : ExtendedMantissa) (n : Nat) :
    (em >>> n).mantissa = em.mantissa / 2 ^ n := by
  induction n with
  | zero => exact (Nat.div_one _).symm
  | succ n ih =>
    show (em >>> n).mantissa / 2 = _
    rw [ih, Nat.div_div_eq_div_mul, Nat.pow_succ]

theorem mantissa_ofMantissaAndAccuracy (m : Nat) (a : Accuracy) :
    (ExtendedMantissa.ofMantissaAndAccuracy m a).mantissa = m := by
  cases a with
  | exact => rfl
  | inexact o => cases o <;> rfl

-- Rounding goes to the mantissa that is left or to the next one.
theorem roundedMantissa_bounds (em : ExtendedMantissa) :
    em.mantissa ≤ em.roundedMantissa ∧ em.roundedMantissa ≤ em.mantissa + 1 := by
  obtain ⟨m, round, sticky⟩ := em
  cases round <;> cases sticky
  · exact ⟨Nat.le_refl m, Nat.le_succ m⟩
  · exact ⟨Nat.le_refl m, Nat.le_succ m⟩
  · show m ≤ m + m % 2 ∧ m + m % 2 ≤ m + 1
    omega
  · exact ⟨Nat.le_succ m, Nat.le_refl _⟩

/-- How many bits are dropped from a mantissa. -/
def dropped (m : Nat) (e : Int) : Nat :=
  (Format.binary64.targetExponent (totalExponent m e) - e).toNat

theorem targetExponent_eq (m : Nat) (e : Int) :
    Format.binary64.targetExponent (totalExponent m e) = max ((m.log2 : Int) + e - 52) (-1074) := by
  simp only [Format.targetExponent, totalExponent, Format.mantissaBits, Format.minExponent]
  norm_num
  omega

-- At least as many bits are dropped as a mantissa has beyond 53.
theorem log2_le_dropped (m : Nat) (e : Int) : m.log2 ≤ 52 + dropped m e := by
  rw [dropped, targetExponent_eq]
  omega

theorem le_exponent (m : Nat) (e : Int) : -1074 ≤ e + (dropped m e : Int) := by
  rw [dropped, targetExponent_eq]
  omega

theorem exponent_le {m : Nat} {e k : Int} (he : e ≤ k) (hlow : -1074 ≤ k)
    (htotal : (m.log2 : Int) + e ≤ k + 52) : e + (dropped m e : Int) ≤ k := by
  rw [dropped, targetExponent_eq]
  omega

theorem kept_lt (m : Nat) (e : Int) : m / 2 ^ dropped m e < 2 ^ 53 := by
  rw [Nat.div_lt_iff_lt_mul (Nat.two_pow_pos _), ← Nat.pow_add]
  have hlog := log2_le_dropped m e
  exact Nat.lt_of_lt_of_le Nat.lt_log2_self (Nat.pow_le_pow_right (by decide) (by omega))

/-! ## 2. Rounding -/

/-- The mantissa that is left once it has been rounded. -/
def rounded (m : Nat) (e : Int) (a : Accuracy) : Nat :=
  (shiftToTargetExponent Format.binary64 m e a).1.roundedMantissa

theorem rounded_bounds (m : Nat) (e : Int) (a : Accuracy) :
    m / 2 ^ dropped m e ≤ rounded m e a ∧ rounded m e a ≤ m / 2 ^ dropped m e + 1 := by
  have h := roundedMantissa_bounds (shiftToTargetExponent Format.binary64 m e a).1
  have hkept : (shiftToTargetExponent Format.binary64 m e a).1.mantissa = m / 2 ^ dropped m e := by
    show (ExtendedMantissa.ofMantissaAndAccuracy m a >>> dropped m e).mantissa = _
    rw [mantissa_shiftRight, mantissa_ofMantissaAndAccuracy]
  rw [hkept] at h
  exact h

theorem roundWithAccuracy_eq (s : Sign) (m : Nat) (e : Int) (a : Accuracy) :
    roundWithAccuracy Format.binary64 s m e a =
      let r := rounded m e a
      let e' := e + (dropped m e : Int)
      if h : r / 2 ^ dropped r e' = 0 then .zero s
      else .finite s (r / 2 ^ dropped r e') (e' + (dropped r e' : Int)) (Nat.pos_of_ne_zero h) := by
  have hlast : (shiftToTargetExponent Format.binary64 (rounded m e a) (e + (dropped m e : Int))
      .exact).1.mantissa =
      rounded m e a / 2 ^ dropped (rounded m e a) (e + (dropped m e : Int)) := by
    show (ExtendedMantissa.ofMantissaAndAccuracy _ .exact >>> dropped _ _).mantissa = _
    rw [mantissa_shiftRight, mantissa_ofMantissaAndAccuracy]
  simp only [← hlast]
  rfl

-- Rounding up to `2 ^ 53` takes one more step, unless there is room for it.
theorem upTo_round {s : Sign} {m : Nat} {e k : Int} {a : Accuracy}
    (hk : e + (dropped m e : Int) ≤ k)
    (hroom : rounded m e a < 2 ^ 53 ∨ e + (dropped m e : Int) < k) :
    UpTo k (roundWithAccuracy Format.binary64 s m e a) := by
  have hlow := le_exponent m e
  have hkept := kept_lt m e
  have hbounds := rounded_bounds m e a
  rw [roundWithAccuracy_eq]
  generalize e + (dropped m e : Int) = e' at hk hroom hlow ⊢
  generalize rounded m e a = r at hroom hbounds ⊢
  dsimp only
  split
  · exact .zero s
  · refine .finite s _ _ ?_
    by_cases hr : r < 2 ^ 53
    · have hlog : r.log2 < 53 := by
        by_cases hz : r = 0
        · rw [hz]
          decide
        · exact (Nat.log2_lt hz).mpr hr
      exact Int.le_trans (exponent_le (Int.le_refl e') hlow (by omega)) hk
    -- The carry: the mantissa is halved and the exponent grows by one.
    · have hmax : r = 2 ^ 53 := by omega
      have hlt : e' < k := hroom.resolve_left hr
      have hlog : r.log2 = 53 := by rw [hmax, Nat.log2_two_pow]
      exact exponent_le (by omega) (by omega) (by omega)

-- A number below `2 ^ (k + 52)` is rounded to one with an exponent up to `k`.
theorem upTo_round_of_total {s : Sign} {m : Nat} {e k : Int} {a : Accuracy} (he : e < k)
    (hlow : -1074 < k) (htotal : (m.log2 : Int) + e < k + 52) :
    UpTo k (roundWithAccuracy Format.binary64 s m e a) := by
  have hle : e + (dropped m e : Int) ≤ k - 1 := exponent_le (by omega) (by omega) (by omega)
  exact upTo_round (by omega) (Or.inr (by omega))

-- A number from `2 ^ (k + 53)` on is rounded to one with an exponent above `k`.
theorem not_upTo_round {s : Sign} {m : Nat} {e k : Int} {a : Accuracy} (hm : m ≠ 0)
    (hlow : -1074 ≤ k) (he : e ≤ k) (htotal : k + 53 ≤ (m.log2 : Int) + e) :
    ¬ UpTo k (roundWithAccuracy Format.binary64 s m e a) := by
  -- The exponent is so large that all bits but 53 are dropped.
  have hexact : (dropped m e : Int) = (m.log2 : Int) - 52 := by
    rw [dropped, targetExponent_eq]
    omega
  have hkept : 2 ^ 52 ≤ m / 2 ^ dropped m e := by
    rw [Nat.le_div_iff_mul_le (Nat.two_pow_pos _), ← Nat.pow_add,
      show 52 + dropped m e = m.log2 by omega]
    exact Nat.log2_self_le hm
  have hbounds := rounded_bounds m e a
  rw [roundWithAccuracy_eq]
  have hlarge : k < e + (dropped m e : Int) := by omega
  generalize e + (dropped m e : Int) = e' at hlarge ⊢
  generalize rounded m e a = r at hbounds ⊢
  have hr : r ≠ 0 := by omega
  have hlog : 52 ≤ r.log2 := (Nat.le_log2 hr).mpr (by omega)
  have hdrop : dropped r e' ≤ r.log2 := by
    rw [dropped, targetExponent_eq]
    omega
  have hleft : 0 < r / 2 ^ dropped r e' :=
    Nat.div_pos (Nat.le_trans (Nat.pow_le_pow_right (by decide) hdrop) (Nat.log2_self_le hr))
      (Nat.two_pow_pos _)
  simp only [dif_neg (Nat.ne_of_gt hleft)]
  intro h
  cases h with
  | finite _ _ _ h => omega

end PlotScene.Double
