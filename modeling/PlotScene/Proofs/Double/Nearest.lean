import PlotScene.Proofs.Double.Within

/-!
# The nearest double

A number is placed by a whole number of units and by how the rest compares with half a unit.
Dropping a bit doubles the unit and keeps the place, so rounding finds the nearest mantissa.  The
numbers that round to a double reach from halfway to the neighbour below up to halfway to the
neighbour above, and the ends belong to them exactly when the mantissa is even.
-/

namespace PlotScene.Double

open Float.Model Float.Model.UnpackedFloat

/-! ## 1. Places between whole numbers -/

/-- Where `u` lies from the whole number `n` on and before the next one. -/
def Placed (u : ℚ) (n : Nat) : Accuracy → Prop
  | .exact => u = n
  | .inexact .lt => n < u ∧ u < n + 1 / 2
  | .inexact .eq => u = n + 1 / 2
  | .inexact .gt => n + 1 / 2 < u ∧ u < n + 1

/-- `n` is the whole number nearest to `u`; halfway between two it is the even one. -/
structure Nearest (u : ℚ) (n : Nat) : Prop where
  low : (n : ℚ) - 1 / 2 < u ∨ n % 2 = 0 ∧ u = n - 1 / 2
  high : u < n + 1 / 2 ∨ n % 2 = 0 ∧ u = n + 1 / 2

theorem Placed.bounds {u : ℚ} {n : Nat} {a : Accuracy} (h : Placed u n a) :
    (n : ℚ) ≤ u ∧ u < n + 1 := by
  rcases a with _ | (_ | _ | _) <;> simp only [Placed] at h <;> constructor <;> linarith

theorem Nearest.bounds {u : ℚ} {n : Nat} (h : Nearest u n) :
    (n : ℚ) - 1 / 2 ≤ u ∧ u ≤ n + 1 / 2 := by
  obtain ⟨hlow, hhigh⟩ := h
  constructor
  · rcases hlow with h | ⟨-, h⟩ <;> linarith
  · rcases hhigh with h | ⟨-, h⟩ <;> linarith

/-- Dropping the last bit halves the number of units. -/
theorem Placed.shiftRightOne {u : ℚ} {em : ExtendedMantissa}
    (h : Placed u em.mantissa em.accuracy) :
    Placed (u / 2) em.shiftRightOne.mantissa em.shiftRightOne.accuracy := by
  obtain ⟨m, round, sticky⟩ := em
  have hm : (m : ℚ) = 2 * (m / 2 : Nat) + (m % 2 : Nat) := by
    exact_mod_cast (Nat.div_add_mod m 2).symm
  have hone : ((1 : Nat) != 0) = true := rfl
  -- The last bit becomes the first of the dropped ones, and the others only count together.
  rcases Nat.mod_two_eq_zero_or_one m with hbit | hbit <;> cases round <;> cases sticky <;>
    simp only [ExtendedMantissa.accuracy, ExtendedMantissa.shiftRightOne, Placed, hbit, hm, hone,
      bne_self_eq_false, Bool.or_false, Bool.or_true, Nat.cast_zero, Nat.cast_one] at h ⊢
  case inl.false.false | inr.false.false => linarith
  all_goals constructor <;> linarith

theorem Placed.shiftRight {u : ℚ} {em : ExtendedMantissa} (h : Placed u em.mantissa em.accuracy)
    (k : Nat) : Placed (u / 2 ^ k) (em >>> k).mantissa (em >>> k).accuracy := by
  induction k with
  | zero =>
    rw [pow_zero, div_one]
    exact h
  | succ k ih =>
    rw [pow_succ, ← div_div]
    exact ih.shiftRightOne

theorem accuracy_ofMantissaAndAccuracy (m : Nat) (a : Accuracy) :
    (ExtendedMantissa.ofMantissaAndAccuracy m a).accuracy = a := by
  rcases a with _ | (_ | _ | _) <;> rfl

/-- Rounding gives the nearest whole number. -/
theorem Placed.round_eq {u : ℚ} {n k : Nat} {a : Accuracy} (h : Placed u n a)
    (hk : Nearest u k) : a.roundToNearestEven n = k := by
  obtain ⟨hn, hlt⟩ := h.bounds
  obtain ⟨hlow, hhigh⟩ := hk.bounds
  have hbelow : n < k + 1 := by
    have : (n : ℚ) < (k + 1 : Nat) := by push_cast; linarith
    exact_mod_cast this
  have habove : k < n + 2 := by
    have : (k : ℚ) < (n + 2 : Nat) := by push_cast; linarith
    exact_mod_cast this
  obtain rfl | rfl : k = n ∨ k = n + 1 := by omega
  · rcases a with _ | (_ | _ | _)
    · rfl
    · rfl
    · have heven : k % 2 = 0 := by
        rcases hk.high with hlt | ⟨heven, -⟩
        · exact absurd h hlt.ne
        · exact heven
      show k + k % 2 = k
      omega
    · exact absurd h.1 (not_lt.mpr hhigh)
  · push_cast at hlow
    rcases a with _ | (_ | _ | _)
    · have heq : u = n := h
      linarith
    · have hhalf : u < n + 1 / 2 := h.2
      linarith
    · have hodd : (n + 1) % 2 = 0 := by
        rcases hk.low with hlt | ⟨hodd, -⟩
        · have heq : u = n + 1 / 2 := h
          push_cast at hlt
          linarith
        · exact hodd
      show n + n % 2 = n + 1
      omega
    · rfl

/-! ## 2. The interval of a double -/

-- A power with an integer exponent takes another one with it that makes both natural.
theorem pow_toNat {b : ℚ} (hb : b ≠ 0) (e : Int) : b ^ e.toNat = b ^ e * b ^ (-e).toNat := by
  rw [← zpow_natCast, ← zpow_natCast, ← zpow_add₀ hb]
  congr 1
  omega

/-- The numbers that round to `m · 2 ^ e` begin at this many quarters of a unit: below a power of
two the neighbour is half as far away as above it. -/
def lowerEnd (m : Nat) (e : Int) : Nat :=
  if m = 2 ^ 52 ∧ -1074 < e then 4 * m - 1 else 4 * m - 2

/-- A number that lies in the interval of `m · 2 ^ e`. -/
structure RoundsTo (v : ℚ) (m : Nat) (e : Int) : Prop where
  low : lowerEnd m e < 4 * (v / 2 ^ e) ∨ m % 2 = 0 ∧ 4 * (v / 2 ^ e) = lowerEnd m e
  high : 4 * (v / 2 ^ e) < 4 * m + 2 ∨ m % 2 = 0 ∧ 4 * (v / 2 ^ e) = 4 * m + 2

section

variable {v : ℚ} {m : Nat} {e : Int}

theorem lt_of_units {j : Nat} (h : v / 2 ^ e < 2 ^ j) : v < 2 ^ (e + j) := by
  rwa [div_lt_iff₀ (by positivity), mul_comm, ← zpow_natCast, ← zpow_add₀ two_ne_zero] at h

theorem le_of_units {j : Nat} (h : 2 ^ j ≤ v / 2 ^ e) : 2 ^ (e + j) ≤ v := by
  rwa [le_div_iff₀ (by positivity), mul_comm, ← zpow_natCast, ← zpow_add₀ two_ne_zero] at h

theorem roundsTo_self (hm : 0 < m) (e : Int) : RoundsTo (m * 2 ^ e) m e := by
  have hunits : (m : ℚ) * 2 ^ e / 2 ^ e = m := mul_div_cancel_right₀ _ (by positivity)
  have hlow : lowerEnd m e < 4 * m := by
    rw [lowerEnd]
    split <;> omega
  refine ⟨Or.inl ?_, Or.inl ?_⟩
  · rw [hunits]
    exact_mod_cast hlow
  · rw [hunits]
    linarith

theorem RoundsTo.bounds (h : RoundsTo v m e) :
    (lowerEnd m e : ℚ) ≤ 4 * (v / 2 ^ e) ∧ 4 * (v / 2 ^ e) ≤ 4 * m + 2 := by
  obtain ⟨hlow, hhigh⟩ := h
  constructor
  · rcases hlow with h | ⟨-, h⟩ <;> linarith
  · rcases hhigh with h | ⟨-, h⟩ <;> linarith

/-- Half a unit is the least number that can round to a positive double. -/
theorem RoundsTo.half_le (h : RoundsTo v m e) (hm : 0 < m) : 2 ^ e / 2 ≤ v := by
  have hend : (2 : ℚ) ≤ lowerEnd m e := by
    have hnat : 2 ≤ lowerEnd m e := by
      rw [lowerEnd]
      split <;> omega
    exact_mod_cast hnat
  have hunits : 1 / 2 ≤ v / 2 ^ e := by linarith [h.bounds.1]
  rw [le_div_iff₀ (by positivity)] at hunits
  linarith

theorem RoundsTo.pos (h : RoundsTo v m e) (hm : 0 < m) : 0 < v :=
  lt_of_lt_of_le (by positivity) (h.half_le hm)

/-- Away from a power of two the mantissa is the nearest whole number. -/
theorem RoundsTo.nearest (h : RoundsTo v m e) (hm : 0 < m)
    (hwide : -1074 < e → 2 ^ 52 ≤ v / 2 ^ e) : Nearest (v / 2 ^ e) m := by
  obtain ⟨hlow, hhigh⟩ := h
  constructor
  · by_cases hnarrow : m = 2 ^ 52 ∧ -1074 < e
    · have hfull := hwide hnarrow.2
      have hmantissa : (m : ℚ) = 2 ^ 52 := by exact_mod_cast hnarrow.1
      exact Or.inl (by linarith)
    · have hend : (lowerEnd m e : ℚ) = 4 * m - 2 := by
        rw [lowerEnd, if_neg hnarrow, Nat.cast_sub (by omega)]
        push_cast
        ring
      rw [hend] at hlow
      rcases hlow with hlt | ⟨heven, heq⟩
      · exact Or.inl (by linarith)
      · exact Or.inr ⟨heven, by linarith⟩
  · rcases hhigh with hlt | ⟨heven, heq⟩
    · exact Or.inl (by linarith)
    · exact Or.inr ⟨heven, by linarith⟩

/-- Below a power of two the nearest mantissa is the greatest one and its carry. -/
theorem RoundsTo.nearest_carry (h : RoundsTo v m e) (hfull : 2 ^ 52 ≤ m) (he : -1074 < e)
    (hbelow : v / 2 ^ e < 2 ^ 52) : m = 2 ^ 52 ∧ Nearest (v / 2 ^ (e - 1)) (2 ^ 53) := by
  have hlow := h.bounds.1
  have hmantissa : m = 2 ^ 52 := by
    by_contra hne
    rw [lowerEnd, if_neg fun h => hne h.1, Nat.cast_sub (by omega)] at hlow
    have hgreater : (2 ^ 52 + 1 : ℚ) ≤ m := by exact_mod_cast show 2 ^ 52 + 1 ≤ m by omega
    push_cast at hlow
    linarith
  have hunits : v / 2 ^ (e - 1) = 2 * (v / 2 ^ e) := by
    rw [zpow_sub_one₀ two_ne_zero]
    ring
  rw [lowerEnd, if_pos ⟨hmantissa, he⟩, hmantissa] at hlow
  norm_num at hlow hbelow
  refine ⟨hmantissa, ?_, Or.inl ?_⟩
  · rw [hunits]
    norm_num
    rcases hlow.lt_or_eq with hlt | heq
    · exact Or.inl (by linarith)
    · exact Or.inr (by linarith)
  · rw [hunits]
    norm_num
    linarith

end

/-! ## 3. Rounding -/

/-- A mantissa has as many bits as a double keeps, so that none need be filled in. -/
def Ample (m : Nat) (e : Int) : Prop := 52 ≤ m.log2 ∨ e ≤ -1074

section

variable {v : ℚ} {n : Nat} {e : Int} {a : Accuracy} (hv : Placed (v / 2 ^ e) n a)

include hv in
theorem rounded_eq {k : Nat} (hk : Nearest (v / 2 ^ (e + dropped n e)) k) : rounded n e a = k := by
  rw [zpow_add₀ two_ne_zero, zpow_natCast, ← div_div] at hk
  have hstart : Placed (v / 2 ^ e) (ExtendedMantissa.ofMantissaAndAccuracy n a).mantissa
      (ExtendedMantissa.ofMantissaAndAccuracy n a).accuracy := by
    rwa [mantissa_ofMantissaAndAccuracy, accuracy_ofMantissaAndAccuracy]
  exact (hstart.shiftRight (dropped n e)).round_eq hk

theorem Ample.exponent_eq (h : Ample n e) :
    e + (dropped n e : Int) = max ((n.log2 : Int) + e - 52) (-1074) := by
  rw [dropped, targetExponent_eq]
  rw [Ample] at h
  omega

include hv in
theorem Placed.pow_bounds (hn : 0 < n) :
    (2 : ℚ) ^ ((n.log2 : Int) + e) ≤ v ∧ v < 2 ^ ((n.log2 : Int) + 1 + e) := by
  obtain ⟨hlow, hhigh⟩ := hv.bounds
  have hpos : (0 : ℚ) < 2 ^ e := by positivity
  have hfirst : (2 : ℚ) ^ n.log2 ≤ n := by exact_mod_cast Nat.log2_self_le (Nat.ne_of_gt hn)
  have hnext : (n : ℚ) + 1 ≤ 2 ^ (n.log2 + 1) := by
    exact_mod_cast Nat.succ_le_of_lt (Nat.lt_log2_self (n := n))
  rw [le_div_iff₀ hpos] at hlow
  rw [div_lt_iff₀ hpos] at hhigh
  constructor
  · rw [zpow_add₀ two_ne_zero, zpow_natCast]
    exact (mul_le_mul_of_nonneg_right hfirst hpos.le).trans hlow
  · rw [zpow_add₀ two_ne_zero, ← Nat.cast_succ, zpow_natCast]
    exact hhigh.trans_le (mul_le_mul_of_nonneg_right hnext hpos.le)

include hv in
/-- The exponent that is left is the one of the leading bit, or the least one. -/
theorem exponent_eq_of_full (h : Ample n e) {k : Int} (hk : -1074 ≤ k)
    (hlow : 2 ^ (k + 52) ≤ v) (hhigh : v < 2 ^ (k + 53)) : e + (dropped n e : Int) = k := by
  have hpos : 0 < n := by
    by_contra hzero
    obtain rfl : n = 0 := by omega
    have hlt := hv.bounds.2
    rw [Nat.cast_zero, zero_add, div_lt_one (by positivity)] at hlt
    have he : e ≤ k + 52 := by
      rcases h with h | h
      · exact absurd h (by decide)
      · omega
    have hle : (2 : ℚ) ^ e ≤ 2 ^ (k + 52) := zpow_le_zpow_right₀ one_le_two he
    linarith
  obtain ⟨hfirst, hnext⟩ := hv.pow_bounds hpos
  have habove : (n.log2 : Int) + e < k + 53 :=
    (zpow_lt_zpow_iff_right₀ one_lt_two).mp (hfirst.trans_lt hhigh)
  have hbelow : k + 52 < (n.log2 : Int) + 1 + e :=
    (zpow_lt_zpow_iff_right₀ one_lt_two).mp (hlow.trans_lt hnext)
  rw [h.exponent_eq]
  omega

include hv in
theorem exponent_eq_of_short (h : Ample n e) (hhigh : v < 2 ^ (-1021 : Int)) :
    e + (dropped n e : Int) = -1074 := by
  rw [h.exponent_eq]
  by_cases hzero : n = 0
  · subst hzero
    have hlog : Nat.log2 0 = 0 := by decide
    rw [Ample] at h
    omega
  · have hfirst := (hv.pow_bounds (Nat.pos_of_ne_zero hzero)).1
    have habove : (n.log2 : Int) + e < -1021 :=
      (zpow_lt_zpow_iff_right₀ one_lt_two).mp (hfirst.trans_lt hhigh)
    omega

-- A mantissa of at most 53 bits is left as it is.
theorem dropped_eq_zero {m : Nat} {q : Int} (hm : Canonical m q) : dropped m q = 0 := by
  have hlog : m.log2 < 53 := log2_lt_of_lt (by decide) hm.lt
  have hlow := hm.low
  rw [dropped, targetExponent_eq]
  omega

-- The carry of the greatest mantissa takes one more step.
theorem dropped_carry {q : Int} (hq : -1074 < q) : dropped (2 ^ 53) (q - 1) = 1 := by
  rw [dropped, targetExponent_eq, Nat.log2_two_pow]
  omega

theorem roundWithAccuracy_of_rounded {s : Sign} {r k : Nat} {q : Int} (hr : rounded n e a = r)
    (hq : e + (dropped n e : Int) = q) (hk : dropped r q = k) (hpos : 0 < r / 2 ^ k) :
    roundWithAccuracy Format.binary64 s n e a = .finite s (r / 2 ^ k) (q + k) hpos := by
  rw [roundWithAccuracy_eq]
  subst hr hq hk
  exact dif_neg (Nat.ne_of_gt hpos)

include hv in
/-- A number is rounded to the double in whose interval it lies. -/
theorem roundWithAccuracy_of_roundsTo (s : Sign) (h : Ample n e) {m : Nat} {q : Int} (hm : 0 < m)
    (hcanonical : Canonical m q) (hround : RoundsTo v m q) :
    roundWithAccuracy Format.binary64 s n e a = .finite s m q hm := by
  have hpos : (0 : ℚ) < 2 ^ q := by positivity
  have hlow := hcanonical.low
  have hmantissa : (m : ℚ) + 1 ≤ 2 ^ 53 := by exact_mod_cast hcanonical.lt
  have hhigh : v < 2 ^ (q + 53) := lt_of_units (by linarith [hround.bounds.2])
  by_cases hbelow : -1074 < q ∧ v / 2 ^ q < 2 ^ 52
  · have hfull := hcanonical.full (Int.ne_of_gt hbelow.1)
    obtain ⟨rfl, hnearest⟩ := hround.nearest_carry hfull hbelow.1 hbelow.2
    have hexponent : e + (dropped n e : Int) = q - 1 := by
      apply exponent_eq_of_full hv h (by omega)
      · have hnear := hnearest.bounds.1
        apply le_of_units (j := 52)
        norm_num at hnear ⊢
        linarith
      · rw [show q - 1 + 53 = q + 52 by omega]
        exact lt_of_units hbelow.2
    rw [← hexponent] at hnearest
    have hcarry := roundWithAccuracy_of_rounded (s := s) (rounded_eq hv hnearest) hexponent
      (dropped_carry hbelow.1) (by decide)
    rw [hcarry, UnpackedFloat.finite.injEq]
    exact ⟨rfl, rfl, by omega⟩
  · have hexponent : e + (dropped n e : Int) = q := by
      by_cases hunits : 2 ^ 52 ≤ v / 2 ^ q
      · exact exponent_eq_of_full hv h hlow (le_of_units hunits) hhigh
      · obtain rfl : q = -1074 := by
          by_contra hne
          exact hbelow ⟨by omega, not_le.mp hunits⟩
        exact exponent_eq_of_short hv h hhigh
    have hnearest := hround.nearest hm fun hq => not_lt.mp fun hlt => hbelow ⟨hq, hlt⟩
    rw [← hexponent] at hnearest
    have hkept := roundWithAccuracy_of_rounded (s := s) (rounded_eq hv hnearest) hexponent
      (dropped_eq_zero hcanonical) (by rwa [pow_zero, Nat.div_one])
    rw [hkept, UnpackedFloat.finite.injEq]
    exact ⟨rfl, by rw [pow_zero, Nat.div_one], by omega⟩

end

/-- A number that has canonical parts is rounded to them. -/
theorem round_of_value {n m : Nat} {e q : Int} (hn : 0 < n) (hm : 0 < m)
    (hcanonical : Canonical m q) (h : (n : ℚ) * 2 ^ e = m * 2 ^ q) :
    UnpackedFloat.round Format.binary64 .positive n e = .finite .positive m q hm := by
  let shift := (e - Format.binary64.targetExponent (totalExponent n e)).toNat
  have hplaced : Placed ((m : ℚ) * 2 ^ q / 2 ^ (e - shift)) (n <<< shift) .exact := by
    show _ = _
    rw [div_eq_iff (by positivity), shiftLeft_sub_eq, h]
  have hshift : shift = (e - max ((n.log2 : Int) + e - 52) (-1074)).toNat := by
    simp only [shift, targetExponent_eq]
  have hample : Ample (n <<< shift) (e - shift) := by
    by_cases hlow : e - shift ≤ -1074
    · exact Or.inr hlow
    · have hfull : 2 ^ 52 ≤ n <<< shift := by
        calc 2 ^ 52 ≤ 2 ^ (n.log2 + shift) := Nat.pow_le_pow_right (by decide) (by omega)
          _ = 2 ^ n.log2 * 2 ^ shift := Nat.pow_add _ _ _
          _ ≤ n * 2 ^ shift := Nat.mul_le_mul_right _ (Nat.log2_self_le (Nat.ne_of_gt hn))
          _ = n <<< shift := (Nat.shiftLeft_eq n shift).symm
      exact Or.inl ((Nat.le_log2 (by omega)).mpr hfull)
  exact roundWithAccuracy_of_roundsTo hplaced .positive hample hm hcanonical (roundsTo_self hm q)

/-! ## 4. Products and quotients -/

theorem placed_div (n : Nat) {k : Nat} (hk : 0 < k) :
    Placed ((n : ℚ) / k) (n / k) (accuracyOfFraction (n % k) k) := by
  have hpos : (0 : ℚ) < k := by exact_mod_cast hk
  have hrest : (n : ℚ) / k = (n / k : Nat) + (n % k : Nat) / k := by
    rw [div_eq_iff hpos.ne', add_mul, div_mul_cancel₀ _ hpos.ne', mul_comm]
    exact_mod_cast (Nat.div_add_mod n k).symm
  have hlt : ((n % k : Nat) : ℚ) < k := by exact_mod_cast Nat.mod_lt n hk
  rw [hrest, accuracyOfFraction]
  generalize n % k = r at hlt ⊢
  split
  next hzero =>
    rw [hzero, Nat.cast_zero, zero_div, add_zero]
    rfl
  next hne =>
    have hr : (0 : ℚ) < r / k := div_pos (by exact_mod_cast Nat.pos_of_ne_zero hne) hpos
    cases hcompare : compare (2 * r) k with
    | lt =>
      have hhalf : (2 * r : ℚ) < k := by exact_mod_cast Nat.compare_eq_lt.mp hcompare
      have hless : (r : ℚ) / k < 1 / 2 := by
        rw [div_lt_div_iff₀ hpos two_pos]
        linarith
      exact ⟨by linarith, by linarith⟩
    | eq =>
      have hhalf : (2 * r : ℚ) = k := by exact_mod_cast Nat.compare_eq_eq.mp hcompare
      have heq : (r : ℚ) / k = 1 / 2 := by
        rw [div_eq_div_iff hpos.ne' two_ne_zero]
        linarith
      show _ = _
      rw [heq]
    | gt =>
      have hhalf : (k : ℚ) < 2 * r := by exact_mod_cast Nat.compare_eq_gt.mp hcompare
      have hmore : 1 / 2 < (r : ℚ) / k := by
        rw [div_lt_div_iff₀ two_pos hpos]
        linarith
      have hone : (r : ℚ) / k < 1 := (div_lt_one hpos).mpr hlt
      exact ⟨by linarith, by linarith⟩

-- A numerator with 53 bits more than the denominator leaves a quotient of 53 bits.
theorem le_log2_quotient {k n j : Nat} (hk : 0 < k) (hn : 0 < n)
    (h : n.log2 + 53 ≤ k.log2 + j) : 52 ≤ ((k <<< j) / n).log2 := by
  have hbits : 2 ^ 52 * n ≤ k <<< j := by
    calc 2 ^ 52 * n ≤ 2 ^ 52 * 2 ^ (n.log2 + 1) := Nat.mul_le_mul_left _ Nat.lt_log2_self.le
      _ = 2 ^ (52 + (n.log2 + 1)) := (Nat.pow_add _ _ _).symm
      _ ≤ 2 ^ (k.log2 + j) := Nat.pow_le_pow_right (by decide) (by omega)
      _ = 2 ^ k.log2 * 2 ^ j := Nat.pow_add _ _ _
      _ ≤ k * 2 ^ j := Nat.mul_le_mul_right _ (Nat.log2_self_le (Nat.ne_of_gt hk))
      _ = k <<< j := (Nat.shiftLeft_eq k j).symm
  have hquotient : 2 ^ 52 ≤ (k <<< j) / n := (Nat.le_div_iff_mul_le hn).mpr hbits
  exact (Nat.le_log2 (by omega)).mpr hquotient

section

variable {m : Nat} {q : Int} (hm : 0 < m) (hcanonical : Canonical m q)
variable {k n : Nat} {d e : Int} (hk : 0 < k) (hn : 0 < n)
include hcanonical

/-- A product is the double in whose interval it lies. -/
theorem mul_of_roundsTo (hbits : 2 ^ 52 ≤ k * n)
    (h : RoundsTo (k * 2 ^ d * (n * 2 ^ e)) m q) :
    mul Format.binary64 (.finite .positive k d hk) (.finite .positive n e hn) =
      .finite .positive m q hm := by
  have hplaced : Placed ((k : ℚ) * 2 ^ d * (n * 2 ^ e) / 2 ^ (d + e)) (k * n) .exact := by
    show _ = _
    rw [zpow_add₀ two_ne_zero, div_eq_iff (by positivity), Nat.cast_mul]
    ring
  have hample : Ample (k * n) (d + e) :=
    Or.inl ((Nat.le_log2 (Nat.ne_of_gt (Nat.mul_pos hk hn))).mpr hbits)
  exact roundWithAccuracy_of_roundsTo hplaced .positive hample hm hcanonical h

/-- A quotient is the double in whose interval it lies. -/
theorem div_of_roundsTo (h : RoundsTo (k * 2 ^ d / (n * 2 ^ e)) m q) :
    div Format.binary64 (.finite .positive k d hk) (.finite .positive n e hn) =
      .finite .positive m q hm := by
  let target := min (d - e)
    (Format.binary64.targetExponent (totalExponent k d - totalExponent n e))
  have htarget : target = min (d - e) (max ((k.log2 : Int) + d - (n.log2 + e) - 53) (-1074)) := by
    simp only [target, Format.targetExponent, totalExponent, Format.mantissaBits,
      Format.minExponent]
    norm_num
    omega
  let shifted := k <<< (d - e - target).toNat
  have hshifted : (shifted : ℚ) * 2 ^ target = k * 2 ^ (d - e) := shiftLeft_eq k (by omega)
  have hplaced : Placed ((k : ℚ) * 2 ^ d / (n * 2 ^ e) / 2 ^ target) (shifted / n)
      (accuracyOfFraction (shifted % n) n) := by
    have hunits : (k : ℚ) * 2 ^ d / (n * 2 ^ e) / 2 ^ target = shifted / n := by
      rw [eq_div_iff (by positivity), ← mul_div_cancel_right₀ (shifted : ℚ) (b := 2 ^ target)
        (by positivity), hshifted, zpow_sub₀ two_ne_zero]
      field_simp
    rw [hunits]
    exact placed_div shifted hn
  have hample : Ample (shifted / n) target := by
    by_cases hlow : target ≤ -1074
    · exact Or.inr hlow
    · exact Or.inl (le_log2_quotient hk hn (by omega))
  exact roundWithAccuracy_of_roundsTo hplaced .positive hample hm hcanonical h

end

end PlotScene.Double
