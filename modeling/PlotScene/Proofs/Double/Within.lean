import Mathlib.Tactic.Linarith
import Mathlib.Tactic.Positivity
import PlotScene.Proofs.Double.Exact

/-!
# Doubles within a bound

Rounding raises a number by at most one unit in its last place, so a product or a sum of positive
doubles exceeds the exact one by no more than that.
-/

namespace PlotScene.Double

open Float.Model Float.Model.UnpackedFloat

/-! ## 1. Bounds -/

/-- Zero, or a positive double that is not above `b`. -/
inductive Within (b : ℚ) : UnpackedFloat → Prop where
  | zero (s : Sign) : Within b (.zero s)
  | finite {m : Nat} {e : Int} (hm : 0 < m) : m < 2 ^ 53 → -1074 ≤ e → (m : ℚ) * 2 ^ e ≤ b →
      Within b (.finite .positive m e hm)

theorem Within.mono {b c : ℚ} {f : UnpackedFloat} (h : Within b f) (hc : b ≤ c) : Within c f := by
  cases h with
  | zero s => exact .zero s
  | finite hm hlt he hb => exact .finite hm hlt he (hb.trans hc)

theorem exponent_le_of_le {m : Nat} {e j : Int} (hm : 0 < m) (h : (m : ℚ) * 2 ^ e < 2 ^ j) :
    (m.log2 : Int) + e < j := by
  have hlog : (2 : ℚ) ^ m.log2 ≤ m := by
    exact_mod_cast Nat.log2_self_le (Nat.ne_of_gt hm)
  have hpow : (2 : ℚ) ^ ((m.log2 : Int) + e) < 2 ^ j := by
    rw [zpow_add₀ two_ne_zero, zpow_natCast]
    exact (mul_le_mul_of_nonneg_right hlog (by positivity)).trans_lt h
  exact (zpow_lt_zpow_iff_right₀ one_lt_two).mp hpow

/-- The value read back from a packed number is not above it. -/
theorem Within.unpack_pack {b : ℚ} {f : UnpackedFloat} {j : Int} (h : Within b f)
    (hb : b < 2 ^ j) (hj : j ≤ 972) :
    Within b (unpack Format.binary64 (pack Format.binary64 f)) := by
  cases h with
  | zero s =>
    rw [unpack_packedZero]
    exact .zero s
  | @finite m e hm hlt he hle =>
    have htotal := exponent_le_of_le hm (hle.trans_lt hb)
    obtain ⟨e', hlower, hlow, heq⟩ := unpack_pack_finite (s := .positive) hm hlt he (by omega)
    rw [heq]
    have hpow : (2 : ℚ) ^ e' ≤ 2 ^ e := zpow_le_zpow_right₀ one_le_two hlower
    exact .finite hm hlt hlow ((mul_le_mul_of_nonneg_left hpow (Nat.cast_nonneg m)).trans hle)

/-! ## 2. Rounding -/

-- Rounding raises a number by at most one unit in its last place.
theorem rounded_le (m : Nat) (e : Int) (a : Accuracy) :
    (rounded m e a : ℚ) * 2 ^ (e + dropped m e) ≤ m * 2 ^ e + 2 ^ (e + dropped m e) := by
  have hdiv : m / 2 ^ dropped m e * 2 ^ dropped m e ≤ m := Nat.div_mul_le_self _ _
  have hnat : rounded m e a * 2 ^ dropped m e ≤ m + 2 ^ dropped m e := by
    calc rounded m e a * 2 ^ dropped m e
        ≤ (m / 2 ^ dropped m e + 1) * 2 ^ dropped m e :=
          Nat.mul_le_mul_right _ (rounded_bounds m e a).2
      _ ≤ m + 2 ^ dropped m e := by rw [Nat.add_mul, Nat.one_mul]; omega
  have hrat : (rounded m e a : ℚ) * 2 ^ dropped m e ≤ m + 2 ^ dropped m e := by
    exact_mod_cast hnat
  calc (rounded m e a : ℚ) * 2 ^ (e + dropped m e)
      = rounded m e a * 2 ^ dropped m e * 2 ^ e := by
        rw [zpow_add₀ two_ne_zero, zpow_natCast]; ring
    _ ≤ (m + 2 ^ dropped m e) * 2 ^ e := mul_le_mul_of_nonneg_right hrat (by positivity)
    _ = m * 2 ^ e + 2 ^ (e + dropped m e) := by
        rw [zpow_add₀ two_ne_zero, zpow_natCast]; ring

theorem shifted_le (r k : Nat) (e : Int) :
    ((r / 2 ^ k : Nat) : ℚ) * 2 ^ (e + k) ≤ r * 2 ^ e := by
  have hdiv : ((r / 2 ^ k : Nat) : ℚ) * 2 ^ k ≤ r := by
    exact_mod_cast Nat.div_mul_le_self r (2 ^ k)
  calc ((r / 2 ^ k : Nat) : ℚ) * 2 ^ (e + k) = (r / 2 ^ k : Nat) * 2 ^ k * 2 ^ e := by
        rw [zpow_add₀ two_ne_zero, zpow_natCast]; ring
    _ ≤ r * 2 ^ e := mul_le_mul_of_nonneg_right hdiv (by positivity)

theorem within_roundWithAccuracy {m : Nat} {e k : Int} {a : Accuracy} {b : ℚ} (hm : 0 < m)
    (he : e ≤ k) (hk : -1074 ≤ k) (hb : (m : ℚ) * 2 ^ e ≤ b) (hlarge : b < 2 ^ (k + 53)) :
    Within (b + 2 ^ k) (roundWithAccuracy Format.binary64 .positive m e a) := by
  have htotal := exponent_le_of_le hm (hb.trans_lt hlarge)
  have hlast : e + (dropped m e : Int) ≤ k := exponent_le he hk (by omega)
  have hround : (rounded m e a : ℚ) * 2 ^ (e + dropped m e) ≤ b + 2 ^ k :=
    (rounded_le m e a).trans
      (add_le_add hb (zpow_le_zpow_right₀ one_le_two hlast))
  rw [roundWithAccuracy_eq]
  dsimp only
  split
  · exact .zero _
  · exact .finite _ (kept_lt _ _) (le_exponent _ _) ((shifted_le _ _ _).trans hround)

/-! ## 3. Products and sums -/

section Operations

variable {f : UnpackedFloat} {b : ℚ} {n : Nat} {d k : Int}

theorem Within.mul (hf : Within b f) (hn : 0 < n) (hk : -1074 ≤ k) (hb : b < 2 ^ (k - d + 1))
    (hlarge : b * (n * 2 ^ d) < 2 ^ (k + 53)) :
    Within (b * (n * 2 ^ d) + 2 ^ k)
      (UnpackedFloat.mul Format.binary64 f (.finite .positive n d hn)) := by
  cases hf with
  | zero s => exact .zero _
  | @finite m e hm hlt he hle =>
    have htotal := exponent_le_of_le hm (hle.trans_lt hb)
    have hprod : ((m * n : Nat) : ℚ) * 2 ^ (e + d) ≤ b * (n * 2 ^ d) := by
      calc ((m * n : Nat) : ℚ) * 2 ^ (e + d) = m * 2 ^ e * (n * 2 ^ d) := by
            rw [zpow_add₀ two_ne_zero, Nat.cast_mul]; ring
        _ ≤ b * (n * 2 ^ d) := mul_le_mul_of_nonneg_right hle (by positivity)
    exact within_roundWithAccuracy (Nat.mul_pos hm hn) (by omega) hk hprod hlarge

theorem within_round {m : Nat} {e : Int} (hm : 0 < m) (he : e ≤ k) (hk : -1074 ≤ k)
    (hb : (m : ℚ) * 2 ^ e ≤ b) (hlarge : b < 2 ^ (k + 53)) :
    Within (b + 2 ^ k) (UnpackedFloat.round Format.binary64 .positive m e) := by
  let shift := (e - Format.binary64.targetExponent (totalExponent m e)).toNat
  have hpos : 0 < m <<< shift := by
    rw [Nat.shiftLeft_eq]
    exact Nat.mul_pos hm (Nat.two_pow_pos _)
  exact within_roundWithAccuracy hpos (by omega) hk ((shiftLeft_sub_eq m e shift).trans_le hb) hlarge

theorem normalize_pos {m : Nat} {e : Int} (hm : 0 < m) : normalize Format.binary64 m e .positive =
    UnpackedFloat.round Format.binary64 .positive m e := by
  rw [UnpackedFloat.normalize, compare_gt_iff_gt.mpr (show (m : Int) > 0 by omega)]
  rfl

theorem Within.add (hf : Within b f) (hn : 0 < n) (hd : d ≤ k) (hk : -1074 ≤ k)
    (hlt : n < 2 ^ 53) (hlow : -1074 ≤ d) (hb : 0 ≤ b) (hlarge : b + n * 2 ^ d < 2 ^ (k + 53)) :
    Within (b + n * 2 ^ d + 2 ^ k)
      (UnpackedFloat.add Format.binary64 f (.finite .positive n d hn)) := by
  have hulp : (0 : ℚ) < 2 ^ k := by positivity
  cases hf with
  | zero s => exact .finite hn hlt hlow (by linarith)
  | @finite m e hm hlt he hle =>
    have hleft := shiftLeft_eq m (Int.min_le_left e d)
    have hright := shiftLeft_eq n (Int.min_le_right e d)
    have hsum : ((m <<< (e - min e d).toNat + n <<< (d - min e d).toNat : Nat) : ℚ) *
        2 ^ min e d ≤ b + n * 2 ^ d := by
      rw [Nat.cast_add, add_mul, hleft, hright]
      linarith
    have hpos : 0 < m <<< (e - min e d).toNat + n <<< (d - min e d).toNat := by
      rw [Nat.shiftLeft_eq]
      exact Nat.add_pos_left (Nat.mul_pos hm (Nat.two_pow_pos _)) _
    have hround := within_round hpos ((Int.min_le_right e d).trans hd) hk hsum hlarge
    rw [← normalize_pos hpos] at hround
    exact hround

end Operations

/-! ## 4. Doubles -/

theorem Canonical.le_of_rank {m n : Nat} {e d : Int} (hm : Canonical m e) (hn : Canonical n d)
    (h : e < d ∨ e = d ∧ m ≤ n) : (m : ℚ) * 2 ^ e ≤ n * 2 ^ d := by
  obtain hlt | ⟨rfl, hle⟩ := h
  · have hfull : 2 ^ 52 ≤ n := hn.full (by have := hm.low; omega)
    have hmantissa : (m : ℚ) ≤ 2 ^ 53 := by exact_mod_cast hm.lt.le
    calc (m : ℚ) * 2 ^ e ≤ 2 ^ 53 * 2 ^ e := mul_le_mul_of_nonneg_right hmantissa (by positivity)
      _ = 2 ^ 52 * 2 ^ (e + 1) := by rw [zpow_add_one₀ two_ne_zero]; ring
      _ ≤ n * 2 ^ d := mul_le_mul (by exact_mod_cast hfull)
          (zpow_le_zpow_right₀ one_le_two (by omega)) (by positivity) (by positivity)
  · exact mul_le_mul_of_nonneg_right (by exact_mod_cast hle) (by positivity)

/-- A double from zero to a positive one is within the value of that one. -/
theorem within_of_between {x : Float} {n : Nat} {d : Int} (hn : 0 < n) (hcanonical : Canonical n d)
    (hlow : rankOf (.zero .positive) ≤ rank x) (hhigh : rank x ≤ rankOf (.finite .positive n d hn)) :
    Within (n * 2 ^ d) x.toModel.unpack := by
  have hx : ∀ {s m e hm}, x.toModel.unpack = .finite s m e hm → Canonical m e :=
    fun h => canonical_unpack h
  rw [rank] at hlow hhigh
  generalize x.toModel.unpack = f at hlow hhigh hx
  cases f with
  | zero s => exact .zero s
  | notANumber => simp [rankOf, Prod.Lex.toLex_le_toLex] at hhigh
  | infinity s => cases s <;> simp [rankOf, Prod.Lex.toLex_le_toLex] at hlow hhigh
  | finite s m e hm =>
    cases s with
    | negative => simp [rankOf, Prod.Lex.toLex_le_toLex] at hlow
    | positive =>
      have hle : e < d ∨ e = d ∧ m ≤ n := by
        simpa [rankOf, Prod.Lex.toLex_le_toLex] using hhigh
      have hm' := hx rfl
      exact .finite hm hm'.lt hm'.low (hm'.le_of_rank hcanonical hle)

theorem exists_rational? {x : Float} {b : ℚ} (hb : 0 ≤ b) (h : Within b x.toModel.unpack) :
    ∃ q, rational? x = some q ∧ 0 ≤ q ∧ q ≤ b := by
  generalize hf : x.toModel.unpack = f at h
  cases h with
  | zero s => exact ⟨0, rational?_of_zero hf, le_rfl, hb⟩
  | @finite m e hm hlt he hle =>
    have hnonneg : (0 : ℚ) ≤ m * 2 ^ e := by positivity
    exact ⟨_, rational?_of_finite hf, hnonneg, hle⟩

/-- A finite double that is not negative has an exact value that is not negative. -/
theorem exists_nonneg {x : Float} (hfinite : x.isFinite = true) (hx : 0 ≤ x) :
    ∃ q, rational? x = some q ∧ 0 ≤ q := by
  have hlow : rankOf (.zero .positive) ≤ rank x := (le_iff.mp hx).2.2
  obtain ⟨b, hb, hwithin⟩ : ∃ b : ℚ, 0 ≤ b ∧ Within b x.toModel.unpack := by
    have hcanonical : IsCanonical x.toModel.unpack := fun h => canonical_unpack h
    rw [rank] at hlow
    change x.toModel.unpack.isFinite = true at hfinite
    generalize x.toModel.unpack = f at hlow hfinite hcanonical
    cases f with
    | zero s => exact ⟨0, le_rfl, .zero s⟩
    | notANumber => cases hfinite
    | infinity s => cases hfinite
    | finite s m e hm =>
      cases s with
      | negative => simp [rankOf, Prod.Lex.toLex_le_toLex] at hlow
      | positive =>
        have hparts := hcanonical rfl
        exact ⟨m * 2 ^ e, by positivity, .finite hm hparts.lt hparts.low le_rfl⟩
  obtain ⟨q, hq, hnonneg, -⟩ := exists_rational? hb hwithin
  exact ⟨q, hq, hnonneg⟩

theorem floor?_of_within {x : Float} {n : Nat} {b : ℚ} (hb : 0 ≤ b) (hn : b < n)
    (h : Within b x.toModel.unpack) : ∃ i : Nat, floor? x = some (i : Int) ∧ i < n := by
  obtain ⟨q, hq, hlow, hle⟩ := exists_rational? hb h
  have hfloor : 0 ≤ q.floor := Rat.le_floor_iff.mpr (by exact_mod_cast hlow)
  obtain ⟨i, hi⟩ := Int.eq_ofNat_of_zero_le hfloor
  refine ⟨i, by rw [floor?, hq, ← hi]; rfl, ?_⟩
  have hlt : q.floor < n := by
    rw [Rat.floor_lt_iff]
    exact_mod_cast hle.trans_lt hn
  omega

end PlotScene.Double
