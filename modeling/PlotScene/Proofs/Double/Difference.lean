import PlotScene.Proofs.Double.Order
import PlotScene.Proofs.Double.Rounding

/-!
# Differences of doubles

No difference of doubles falls below the least positive double, which has the least exponent.  So a
difference is rounded to zero only where the two are equal.
-/

namespace PlotScene.Double

open Float.Model Float.Model.UnpackedFloat

/-! ## 1. Canonical parts -/

/-- A mantissa has 53 bits, or fewer at the least exponent. -/
structure Canonical (m : Nat) (e : Int) : Prop where
  lt : m < 2 ^ 53
  low : -1074 ≤ e
  full : e ≠ -1074 → 2 ^ 52 ≤ m

theorem canonical_unpack {b : BitVec Format.binary64.numBits} {s : Sign} {m : Nat} {e : Int}
    {hm : 0 < m} (h : unpack Format.binary64 b = .finite s m e hm) : Canonical m e := by
  have hlt := mantissa_lt h
  simp only [UnpackedFloat.unpack] at h
  split at h
  · split at h <;> cases h
  split at h
  · next hzero =>
    split at h
    · cases h
    · cases h
      have hlow : ((unpackExponent b).toNat : Int) - ((1023 : Nat) + (52 : Nat)) + 1 = -1074 := by
        rw [hzero]
        decide
      exact ⟨hlt, Int.le_of_eq hlow.symm, fun hne => absurd hlow hne⟩
  · next hpos =>
    cases h
    have hexponent : (unpackExponent b).toNat ≠ 0 := fun h => hpos (BitVec.eq_of_toNat_eq h)
    refine ⟨hlt, ?_, fun _ => ?_⟩
    · show -1074 ≤ ((unpackExponent b).toNat : Int) - ((1023 : Nat) + (52 : Nat))
      omega
    · have hbit := toNat_full (unpackMantissa b)
      omega

-- With a greater exponent a full mantissa is beyond the range of the other one.
theorem Canonical.exponent_le {m n : Nat} {d e : Int} (hm : Canonical m d) (hn : Canonical n e)
    (h : m * 2 ^ (d - min d e).toNat = n * 2 ^ (e - min d e).toNat) : e ≤ d := by
  by_contra hlt
  have hfull := hn.full (by have := hm.low; omega)
  have hpow : 2 ^ 1 ≤ 2 ^ (e - min d e).toNat := Nat.pow_le_pow_right (by decide) (by omega)
  have hdouble := Nat.mul_le_mul_left n hpow
  rw [← h, show (d - min d e).toNat = 0 by omega, Nat.pow_zero, Nat.mul_one] at hdouble
  have hbound := hm.lt
  omega

/-- Numbers that are equal have the same canonical parts. -/
theorem Canonical.unique {m n : Nat} {d e : Int} (hm : Canonical m d) (hn : Canonical n e)
    (h : m * 2 ^ (d - min d e).toNat = n * 2 ^ (e - min d e).toNat) : m = n ∧ d = e := by
  have hle := hm.exponent_le hn h
  have hge := hn.exponent_le hm (by rw [min_comm]; exact h.symm)
  have heq : d = e := Int.le_antisymm hge hle
  subst heq
  exact ⟨Nat.eq_of_mul_eq_mul_right (Nat.two_pow_pos _) h, rfl⟩

/-! ## 2. Rounding -/

/-- A number that is not below the least positive double, with a mantissa of at most 53 bits. -/
inductive Above : UnpackedFloat → Prop where
  | finite (s : Sign) {m : Nat} {e : Int} (hm : 0 < m) : m < 2 ^ 53 → -1074 ≤ e →
      Above (.finite s m e hm)

theorem dropped_le_log2 {m : Nat} {e : Int} (he : -1074 ≤ e) : dropped m e ≤ m.log2 := by
  rw [dropped, targetExponent_eq]
  omega

theorem kept_pos {m : Nat} {e : Int} (hm : 0 < m) (he : -1074 ≤ e) : 0 < m / 2 ^ dropped m e := by
  have hlog := Nat.pow_le_pow_right (show 0 < 2 by decide) (dropped_le_log2 (m := m) he)
  exact Nat.div_pos (Nat.le_trans hlog (Nat.log2_self_le (Nat.ne_of_gt hm))) (Nat.two_pow_pos _)

theorem above_roundWithAccuracy (s : Sign) {m : Nat} {e : Int} (a : Accuracy) (hm : 0 < m)
    (he : -1074 ≤ e) : Above (roundWithAccuracy Format.binary64 s m e a) := by
  have hr : 0 < rounded m e a := Nat.lt_of_lt_of_le (kept_pos hm he) (rounded_bounds m e a).1
  rw [roundWithAccuracy_eq]
  simp only [dif_neg (Nat.ne_of_gt (kept_pos hr (le_exponent m e)))]
  exact .finite s _ (kept_lt _ _) (le_exponent _ _)

theorem above_round (s : Sign) {m : Nat} {e : Int} (hm : 0 < m) (he : -1074 ≤ e) :
    Above (UnpackedFloat.round Format.binary64 s m e) := by
  have hlow : -1074 ≤ Format.binary64.targetExponent (totalExponent m e) := by
    rw [targetExponent_eq]
    omega
  refine above_roundWithAccuracy s .exact ?_ ?_
  · rw [Nat.shiftLeft_eq]
    exact Nat.mul_pos hm (Nat.two_pow_pos _)
  · omega

theorem above_normalize {n e : Int} (hn : n ≠ 0) (he : -1074 ≤ e) :
    Above (normalize Format.binary64 n e .positive) := by
  unfold UnpackedFloat.normalize
  split
  · next hlt =>
    have hneg := compare_lt_iff_lt.mp hlt
    exact above_round .negative (by omega) he
  · next heq => exact absurd (compare_eq_iff_eq.mp heq) hn
  · next hgt =>
    have hpos := compare_gt_iff_gt.mp hgt
    exact above_round .positive (by omega) he

/-! ## 3. Zero -/

theorem unpack_eq_zero {b : BitVec Format.binary64.numBits} {t : Sign}
    (h : unpack Format.binary64 b = .zero t) :
    unpackExponent b = 0#11 ∧ unpackMantissa b = 0#52 := by
  simp only [UnpackedFloat.unpack] at h
  split at h
  · split at h <;> cases h
  split at h
  · next hexponent =>
    split at h
    · next hmantissa => exact ⟨hexponent, hmantissa⟩
    · cases h
  · cases h

theorem Above.unpack_pack_ne {f : UnpackedFloat} (hf : Above f) (t : Sign) :
    unpack Format.binary64 (pack Format.binary64 f) ≠ .zero t := by
  intro h
  obtain ⟨hexponent, hmantissa⟩ := unpack_eq_zero h
  cases hf with
  | @finite s m e hm hlt he =>
    rw [pack_finite] at hexponent hmantissa
    split at hexponent
    · rw [packedInfinity, unpackExponent_packComponents] at hexponent
      exact absurd hexponent (by decide)
    -- A full mantissa has a positive exponent in its bits, a shorter one keeps its own bits.
    split at hexponent
    · rw [unpackExponent_packComponents] at hexponent
      have hbits := congrArg BitVec.toNat hexponent
      rw [toNat_ofNat_exponent (by omega)] at hbits
      change (e + 1075).toNat = 0 at hbits
      omega
    · next hinfinite hfull =>
      rw [if_neg hinfinite, if_neg hfull, unpackMantissa_packComponents] at hmantissa
      have hbits := congrArg BitVec.toNat hmantissa
      have hshort : m < 2 ^ 52 := by
        rw [← Nat.log2_lt (Nat.ne_of_gt hm)]
        have hlog := (Nat.log2_lt (Nat.ne_of_gt hm)).mpr hlt
        omega
      rw [BitVec.toNat_ofNat, Nat.mod_eq_of_lt hshort] at hbits
      exact absurd hbits (Nat.ne_of_gt hm)

theorem unpack_of_beq_zero {x : Float} (h : (x == 0) = true) : ∃ t, x.toModel.unpack = .zero t := by
  have hrank : rankOf x.toModel.unpack = toLex (0, toLex (0, 0)) := (beq_iff.mp h).2.2
  cases hx : x.toModel.unpack with
  | zero t => exact ⟨t, rfl⟩
  | notANumber => simp [hx, rankOf] at hrank
  | infinity s => cases s <;> simp [hx, rankOf] at hrank
  | finite s m e hm => cases s <;> simp [hx, rankOf] at hrank

/-- What unpacks to numbers with canonical parts. -/
def IsCanonical (f : UnpackedFloat) : Prop :=
  ∀ {s m e hm}, f = .finite s m e hm → Canonical m e

theorem IsCanonical.above {s : Sign} {m : Nat} {e : Int} {hm : 0 < m}
    (h : IsCanonical (.finite s m e hm)) (t : Sign) : Above (.finite t m e hm) :=
  .finite t hm (h rfl).lt (h rfl).low

-- Over a common exponent the mantissas of numbers of different signs have a difference.
theorem compare_finite {s t : Sign} {m n : Nat} {d e : Int} {hm : 0 < m} {hn : 0 < n}
    (hf : Canonical m d) (hg : Canonical n e)
    (h : s.apply (m <<< (d - min d e).toNat : Nat) -
      t.apply (n <<< (e - min d e).toNat : Nat) = 0) :
    (finite s m d hm).compare (.finite t n e hn) = some .eq := by
  rw [Nat.shiftLeft_eq, Nat.shiftLeft_eq] at h
  have hleft := Nat.mul_pos hm (Nat.two_pow_pos (d - min d e).toNat)
  have hright := Nat.mul_pos hn (Nat.two_pow_pos (e - min d e).toNat)
  cases s <;> cases t <;> simp only [Sign.apply] at h
  case negative.positive | positive.negative => omega
  all_goals
    obtain ⟨rfl, rfl⟩ := hf.unique hg (by omega)
    simp [UnpackedFloat.compare]

theorem compare_of_sub {f g : UnpackedFloat} (hf : IsCanonical f) (hg : IsCanonical g) {t : Sign}
    (h : unpack Format.binary64 (pack Format.binary64 (sub Format.binary64 f g)) = .zero t) :
    f.compare g = some .eq := by
  have hfinite : UpTo 971 (sub Format.binary64 f g) := isFinite_pack.mp (by rw [h]; rfl)
  have hsmall : ¬ Above (sub Format.binary64 f g) := fun habove => habove.unpack_pack_ne t h
  rcases f with s | _ | s | ⟨s, m, d, hm⟩ <;> rcases g with r | _ | r | ⟨r, n, e, hn⟩
  case zero.zero => rfl
  case zero.finite => exact absurd (hg.above _) hsmall
  case finite.zero => exact absurd (hf.above s) hsmall
  case finite.finite =>
    refine compare_finite (hf rfl) (hg rfl) (Decidable.byContradiction fun hne => hsmall ?_)
    exact above_normalize hne (le_min (hf rfl).low (hg rfl).low)
  case infinity.infinity => cases s <;> cases r <;> cases hfinite
  all_goals cases hfinite

/-- Two doubles whose difference is zero are equal. -/
theorem beq_of_sub_beq_zero {x y : Float} (h : (x - y == 0) = true) : (x == y) = true := by
  obtain ⟨t, ht⟩ := unpack_of_beq_zero h
  have hcompare : x.toModel.unpack.compare y.toModel.unpack = some .eq :=
    compare_of_sub (fun hx => canonical_unpack hx) (fun hy => canonical_unpack hy) ht
  show (x.toModel.unpack.compare y.toModel.unpack == some .eq) = true
  exact beq_iff_eq.mpr hcompare

end PlotScene.Double
