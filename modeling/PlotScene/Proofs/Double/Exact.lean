import Mathlib.Algebra.Order.Field.Power
import PlotScene.Proofs.Double.Difference
import PlotScene.Proofs.Double.Integer

/-!
# The exact value of a double

A double has the parts that it unpacks to.  What was packed is read back with its mantissa, and with
its exponent where the parts are canonical, so a finite double is given by its sign and its parts.
-/

namespace PlotScene.Double

open Float.Model Float.Model.UnpackedFloat

/-! ## 1. Fields -/

theorem toNat_unpackMantissa (b : BitVec Format.binary64.numBits) :
    (unpackMantissa b).toNat = b.toNat % Nat.pow 2 52 := by
  show (BitVec.extractLsb 51 0 b).toNat = _
  rw [BitVec.extractLsb_toNat, Nat.shiftRight_zero]

theorem toNat_unpackSign (b : BitVec Format.binary64.numBits) :
    (unpackSign b).toNat = b.toNat / 2 ^ 63 := by
  have hb : b.toNat < 2 ^ 64 := b.isLt
  show (BitVec.extractLsb 63 63 b).toNat = _
  rw [BitVec.extractLsb_toNat, Nat.shiftRight_eq_div_pow]
  omega

/-- Whether a sign is a minus. -/
def isMinus : Sign → Bool
  | .negative => true
  | .positive => false

theorem isMinus_unpackSign (b : BitVec Format.binary64.numBits) :
    isMinus (Sign.ofBitVec (unpackSign b)) = decide (2 ^ 63 ≤ b.toNat) := by
  have hb : b.toNat < 2 ^ 64 := b.isLt
  have hsign := toNat_unpackSign b
  rw [Sign.ofBitVec]
  split
  next hzero =>
    rw [hzero] at hsign
    change 0 = _ at hsign
    exact (decide_eq_false (by omega)).symm
  next hne =>
    have hpos : (unpackSign b).toNat ≠ 0 := fun h => hne (BitVec.eq_of_toNat_eq h)
    exact (decide_eq_true (by omega)).symm

/-! ## 2. Parts -/

theorem magnitude_eq (p : Parts) : p.magnitude = p.mantissa * 2 ^ p.exponent := by
  have hpow (k : Nat) : ((Nat.pow 2 k : Nat) : ℚ) = 2 ^ k := by
    rw [Nat.pow_eq]
    push_cast
    rfl
  rw [Parts.magnitude]
  split
  next he =>
    obtain ⟨k, hk⟩ := Int.eq_ofNat_of_zero_le he
    rw [hk, Int.toNat_natCast, zpow_natCast, Nat.cast_mul, hpow]
  next he =>
    obtain ⟨k, hk⟩ := Int.eq_ofNat_of_zero_le (show 0 ≤ -p.exponent by omega)
    rw [hk, Int.toNat_natCast, show p.exponent = -(k : Int) by omega, zpow_neg, zpow_natCast,
      Rat.mkRat_eq_div, hpow, div_eq_mul_inv]
    rfl

theorem shiftLeft_eq (m : Nat) {e d : Int} (h : d ≤ e) :
    ((m <<< (e - d).toNat : Nat) : ℚ) * 2 ^ d = m * 2 ^ e := by
  have hexponent : e = ((e - d).toNat : Int) + d := by omega
  rw [Nat.shiftLeft_eq, Nat.cast_mul, Nat.cast_pow, Nat.cast_ofNat, mul_assoc, ← zpow_natCast,
    ← zpow_add₀ two_ne_zero, ← hexponent]

theorem shiftLeft_sub_eq (m : Nat) (e : Int) (k : Nat) :
    ((m <<< k : Nat) : ℚ) * 2 ^ (e - k) = m * 2 ^ e := by
  have h := shiftLeft_eq m (show e - k ≤ e by omega)
  rwa [show (e - (e - k)).toNat = k by omega] at h

/-- The parts of a double by the fields of its bits. -/
def fieldParts? (b : BitVec Format.binary64.numBits) : Option Parts :=
  if (unpackExponent b).toNat = 2047 then none
  else if (unpackExponent b).toNat = 0 then
    some ⟨decide (2 ^ 63 ≤ b.toNat), (unpackMantissa b).toNat, -1074⟩
  else
    some ⟨decide (2 ^ 63 ≤ b.toNat), 2 ^ 52 + (unpackMantissa b).toNat,
      ((unpackExponent b).toNat : Int) - 1075⟩

theorem parts?_eq (x : Float) : parts? x = fieldParts? x.toModel.toBits.toBitVec := by
  rw [fieldParts?, toNat_unpackExponent, toNat_unpackMantissa]
  rfl

theorem isSome_fieldParts? (b : BitVec Format.binary64.numBits) :
    (fieldParts? b).isSome = true ↔ unpackExponent b ≠ -1#11 := by
  rw [fieldParts?]
  by_cases h : unpackExponent b = -1#11
  · rw [h]
    exact iff_of_false Bool.false_ne_true fun hne => hne rfl
  · rw [if_neg (Nat.ne_of_lt (toNat_lt_of_ne h))]
    split <;> exact iff_of_true rfl h

/-- The finite doubles are those that have an exact value. -/
theorem isSome_rational? {x : Float} : (rational? x).isSome = true ↔ x.isFinite = true := by
  rw [rational?, Option.isSome_map, parts?_eq, isSome_fieldParts?]
  exact isFinite_unpack.symm

theorem fieldParts?_of_zero {b : BitVec Format.binary64.numBits} {s : Sign}
    (h : unpack Format.binary64 b = .zero s) :
    fieldParts? b = some ⟨decide (2 ^ 63 ≤ b.toNat), 0, -1074⟩ := by
  obtain ⟨hexponent, hmantissa⟩ := unpack_eq_zero h
  rw [fieldParts?, hexponent, hmantissa]
  rfl

/-- The parts of a finite double are the ones that it unpacks to. -/
theorem fieldParts?_of_finite {b : BitVec Format.binary64.numBits} {s : Sign} {m : Nat} {e : Int}
    {hm : 0 < m} (h : unpack Format.binary64 b = .finite s m e hm) :
    fieldParts? b = some ⟨isMinus s, m, e⟩ := by
  simp only [UnpackedFloat.unpack] at h
  split at h
  · split at h <;> cases h
  next hinfinite =>
  rw [fieldParts?, if_neg (Nat.ne_of_lt (toNat_lt_of_ne hinfinite))]
  split at h
  next hzero =>
    split at h
    · cases h
    · injection h with hsign hmantissa hexponent
      rw [hzero] at hexponent
      rw [if_pos (by rw [hzero]; rfl), hmantissa, ← hexponent, ← hsign, isMinus_unpackSign]
      rfl
  next hpos =>
    injection h with hsign hmantissa hexponent
    have hne : (unpackExponent b).toNat ≠ 0 := fun heq => hpos (BitVec.eq_of_toNat_eq heq)
    rw [toNat_full] at hmantissa
    rw [if_neg hne, hmantissa, ← hexponent, ← hsign, isMinus_unpackSign]
    rfl

theorem rational?_of_zero {x : Float} {s : Sign} (h : x.toModel.unpack = .zero s) :
    rational? x = some 0 := by
  rw [rational?, parts?_eq, fieldParts?_of_zero h, Option.map_some, toRat_eq, magnitude_eq,
    Nat.cast_zero, zero_mul, neg_zero, ite_self]

/-- The exact value of a finite double other than zero. -/
theorem rational?_of_finite {x : Float} {s : Sign} {m : Nat} {e : Int} {hm : 0 < m}
    (h : x.toModel.unpack = .finite s m e hm) :
    rational? x = some (if isMinus s then -((m : ℚ) * 2 ^ e) else m * 2 ^ e) := by
  rw [rational?, parts?_eq, fieldParts?_of_finite h, Option.map_some, toRat_eq, magnitude_eq]

/-! ## 3. What was packed -/

theorem unpackSign_packComponents {s : Sign} {e : BitVec 11} {m : BitVec 52} :
    unpackSign (packComponents Format.binary64 s e m) = s.toBitVec := by
  apply BitVec.eq_of_toNat_eq
  rw [toNat_unpackSign]
  show (s.toBitVec ++ e ++ m).toNat / 2 ^ 63 = _
  rw [BitVec.toNat_append, BitVec.toNat_append, ← Nat.shiftLeft_add_eq_or_of_lt m.isLt,
    ← Nat.shiftLeft_add_eq_or_of_lt e.isLt, Nat.shiftLeft_eq, Nat.shiftLeft_eq]
  have hm := m.isLt
  have he := e.isLt
  omega

theorem ofBitVec_toBitVec (s : Sign) : Sign.ofBitVec s.toBitVec = s := by
  cases s <;> rfl

theorem unpack_packedZero (s : Sign) :
    unpack Format.binary64 (pack Format.binary64 (.zero s)) = .zero s := by
  cases s <;> rfl

theorem unpack_full {s : Sign} {x : BitVec 11} {v : BitVec 52} (hfinite : x ≠ -1#11)
    (hnormal : x ≠ 0#11) : unpack Format.binary64 (packComponents Format.binary64 s x v) =
      .finite s (2 ^ 52 + v.toNat) ((x.toNat : Int) - 1075) (by omega) := by
  simp only [UnpackedFloat.unpack, unpackExponent_packComponents, unpackSign_packComponents,
    ofBitVec_toBitVec, unpackMantissa_packComponents, toNat_full]
  rw [if_neg hfinite, if_neg hnormal]
  rfl

theorem unpack_short {s : Sign} {v : BitVec 52} (hv : 0 < v.toNat) :
    unpack Format.binary64 (packComponents Format.binary64 s 0#11 v) =
      .finite s v.toNat (-1074) hv := by
  have hne : v ≠ 0#52 := by
    rintro rfl
    exact absurd hv (by decide)
  simp only [UnpackedFloat.unpack, unpackExponent_packComponents, unpackSign_packComponents,
    ofBitVec_toBitVec, unpackMantissa_packComponents]
  rw [if_neg (by decide), if_pos trivial, dif_neg hne]
  rfl

section

variable {s : Sign} {m : Nat} {e : Int} (hm : 0 < m)

/-- A full mantissa is read back with its exponent. -/
theorem unpack_pack_full (hfull : 2 ^ 52 ≤ m) (hlt : m < 2 ^ 53) (hlow : -1074 ≤ e)
    (he : e ≤ 971) :
    unpack Format.binary64 (pack Format.binary64 (.finite s m e hm)) = .finite s m e hm := by
  have hlog : m.log2 = 52 := (Nat.log2_eq_iff (Nat.ne_of_gt hm)).mpr ⟨hfull, hlt⟩
  have hexponent := toNat_ofNat_exponent (n := (e + 1075).toNat) (by omega)
  rw [pack_finite, if_neg (by omega), if_pos (by omega)]
  generalize BitVec.ofNat 11 (e + 1075).toNat = x at hexponent
  have hmantissa : 2 ^ 52 + (BitVec.ofNat 52 m).toNat = m := by
    rw [BitVec.toNat_ofNat]
    omega
  have hfinite : x ≠ -1#11 := by
    rintro rfl
    change 2047 = _ at hexponent
    omega
  have hnormal : x ≠ 0#11 := by
    rintro rfl
    change 0 = _ at hexponent
    omega
  rw [unpack_full hfinite hnormal, UnpackedFloat.finite.injEq]
  exact ⟨rfl, hmantissa, by omega⟩

/-- A shorter mantissa is read back with the least exponent. -/
theorem unpack_pack_short (hshort : m < 2 ^ 52) (he : e ≤ 971) :
    unpack Format.binary64 (pack Format.binary64 (.finite s m e hm)) = .finite s m (-1074) hm := by
  have hlog := (Nat.log2_lt (Nat.ne_of_gt hm)).mpr hshort
  have hmantissa : (BitVec.ofNat 52 m).toNat = m := by
    rw [BitVec.toNat_ofNat, Nat.mod_eq_of_lt hshort]
  rw [pack_finite, if_neg (by omega), if_neg (by omega), unpack_short (by omega),
    UnpackedFloat.finite.injEq]
  exact ⟨rfl, hmantissa, rfl⟩

-- Whatever its mantissa, a number is read back with no greater exponent.
theorem unpack_pack_finite (hlt : m < 2 ^ 53) (hlow : -1074 ≤ e) (he : e ≤ 971) :
    ∃ e' ≤ e, -1074 ≤ e' ∧
      unpack Format.binary64 (pack Format.binary64 (.finite s m e hm)) = .finite s m e' hm := by
  by_cases hfull : 2 ^ 52 ≤ m
  · exact ⟨e, Int.le_refl e, hlow, unpack_pack_full hm hfull hlt hlow he⟩
  · exact ⟨-1074, hlow, Int.le_refl _, unpack_pack_short hm (by omega) he⟩

/-- Canonical parts are read back as they are. -/
theorem unpack_pack_canonical (h : Canonical m e) (he : e ≤ 971) :
    unpack Format.binary64 (pack Format.binary64 (.finite s m e hm)) = .finite s m e hm := by
  by_cases hfull : 2 ^ 52 ≤ m
  · exact unpack_pack_full hm hfull h.lt h.low he
  · obtain rfl : e = -1074 := by
      by_contra hne
      exact hfull (h.full hne)
    exact unpack_pack_short hm (by omega) he

end

/-! ## 4. Doubles from their parts -/

theorem toBitVec_ofBitVec : ∀ b : BitVec 1, (Sign.ofBitVec b).toBitVec = b := by decide

/-- The fields of the bits make up the bits. -/
theorem packComponents_unpack (b : BitVec Format.binary64.numBits) :
    packComponents Format.binary64 (Sign.ofBitVec (unpackSign b)) (unpackExponent b)
      (unpackMantissa b) = b := by
  have hb : b.toNat < 2 ^ 64 := b.isLt
  have hexponent := toNat_unpackExponent b
  have hmantissa := toNat_unpackMantissa b
  have hsign := toNat_unpackSign b
  apply BitVec.eq_of_toNat_eq
  show ((Sign.ofBitVec (unpackSign b)).toBitVec ++ unpackExponent b ++ unpackMantissa b).toNat = _
  rw [toBitVec_ofBitVec, BitVec.toNat_append, BitVec.toNat_append,
    ← Nat.shiftLeft_add_eq_or_of_lt (unpackMantissa b).isLt,
    ← Nat.shiftLeft_add_eq_or_of_lt (unpackExponent b).isLt, Nat.shiftLeft_eq, Nat.shiftLeft_eq,
    hexponent, hmantissa, hsign]
  simp only [Nat.pow_eq]
  omega

theorem pack_unpack {b : BitVec Format.binary64.numBits}
    (h : (unpack Format.binary64 b).isFinite = true) :
    pack Format.binary64 (unpack Format.binary64 b) = b := by
  have hfinite := isFinite_unpack.mp h
  have hexponent := toNat_lt_of_ne hfinite
  have hmantissa : (unpackMantissa b).toNat < 2 ^ 52 := (unpackMantissa b).isLt
  have hfields := packComponents_unpack b
  simp only [UnpackedFloat.unpack]
  rw [if_neg hfinite]
  split
  next hzero =>
    rw [hzero] at hfields
    split
    next hnone =>
      rw [hnone] at hfields
      exact hfields
    next hsome =>
      have hpos : (unpackMantissa b).toNat ≠ 0 := fun h => hsome (BitVec.eq_of_toNat_eq h)
      have hlog := (Nat.log2_lt hpos).mpr hmantissa
      rw [pack_finite, if_neg, if_neg (by omega), BitVec.ofNat_toNat, BitVec.setWidth_eq]
      · exact hfields
      · rw [hzero]
        decide
  next hnormal =>
    have hfull := toNat_full (unpackMantissa b)
    have hlog : (1#1 ++ unpackMantissa b).toNat.log2 = 52 :=
      (Nat.log2_eq_iff (by omega)).mpr (by omega)
    have hlow : BitVec.ofNat 52 (1#1 ++ unpackMantissa b).toNat = unpackMantissa b := by
      apply BitVec.eq_of_toNat_eq
      rw [BitVec.toNat_ofNat, hfull]
      omega
    have hvalue : Format.binary64.exponentBias = 1023 := rfl
    have hbias : (((unpackExponent b).toNat : Int) - (Format.binary64.exponentBias + (52 : Nat)) +
        1075).toNat = (unpackExponent b).toNat := by omega
    rw [pack_finite, hbias, if_neg (by omega), if_pos (by omega), hlow, BitVec.ofNat_toNat,
      BitVec.setWidth_eq]
    exact hfields

/-- A finite double is what its number packs to. -/
theorem ofModel_pack {x : Float} (h : x.isFinite = true) :
    Float.ofModel (Float.Model.pack x.toModel.unpack) = x := by
  have hbits : pack Format.binary64 x.toModel.unpack = x.toModel.toBits.toBitVec := pack_unpack h
  obtain ⟨bits, valid⟩ := x
  congr 1
  rw [Float.Model.pack, Float.Model.mk.injEq]
  exact congrArg UInt64.ofBitVec hbits

theorem unpack_cases {x : Float} (h : x.isFinite = true) :
    (∃ s, x.toModel.unpack = .zero s) ∨ ∃ s m e hm, x.toModel.unpack = .finite s m e hm := by
  change x.toModel.unpack.isFinite = true at h
  cases hx : x.toModel.unpack with
  | zero s => exact Or.inl ⟨s, rfl⟩
  | finite s m e hm => exact Or.inr ⟨s, m, e, hm, rfl⟩
  | _ =>
    rw [hx] at h
    cases h

/-- The parts of a positive finite double. -/
structure Regular (m : Nat) (e : Int) : Prop extends Canonical m e where
  pos : 0 < m
  le : e ≤ 971

/-- The positive double with given parts. -/
def ofParts {m : Nat} {e : Int} (h : Regular m e) : Float :=
  Float.ofModel (Float.Model.pack (.finite .positive m e h.pos))

theorem unpack_ofParts {m : Nat} {e : Int} (h : Regular m e) :
    (ofParts h).toModel.unpack = .finite .positive m e h.pos :=
  unpack_pack_canonical h.pos h.toCanonical h.le

section

variable {x : Float} {s : Sign} {m : Nat} {e : Int} {hm : 0 < m}
  (hx : x.toModel.unpack = .finite s m e hm)
include hx

theorem regular_of_unpack : Regular m e := by
  have hfinite : x.isFinite = true := congrArg UnpackedFloat.isFinite hx
  have hup := upTo_of_finite hfinite
  rw [hx] at hup
  cases hup with
  | finite _ _ _ he => exact ⟨canonical_unpack hx, hm, he⟩

/-- A finite double other than zero is given by its sign and its parts. -/
theorem eq_ofParts (h : Regular m e) : x = if isMinus s then -ofParts h else ofParts h := by
  have hfinite : x.isFinite = true := congrArg UnpackedFloat.isFinite hx
  rw [← ofModel_pack hfinite, hx]
  cases s with
  | positive => rfl
  | negative =>
    have hneg := congrArg UnpackedFloat.neg (unpack_ofParts h)
    exact congrArg (fun f => Float.ofModel (Float.Model.pack f)) hneg.symm

end

/-- Canonical parts with one value are the same. -/
theorem Canonical.eq_of_value {m n : Nat} {e d : Int} (hm : Canonical m e) (hn : Canonical n d)
    (h : (m : ℚ) * 2 ^ e = n * 2 ^ d) : m = n ∧ e = d := by
  apply hm.unique hn
  have hleft := shiftLeft_eq m (Int.min_le_left e d)
  have hright := shiftLeft_eq n (Int.min_le_right e d)
  rw [← hleft, ← hright] at h
  rw [← Nat.shiftLeft_eq, ← Nat.shiftLeft_eq]
  exact_mod_cast mul_right_cancel₀ (by positivity) h

/-- Finite doubles with one exact value other than zero are the same. -/
theorem eq_of_rational? {x y : Float} (hx : x.isFinite = true) (hy : y.isFinite = true)
    (hne : rational? x ≠ some 0) (h : rational? x = rational? y) : x = y := by
  rcases unpack_cases hx with ⟨s, hxu⟩ | ⟨s, m, e, hm, hxu⟩
  · exact absurd (rational?_of_zero hxu) hne
  rcases unpack_cases hy with ⟨t, hyu⟩ | ⟨t, n, d, hn, hyu⟩
  · exact absurd (h.trans (rational?_of_zero hyu)) hne
  rw [rational?_of_finite hxu, rational?_of_finite hyu, Option.some.injEq] at h
  have hm' : (0 : ℚ) < m * 2 ^ e := mul_pos (by exact_mod_cast hm) (by positivity)
  have hn' : (0 : ℚ) < n * 2 ^ d := mul_pos (by exact_mod_cast hn) (by positivity)
  have hparts : s = t ∧ (m : ℚ) * 2 ^ e = n * 2 ^ d := by
    cases s <;> cases t <;> simp only [isMinus, if_true, if_false, Bool.false_eq_true] at h
    · exact ⟨rfl, neg_injective h⟩
    · linarith
    · linarith
    · exact ⟨rfl, h⟩
  obtain ⟨rfl, hvalue⟩ := hparts
  obtain ⟨rfl, rfl⟩ := (canonical_unpack hxu).eq_of_value (canonical_unpack hyu) hvalue
  rw [eq_ofParts hxu (regular_of_unpack hxu), eq_ofParts hyu (regular_of_unpack hyu)]

end PlotScene.Double
