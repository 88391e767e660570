import Mathlib
import PlotScene.Double

/-!
# Finite doubles by their bits

A double is finite when the bits of its exponent are not all ones.  A rounded number that is packed
into bits is finite when its exponent is at most 971, and a greater exponent makes it infinite.
-/

namespace PlotScene.Double

open Float.Model Float.Model.UnpackedFloat

/-! ## 1. Exponents -/

/-- A number, not an infinity or NaN, whose exponent is at most `k`. -/
inductive UpTo (k : Int) : UnpackedFloat → Prop where
  | zero (s : Sign) : UpTo k (.zero s)
  | finite (s : Sign) (m : Nat) {e : Int} (hm : 0 < m) : e ≤ k → UpTo k (.finite s m e hm)

theorem UpTo.mono {j k : Int} {f : UnpackedFloat} (h : UpTo j f) (hk : j ≤ k) : UpTo k f := by
  cases h with
  | zero s => exact .zero s
  | finite s m hm he => exact .finite s m hm (Int.le_trans he hk)

theorem UpTo.neg {k : Int} {f : UnpackedFloat} (h : UpTo k f) : UpTo k f.neg := by
  cases h with
  | zero s => exact .zero _
  | finite s m hm he => exact .finite _ m hm he

theorem UpTo.isFinite {k : Int} {f : UnpackedFloat} (h : UpTo k f) : f.isFinite = true := by
  cases h <;> rfl

theorem toNat_ofNat_exponent {n : Nat} (hn : n < 2048) : (BitVec.ofNat 11 n).toNat = n := by
  rw [BitVec.toNat_ofNat, Nat.mod_eq_of_lt hn]

theorem toNat_lt_of_ne {b : BitVec 11} (h : b ≠ -1#11) : b.toNat < 2047 := by
  have hlt := b.isLt
  have hne : b.toNat ≠ 2047 := fun heq => h (BitVec.eq_of_toNat_eq heq)
  omega

theorem toNat_full (v : BitVec 52) : (1#1 ++ v).toNat = 2 ^ 52 + v.toNat := by
  rw [BitVec.toNat_append, ← Nat.shiftLeft_add_eq_or_of_lt v.isLt]
  rfl

/-! ## 2. Reading bits -/

theorem isFinite_unpack {b : BitVec Format.binary64.numBits} :
    (unpack Format.binary64 b).isFinite = true ↔ unpackExponent b ≠ -1#11 := by
  simp only [UnpackedFloat.unpack]
  by_cases h : unpackExponent b = -1#11
  · rw [if_pos h]
    split <;> simp [UnpackedFloat.isFinite, h]
  · rw [if_neg h]
    refine iff_of_true ?_ h
    split
    · split <;> rfl
    · rfl

-- The exponent that is read is the one in the bits, without the bias.
theorem upTo_unpack {b : BitVec Format.binary64.numBits} {k : Int} (hb : unpackExponent b ≠ -1#11)
    (hlow : -1074 ≤ k) (hk : ((unpackExponent b).toNat : Int) ≤ k + 1075) :
    UpTo k (unpack Format.binary64 b) := by
  simp only [UnpackedFloat.unpack]
  rw [if_neg hb]
  split
  · split
    · exact .zero _
    · next h hm =>
      refine .finite _ _ _ ?_
      rw [h]
      show ((0#11).toNat : Int) - (1023 + 52) + 1 ≤ k
      simp only [BitVec.toNat_zero]
      omega
  · refine .finite _ _ _ ?_
    show ((unpackExponent b).toNat : Int) - (1023 + 52) ≤ k
    omega

theorem upTo_of_isFinite {b : BitVec Format.binary64.numBits}
    (h : (unpack Format.binary64 b).isFinite = true) : UpTo 971 (unpack Format.binary64 b) := by
  have hb := isFinite_unpack.mp h
  have hlt := toNat_lt_of_ne hb
  exact upTo_unpack hb (by decide) (by omega)

-- The mantissas of finite doubles have 53 bits.
theorem mantissa_lt {b : BitVec Format.binary64.numBits} {s : Sign} {m : Nat} {e : Int}
    {hm : 0 < m} (h : unpack Format.binary64 b = .finite s m e hm) : m < 2 ^ 53 := by
  simp only [UnpackedFloat.unpack] at h
  split at h
  · split at h <;> cases h
  split at h
  · split at h
    · cases h
    · cases h
      have hlt := (unpackMantissa b).isLt
      have hpow : (2 : Nat) ^ Format.binary64.mantissaBitsWithoutImplicit < 2 ^ 53 := by decide
      omega
  · cases h
    exact (1#1 ++ unpackMantissa b).isLt

/-! ## 3. Packing -/

theorem pack_finite (s : Sign) (m : Nat) (e : Int) (hm : 0 < m) :
    pack Format.binary64 (.finite s m e hm) =
      if 2048 ≤ (e + 1075).toNat + 1 then packedInfinity Format.binary64 s
      else if m.log2 + 1 = 53 then
        packComponents Format.binary64 s (BitVec.ofNat 11 (e + 1075).toNat) (BitVec.ofNat 52 m)
      else packComponents Format.binary64 s 0#11 (BitVec.ofNat 52 m) := by
  have hbias : e + (Format.binary64.exponentBias : Int) + (52 : Nat) = e + 1075 := by
    simp only [Format.exponentBias]
    omega
  rw [← hbias]
  rfl

-- A packed number keeps its exponent, or has the least one.
theorem unpackExponent_pack {s : Sign} {m : Nat} {e : Int} {p : 0 < m} (he : e ≤ 971) :
    (unpackExponent (pack Format.binary64 (.finite s m e p))).toNat ≤ (e + 1075).toNat := by
  rw [pack_finite, if_neg (by omega)]
  split
  · rw [unpackExponent_packComponents, toNat_ofNat_exponent (by omega)]
  · rw [unpackExponent_packComponents]
    exact Nat.zero_le _

theorem isFinite_pack {f : UnpackedFloat} :
    (unpack Format.binary64 (pack Format.binary64 f)).isFinite = true ↔ UpTo 971 f := by
  rw [isFinite_unpack]
  cases f with
  | infinity s =>
    refine iff_of_false (fun hne => hne ?_) fun h => by cases h
    rw [UnpackedFloat.pack, packedInfinity, unpackExponent_packComponents]
  | notANumber =>
    refine iff_of_false (fun hne => hne ?_) fun h => by cases h
    rw [UnpackedFloat.pack, packedNaN, unpackExponent_packComponents]
  | zero s =>
    refine iff_of_true ?_ (.zero s)
    rw [UnpackedFloat.pack, packedZero, unpackExponent_packComponents]
    decide
  | finite s m e hm =>
    by_cases he : e ≤ 971
    · refine iff_of_true (fun heq => ?_) (.finite s m hm he)
      have hle := unpackExponent_pack (s := s) (m := m) (p := hm) he
      rw [heq] at hle
      -- The bits of an infinity or NaN read 2047, above the exponent that was packed.
      have hones : (-1#11 : BitVec 11).toNat = 2047 := rfl
      omega
    · refine iff_of_false (fun hne => hne ?_) fun h => ?_
      · rw [pack_finite, if_pos (by omega), packedInfinity, unpackExponent_packComponents]
      · cases h with
        | finite _ _ _ h => exact he h

-- What is read back from a packed number has no greater exponent.
theorem upTo_unpack_pack {f : UnpackedFloat} {k : Int} (h : UpTo k f) (hlow : -1074 ≤ k)
    (hk : k ≤ 971) : UpTo k (unpack Format.binary64 (pack Format.binary64 f)) := by
  have hb := isFinite_unpack.mp (isFinite_pack.mpr (h.mono hk))
  apply upTo_unpack hb hlow
  cases h with
  | finite s m hm he =>
    have hle := unpackExponent_pack (s := s) (m := m) (p := hm) (Int.le_trans he hk)
    omega
  | zero s =>
    rw [UnpackedFloat.pack, packedZero, unpackExponent_packComponents]
    show (0 : Int) ≤ k + 1075
    omega

/-! ## 4. Doubles -/

theorem isFinite_ofModel (f : UnpackedFloat) :
    (Float.ofModel (Float.Model.pack f)).isFinite = true ↔ UpTo 971 f :=
  isFinite_pack

theorem upTo_of_finite {x : Float} (h : x.isFinite = true) : UpTo 971 x.toModel.unpack :=
  upTo_of_isFinite h

theorem isFinite_neg {x : Float} (h : x.isFinite = true) : (-x).isFinite = true :=
  (isFinite_ofModel x.toModel.unpack.neg).mpr (upTo_of_finite h).neg

theorem isFinite_of_neg {x : Float} (h : (-x).isFinite = true) : x.isFinite = true := by
  have hneg := (isFinite_ofModel x.toModel.unpack.neg).mp h
  show x.toModel.unpack.isFinite = true
  cases hx : x.toModel.unpack with
  | finite s m e hm => rfl
  | zero s => rfl
  | _ =>
    rw [hx] at hneg
    cases hneg

/-! ## 5. Parts -/

theorem toNat_unpackExponent (b : BitVec Format.binary64.numBits) :
    (unpackExponent b).toNat = b.toNat / Nat.pow 2 52 % Nat.pow 2 11 := by
  show (BitVec.extractLsb 62 52 b).toNat = _
  rw [BitVec.extractLsb_toNat, Nat.shiftRight_eq_div_pow]

/-- A finite double has parts: a mantissa of 53 bits, and an exponent up to 971. -/
theorem exists_parts {x : Float} (h : x.isFinite = true) :
    ∃ p, parts? x = some p ∧ p.mantissa < 2 ^ 53 ∧ p.exponent ≤ 971 := by
  have hb := toNat_lt_of_ne (isFinite_unpack.mp h)
  rw [toNat_unpackExponent] at hb
  replace hb : x.toBits.toNat / Nat.pow 2 52 % Nat.pow 2 11 < 2047 := hb
  have hfraction : x.toBits.toNat % Nat.pow 2 52 < 2 ^ 52 := Nat.mod_lt _ (by decide)
  rw [parts?]
  simp only [if_neg (Nat.ne_of_lt hb)]
  split
  · refine ⟨_, rfl, ?_, ?_⟩
    · show x.toBits.toNat % Nat.pow 2 52 < 2 ^ 53
      omega
    · show (-1074 : Int) ≤ 971
      decide
  · refine ⟨_, rfl, ?_, ?_⟩
    · show Nat.pow 2 52 + _ < 2 ^ 53
      have hpow : Nat.pow 2 52 = 2 ^ 52 := rfl
      omega
    · show ((x.toBits.toNat / Nat.pow 2 52 % Nat.pow 2 11 : Nat) : Int) - 1075 ≤ 971
      omega

end PlotScene.Double
