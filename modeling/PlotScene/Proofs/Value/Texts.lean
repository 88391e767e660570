import PlotScene.Datum
import PlotScene.Proofs.Decimal.Reading
import PlotScene.Proofs.Double.Integer
import PlotScene.Proofs.Numeric.Range

/-!
# Values that have a text

An integer has a text when it does not have too many digits.  The range of doubles ends far below
that, so a value whose integers are doubles has a text.
-/

namespace PlotScene

theorem Scalar.hasText_int {n : Int} :
    (Scalar.int n).hasText = true ↔ n.natAbs < 10 ^ maxIntegerDigits := by
  rw [hasText, decide_eq_true_eq]
  exact Nat.length_toDigits_le_iff (by decide) (by decide)

/-- The least positive integer without a text. -/
def longInteger : Int := (10 ^ maxIntegerDigits : Nat)

theorem Scalar.hasText_longInteger : (Scalar.int longInteger).hasText = false := by
  rw [Bool.eq_false_iff, ne_eq, hasText_int, longInteger, Int.natAbs_natCast]
  exact Nat.lt_irrefl _

theorem Scalar.hasText_of_inRange {s : Scalar} (h : s.inRange = true) : s.hasText = true := by
  cases s with
  | int n =>
    have hlog := Double.log2_lt_of_isFinite (Double.isFinite_ofNat_of_ofInt? h)
    have hlen : (Nat.toDigits 10 n.natAbs).length ≤ 400 :=
      Decimal.length_toDigits_le (by decide) (by omega)
    exact decide_eq_true (hlen.trans (by decide))
  | _ => rfl

namespace Value

theorem itemsHaveText_iff {vs : List Value} :
    itemsHaveText vs = true ↔ ∀ v ∈ vs, v.hasText = true := by
  induction vs with
  | nil => simp [itemsHaveText]
  | cons v vs ih => simp [itemsHaveText, ih]

theorem entriesHaveText_iff {es : Entries} :
    entriesHaveText es = true ↔ ∀ e ∈ es, e.1.hasText = true ∧ e.2.hasText = true := by
  induction es with
  | nil => simp [entriesHaveText]
  | cons e es ih => simp [entriesHaveText, ih, and_assoc]

@[simp]
theorem hasText_scalar (s : Scalar) : (Value.scalar s).hasText = s.hasText := by rw [hasText]

@[simp]
theorem hasText_list {vs : List Value} :
    (Value.list vs).hasText = true ↔ ∀ v ∈ vs, v.hasText = true := by
  rw [hasText, itemsHaveText_iff]

theorem hasText_map {es : Entries} :
    (Value.map es).hasText = true ↔ ∀ e ∈ es, e.1.hasText = true ∧ e.2.hasText = true := by
  rw [hasText, entriesHaveText_iff]

theorem hasText_of_inRange {v : Value} (h : v.InRange) : v.hasText = true := by
  induction h with
  | scalar hs =>
    rw [hasText_scalar]
    exact Scalar.hasText_of_inRange hs
  | list _ ih => exact hasText_list.mpr ih
  | column _ ih => rwa [hasText, itemsHaveText_iff]
  | map hk _ ih => exact hasText_map.mpr fun e he => ⟨Scalar.hasText_of_inRange (hk e he), ih e he⟩
  | array shape cells => rw [hasText]

theorem haveLabels_iff {vs : List Value} :
    haveLabels vs = true ↔ ∀ v ∈ vs, v.isMissing = true ∨ v.hasText = true := by
  simp [haveLabels]

theorem haveLabels_of_inRange {vs : List Value} (h : ∀ v ∈ vs, v.InRange) :
    haveLabels vs = true :=
  haveLabels_iff.mpr fun v hv => Or.inr (hasText_of_inRange (h v hv))

theorem requireLabels_eq_ok {vs : List Value} :
    requireLabels vs = .ok () ↔ haveLabels vs = true := by
  rw [requireLabels]
  split <;> simp [*]

end Value

end PlotScene
